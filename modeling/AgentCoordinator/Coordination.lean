import Mathlib.Data.List.Sort
import AgentCoordinator.Writes

/-
Ownership of ordinary tasks: claim, renew, release and recovery.

A claim ends the task's expired attempt, if there is one, and grants the next generation. The
ownership check `owned` is what every later call of the owner passes through. Tasks that a
workflow controls are refused here and claimed through their activities.
-/

namespace AgentCoordinator

open Guarded Tabular

/-! ### Reading a task -/

/-- `task`: a task of the project that is not deleted. -/
def Db.visibleTask (s : Db) (project id : Id) : Except AppError Task := do
  let t ← okOr (s.tasks.get? id) .notFound
  refuseIf (t.project ≠ project ∨ t.deletedAt ≠ none) .notFound
  return t

/-- The task's current attempt. -/
def Db.attemptOf (s : Db) (t : Task) : Option Attempt := t.currentAttempt.bind s.attempts.get?

/-- `owner_authorized` of a task: of its current attempt. -/
def Db.taskOwnerAuthorized (s : Db) (t : Task) : Bool :=
  (s.attemptOf t).any (fun a => a.ownerAuthorized s.ext s.now)

/-- A live authorized attempt currently owns the task. -/
def Db.ownerLive (s : Db) (t : Task) : Bool :=
  (s.attemptOf t).any (fun a =>
    a.state = .active && a.expiresAt > s.now && a.ownerAuthorized s.ext s.now)

/-- `decisions_ready`. -/
def Db.decisionsReady (s : Db) (t : Task) : Bool :=
  !s.ext.decisions.any (fun d =>
    d.project = t.project &&
      d.affected.any (fun target => target.1 = t.id ||
        decide (∃ wa ∈ s.workflowActivities, wa.activityTask = t.id ∧ wa.subjectTask = target.1)) &&
      ((s.projects.get? d.project).any (fun p => d.policyRevision ≠ p.policyRevision) ||
        d.affected.any (fun target =>
          (s.tasks.get? target.1).any (fun current => target.2 ≠ current.revision)) ||
        d.allowed != some true || d.expiresAt.any (fun e => e ≤ s.now)))

/-- `objective_children_ready`. -/
def Db.objectiveChildrenReady (s : Db) (t : Task) : Bool :=
  s.ext.requiredChildren.all (fun oc => oc.1 ≠ t.id ||
    (s.tasks.get? oc.2).all (fun child => child.lifecycle = .done))

/-- `dependencies_ready`. -/
def Db.dependenciesReady (s : Db) (t : Task) : Bool :=
  s.ext.dependencies.all (fun d => d.1 ≠ t.id ||
    (s.tasks.get? d.2).all (fun prerequisite => prerequisite.lifecycle = .done))

/-- What `Task::status` calls a task. -/
inductive WorkStatus
  | closed (lifecycle : Lifecycle)
  | inProgress
  | blocked
  | recoveryRequired
  | waitingReview
  | waitingIntegration
  | ready
  deriving DecidableEq, Repr

/-- `Task::status`. The finer words a waiting subject is served with are left out: the claim guard
has refused such a task before its status is compared. -/
def Db.status (s : Db) (t : Task) : WorkStatus :=
  if t.lifecycle ≠ .open then .closed t.lifecycle
  else if t.currentAttempt ≠ none then
    if s.ownerLive t then
      if s.decisionsReady t && s.objectiveChildrenReady t then .inProgress else .blocked
    else .recoveryRequired
  else if !s.decisionsReady t || !s.objectiveChildrenReady t then .blocked
  else match (s.workflowSubjects.get? t.id).map WorkflowSubject.phase with
    | some .review => .waitingReview
    | some .integration => .waitingIntegration
    | _ =>
      if ∃ wa ∈ s.workflowActivities, wa.activityTask = t.id then .waitingReview
      else if t.blockedReason ≠ none ∨ s.dependenciesReady t = false then .blocked
      else .ready

/-! ### Guards against workflow-managed tasks -/

/-- The task is worked through a workflow activity. -/
def Db.isActivityTask (s : Db) (project task : Id) : Prop :=
  ∃ wa ∈ s.workflowActivities, wa.project = project ∧ wa.activityTask = task

instance (s : Db) (project task : Id) : Decidable (s.isActivityTask project task) :=
  inferInstanceAs
    (Decidable (∃ wa ∈ s.workflowActivities, wa.project = project ∧ wa.activityTask = task))

/-- The task has a submission in the completion workflow that is not up for revision. -/
def Db.inWorkflow (s : Db) (project task : Id) : Bool :=
  (s.workflowSubjects.get? task).any (fun ws =>
    ws.project = project ∧ ws.phase ≠ .revisionNeeded)

/-- `guard_normal_claim`. -/
def guardNormalClaim (s : Db) (project task : Id) : Except AppError Unit := do
  refuseIf (s.isActivityTask project task)
    (.conflict "workflow_claim_required"
      "Claim linked review and integration work through its workflow activity.")
  refuseIf (s.inWorkflow project task = true)
    (.conflict "submission_current"
      "This task has an immutable submission in the completion workflow.")

/-- `guard_release_or_recovery`. -/
def guardReleaseOrRecovery (s : Db) (project task : Id) : Except AppError Unit := do
  refuseIf (s.isActivityTask project task)
    (.conflict "workflow_release_required"
      "Release this owned activity through its workflow endpoint.")
  refuseIf (s.inWorkflow project task = true)
    (.conflict "workflow_authority_required"
      "This task is controlled by its current workflow activities.")

/-! ### Claiming -/

/-- `ClaimInput`. -/
structure ClaimInput where
  mode : AttemptMode
  task : Option Id
  expectedTaskRevision : Option Int
  policyRevision : Int
  instructionVersion : String

/-- Claim order: priority, then waiting time, then identity. -/
def claimBefore (t t' : Task) : Prop :=
  t.priority < t'.priority ∨ (t.priority = t'.priority ∧
    (t.readySince < t'.readySince ∨ (t.readySince = t'.readySince ∧ t.id ≤ t'.id)))

instance (t t' : Task) : Decidable (claimBefore t t') := by
  unfold claimBefore; infer_instance

/-- A candidate of a next-eligible claim in `mode`. -/
def Db.claimable (s : Db) (project : Id) (mode : AttemptMode) (t : Task) : Prop :=
  t.project = project ∧ t.deletedAt = none ∧ t.archivedAt = none ∧ t.lifecycle = .open ∧
    (¬ ∃ wa ∈ s.workflowActivities, wa.activityTask = t.id) ∧
    (s.workflowSubjects.get? t.id).all (fun ws => ws.phase = .revisionNeeded) = true ∧
    t.blockedReason = none ∧ s.dependenciesReady t = true ∧
    match mode with
    | .work => s.objectiveChildrenReady t = true ∧ s.decisionsReady t = true ∧
        t.currentAttempt = none
    | .recovery => t.currentAttempt ≠ none ∧ s.ownerLive t = false

instance (s : Db) (project : Id) (mode : AttemptMode) : DecidablePred (s.claimable project mode) :=
  fun t => by unfold Db.claimable; cases mode <;> infer_instance

/-- `next_eligible` with `first_unparked`: the first candidate in claim order the caller may
take. -/
def Db.nextEligible (s : Db) (actor : Actor) (project : Id) (mode : AttemptMode) : Option Task :=
  ((s.tasks.filter (s.claimable project mode)).insertionSort claimBefore).find? (fun t =>
    !s.isMechanical t.id && !(t.humanDelivered && actor.isSupervisor) &&
      (t.currentAttempt ≠ none || actor.kind ≠ .agent || !s.reviseLimitReached t.id))

/-- The task the claim names, or the next eligible one. -/
def chooseTask (s : Db) (actor : Actor) (project : Id) (input : ClaimInput) :
    Except AppError (Option Task) :=
  match input.task with
  | some id => (s.visibleTask project id).map some
  | none => pure (s.nextEligible actor project input.mode)

/-- What a work claim needs of its task, and a recovery claim does not. -/
def ensureWorkClaimable (s : Db) (actor : Actor) (project task : Id) (mode : AttemptMode) :
    Except AppError Unit :=
  if mode = .work then do
    ensureDecisionsResolved s project task
    ensureNotParked s actor task
  else pure ()

/-- The guards of `claim` on the chosen task. -/
def ensureClaimable (s : Db) (actor : Actor) (project : Id) (input : ClaimInput) (t : Task) :
    Except AppError Unit := do
  refuseIf (t.archivedAt ≠ none)
    (.conflict "task_archived" "Restore this task before claiming work.")
  refuseIf (t.humanDelivered = true ∧ actor.isSupervisor = true)
    (.humanCoded "human_delivery_required"
      ("A human delivers this task; a supervisor cannot claim it. Claim it from an " ++
        "interactive CLI session or the manager."))
  guardNormalClaim s project t.id
  ensureNotMechanical s t.id
  ensureWorkClaimable s actor project t.id input.mode
  refuseIf (input.expectedTaskRevision.any (fun v => v ≠ t.revision) = true)
    (.conflict "revision_conflict"
      "The task changed after selection. Read its current revision.")
  refuseIf (s.status t ≠ if input.mode = .work then .ready else .recoveryRequired)
    (.conflict "claim_conflict" "The task is not eligible for this claim mode.")

/-- What a claim grants on the chosen task. -/
def claimGrant (s : Db) (actor : Actor) (project ownerSession : Id) (proj : Project)
    (mode : AttemptMode) (t : Task) : Grant where
  project := project
  task := t.id
  owner := actor.id
  session := ownerSession
  credential := actor.credential
  generation := t.generation + 1
  mode := mode
  expiresAt := min (s.now + proj.leaseSeconds * 1000) (attemptLimit proj.maxAttemptSeconds s.now)
  taskRevision := t.revision
  policyRevision := proj.policyRevision

/-- Grant the chosen task; its expired attempt, if there is one, ends. -/
def claimTask (s : Db) (actor : Actor) (project ownerSession : Id) (proj : Project)
    (input : ClaimInput) (t : Task) : Except AppError Db := do
  ensureClaimable s actor project input t
  let s := s.endAttempts (fun a => some a.id = t.currentAttempt ∧ a.state = .active) .expired
    "Ownership expired or was revoked; recovery began."
  let s ← s.grantAttempt (claimGrant s actor project ownerSession proj input.mode t)
  return (s.recordContributor t.id actor.id ownerSession).finish actor "attempt.claimed" t.id

/-- `claim`. Without a candidate the empty result is recorded and nothing is granted. -/
def claim (s : Db) (actor : Actor) (project : Id) (input : ClaimInput) : Except AppError Db := do
  refuseIf (input.task.isSome ≠ input.expectedTaskRevision.isSome)
    (.badRequest ("An explicit task claim requires its expected_task_revision; next-eligible " ++
      "claims omit both."))
  let ownerSession ← session actor
  let proj ← okOr (s.projects.get? project) .notFound
  refuseIf (proj.archivedAt ≠ none)
    (.conflict "project_archived" "This project is archived. Restore it before claiming work.")
  refuseIf (proj.policyRevision ≠ input.policyRevision ∨
      input.instructionVersion ≠ AgentCoordinator.instructionVersion)
    (.conflict "policy_changed" "Read and acknowledge the current orientation before claiming.")
  refuseIf (actor.kind = .agent ∧ s.instructionsAcknowledged ownerSession project = false)
    (.conflict "instructions_required"
      "Read orientation and acknowledge its required sections before claiming.")
  refuseIf (input.mode = .recovery ∧ proj.recoveryMode = .manual ∧ actor.kind ≠ .human)
    (.humanGate "manual_recovery"
      "This project requires a human operator to inspect and recover expired work.")
  let chosen ← chooseTask s actor project input
  match chosen with
  | none => return s.finish actor "claim.empty" project
  | some t => claimTask s actor project ownerSession proj input t

/-! ### Ownership -/

/-- `owned`: the caller owns this attempt, and it is the task's current unexpired grant. -/
def owned (s : Db) (actor : Actor) (project id : Id) (generation : Int) :
    Except AppError Attempt := do
  let a ← okOr (s.attempts.get? id) .notFound
  refuseIf (a.project ≠ project) .notFound
  refuseIf (a.owner ≠ actor.id ∨ some a.session ≠ actor.session ∨ a.credential ≠ actor.credential)
    (.forbidden ("This attempt belongs to another session. Use a recovery claim after " ++
      "ownership expires."))
  refuseIf (a.generation ≠ generation ∨ a.state ≠ .active ∨ a.expiresAt ≤ s.now)
    (.conflict "lease_expired"
      ("This ownership grant is no longer valid. Stop changing its work and inspect recovery " ++
        "instructions."))
  let t ← s.visibleTask project a.task
  refuseIf (t.currentAttempt ≠ some id ∨ t.generation ≠ generation ∨
      s.taskOwnerAuthorized t = false)
    (.conflict "lease_expired" "This attempt is no longer the current owner.")
  return a

/-- `capped_renewal`: the deadline a renewal to `extension` grants, capped at its limit. -/
def cappedRenewal (extension : Time) (maxAttemptSeconds : Int) (a : Attempt) :
    Except AppError Time := do
  let limit := attemptLimit maxAttemptSeconds a.createdAt
  refuseIf (a.expiresAt ≥ limit)
    (.conflict "attempt_duration_exceeded"
      ("This attempt reached the project's max_attempt_seconds and cannot be renewed. Record a " ++
        "checkpoint and release the task with a handoff."))
  return min extension limit

/-- `renew`. -/
def renew (s : Db) (actor : Actor) (project id : Id) (generation : Int) : Except AppError Db := do
  let current ← owned s actor project id generation
  let proj ← okOr (s.projects.get? project) .notFound
  let expires ← cappedRenewal (s.now + proj.leaseSeconds * 1000) proj.maxAttemptSeconds current
  return { s with
    attempts := s.attempts.modify (fun a => a.id = id)
      (fun a => { a with expiresAt := expires, lastHeartbeatAt := s.now }) }.finish
        actor "attempt.renewed" id

/-- `ReleaseInput`. -/
structure ReleaseInput where
  generation : Int
  summary : String
  blocked : Bool

/-- `release`. -/
def release (s : Db) (actor : Actor) (project id : Id) (input : ReleaseInput) :
    Except AppError Db := do
  bounded input.summary "summary" 8192 true
  let a ← owned s actor project id input.generation
  guardReleaseOrRecovery s project a.task
  (if input.blocked then pure () else ensureAttemptQuiescent s project a.task)
  refuseIf (a.mode = .recovery ∧ input.blocked = false)
    (.conflict "recovery_unresolved"
      ("Resolve the recovery inspection before requeuing this task, or release it as " ++
        "blocked."))
  let s := (s.addCheckpoint id none).endAttempts (fun a => a.id = id)
    (if input.blocked then .blocked else .released) input.summary
  return { s with
    tasks := s.tasks.modify (fun t => t.id = a.task) (fun t => { t with
      currentAttempt := none
      blockedReason := if input.blocked then some input.summary else none
      readySince := s.now }) }.finish actor "attempt.released" id

/-! ### Checkpoints -/

/-- `validate_revision`: a present value is a full lowercase commit SHA. -/
def validateRevision (value : Option String) (name : String) : Except AppError Unit :=
  refuseIf (value.any (fun v =>
      ¬ (v.utf8ByteSize = 40 ∧ v.toList.all (fun c => isAsciiHexdigit c && !c.isUpper))) = true)
    (.badRequest (name ++ " must be a full 40-character lowercase hexadecimal commit SHA."))

/-- `CheckpointInput`. -/
structure CheckpointInput where
  generation : Int
  summary : String
  currentAction : String
  nextStep : String
  blockers : List String
  contributorSessions : List Id
  revision : Option String

/-- The session is a registered subagent session of the principal in the project. -/
def Db.isSubagentSession (s : Db) (actor : Actor) (project session : Id) : Bool :=
  (s.ext.agentSessions.get? session).any (fun r => r.principal = actor.id ∧
    r.subagentIdentity.any (fun i => (i, project) ∈ s.ext.subagentIdentities) = true)

/-- The contributor sessions of `add_checkpoint`. -/
def recordContributors (s : Db) (actor : Actor) (project task : Id) :
    List Id → Except AppError Db
  | [] => return s
  | contributor :: rest => do
    refuseIf (s.isSubagentSession actor project contributor = false)
      (.badRequest
        "Contributors must be registered subagent sessions of this principal and project.")
    recordContributors (s.recordContributor task actor.id contributor) actor project task rest

/-- `checkpoint`. -/
def checkpoint (s : Db) (actor : Actor) (project id : Id) (input : CheckpointInput) :
    Except AppError Db := do
  bounded input.summary "summary" 8192 true
  bounded input.currentAction "current_action" 4096 false
  bounded input.nextStep "next_step" 4096 false
  refuseIf (input.blockers.length > 50) (.badRequest "Use at most 50 blockers.")
  input.blockers.forM fun b => bounded b "blocker" 2048 true
  validateRevision input.revision "revision"
  let a ← owned s actor project id input.generation
  refuseIf (input.contributorSessions.length > 50)
    (.badRequest "Use at most 50 contributor sessions.")
  let s ← recordContributors s actor project a.task input.contributorSessions
  return (s.addCheckpoint id input.revision).finish actor "attempt.checkpointed" id

/-! ### Recovery -/

/-- `disposition` of a recovery. -/
inductive RecoveryDisposition | resume | restart
  deriving DecidableEq, Repr

/-- `RecoveryInput`. -/
structure RecoveryInput where
  generation : Int
  disposition : RecoveryDisposition
  summary : String
  fetchedRevision : Option String
  savedWorkChecked : Bool
  runningJobsChecked : Bool

/-- `predecessor`: the task's attempt with the highest generation below the recovery's. -/
def Db.predecessor (s : Db) (recovery : Attempt) : Option Attempt :=
  ((s.attempts.filter (fun a => a.project = recovery.project ∧ a.task = recovery.task ∧
    a.generation < recovery.generation)).insertionSort
      (fun a a' => a'.generation ≤ a.generation)).head?

/-- `latest_revision`: the revision the attempt's latest checkpoint recorded. -/
def Db.latestRevision (s : Db) (attempt : Id) : Option String :=
  (((s.checkpoints.filter (fun c => c.attempt = attempt)).reverse.insertionSort
    (fun c c' => c'.createdAt ≤ c.createdAt)).head?).bind (·.revision)

/-- `Evidence`: how the evidence of a recovery was established. -/
inductive Evidence | verified | attested
  deriving DecidableEq, Repr

/-- `establish`: the evidence for resolving a recovery. -/
def establish (s : Db) (recovery : Attempt) (input : RecoveryInput) : Except AppError Evidence :=
  match (s.predecessor recovery).bind (fun prior =>
      (s.latestRevision prior.id).map (fun recorded => (prior, recorded))) with
  | some (prior, recorded) => do
    refuseIf (prior.state ≠ .expired ∨ recovery.generation ≤ prior.generation)
      (.conflict "recovery_evidence_unverified"
        ("The superseded attempt is not expired, or this recovery claim did not bump its " ++
          "generation."))
    let fetched ← okOr input.fetchedRevision
      (.conflict "recovery_revision_required"
        ("The expired attempt's checkpoint recorded a revision. Fetch its work-in-progress ref " ++
          "and supply fetched_revision."))
    refuseIf (fetched ≠ recorded)
      (.conflict "recovery_revision_mismatch"
        ("The fetched revision does not equal the revision the service recorded. The recorded " ++
          "checkpoint SHA is authoritative."))
    return .verified
  | none => do
    refuseIf (input.savedWorkChecked = false ∨ input.runningJobsChecked = false)
      (.badRequest ("Recovery must inspect saved work and running jobs before choosing resume " ++
        "or restart. Release as blocked if inspection is incomplete."))
    return .attested

/-- `recovery_resolution`. -/
def recoveryResolution (s : Db) (actor : Actor) (project id : Id) (input : RecoveryInput) :
    Except AppError Db := do
  bounded input.summary "summary" 8192 true
  validateRevision input.fetchedRevision "fetched_revision"
  let a ← owned s actor project id input.generation
  guardReleaseOrRecovery s project a.task
  ensureDecisionsResolved s project a.task
  refuseIf (a.mode ≠ .recovery)
    (.conflict "not_recovering" "This attempt is not inspecting a recovery.")
  ensureAttemptQuiescent s project a.task
  let _ ← establish s a input
  let s := s.addCheckpoint id none
  return { s with
    attempts := s.attempts.modify (fun a => a.id = id) (fun a => { a with mode := .work }) }.finish
      actor "recovery.resolved" id

end AgentCoordinator
