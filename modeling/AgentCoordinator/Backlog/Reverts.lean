import AgentCoordinator.Backlog.Lifecycle
import AgentCoordinator.Integrator.Results

/-
Tasks the service creates itself, and what becomes of reverts.

A revert task asks the integrator for a mechanical candidate, which enters the workflow like any
submission. When the integrator reports that it cannot compute one, the revert is rewritten as
ordinary work: its candidate is withdrawn first, and then its description and its criteria change.
-/

namespace AgentCoordinator

open Guarded Tabular

/-! ### Tasks of the service -/

/-- As many leading characters as fit in `max` bytes. -/
def clipChars : List Char → Nat → List Char
  | [], _ => []
  | c :: cs, max => if c.utf8Size ≤ max then c :: clipChars cs (max - c.utf8Size) else []

/-- `clip`. -/
def clip (text : String) (max : Nat) : String := .ofList (clipChars text.toList max)

/-- What the service inserts: a task with its fields. Unlike the tasks of requests, it may start
with a block. -/
structure ServiceTask where
  project : Id
  fields : TaskDigest
  priority : Int
  planned : Bool
  blocked : Option String

/-- The row of a task the service inserts. -/
def ServiceTask.row (n : ServiceTask) (now : Time) (id : Id) : Task where
  id := id
  project := n.project
  title := n.fields.title
  description := n.fields.description
  acceptance := n.fields.acceptance
  kind := n.fields.kind
  priority := n.priority
  lifecycle := if n.planned then .planned else .open
  revision := 1
  generation := 0
  currentAttempt := none
  blockedReason := n.blocked
  readySince := now
  archivedAt := none
  deletedAt := none
  humanDelivered := false

/-- Insert the task with its class and its saved revision. -/
def Backlog.insertServiceTask (b : Backlog) (n : ServiceTask) (origin : Origin)
    (admissionClass : Option AdmissionClass) : Except AppError Backlog := do
  let id := b.work.db.tasks.fresh
  let s ← saveTaskRevision { b.work.db with tasks := b.work.db.tasks.create (n.row b.work.db.now) }
    n.project id
  return { b with work := b.work.withDb s }.setOrigin id origin admissionClass

/-- The word of a reason. -/
def RevertReason.word : RevertReason → String
  | .defect => "defect"
  | .authorWithdraw => "author_withdraw"
  | .auditRejection => "audit_rejection"
  | .human => "human"

/-- `NewRevert`: a revert about to be created, recorded for `origin`. -/
structure NewRevert where
  project : Id
  result : IntegratorResult
  /-- The original task. -/
  original : Task
  reason : RevertReason
  evidence : String
  note : Option String
  reviewRequired : Bool
  priority : Int
  createdBy : Id
  creatorSession : Option Id
  origin : Origin

/-- `revert_fields`. -/
def revertFields (n : NewRevert) : TaskDigest where
  title := clip ("Revert: " ++ n.original.title) 300
  description :=
    "Revert the integrated result " ++ n.result.r ++ " of task " ++ toString n.original.id ++
      " (" ++ n.original.title ++ "): `git revert -m 1 " ++ n.result.r ++ "` on the current " ++
      "target tip, or the landed commit range when it landed fast-forward. The integrator " ++
      "computes and attests the mechanical candidate. Reason: " ++ n.reason.word ++
      ". Evidence: " ++ n.evidence ++
      (n.note.filter (· ≠ "")).elim "" fun note => "\n\nNote: " ++ note
  acceptance :=
    ["The integrated result " ++ n.result.r ++ " is reverted on the target",
      "The target's required checks pass on the reverted result"]
  kind := .code

/-- The `task_reverts` row of a new revert. -/
def NewRevert.row (n : NewRevert) (now : Time) (task : Id) : TaskRevert where
  task := task
  project := n.project
  result := n.result.id
  submission := n.result.submission
  originalTask := n.original.id
  r := n.result.r
  reason := n.reason
  evidence := n.evidence
  mode := .mechanical
  reviewRequired := n.reviewRequired
  notMechanical := none
  createdBy := n.createdBy
  createdAt := now

/-- `record_creator`: the creator, and who contributed to the original task. A creator without a
session stands in for one. -/
def Db.recordCreator (s : Db) (task original principal : Id) (creatorSession : Option Id) : Db :=
  (s.taskContributors.filter (fun tc => tc.task = original)).foldl
    (fun s tc => s.recordContributor task tc.principal tc.session)
    (s.recordContributor task principal (creatorSession.getD principal))

/-- `insert_revert`: the task, blocked until its candidate, and its target row. -/
def Backlog.insertRevert (b : Backlog) (n : NewRevert) : Except AppError Backlog := do
  let id := b.work.db.tasks.fresh
  let b ← b.insertServiceTask
    ⟨n.project, revertFields n, n.priority, false, some awaitingCandidate⟩ n.origin (some .revert)
  let s := b.work.db
  return { b with
    work := b.work.withDb ({ s with ext := { s.ext with
      reverts := s.ext.reverts.put (n.row s.now id) } }.recordCreator id n.original.id n.createdBy
        n.creatorSession) }

/-! ### Requesting a revert -/

/-- Some observation found the result published. -/
def Db.publishedResult (s : Db) (result : Id) : Bool :=
  s.ext.integratorObservations.any fun o => o.result = result && o.disposition = .published

/-- `revert_target`: the published result with its task, which is done. -/
def revertTarget (s : Db) (project result : Id) : Except AppError (IntegratorResult × Task) := do
  let r ← okOr ((s.ext.integratorResults.get? result).filter (fun r => r.project = project)) .notFound
  let u ← okOr (s.submissions.get? r.submission) .notFound
  let t ← okOr (s.tasks.get? u.task) .notFound
  refuseIf (s.publishedResult result = false ∨ t.lifecycle ≠ .done)
    (.conflict "result_not_published"
      "Only a result with a published observation whose task is done can be reverted.")
  return (r, t)

/-- `open_revert`: the oldest open revert of a result. -/
def Db.openRevertOf (s : Db) (result : Id) : Option Id :=
  (((s.ext.reverts.filter (fun tr => tr.result = result ∧ s.openRevert tr.task = true)).mergeSort
    (fun tr tr' => decide (tr.createdAt ≤ tr'.createdAt))).head?).map (·.task)

/-- `ensure_no_open_revert`. -/
def ensureNoOpenRevert (s : Db) (result : Id) : Except AppError Unit :=
  refuseIf ((s.openRevertOf result).isSome = true)
    (.conflict "revert_exists" "An open revert of this result already exists.")

/-- `RevertInput`, with its evidence as prose. -/
structure RevertInput where
  result : Id
  reason : RevertReason
  evidence : String
  /-- The evidence is an empty JSON object or array. -/
  emptyContainer : Bool
  evidenceBytes : Nat
  note : Option String
  priority : Option Int

/-- `DEFAULT_PRIORITY`. -/
def defaultRevertPriority : Int := 1

/-- `RevertInput::validate`. -/
def RevertInput.validate (input : RevertInput) : Except AppError Unit := do
  bounded (input.note.getD "") "note" 4096 false
  refuseIf (input.evidenceBytes > 16384) (.badRequest "evidence holds at most 16 KiB of JSON.")
  refuseIf (¬ (0 ≤ input.priority.getD defaultRevertPriority ∧
      input.priority.getD defaultRevertPriority ≤ 3))
    (.badRequest "priority must be 0 (urgent) through 3 (low).")

/-- `RevertInput::authorize`. -/
def RevertInput.authorize (input : RevertInput) (kind : PrincipalKind) : Except AppError Unit :=
  if kind = .human then return
  else do
    refuseIf (input.reason = .human)
      (.humanGate "revert_without_evidence"
        ("Only a human may revert with reason human; an agent names the defect, audit " ++
          "rejection or withdrawal and its evidence."))
    refuseIf (input.evidence.trimAscii.toString = "" ∨ input.emptyContainer = true)
      (.badRequest "An agent revert needs non-empty evidence (text or JSON).")

/-- `store` and `create`. -/
def Backlog.createRevert (b : Backlog) (actor : Actor) (project : Id) (input : RevertInput) :
    Except AppError Backlog := do
  input.validate
  input.authorize actor.kind
  let s := b.work.db
  requireIntegratorProject s project
  let (result, original) ← revertTarget s project input.result
  ensureNoOpenRevert s input.result
  let b ← b.insertRevert
    { project
      result
      original
      reason := input.reason
      evidence := input.evidence
      note := input.note
      reviewRequired := decide (actor.kind ≠ .human)
      priority := input.priority.getD defaultRevertPriority
      createdBy := actor.id
      creatorSession := actor.session
      origin := .ofPrincipal actor.kind }
  return { b with
    work := b.work.withDb (b.work.db.finish actor "revert.created" s.tasks.fresh) }.record project
      "revert.created"

/-- `withdraw_evidence`, as text. -/
def withdrawEvidence (request : ReviseRequest) : String :=
  "reason_code: author_withdraw; reason: " ++ request.reason ++ "; evidence: " ++
    request.evidence.getD "null" ++ "; requested_by: " ++ toString request.requestedBy

/-- `create_automatic`: the revert of a withdraw that lost to a landed push; an open one is
reused. -/
def Backlog.createAutomatic (b : Backlog) (project result : Id) (request : ReviseRequest) :
    Except AppError (Backlog × Id) :=
  match b.work.db.openRevertOf result with
  | some existing => return (b, existing)
  | none => do
    let (r, original) ← revertTarget b.work.db project result
    let id := b.work.db.tasks.fresh
    let b ← b.insertRevert
      { project
        result := r
        original
        reason := .authorWithdraw
        evidence := withdrawEvidence request
        note := none
        reviewRequired := true
        priority := 0
        createdBy := request.requestedBy
        creatorSession := none
        origin := .service }
    return (b, id)

/-! ### Other tasks of the service -/

/-- `create_follow_up`: a task for a revise that lost to a landed push. -/
def Backlog.createFollowUp (b : Backlog) (project : Id) (subject : Task)
    (code r reason evidence : String) : Except AppError Backlog :=
  b.insertServiceTask
    { project := project
      fields :=
        { title := .ofList (("Follow up: " ++ subject.title).toList.take 300)
          description :=
            "A " ++ code ++ " revise arrived while " ++ r ++ " was being pushed, and the push " ++
              "landed. Reason: " ++ reason ++ "\n\nEvidence: " ++ evidence
          acceptance := ["The revise request that lost to the landed push is addressed"]
          kind := subject.kind }
      priority := subject.priority
      planned := false
      blocked := none } .service (some .fixTarget)

/-- `propose_reland`: a planned re-land of the original of a revert. -/
def Backlog.proposeReland (b : Backlog) (project : Id) (original : Task) (target : TaskRevert)
    (candidate : String) : Except AppError Backlog :=
  b.insertServiceTask
    { project := project
      fields :=
        { title := clip ("Re-land: " ++ original.title) 300
          description :=
            clip original.description 30000 ++ "\n\nRe-land of task " ++
              toString target.originalTask ++ " after its integrated result " ++ target.r ++
              " (candidate " ++ candidate ++ ") was reverted by task " ++ toString target.task ++
              " for a defect. Re-land candidates must be new commits (cherry-pick or a revert of " ++
              "the revert); the reverted commits themselves are refused as " ++
              "candidate_reverted_in_history."
          acceptance := original.acceptance ++
            [clip ("The defect that caused the revert is fixed: " ++ target.evidence) 2048]
          kind := original.kind }
      priority := original.priority
      planned := true
      blocked := none } .service none

/-! ### Conversion -/

/-- `NotMechanicalInput`. -/
structure NotMechanicalInput where
  t0 : String
  reason : NotMechanicalReason
  evidence : String

/-- The word of a reason. -/
def NotMechanicalReason.word : NotMechanicalReason → String
  | .conflict => "conflict"
  | .checkFailed => "check_failed"

/-- `live_candidate`: the revert's current submission while it is in review or integration. -/
def Db.liveCandidate (s : Db) (task : Id) : Option Id :=
  ((s.workflowSubjects.get? task).filter
    (fun ws => ws.phase = .review ∨ ws.phase = .integration)).map (·.currentSubmission)

/-- `withdraw_candidate`. -/
def withdrawCandidate (s : Db) (actor : Actor) (project task : Id) : Except AppError Db :=
  match s.liveCandidate task with
  | none => return s
  | some submission => do
    refuseIf (s.outstandingAuthority submission = true)
      (.conflict "observation_required"
        ("Push authority is outstanding for this revert's candidate; observe the target " ++
          "first."))
    supersedeSubmission s actor project task
      { submission := submission
        reason := "The integrator could not revert mechanically."
        reasonCode := some "revert_not_mechanical"
        evidence := none }

/-- `conversion_fields`: the description of a revert that became implementation work. -/
def conversionDescription (target : TaskRevert) (input : NotMechanicalInput) : String :=
  "Undo the behaviour of task " ++ toString target.originalTask ++ " (integrated result " ++
    target.r ++ ") while keeping the changes integrated after it. The integrator could not revert " ++
    "it mechanically on " ++ input.t0 ++ " (" ++ input.reason.word ++ "): " ++ input.evidence ++
    "\n\nRevert reason: " ++ target.reason.word ++ ". Revert evidence: " ++ target.evidence

/-- `conversion_fields`: its acceptance criteria. -/
def conversionAcceptance (target : TaskRevert) : List String :=
  ["The behaviour introduced by result " ++ target.r ++ " is undone",
    "Changes integrated after result " ++ target.r ++ " are kept",
    "The target's required checks pass on the integrated result"]

/-- A revert task rewritten as implementation work. -/
def Task.converted (target : TaskRevert) (input : NotMechanicalInput) (now : Time) (t : Task) :
    Task :=
  { t with
    description := conversionDescription target input
    acceptance := conversionAcceptance target
    revision := t.revision + 1
    blockedReason := none
    readySince := now }

lemma Task.key_converted (target : TaskRevert) (input : NotMechanicalInput) (now : Time)
    (t : Task) : Keyed.key (t.converted target input now) = Keyed.key t := rfl

/-- `convert`. -/
def convert (b : Backlog) (project : Id) (target : TaskRevert) (input : NotMechanicalInput) :
    Except AppError Backlog := do
  let s := b.work.db
  let s ← saveTaskRevision { s with
    tasks := s.tasks.modify (fun t => t.id = target.task) (Task.converted target input s.now)
      (Task.key_converted target input s.now) } project target.task
  return { b with
    work := b.work.withDb { s with ext := { s.ext with
      reverts := s.ext.reverts.put { target with
        mode := .notMechanical
        reviewRequired := true
        notMechanical := some (input.t0, input.reason) } } } }

/-- `replay_conversion`. -/
def replayConversion (target : TaskRevert) (input : NotMechanicalInput) : Except AppError Unit :=
  refuseIf (target.notMechanical ≠ some (input.t0, input.reason))
    (.conflict "revert_not_mechanical"
      "This revert was already converted to implementation work.")

/-- `convert_once`. -/
def convertOnce (b : Backlog) (actor : Actor) (project task : Id) (input : NotMechanicalInput) :
    Except AppError Backlog := do
  let s := b.work.db
  let target ← okOr ((s.ext.reverts.get? task).filter (fun tr => tr.project = project)) .notFound
  let t ← okOr (s.tasks.get? task) .notFound
  if s.isMechanical task = false then do
    replayConversion target input
    return b
  else do
    refuseIf (t.lifecycle ≠ .open ∨ t.archivedAt ≠ none)
      (.conflict "revert_not_open" "This revert task is not open.")
    let s ← withdrawCandidate s actor project task
    convert { b with work := b.work.withDb s } project target input

/-- `not_mechanical`. -/
def notMechanical (b : Backlog) (actor : Actor) (project task : Id) (input : NotMechanicalInput) :
    Except AppError Backlog := do
  revision input.t0 "t0"
  bounded input.evidence "evidence" 16384 true
  requireIntegratorProject b.work.db project
  let b ← convertOnce b actor project task input
  return { b with
    work := b.work.withDb (b.work.db.finish actor "revert.not_mechanical" task) }.record project
      "revert.not_mechanical"

/-! ### Candidates -/

/-- `CandidateInput`: the mechanical revert the integrator computed on the tip `t0`. -/
structure CandidateInput where
  t0 : String
  candidateCommit : String
  candidateTree : String
  candidateRef : Option String

/-- `Pins`: what a candidate pins from the project and its roster. -/
structure Pins where
  project : Project
  policy : WorkflowPolicy

/-- The session of the integrator's attempt; an integrator needs none, and then it is the number
of its credential. -/
def Actor.integratorSession (actor : Actor) : Id :=
  actor.session.getD (actor.credential.getD actor.id)

/-- `insert_attempt`: the attempt of a candidate, submitted at once. -/
def candidateAttempt (actor : Actor) (t : Task) (pins : Pins) (now : Time) (id : Id) :
    Attempt where
  id := id
  project := pins.project.id
  task := t.id
  owner := actor.id
  session := actor.integratorSession
  credential := actor.credential
  generation := t.generation + 1
  state := .submitted
  mode := .work
  expiresAt := now
  lastHeartbeatAt := now
  lastProgressAt := now
  createdAt := now
  endedAt := some now
  outcome := some "Mechanical revert candidate recorded by the integrator."
  taskRevision := some t.revision
  policyRevision := some pins.project.policyRevision

/-- `insert_submission`: the candidate as the revert's code submission. -/
def candidateSubmission (actor : Actor) (t : Task) (pins : Pins) (input : CandidateInput)
    (attempt : Id) (now : Time) (id : Id) : Submission where
  id := id
  project := pins.project.id
  task := t.id
  attempt := attempt
  kind := .code
  taskRevision := t.revision
  projectPolicyRevision := pins.project.policyRevision
  workflowPolicyRevision := pins.policy.revision
  canonicalRepositoryKey := some pins.policy.canonicalRepositoryKey
  repositoryUrl := some pins.project.repositoryUrl
  targetBranch := some pins.project.targetBranch
  baseRevision := some input.t0
  candidateRevision := some input.candidateCommit
  candidateTree := some input.candidateTree
  candidateRef := input.candidateRef
  createdBy := actor.id
  contributorSession := actor.integratorSession
  createdAt := now
  supersededAt := none
  taskDigest := some t.digest
  acAmendment := none

/-- A task handed to the workflow with its candidate. -/
def Task.awaitingWorkflow (t : Task) : Task :=
  { t with
    generation := t.generation + 1
    blockedReason := some "An immutable submission is in the completion workflow." }

lemma Task.key_awaitingWorkflow (t : Task) : Keyed.key t.awaitingWorkflow = Keyed.key t := rfl

/-- `candidate_reviews`. -/
def Db.candidateReviews (s : Db) (task : Id) (mode : ReviewMode) : List ActivityKind :=
  if (s.ext.reverts.get? task).any (·.reviewRequired) then
    requiredReviewKinds (s.reviewModeFloor task mode)
  else []

/-- The writes of `insert_attempt` and `insert_submission`, and the subject of `enter_workflow`. -/
def Db.enterCandidate (s : Db) (actor : Actor) (t : Task) (pins : Pins) (input : CandidateInput)
    (reviews : List ActivityKind) : Db :=
  { s with
    attempts := s.attempts.create (candidateAttempt actor t pins s.now)
    tasks := s.tasks.modify (fun r => r.id = t.id) Task.awaitingWorkflow Task.key_awaitingWorkflow
    submissions := s.submissions.create
      (candidateSubmission actor t pins input s.attempts.fresh s.now)
    taskContributors := s.taskContributors ++ [⟨t.id, actor.id, actor.integratorSession⟩]
    workflowSubjects := s.workflowSubjects.put
      ⟨t.id, pins.project.id, s.submissions.fresh,
        if reviews = [] then .integration else .review, s.now⟩ }

/-- A task whose reviews are pending. -/
def Task.pendingReviews (t : Task) : Task :=
  { t with blockedReason := some "Required reviews are pending." }

lemma Task.key_pendingReviews (t : Task) : Keyed.key t.pendingReviews = Keyed.key t := rfl

/-- `create_activities` of a candidate: its reviews, then its integration, which waits for them. -/
def Db.candidateActivities (s : Db) (project : Id) (t : Task) (submission : Id)
    (reviews : List ActivityKind) : Db :=
  let s := s.createActivities project t.id t.title submission reviews
  let task := s.tasks.fresh
  let s := s.createActivity project t.id t.title submission .integration 1
  if reviews = [] then s
  else { s with
    tasks := s.tasks.modify (fun t => t.id = task) Task.pendingReviews Task.key_pendingReviews }

/-- `retired_refusal` and `busy_refusal`. -/
def ensureTakesCandidate (s : Db) (t : Task) : Except AppError Unit := do
  refuseIf (s.isMechanical t.id = false)
    (.conflict "revert_not_mechanical"
      ("This revert became implementation work; the integrator no longer computes its " ++
        "candidate."))
  refuseIf (t.lifecycle ≠ .open ∨ t.archivedAt ≠ none)
    (.conflict "revert_not_open" "This revert task is not open.")
  refuseIf (t.currentAttempt ≠ none)
    (.conflict "revert_claimed" "An attempt currently owns this revert task.")
  refuseIf ((s.workflowSubjects.get? t.id).any (fun ws => ws.phase ≠ .revisionNeeded) = true)
    (.conflict "revert_candidate_exists"
      "This revert already has a candidate in review or integration.")

/-- `record_candidate`, for a candidate that is not stored yet. -/
def recordCandidate (b : Backlog) (actor : Actor) (project task : Id) (input : CandidateInput) :
    Except AppError Backlog := do
  let s := b.work.db
  requireIntegratorProject s project
  let target ← okOr ((s.ext.reverts.get? task).filter (fun tr => tr.project = project)) .notFound
  let t ← okOr (s.tasks.get? target.task) .notFound
  ensureTakesCandidate s t
  let p ← okOr (s.projects.get? project) .notFound
  let policy ← okOr (s.ext.workflowPolicies.get? project)
    (.conflict "workflow_policy_required"
      "Configure the project's workflow policy before recording a revert candidate.")
  refuseIf ((∃ a ∈ s.attempts, a.task = t.id ∧ a.generation = t.generation + 1) ∨
      ∃ u ∈ s.submissions, u.task = t.id ∧ u.supersededAt = none) .recordConflict
  let reviews := s.candidateReviews t.id p.reviewMode
  let entered := s.enterCandidate actor t ⟨p, policy⟩ input reviews
  let s := (entered.candidateActivities project t s.submissions.fresh reviews).finish actor
    "revert.candidate_recorded" t.id
  return { b with work := b.work.withDb s }.record project "revert.candidate_recorded"

end AgentCoordinator
