import AgentCoordinator.Backlog.Reverts
import AgentCoordinator.Integrator.Revise
import AgentCoordinator.Service

/-
Push authority.

Before it pushes a result the integrator asks the service. Authority is granted when the approvals
still hold, every check of the roster has a deciding run that passed, the protected checks are all
in that roster, the landing range carries no work of others that is neither approved nor integrated,
and no privilege report stands in the way. It takes the submission's integration hold, and it stays
outstanding until an observation of the target ends it. When a reviewer who approved contributed to
the landing range, the approval is voided and the subject returns to review instead.
-/

namespace AgentCoordinator

open Guarded Tabular

/-! ### Reports that stop a push -/

/-- `integrator_reports.decision`. -/
inductive GateDecision | allow | deny
  deriving DecidableEq, Repr

/-- An `integrator_reports` row of kind `privilege_gate`. -/
structure PrivilegeGate where
  id : Id
  result : Id
  resolvedAt : Option Time
  decision : Option GateDecision

/-- The backlog, with the privilege reports on results. -/
structure Integration where
  backlog : Backlog
  gates : List PrivilegeGate
  /-- The revert tasks with `reland_task_id` set. -/
  relands : List Id

/-- The database of an integration. -/
def Integration.db (n : Integration) : Db := n.backlog.work.db

/-- The integration with the database that a request left. -/
def Integration.withDb (n : Integration) (s : Db) : Integration :=
  { n with backlog := { n.backlog with work := n.backlog.work.withDb s } }

@[simp] lemma Integration.db_withDb (n : Integration) (s : Db) : (n.withDb s).db = s := rfl

/-- The event a request records. -/
def Integration.record (n : Integration) (project : Id) (kind : String) : Integration :=
  { n with backlog := n.backlog.record project kind }

/-- `ensure_privilege_allowed`; of the reports in the way an unresolved one is named first. -/
def ensurePrivilegeAllowed (gates : List PrivilegeGate) (result : Id) : Except AppError Unit := do
  refuseIf (∃ g ∈ gates, g.result = result ∧ g.resolvedAt = none)
    (.conflict "privilege_gate_unresolved"
      "A privilege_gate report on this result awaits a human decision.")
  refuseIf (∃ g ∈ gates, g.result = result ∧ g.decision ≠ some .allow)
    (.conflict "privilege_gate_denied"
      "A human denied pushing this result in its privilege_gate report.")

/-! ### The subject -/

/-- `load_result`. -/
def loadResult (s : Db) (project id : Id) : Except AppError IntegratorResult :=
  okOr ((s.ext.integratorResults.get? id).filter (fun r => r.project = project)) .notFound

/-- `authority_subject`. -/
def authoritySubject (s : Db) (project : Id) (result : IntegratorResult) :
    Except AppError IntegrableSubject := do
  let row ← eligibleSubject s project result.submission
  refuseIf (row.submission.candidateRevision ≠ some result.c)
    (.conflict "candidate_changed"
      "This result was computed for a different candidate revision.")
  refuseIf (∃ r ∈ s.ext.integratorResults, r.submission = result.submission ∧ r.id ≠ result.id ∧
      r.authorityIssuedAt ≠ none)
    (.conflict "observation_required"
      "Another result of this submission holds push authority; observe the target first.")
  return row

/-! ### Checks -/

/-- `PASSING`. -/
def Conclusion.passing (c : Conclusion) : Bool := c = .success || c = .skipped || c = .neutral

/-- `protected_ids`: the checks of the project's own roster. -/
def protectedIds (s : Db) (project : Id) : List String :=
  (s.currentRoster project).map (·.identity)

/-- `ensure_protected`. -/
def ensureProtected (roster : List RosterCheck) (ids : List String) : Except AppError Unit :=
  refuseIf (∃ id ∈ ids, ∀ check ∈ roster, check.identity ≠ id)
    (.conflict "protected_check_missing"
      "The roster read from the target drops a protected check.")

/-- A deciding run that passed, as `deciding_runs` reports it. -/
structure DecidingRun where
  identity : String
  checkName : String
  runId : Int
  runAttempt : Int

/-- The deciding run of the check passed. -/
def Db.checkPassed (s : Db) (result : Id) (check : RosterCheck) : Prop :=
  (s.decidingRun result check).any (fun run => run.conclusion.passing) = true

instance (s : Db) (result : Id) (check : RosterCheck) : Decidable (s.checkPassed result check) := by
  unfold Db.checkPassed; infer_instance

/-- `deciding_runs`: the deciding run of every check, unless one is pending or failed. -/
def decidingRuns (s : Db) (result : Id) (roster : List RosterCheck) :
    Except AppError (List DecidingRun) := do
  refuseIf (¬ ∀ check ∈ roster, s.checkPassed result check)
    (.conflict "checks_not_passed" "Every roster check needs a deciding success receipt on R.")
  return roster.filterMap (fun check => (s.decidingRun result check).map (fun run =>
    ⟨check.identity, check.checkName, run.runId, run.runAttempt⟩))

/-! ### Work of others in the landing range -/

/-- The submission's candidate, or a recorded landing range of it, shares a commit with `range`. -/
def Db.sharesCommit (s : Db) (project : Id) (u : Submission) (range : List String) : Prop :=
  u.candidateRevision.any (fun c => c ∈ range) = true ∨
    ∃ r ∈ s.ext.integratorResults, r.submission = u.id ∧ r.project = project ∧
      ∃ commit ∈ r.landingRange, commit ∈ range

instance (s : Db) (project : Id) (u : Submission) (range : List String) :
    Decidable (s.sharesCommit project u range) := by
  unfold Db.sharesCommit; infer_instance

/-- `foreign_submissions`: those of other tasks that share a commit, with their tasks. -/
def Db.foreignSubmissions (s : Db) (project task : Id) (range : List String) :
    List (Submission × Task) :=
  (s.submissions.filter (fun u => u.project = project ∧ u.task ≠ task ∧
    s.sharesCommit project u range)).filterMap (fun u => (s.tasks.get? u.task).map (fun t => (u, t)))

/-- `settled`: a foreign submission is current, and approved or integrated. -/
def settled (s : Db) (row : Submission × Task) : Except AppError Bool :=
  if row.1.supersededAt ≠ none then return false
  else if row.2.lifecycle = .done then return true
  else approvalsSatisfied s row.1.id

/-- Every foreign submission is settled. -/
def allSettled (s : Db) : List (Submission × Task) → Except AppError Bool
  | [] => return true
  | row :: rows => do
    let here ← settled s row
    let rest ← allSettled s rows
    return here && rest

/-- `ensure_not_stacked`. -/
def ensureNotStacked (s : Db) (foreign : List (Submission × Task)) : Except AppError Unit := do
  let settled ← allSettled s foreign
  refuseIf (settled = false)
    (.conflict "stacked_on_unapproved"
      ("The landing range carries commits of a submission that is neither approved nor " ++
        "integrated."))

/-! ### Approvals of contributors -/

/-- `approvals`: the standing approvals of the submission, with the kind of their activity. -/
def Db.standingApprovals (s : Db) (submission : Id) : List (ReviewDecision × ActivityKind) :=
  (s.reviewDecisions.filter (fun rd =>
    rd.submission = submission ∧ rd.decision = .approved ∧ rd.invalidatedAt = none)).filterMap
      (fun rd => (s.workflowActivities.get? rd.activity).map (fun wa => (rd, wa.kind)))

/-- `approver_contributed`: to one of the tasks, or, for an approval recorded as `distinct_launch`,
from the launch of a contributor. -/
def Db.approverContributed (s : Db) (project : Id) (approval : ReviewDecision) (tasks : List Id) :
    Bool :=
  tasks.any (fun task =>
    s.contributed project task approval.reviewer approval.reviewerSession ||
      (approval.reviewIndependence = some .distinctLaunch &&
        s.launchShared [task] approval.reviewerSession))

/-- `contributor_approvals`. -/
def Db.contributorApprovals (s : Db) (project submission : Id) (tasks : List Id) :
    List (ReviewDecision × ActivityKind) :=
  (s.standingApprovals submission).filter (fun a => s.approverContributed project a.1 tasks)

/-- `void_approval`: the approval is invalidated, and a review of its kind is queued instead. -/
def Db.voidApproval (s : Db) (project : Id) (row : IntegrableSubject)
    (approval : ReviewDecision × ActivityKind) : Db :=
  (s.invalidateDecision approval.1.activity).createActivity project row.subject.task row.task.title
    row.submission.id approval.2 (s.nextSlot row.submission.id approval.2)

/-- `return_to_review`. -/
def Db.returnToReview (s : Db) (project : Id) (row : IntegrableSubject)
    (voided : List (ReviewDecision × ActivityKind)) : Db :=
  let s := (voided.foldl (fun s a => s.voidApproval project row a) s).setPhase row.subject.task
    .review
  { s with
    tasks := s.tasks.modify (fun t => s.queuedIntegrationTask row.submission.id = some t.id)
      Task.pendingReviews Task.key_pendingReviews }

/-! ### The hold -/

/-- A live integration of the submission. -/
def liveIntegrationOf (submission : Id) (wa : WorkflowActivity) : Prop :=
  wa.submission = submission ∧ wa.kind = .integration ∧ (wa.state = .queued ∨ wa.state = .active)

instance (submission : Id) : DecidablePred (liveIntegrationOf submission) :=
  fun _ => by unfold liveIntegrationOf; infer_instance

/-- `integration_activity`. -/
def integrationActivity (s : Db) (submission : Id) : Except AppError WorkflowActivity :=
  okOr (s.workflowActivities.rows.find? (fun wa => liveIntegrationOf submission wa))
    (.conflict "subject_not_integrable" "This submission has no live integration activity.")

/-- `hold_target`. -/
def holdTarget (u : Submission) : Except AppError (String × String) :=
  okOr (u.canonicalRepositoryKey.bind fun key => u.targetBranch.map fun branch => (key, branch))
    (.conflict "integration_target_unpinned"
      "The candidate does not pin a canonical repository key and target branch.")

lemma key_heldHold (s : Db) (activity : Id) (key branch : String) (actor id : Id) :
    Keyed.key (heldHold s activity key branch actor id) = id := rfl

/-- The writes of `take_hold`: a hold that the activity has is held again. -/
def Db.holdFor (s : Db) (activity : Id) (key branch : String) (actor : Id) : Db :=
  match s.holdOf activity with
  | none => { s with
      integrationHolds := s.integrationHolds.create (heldHold s activity key branch actor)
        (key_heldHold s activity key branch actor) }
  | some _ => { s with
      integrationHolds := s.integrationHolds.modify (fun h => h.activity = activity)
        (fun h => { h with
          state := .held
          acquiredBy := actor
          acquiredAt := s.now
          releasedBy := none
          releasedAt := none
          releaseReason := none }) }

/-- `take_hold`. -/
def takeHold (s : Db) (actor : Actor) (u : Submission) : Except AppError Db := do
  let wa ← integrationActivity s u.id
  let (key, branch) ← holdTarget u
  refuseIf (∃ h ∈ s.integrationHolds, h.state = .held ∧ h.activity ≠ wa.id ∧
      h.canonicalRepositoryKey = key ∧ h.targetBranch = branch)
    (.conflict "integration_target_held" "Another integration holds this repository target.")
  return s.holdFor wa.id key branch actor.id

/-! ### Granting -/

/-- `AUTHORITY_MS`. -/
def authorityMs : Time := 600000

/-- Write one result. -/
def Db.updateResult (s : Db) (id : Id) (f : IntegratorResult → IntegratorResult)
    (hf : ∀ r, Keyed.key (f r) = Keyed.key r) : Db :=
  { s with ext := { s.ext with
    integratorResults := s.ext.integratorResults.modify (fun r => r.id = id) f hf } }

/-- `record_contributors`. -/
def Db.recordContributors (s : Db) (result : Id) (tasks : List Id) : Db :=
  s.updateResult result (fun r => { r with contributorTasks := tasks }) fun _ => rfl

/-- `issue`. -/
def Db.issue (s : Db) (result : Id) : Db :=
  s.updateResult result (fun r => { r with authorityIssuedAt := some s.now }) fun _ => rfl

/-- `Judged`: what authority is judged from. -/
structure Judged where
  result : IntegratorResult
  row : IntegrableSubject
  roster : List RosterCheck
  contributorTasks : List Id

/-- `judge`: every refusal without a side effect. -/
def judge (s : Db) (gates : List PrivilegeGate) (project id : Id) :
    Except AppError (Judged × List DecidingRun) := do
  let result ← loadResult s project id
  ensurePrivilegeAllowed gates id
  let row ← authoritySubject s project result
  parseRoster result.roster
  ensureProtected result.roster (protectedIds s project)
  let runs ← decidingRuns s id result.roster
  let foreign := s.foreignSubmissions project row.subject.task result.landingRange
  ensureNotStacked s foreign
  return (⟨result, row, result.roster,
    ((foreign.map (fun f => f.1.task)).insertionSort (· ≤ ·)).dedup⟩, runs)

/-- The answer to a request for push authority. -/
inductive AuthorityReply
  | granted (r t0 : String) (runs : List DecidingRun) (rosterIds protectedIds : List String)
      (expiresAt : Time)
  | returnedToReview (voidedReviewers : List Id)

/-- `decide`: authority is granted, or the subject goes back to review. -/
def decideAuthority (s : Db) (actor : Actor) (project : Id) (j : Judged) (runs : List DecidingRun) :
    Except AppError (Db × AuthorityReply) := do
  let s := s.recordContributors j.result.id j.contributorTasks
  let voided := s.contributorApprovals project j.row.submission.id j.contributorTasks
  if voided ≠ [] then
    return (s.returnToReview project j.row voided,
      .returnedToReview (voided.map (fun a => a.1.reviewer)))
  else do
    let s ← takeHold s actor j.row.submission
    return (s.issue j.result.id,
      .granted j.result.r j.result.t0 runs (j.roster.map (·.identity)) (protectedIds s project)
        (s.now + authorityMs))

/-- The kind of the event that an answer is recorded with. -/
def AuthorityReply.event : AuthorityReply → String
  | .granted .. => "integrator.push_authorized"
  | .returnedToReview _ => "integrator.returned_to_review"

/-- `push_authority`. -/
def Integration.pushAuthority (n : Integration) (auth : Auth) (project result : Id) :
    Except AppError (Integration × AuthorityReply) := do
  let actor ← beginIntegrator n.db auth
  requireIntegratorProject n.db project
  let (judged, runs) ← judge n.db n.gates project result
  let (s, reply) ← decideAuthority n.db actor project judged runs
  return ((n.withDb (s.finish actor reply.event result)).record project reply.event, reply)

end AgentCoordinator
