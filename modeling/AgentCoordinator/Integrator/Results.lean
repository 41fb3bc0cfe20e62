import AgentCoordinator.Workflow.Reopen

/-
The integrator's results.

The integrator merges the candidate of an approved submission into the target tip and pins the
result under the submission and the tip. A result that equals the tip is a no-op: it lands nothing,
so commits that a revert undid would silently stay out. Such a no-op is refused, and the candidate
is to be sent back.
-/

namespace AgentCoordinator

open Guarded Tabular

/-! ### Callers -/

/-- `Mutation::begin` of a route of the integrator API. -/
def beginIntegrator (s : Db) (auth : Auth) : Except AppError Actor := do
  let actor ← auth.verify s.ext s.now
  refuseIf (actor.isReadOnly = true)
    (.forbidden
      "This credential is read-only; it may inspect state and manage its own session only.")
  refuseIf (actor.isIntegrator = false)
    (.forbidden "Only an integrator credential may call the integrator API.")
  refuseIf (s.ext.coordinationState = .restoreReconciliation)
    (.conflict "restore_reconciliation_required"
      ("The restored service is paused. Reconcile restored authority and external effects " ++
        "before changing coordination state."))
  refuseIf (s.clockIncident = true) clockReconciliationError
  return actor

/-- `require_integrator_project`. -/
def requireIntegratorProject (s : Db) (project : Id) : Except AppError Unit := do
  let p ← okOr (s.projects.get? project) .notFound
  refuseIf (p.integrationOwner ≠ .integrator)
    (.conflict "integration_owned_by_agents"
      ("This project's integration_owner is agent; a human must switch it to integrator " ++
        "first."))

/-! ### Subjects -/

/-- The current submission of a subject is one of its task, in its project. Submissions are filed
so, by `submit` and by `record_candidate`, and never moved. -/
def Db.Filed (s : Db) : Prop :=
  ∀ ws ∈ s.workflowSubjects, (s.submissions.get? ws.currentSubmission).any (fun u =>
    u.task = ws.task ∧ u.project = ws.project) = true

instance (s : Db) : Decidable s.Filed := by
  unfold Db.Filed; infer_instance

lemma Db.Filed.submission {s : Db} (h : s.Filed) {ws : WorkflowSubject}
    (hws : ws ∈ s.workflowSubjects) : ∃ u, s.submissions.get? ws.currentSubmission = some u ∧
      u.task = ws.task ∧ u.project = ws.project := by
  obtain ⟨u, hu, hfiled⟩ := (Option.any_eq_true _ _).1 (h ws hws)
  exact ⟨u, hu, of_decide_eq_true hfiled⟩

/-- A row of `subjects_sql`: a subject in integration with its current code submission. -/
structure IntegrableSubject where
  subject : WorkflowSubject
  submission : Submission
  task : Task

/-- `subjects_sql`, of one submission. -/
def Db.integrableSubject? (s : Db) (project submission : Id) : Option IntegrableSubject := do
  let ws ← s.workflowSubjects.rows.find? (fun ws =>
    ws.project = project ∧ ws.currentSubmission = submission ∧ ws.phase = .integration)
  let u ← (s.submissions.get? submission).filter (fun u => u.kind = .code ∧ u.supersededAt = none)
  let t ← s.tasks.get? ws.task
  return ⟨ws, u, t⟩

/-- `eligible`: the judged fields are those the submission pinned, and its approvals suffice. -/
def eligible (s : Db) (row : IntegrableSubject) : Except AppError Bool :=
  if row.submission.taskDigest.any (fun pinned => pinned ≠ row.task.digest) = true then
    return false
  else approvalsSatisfied s row.submission.id

/-- The refusal of `eligible_subject`. -/
def subjectNotIntegrable : AppError :=
  .conflict "subject_not_integrable"
    "This submission is not an approved, current candidate awaiting integration."

/-- `eligible_subject`. -/
def eligibleSubject (s : Db) (project submission : Id) : Except AppError IntegrableSubject := do
  let row ← okOr (s.integrableSubject? project submission) subjectNotIntegrable
  let approved ← eligible s row
  refuseIf (approved = false) subjectNotIntegrable
  return row

/-! ### Reverted landings -/

/-- A revert with this task stands: it is not canceled, nor archived before it landed. -/
def Task.undoes (t : Task) : Bool :=
  t.lifecycle ≠ .canceled && (t.archivedAt = none || t.lifecycle = .done)

/-- `NoOp`: a result that equals the tip, with its candidate commit and landing range. -/
structure NoOp where
  repositoryUrl : String
  targetBranch : String
  commits : List String

/-- The results on this target that a standing revert of the project undoes. -/
def Db.revertedResults (s : Db) (project : Id) (repositoryUrl targetBranch : String) :
    List IntegratorResult :=
  ((s.ext.reverts.filter (fun tr =>
      tr.project = project ∧ (s.tasks.get? tr.task).any Task.undoes = true)).filterMap
    (fun tr => s.ext.integratorResults.get? tr.result)).filter (fun r =>
      (s.submissions.get? r.submission).any (fun u =>
        u.repositoryUrl = some repositoryUrl ∧ u.targetBranch = some targetBranch))

/-- `reverted_hits`: the reverted results with the commits they share with a no-op. -/
def Db.revertedHits (s : Db) (project : Id) (noop : NoOp) : List (Id × String) :=
  ((s.revertedResults project noop.repositoryUrl noop.targetBranch).flatMap (fun r =>
    (r.landingRange.filter (· ∈ noop.commits)).map (fun commit => (r.id, commit)))).eraseDups

/-- The refusal of `ensure_not_reverted_in_history`. -/
def candidateReverted : AppError :=
  .conflict "candidate_reverted_in_history"
    ("The candidate's commits were landed and then reverted; a re-land candidate must be new " ++
      "commits (cherry-pick or revert of the revert). Send it back with an integrator revise, " ++
      "reason_code reverted_in_history.")

/-- `ensure_not_reverted_in_history`. -/
def ensureNotRevertedInHistory (s : Db) (project : Id) (noop : NoOp) : Except AppError Unit :=
  refuseIf (s.revertedHits project noop ≠ []) candidateReverted

/-- The commits that `ensure_reverted_in_history` looks at: those of the results recorded for a
submission, and its candidate. -/
def Db.recordedCommits (s : Db) (u : Submission) : List String :=
  (s.ext.integratorResults.filter (fun r => r.submission = u.id)).flatMap (·.landingRange) ++
    u.candidateRevision.toList

/-- `ensure_reverted_in_history`. -/
def ensureRevertedInHistory (s : Db) (project submission : Id) : Except AppError Unit := do
  let u ← okOr ((s.submissions.get? submission).filter (fun u => u.project = project)) .notFound
  refuseIf
    (s.revertedHits project
      ⟨u.repositoryUrl.getD "", u.targetBranch.getD "", s.recordedCommits u⟩ = [])
    (.conflict "not_reverted_in_history"
      ("Neither this submission's candidate nor a result recorded for it shares a commit with a " ++
        "reverted landing on its target."))

/-! ### Results -/

/-- `MAX_LANDING_RANGE`. -/
def maxLandingRange : Nat := 1000

/-- `ResultInput`: a result computed for a submission at the target tip `t0`. -/
structure ResultInput where
  submission : Id
  t0 : String
  t0Tree : String
  c : String
  r : String
  rTree : String
  landingRange : List String
  roster : List RosterCheck

/-- `RosterCheck::validate`. -/
def RosterCheck.validate (check : RosterCheck) : Except AppError Unit := do
  bounded check.identity "roster identity" 200 true
  bounded check.checkName "roster check_name" 200 true
  revision check.workflowBlob "roster workflow_blob"
  refuseIf
    (¬ ".github/workflows/".toList.isPrefixOf check.workflowPath.toList = true ∨
      check.workflowPath.utf8ByteSize > 300)
    (.badRequest "roster workflow_path must name a file under .github/workflows/.")

/-- `parse_roster`, of a roster that is a list of checks. -/
def parseRoster (roster : List RosterCheck) : Except AppError Unit := do
  refuseIf (roster.length > 100) (.badRequest "roster lists at most 100 required checks.")
  roster.forM RosterCheck.validate

/-- `ResultInput::validate`. -/
def ResultInput.validate (input : ResultInput) : Except AppError Unit := do
  revision input.t0 "t0"
  revision input.t0Tree "t0_tree"
  revision input.c "c"
  revision input.r "r"
  revision input.rTree "r_tree"
  refuseIf (input.landingRange.length > maxLandingRange)
    (.badRequest "landing_range holds at most 1000 commits.")
  input.landingRange.forM (fun sha => revision sha "landing_range entry")
  parseRoster input.roster

/-- `existing_result`. -/
def Db.existingResult (s : Db) (submission : Id) (t0 : String) : Option IntegratorResult :=
  s.ext.integratorResults.rows.find? (fun r => r.submission = submission ∧ r.t0 = t0)

/-- `replay_result`: a different result for the same key is a conflict. -/
def replayResult (existing : IntegratorResult) (input : ResultInput) :
    Except AppError IntegratorResult := do
  refuseIf (existing.r ≠ input.r ∨ existing.c ≠ input.c)
    (.conflict "result_conflict"
      "A different result is already pinned for this submission and target tip.")
  return existing

/-- `ensure_new_commits`. -/
def ensureNewCommits (s : Db) (project : Id) (row : IntegrableSubject) (input : ResultInput) :
    Except AppError Unit :=
  if input.r ≠ input.t0 then return
  else ensureNotRevertedInHistory s project
    ⟨row.submission.repositoryUrl.getD "", row.submission.targetBranch.getD "",
      input.landingRange ++ [input.c]⟩

/-- The row that `insert_result` inserts. -/
def ResultInput.row (input : ResultInput) (actor : Actor) (project : Id) (now : Time) (id : Id) :
    IntegratorResult where
  id := id
  project := project
  submission := input.submission
  t0 := input.t0
  t0Tree := input.t0Tree
  c := input.c
  r := input.r
  rTree := input.rTree
  landingRange := input.landingRange
  roster := input.roster
  createdBy := actor.id
  createdAt := now
  authorityIssuedAt := none
  contributorTasks := []

/-- `insert_result`. -/
def Db.insertResult (s : Db) (actor : Actor) (project : Id) (input : ResultInput) : Db :=
  { s with ext := { s.ext with
    integratorResults := s.ext.integratorResults.create (input.row actor project s.now) } }

/-- `store_result`: the database with the result, unless an identical one is already pinned. -/
def storeResult (s : Db) (actor : Actor) (project : Id) (input : ResultInput) :
    Except AppError (Db × IntegratorResult) := do
  let row ← eligibleSubject s project input.submission
  refuseIf (row.submission.candidateRevision ≠ some input.c)
    (.conflict "candidate_changed"
      "c is not this submission's candidate revision; read the queue again.")
  match s.existingResult input.submission input.t0 with
  | some existing => do
    let existing ← replayResult existing input
    return (s, existing)
  | none => do
    ensureNewCommits s project row input
    return (s.insertResult actor project input,
      input.row actor project s.now s.ext.integratorResults.fresh)

/-- `record_result`. -/
def recordResult (s : Db) (auth : Auth) (project : Id) (input : ResultInput) :
    Except AppError (Db × IntegratorResult) := do
  input.validate
  let actor ← beginIntegrator s auth
  requireIntegratorProject s project
  let (s, result) ← storeResult s actor project input
  return (s.finish actor "integrator.result_recorded" result.id, result)

end AgentCoordinator
