import AgentCoordinator.Integrator.Results
import AgentCoordinator.WorkGraph

/-
The integrator's own revise.

The integrator sends a candidate back that conflicts, fails a check or re-lands reverted commits.
Such revises count like those of agents, and a subject with too many of them is parked. Before that
happens a conflict is serialized instead: the subject waits for the task whose landing is in the
way, and the revise does not count. What the admission decides is computed before the revise is
written.
-/

namespace AgentCoordinator

open Guarded Tabular

/-! ### Checks that failed -/

/-- `FAILING`. -/
def Conclusion.failing (c : Conclusion) : Bool := c = .failure || c = .timedOut

/-- `REPRODUCED_FAILURES`. -/
def reproducedFailures : Nat := 2

/-- The runs of a roster check on a result, under the roster's workflow. -/
def Db.checkRuns (s : Db) (result : Id) (check : RosterCheck) : List IntegratorReceipt :=
  s.ext.integratorReceipts.filter (fun r =>
    r.result = result ∧ r.checkName = check.checkName ∧ r.workflowBlob = check.workflowBlob)

/-- The later of two runs, by run and attempt. -/
def IntegratorReceipt.later (r r' : IntegratorReceipt) : IntegratorReceipt :=
  if r.runId < r'.runId ∨ (r.runId = r'.runId ∧ r.runAttempt < r'.runAttempt) then r' else r

/-- `deciding_run`: the latest attempt of the latest run. -/
def Db.decidingRun (s : Db) (result : Id) (check : RosterCheck) : Option IntegratorReceipt :=
  match s.checkRuns result check with
  | [] => none
  | r :: rs => some (rs.foldl .later r)

/-- `FailureRecord`. -/
structure FailureRecord where
  identity : String
  deciding : Option Conclusion
  failures : Nat

/-- `failure_records`. -/
def Db.failureRecords (s : Db) (result : Id) (roster : List RosterCheck) : List FailureRecord :=
  roster.map (fun check =>
    { identity := check.identity
      deciding := (s.decidingRun result check).map (·.conclusion)
      failures := (s.checkRuns result check).countP (·.conclusion.failing) })

/-- `reproduced`. -/
def FailureRecord.reproduced (record : FailureRecord) : Bool :=
  record.deciding.any Conclusion.failing && reproducedFailures ≤ record.failures

/-- `IntegratorReviseInput`. -/
structure IntegratorReviseInput where
  submission : Id
  reasonCode : String
  evidence : String
  result : Option Id
  movedByResult : Option Id

/-- `INTEGRATOR_REASONS`. -/
def integratorReasons : List String := ["conflict", "check_failed", "reverted_in_history"]

/-- `IntegratorReviseInput::validate`. -/
def IntegratorReviseInput.validate (input : IntegratorReviseInput) : Except AppError Unit := do
  bounded input.evidence "evidence" 16384 true
  refuseIf (input.reasonCode ∉ integratorReasons)
    (.badRequest ("The integrator revises only with reason_code conflict, check_failed or " ++
      "reverted_in_history."))

/-- `not_reproduced`. -/
def notReproduced : AppError :=
  .conflict "check_failure_not_reproduced"
    ("check_failed needs a result of this submission on which one roster check's deciding " ++
      "attempt failed and at least two attempts failed.")

/-- `cited_roster`. -/
def citedRoster (s : Db) (project submission result : Id) : Except AppError (List RosterCheck) := do
  let r ← okOr ((s.ext.integratorResults.get? result).filter (fun r =>
    r.project = project ∧ r.submission = submission)) .notFound
  return r.roster

/-- `ensure_reproduced`. -/
def ensureReproduced (s : Db) (project : Id) (input : IntegratorReviseInput) :
    Except AppError Unit :=
  if input.reasonCode ≠ "check_failed" then return
  else do
    let result ← okOr input.result notReproduced
    let roster ← citedRoster s project input.submission result
    refuseIf ((s.failureRecords result roster).any FailureRecord.reproduced = false) notReproduced

/-! ### Admission -/

/-- `cited_landing`: the task whose landing a cited result of the project published. -/
def Db.citedLanding (s : Db) (project result : Id) : Option Landing :=
  ((s.ext.integratorResults.get? result).filter (fun r => r.project = project ∧
    ∃ o ∈ s.ext.integratorObservations, o.result = r.id ∧ o.disposition = .published)).bind
      (fun r => (s.submissions.get? r.submission).map (fun u => ⟨result, u.task⟩))

/-- `cited_before`: an earlier revise in the window was serialized after the same landing. -/
def Db.citedBefore (s : Db) (task landing : Id) : Bool :=
  decide (∃ r ∈ s.ext.integratorRevises,
    r.task = task ∧ r.serializedAfter = some landing ∧ r.revisedAt > s.now - dayMs)

/-- `Admission`, of a revise: its landing, what the subject is serialized after, and why it parks
the subject. -/
structure ReviseAdmission where
  landing : Option Landing
  serializedAfter : Option Id
  parkReason : Option String

/-- `parked`. -/
def parked : AppError :=
  .humanGate "revise_limit_reached"
    ("Agents revised this task too often in 24 hours (three revises not serialized after a " ++
      "new landing, or six in all); a human must look at it.")

/-- `refuse_if_parked`. -/
def refuseIfParked (parking total : Nat) : Except AppError Unit := do
  refuseIf (serializedReviseCap ≤ total) parked
  refuseIf (reviseLimit ≤ parking) parked

/-- `admit`. -/
def admitRevise (w : Work) (case : ReviseCase) : Except AppError ReviseAdmission := do
  let landing := case.movedBy.bind (w.db.citedLanding case.project)
  let parking := w.db.parkReviseCount case.task
  let total := w.db.agentReviseCount case.task
  refuseIfParked parking total
  let atCap := if serializedReviseCap ≤ total + 1 then some "serialized_cap" else none
  if parking + 1 < reviseLimit then return ⟨landing, none, atCap⟩
  else
    match serializable w case landing (w.db.citedBefore case.task) with
    | .ok task => return ⟨landing, some task, atCap⟩
    | .error reason => return ⟨landing, none, some reason⟩

/-! ### The revise -/

/-- `integrating_task`. -/
def integratingTask (s : Db) (project submission : Id) : Except AppError Id := do
  let ws ← okOr (s.workflowSubjects.rows.find? (fun ws =>
    ws.project = project ∧ ws.currentSubmission = submission ∧ ws.phase = .integration ∧
      (s.submissions.get? submission).any (fun u => u.supersededAt = none) = true))
    (.conflict "subject_not_integrable"
      "This submission is not a current candidate awaiting integration.")
  return ws.task

/-- `ensure_revisable`. -/
def ensureRevisable (w : Work) (case : ReviseCase) : Except AppError ReviseAdmission := do
  refuseIf (w.db.outstandingAuthority case.submission = true)
    (.conflict "observation_required"
      "Push authority is outstanding for this submission; observe the target first.")
  admitRevise w case

/-- The row that `record` inserts. -/
def ReviseCase.row (case : ReviseCase) (admission : ReviseAdmission) (now : Time) :
    IntegratorRevise where
  submission := case.submission
  task := case.task
  reasonCode := case.reasonCode
  movedByResult := admission.landing.map (·.result)
  landingTask := admission.landing.map (·.task)
  serializedAfter := admission.serializedAfter
  parkReason := admission.parkReason
  revisedAt := now

/-- The prerequisite that a serialized revise adds. -/
def dependOnLanding (w : Work) (case : ReviseCase) : Option Id → Except AppError Work
  | none => return w
  | some landing => dependOn w case landing

/-- `record`. -/
def recordAdmitted (w : Work) (case : ReviseCase) (admission : ReviseAdmission) :
    Except AppError Work := do
  let w ← dependOnLanding w case admission.serializedAfter
  let revises ← okOr (w.db.ext.integratorRevises.insert? (case.row admission w.db.now))
    .recordConflict
  return w.withDb { w.db with ext := { w.db.ext with integratorRevises := revises } }

/-- The reason that a revise is superseded with. -/
def reviseReason (case : ReviseCase) (admission : ReviseAdmission) : String :=
  "Integrator revise: " ++ case.reasonCode ++
    (match admission.serializedAfter with
    | none => ""
    | some landing => "; serialized after task " ++ toString landing)

/-- `apply_integrator_revise`. -/
def applyIntegratorRevise (w : Work) (actor : Actor) (case : ReviseCase)
    (admission : ReviseAdmission) (evidence : String) : Except AppError Work := do
  let s ← supersedeSubmission w.db actor case.project case.task
    { submission := case.submission
      reason := reviseReason case admission
      reasonCode := some case.reasonCode
      evidence := some evidence } case.movedBy
  recordAdmitted (w.withDb s) case admission

/-- What only a `reverted_in_history` revise checks. -/
def ensureReverted (s : Db) (project : Id) (input : IntegratorReviseInput) : Except AppError Unit :=
  if input.reasonCode = "reverted_in_history" then
    ensureRevertedInHistory s project input.submission
  else return

/-- `revise`, of the integrator. -/
def integratorRevise (w : Work) (auth : Auth) (project : Id) (input : IntegratorReviseInput) :
    Except AppError Work := do
  input.validate
  let actor ← beginIntegrator w.db auth
  requireIntegratorProject w.db project
  let task ← integratingTask w.db project input.submission
  let case : ReviseCase := ⟨project, task, input.submission, input.reasonCode, input.movedByResult⟩
  let admission ← ensureRevisable w case
  ensureReproduced w.db project input
  ensureReverted w.db project input
  let w ← applyIntegratorRevise w actor case admission input.evidence
  return w.withDb (w.db.finish actor "submission.reopened" input.submission)

end AgentCoordinator
