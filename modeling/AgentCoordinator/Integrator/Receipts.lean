import AgentCoordinator.Integrator.Authority

/-
Receipts of check runs.

The integrator records every run of a check that it observed on a result. A run attempt has one
outcome: recording it again is harmless, recording it differently is refused.
-/

namespace AgentCoordinator

open Guarded Tabular

/-- `ReceiptInput`: one observed check run on the revision of a result. -/
structure ReceiptInput where
  result : Id
  checkName : String
  runId : Int
  runAttempt : Int
  headSha : String
  appId : Int
  workflowPath : String
  workflowBlob : String
  conclusion : String

/-- `CONCLUSIONS`, with what they stand for. -/
def conclusions : List (String × Conclusion) :=
  [("success", .success), ("failure", .failure), ("cancelled", .cancelled),
    ("timed_out", .timedOut), ("neutral", .neutral), ("skipped", .skipped),
    ("action_required", .actionRequired), ("stale", .stale), ("startup_failure", .startupFailure)]

/-- `ReceiptInput::validate_run_shape`. -/
def ReceiptInput.validateRunShape (input : ReceiptInput) : Except AppError Conclusion := do
  refuseIf
    (¬ ".github/workflows/".toList.isPrefixOf input.workflowPath.toList = true ∨
      input.workflowPath.utf8ByteSize > 300)
    (.badRequest "workflow_path must name a file under .github/workflows/.")
  okOr (conclusions.lookup input.conclusion)
    (.badRequest "conclusion must be a completed check-run conclusion.")

/-- `ReceiptInput::validate`. -/
def ReceiptInput.validate (input : ReceiptInput) : Except AppError Conclusion := do
  bounded input.checkName "check_name" 200 true
  revision input.headSha "head_sha"
  revision input.workflowBlob "workflow_blob"
  refuseIf (input.runId ≤ 0 ∨ input.runAttempt ≤ 0 ∨ input.appId ≤ 0)
    (.badRequest "run_id, run_attempt and app_id must be positive.")
  input.validateRunShape

/-- `require_receipt_head`. -/
def requireReceiptHead (s : Db) (project : Id) (input : ReceiptInput) : Except AppError Unit := do
  let r ← loadResult s project input.result
  refuseIf (r.r ≠ input.headSha)
    (.conflict "receipt_head_mismatch"
      "head_sha is not the result revision R; receipts bind to R only.")

/-- The run attempt of a check that a receipt is about. -/
def IntegratorReceipt.run (r : IntegratorReceipt) : Id × String × Int × Int :=
  (r.result, r.checkName, r.runId, r.runAttempt)

/-- The row that `insert_receipt` inserts. -/
def ReceiptInput.row (input : ReceiptInput) (conclusion : Conclusion) : IntegratorReceipt :=
  ⟨input.result, input.checkName, input.runId, input.runAttempt, input.workflowBlob, conclusion⟩

/-- `stored_receipt`. -/
def Db.storedReceipt (s : Db) (run : Id × String × Int × Int) : Option IntegratorReceipt :=
  s.ext.integratorReceipts.find? (fun r => r.run = run)

/-- `insert_receipt`. -/
def insertReceipt (s : Db) (row : IntegratorReceipt) : Except AppError Db :=
  match s.storedReceipt row.run with
  | some stored => do
    refuseIf (¬ (stored.conclusion = row.conclusion ∧ stored.workflowBlob = row.workflowBlob))
      (.conflict "receipt_conflict"
        "This run attempt was already recorded with a different outcome.")
    return s
  | none => return { s with ext := { s.ext with
      integratorReceipts := s.ext.integratorReceipts ++ [row] } }

/-- `record_receipt`; the deciding run of the check on the result is answered. -/
def recordReceipt (s : Db) (auth : Auth) (project : Id) (input : ReceiptInput) :
    Except AppError (Db × Option IntegratorReceipt) := do
  let conclusion ← input.validate
  let actor ← beginIntegrator s auth
  requireIntegratorProject s project
  requireReceiptHead s project input
  let s ← insertReceipt s (input.row conclusion)
  return (s.finish actor "integrator.receipt_recorded" input.result,
    s.decidingRun input.result ⟨"", input.checkName, input.workflowPath, input.workflowBlob⟩)

end AgentCoordinator
