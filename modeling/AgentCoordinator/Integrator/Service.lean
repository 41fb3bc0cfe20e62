import AgentCoordinator.Integrator.Observe
import AgentCoordinator.Integrator.Receipts

/-
The requests of an integrator as steps.

An integrator records results and receipts, sends candidates back, asks for push authority and
reports what it saw at the target, while the service answers agents and humans. A step is one such
request, or one step of the service.
-/

namespace AgentCoordinator

open Guarded Tabular

/-- The integrator integrates this project. -/
def Db.integrates (s : Db) (project : Id) : Prop :=
  (s.projects.get? project).any (fun p => p.integrationOwner = .integrator) = true

instance (s : Db) : DecidablePred s.integrates :=
  fun _ => by unfold Db.integrates; infer_instance

/-- What an integrator requests about results. -/
inductive IntegratorRequest
  | recordResult (project : Id) (input : ResultInput)
  | recordReceipt (project : Id) (input : ReceiptInput)
  | revise (project : Id) (input : IntegratorReviseInput)
  | pushAuthority (project result : Id)
  | observe (project : Id) (input : TipObservationInput)

/-- The integration that a request leaves; the relations between tasks are read from their
tables. -/
def IntegratorRequest.handle (n : Integration) (auth : Auth) :
    IntegratorRequest → Except AppError Integration
  | .recordResult project input => do
    let (s, _) ← AgentCoordinator.recordResult n.backlog.work.view auth project input
    return (n.withDb s).record project "integrator.result_recorded"
  | .recordReceipt project input => do
    let (s, _) ← AgentCoordinator.recordReceipt n.backlog.work.view auth project input
    return (n.withDb s).record project "integrator.receipt_recorded"
  | .revise project input => do
    let w ← integratorRevise (n.backlog.work.withDb n.backlog.work.view) auth project input
    return { n with backlog := { n.backlog with work := w } }.record project "submission.reopened"
  | .pushAuthority project result => do
    let (n, _) ← (n.withDb n.backlog.work.view).pushAuthority auth project result
    return n
  | .observe project input => do
    let (n, _) ← n.observe auth project input
    return n

/-- What happens to an integration. -/
inductive IntegratorAction
  | service (i : Action)
  | request (auth : Auth) (req : IntegratorRequest)

/-- One step of the service or of a request of an integrator. A refused request changes nothing.
What happens beside the requests takes no project from the integrator, and leaves the results
alone. -/
inductive IntegratorStep : Integration → IntegratorAction → Integration → Prop
  | service {n : Integration} {i : Action} {s : Db} (h : Step n.backlog.work.view i s)
      (howners : i = .environment → ∀ project, n.db.integrates project → s.integrates project)
      (hresults : i = .environment → s.ext.integratorResults = n.db.ext.integratorResults) :
      IntegratorStep n (.service i) (n.withDb s)
  | accepted {n n' : Integration} {auth : Auth} {req : IntegratorRequest}
      (h : req.handle n auth = .ok n') : IntegratorStep n (.request auth req) n'
  | refused {n : Integration} {auth : Auth} {req : IntegratorRequest} {e : AppError}
      (h : req.handle n auth = .error e) : IntegratorStep n (.request auth req) n

end AgentCoordinator
