import AgentCoordinator.Library.Transition
import AgentCoordinator.Policy

/-
The coordination service as a transition system.

A request is authenticated, gated and handled inside one transaction under the database's writer
lock, so an interleaving of callers is a sequence of requests. Between requests the rest of the
service acts: accounts, jobs, decisions and task fields change, time passes, a clock rollback
expires every lease. `Step` collects all of this; the claims about reachable states are about its
runs.
-/

namespace AgentCoordinator

open Guarded Tabular Transition

/-! ### Requests -/

/-- The mutating requests of the coordination and workflow routes, with their path parameters. -/
inductive Request
  | claim (project : Id) (input : ClaimInput)
  | renew (project attempt : Id) (generation : Int)
  | checkpoint (project attempt : Id) (input : CheckpointInput)
  | release (project attempt : Id) (input : ReleaseInput)
  | recoveryResolution (project attempt : Id) (input : RecoveryInput)
  | submit (project attempt : Id) (input : SubmissionInput)
  | reopen (project task : Id) (input : ReopenSubmissionInput)
  | claimActivity (project activity : Id) (input : ActivityClaimInput)
  | releaseActivity (project activity : Id) (input : ActivityReleaseInput)
  | review (project activity : Id) (input : ReviewInput)
  | authorizeIntegration (project activity : Id) (input : IntegrationAuthorizationInput)
  | publicationIntent (project activity : Id) (input : PublicationIntentInput)
  | integrationResult (project activity : Id) (input : IntegrationResultInput)
  | reconcilePublication (project activity : Id) (input : PublicationReconciliationInput)
  | agentReconcilePublication (project activity : Id)
      (input : AgentPublicationReconciliationInput)
  | finalize (project activity : Id) (input : FinalizeIntegrationInput)
  | updatePolicy (project : Id) (input : PolicyInput)

/-- `allowed_during_restore`, of these operations. -/
def Request.allowedDuringRestore : Request → Bool
  | .reconcilePublication .. | .agentReconcilePublication .. => true
  | _ => false

/-- `allowed_during_clock_reconciliation`, of these operations. -/
def Request.allowedDuringClockReconciliation : Request → Bool
  | .checkpoint .. | .release .. | .releaseActivity .. | .integrationResult .. |
    .reconcilePublication .. | .agentReconcilePublication .. => true
  | _ => false

/-- `Mutation::begin`: authenticate, then refuse read-only and integrator credentials and what a
pause does not allow. -/
def begin (s : Db) (auth : Auth) (req : Request) : Except AppError Actor := do
  let actor ← auth.verify s.ext s.now
  refuseIf (actor.isReadOnly = true)
    (.forbidden
      "This credential is read-only; it may inspect state and manage its own session only.")
  refuseIf (actor.isIntegrator = true)
    (.forbidden "This integrator credential may only call the integrator API.")
  refuseIf (s.ext.coordinationState = .restoreReconciliation ∧ req.allowedDuringRestore = false)
    (.conflict "restore_reconciliation_required"
      ("The restored service is paused. Reconcile restored authority and external effects " ++
        "before changing coordination state."))
  refuseIf (s.clockIncident = true ∧ req.allowedDuringClockReconciliation = false)
    clockReconciliationError
  return actor

/-- The handler of a request. -/
def Request.handle (s : Db) (actor : Actor) : Request → Except AppError Db
  | .claim project input => AgentCoordinator.claim s actor project input
  | .renew project attempt generation => AgentCoordinator.renew s actor project attempt generation
  | .checkpoint project attempt input => AgentCoordinator.checkpoint s actor project attempt input
  | .release project attempt input => AgentCoordinator.release s actor project attempt input
  | .recoveryResolution project attempt input =>
    AgentCoordinator.recoveryResolution s actor project attempt input
  | .submit project attempt input => AgentCoordinator.submit s actor project attempt input
  | .reopen project task input => AgentCoordinator.reopen s actor project task input
  | .claimActivity project activity input =>
    AgentCoordinator.claimActivity s actor project activity input
  | .releaseActivity project activity input =>
    AgentCoordinator.releaseActivity s actor project activity input
  | .review project activity input => AgentCoordinator.review s actor project activity input
  | .authorizeIntegration project activity input =>
    AgentCoordinator.authorizeIntegration s actor project activity input
  | .publicationIntent project activity input =>
    AgentCoordinator.publicationIntent s actor project activity input
  | .integrationResult project activity input =>
    AgentCoordinator.integrationResult s actor project activity input
  | .reconcilePublication project activity input =>
    AgentCoordinator.reconcilePublication s actor project activity input
  | .agentReconcilePublication project activity input =>
    AgentCoordinator.agentReconcilePublication s actor project activity input
  | .finalize project activity input => AgentCoordinator.finalize s actor project activity input
  | .updatePolicy project input => AgentCoordinator.updatePolicy s actor project input

/-- One request in its transaction: the database it commits, or its refusal. -/
def serve (s : Db) (auth : Auth) (req : Request) : Except AppError Db := do
  let actor ← begin s auth req
  req.handle s actor

/-! ### The rest of the service -/

/-- What the other routes may do to a task: anything but its identity and its ownership. A task
worked through an activity also keeps its kind and its block (`guard_subject_mutation`). -/
structure KeepsTask (s : Db) (t t' : Task) : Prop where
  project : t'.project = t.project
  currentAttempt : t'.currentAttempt = t.currentAttempt
  generation : t'.generation = t.generation
  activity : (∃ wa ∈ s.workflowActivities, wa.activityTask = t.id) →
    t'.kind = t.kind ∧ t'.blockedReason = t.blockedReason

/-- What the rest of the service, and the passing of time, may do between two requests. It writes
no workflow table and no attempt; accounts never change their kind, projects their review mode,
or a revert in review its need for one. -/
structure Environment (s s' : Db) : Prop where
  now : s.now ≤ s'.now
  clockIncident : s'.clockIncident = s.clockIncident
  attempts : s'.attempts = s.attempts
  submissions : s'.submissions = s.submissions
  workflowSubjects : s'.workflowSubjects = s.workflowSubjects
  workflowActivities : s'.workflowActivities = s.workflowActivities
  reviewDecisions : s'.reviewDecisions = s.reviewDecisions
  integrationHolds : s'.integrationHolds = s.integrationHolds
  publicationIntents : s'.publicationIntents = s.publicationIntents
  integrationResults : s'.integrationResults = s.integrationResults
  publicationReconciliations : s'.publicationReconciliations = s.publicationReconciliations
  projects : ∀ id p, s.projects.get? id = some p →
    ∃ p', s'.projects.get? id = some p' ∧ p'.reviewMode = p.reviewMode
  tasks : ∀ id t, s.tasks.get? id = some t → ∃ t', s'.tasks.get? id = some t' ∧ KeepsTask s t t'
  newTasks : ∀ id t', s.tasks.get? id = none → s'.tasks.get? id = some t' →
    t'.currentAttempt = none
  principals : ∀ id p, s.ext.principals.get? id = some p →
    ∃ p', s'.ext.principals.get? id = some p' ∧ p'.kind = p.kind
  reverts : ∀ id ws, s.workflowSubjects.get? id = some ws → ws.phase = .review → ∀ mode,
    s'.reviewModeFloor id mode = s.reviewModeFloor id mode

/-- `sample_clock` detects a rollback: coordination pauses and every lease expires. -/
def Db.detectRollback (s : Db) (now : Time) : Db :=
  { s with
    now := now
    clockIncident := true
    attempts := s.attempts.modify (fun a => a.state = .active) (fun a => { a with
      state := .expired
      endedAt := a.endedAt <|> some now
      outcome := a.outcome <|>
        some "Authority expired after a material service-clock rollback." }) }

/-- `reconcile_clock_in_tx`: coordination resumes. -/
def Db.reconcileClock (s : Db) (now : Time) : Db := { s with now := now, clockIncident := false }

/-- The integrator invalidates a review decision (`invalidated_at`). -/
def Db.invalidateDecision (s : Db) (activity : Id) : Db :=
  { s with
    reviewDecisions := s.reviewDecisions.modify (fun rd => rd.activity = activity)
      (fun rd => { rd with invalidatedAt := some s.now }) }

/-! ### Steps -/

/-- What happens in one step. -/
inductive Action
  | request (auth : Auth) (req : Request)
  | environment
  | clockRollback (now : Time)
  | clockReconciled (now : Time)
  | invalidateDecision (activity : Id)

/-- One step of the service. A refused request changes nothing. -/
inductive Step : Db → Action → Db → Prop
  | accepted {s s' : Db} {auth : Auth} {req : Request} (h : serve s auth req = .ok s') :
      Step s (.request auth req) s'
  | refused {s : Db} {auth : Auth} {req : Request} {e : AppError} (h : serve s auth req = .error e) :
      Step s (.request auth req) s
  | environment {s s' : Db} (h : Environment s s') : Step s .environment s'
  | clockRollback {s : Db} {now : Time} : Step s (.clockRollback now) (s.detectRollback now)
  | clockReconciled {s : Db} {now : Time} (h : s.clockIncident = true) :
      Step s (.clockReconciled now) (s.reconcileClock now)
  | invalidateDecision {s : Db} {activity : Id} :
      Step s (.invalidateDecision activity) (s.invalidateDecision activity)

/-- A service that has tasks, accounts and projects, but has granted no work yet. -/
structure Initial (s : Db) : Prop where
  attempts : s.attempts = .empty
  submissions : s.submissions = .empty
  workflowSubjects : s.workflowSubjects = .empty
  workflowActivities : s.workflowActivities = .empty
  reviewDecisions : s.reviewDecisions = .empty
  integrationHolds : s.integrationHolds = .empty
  publicationIntents : s.publicationIntents = .empty
  publicationReconciliations : s.publicationReconciliations = .empty
  tasks : ∀ id t, s.tasks.get? id = some t → t.currentAttempt = none

/-- The state is reachable by steps that satisfy `ok`. -/
def Reachable (ok : Db → Action → Prop) (s : Db) : Prop := ∃ s₀, Initial s₀ ∧ Run Step ok s₀ s

/-- Every step is allowed. -/
def anyStep (_ : Db) (_ : Action) : Prop := True

instance (s : Db) (i : Action) : Decidable (anyStep s i) := inferInstanceAs (Decidable True)

/-- An invariant of the initial states and the steps holds in every reachable state. -/
theorem Reachable.invariant {ok : Db → Action → Prop} {I : Db → Prop}
    (hinit : ∀ s, Initial s → I s) (hstep : ∀ s i s', I s → ok s i → Step s i s' → I s') {s : Db}
    (h : Reachable ok s) : I s := by
  obtain ⟨s₀, h₀, hrun⟩ := h
  exact hrun.invariant hstep (hinit s₀ h₀)

lemma Reachable.mono {ok ok' : Db → Action → Prop} (hmono : ∀ s i, ok s i → ok' s i) {s : Db}
    (h : Reachable ok s) : Reachable ok' s := by
  obtain ⟨s₀, h₀, hrun⟩ := h
  exact ⟨s₀, h₀, hrun.mono hmono⟩

lemma Reachable.step {ok : Db → Action → Prop} {s s' : Db} {i : Action} (h : Reachable ok s)
    (hok : ok s i) (hstep : Step s i s') : Reachable ok s' := by
  obtain ⟨s₀, h₀, hrun⟩ := h
  exact ⟨s₀, h₀, hrun.tail hok hstep⟩

lemma Reachable.any {ok : Db → Action → Prop} {s : Db} (h : Reachable ok s) :
    Reachable anyStep s :=
  h.mono fun _ _ _ => trivial

end AgentCoordinator
