import AgentCoordinator.Workflow.Review

/-
Publishing an integration.

The owner of an integration first records an immutable intent (what it saw at the target and what
it will publish), then the outcome with the required check receipts, and last finalizes: only the
final transaction completes the subject. An outcome other than `published` parks the activity for
reconciliation and ends the owner's attempt.
-/

namespace AgentCoordinator

open Guarded Tabular

/-! ### Authorization -/

/-- `IntegrationAuthorizationInput`. -/
structure IntegrationAuthorizationInput where
  submission : Id
  expectedProjectPolicyRevision : Int
  expectedWorkflowPolicyRevision : Int
  summary : String

/-- The authorization `authorize_integration` records; one that was invalidated is renewed. -/
def Db.writeAuthorization (s : Db) (actor : Actor) (ctx : ActivityContext) : Db :=
  { s with
    integrationAuthorizations := s.integrationAuthorizations.put
      { activity := ctx.activity.id
        submission := ctx.submission.id
        projectPolicyRevision := ctx.submission.projectPolicyRevision
        workflowPolicyRevision := ctx.submission.workflowPolicyRevision
        actor := actor.id
        createdAt := s.now
        invalidatedAt := none
        authorizationRevision := ((s.integrationAuthorizations.get? ctx.activity.id).map
          (·.authorizationRevision + 1)).getD 1 } }

/-- `authorize_integration`. -/
def authorizeIntegration (s : Db) (actor : Actor) (project id : Id)
    (input : IntegrationAuthorizationInput) : Except AppError Db := do
  bounded input.summary "summary" 8192 true
  human actor "integration_authorization"
  let ctx ← activityContext s project id
  ensureAgentIntegration ctx
  ensureCurrent ctx
  ensureActivityDecisions s project ctx
  refuseIf (ctx.activity.kind ≠ .integration ∨ input.submission ≠ ctx.submission.id ∨
      input.expectedProjectPolicyRevision ≠ ctx.submission.projectPolicyRevision ∨
      input.expectedWorkflowPolicyRevision ≠ ctx.submission.workflowPolicyRevision)
    (.conflict "integration_candidate_mismatch"
      "Authorization must name the exact current integration candidate and policies.")
  refuseIf (ctx.project.automaticIntegration = true)
    (.conflict "authorization_not_required"
      "This project currently permits automatic integration.")
  let satisfied ← approvalsSatisfied s ctx.submission.id
  refuseIf (satisfied = false)
    (reviewsPending
      "Required reviews must approve this submission before integration authorization.")
  refuseIf ((s.integrationAuthorizations.get? ctx.activity.id).any
      (fun r => r.invalidatedAt = none) = true)
    (.conflict "integration_already_authorized"
      "This integration activity already has current human authorization.")
  return (s.writeAuthorization actor ctx).finish actor "integration.authorized" ctx.activity.id

/-! ### Intent -/

/-- `PublicationIntentInput`. -/
structure PublicationIntentInput where
  generation : Int
  submission : Id
  observedTargetRevision : String
  observedTargetTree : String
  resultRevision : String
  resultTree : String

/-- The hold of the activity is held. -/
def Db.holdsTarget (s : Db) (activity : Id) : Prop :=
  ∃ h ∈ s.integrationHolds, h.activity = activity ∧ h.state = .held

instance (s : Db) (activity : Id) : Decidable (s.holdsTarget activity) :=
  inferInstanceAs (Decidable (∃ h ∈ s.integrationHolds, h.activity = activity ∧ h.state = .held))

/-- The row `publication_intent` inserts. -/
def newIntent (s : Db) (actor : Actor) (ctx : ActivityContext) (attempt : Id)
    (input : PublicationIntentInput) : PublicationIntent where
  activity := ctx.activity.id
  submission := ctx.submission.id
  attempt := attempt
  observedTargetRevision := input.observedTargetRevision
  observedTargetTree := input.observedTargetTree
  resultRevision := input.resultRevision
  resultTree := input.resultTree
  createdBy := actor.id
  createdAt := s.now
  rosterRevision := some ctx.rosterRevision

/-- `publication_intent`. -/
def publicationIntent (s : Db) (actor : Actor) (project id : Id) (input : PublicationIntentInput) :
    Except AppError Db := do
  revision input.observedTargetRevision "observed_target_revision"
  revision input.observedTargetTree "observed_target_tree"
  revision input.resultRevision "result_revision"
  revision input.resultTree "result_tree"
  let ctx ← ownedActivity s actor project id input.generation .integration
  ensureActivityDecisions s project ctx
  refuseIf (input.submission ≠ ctx.submission.id)
    (.conflict "integration_candidate_mismatch"
      "Publication intent must name the current immutable submission.")
  let satisfied ← approvalsSatisfied s ctx.submission.id
  refuseIf (satisfied = false)
    (reviewsPending "All required reviews must still approve this submission.")
  refuseIf (ctx.project.automaticIntegration = false ∧ s.integrationAuthorized ctx = false)
    (.conflict "integration_authorization_required"
      "Human integration authorization is required.")
  let attempt ← currentAttemptId s ctx.activity.activityTask
  refuseIf (¬ ∃ ch ∈ s.ext.checkouts, ch.1 = attempt)
    (.conflict "checkout_required"
      "Register the isolated integration checkout before publication intent.")
  refuseIf (¬ s.holdsTarget ctx.activity.id)
    (.conflict "integration_hold_required"
      "The canonical integration hold is no longer held.")
  let intents ← okOr (s.publicationIntents.insert? (newIntent s actor ctx attempt input))
    .recordConflict
  return { s with publicationIntents := intents }.finish actor "integration.publication_intended"
    ctx.activity.id

/-! ### Check receipts -/

/-- The entries of a roster are well formed and different from those before them. -/
def validateEntries : List RequiredCheck → List RequiredCheck → Except AppError Unit
  | [], _ => return
  | check :: checks, identities => do
    bounded check.identity "check identity" 255 true
    bounded check.version "check version" 255 true
    bounded check.environment "check environment" 255 true
    refuseIf (check ∈ identities)
      (.badRequest "Each required check identity/version/environment tuple must be unique.")
    validateEntries checks (check :: identities)

/-- `validate_checks`: an explicit roster of 1–100 distinct checks. -/
def validateChecks (checks : List RequiredCheck) : Except AppError Unit := do
  refuseIf (checks = [] ∨ checks.length > 100)
    (.badRequest "Configure an explicit roster of 1–100 required checks.")
  validateEntries checks []

/-- The required check a successful producer job answers for. -/
def receiptOf (s : Db) (project : Id) (ctx : ActivityContext) (attempt : Id)
    (resultRevision resultTree : String) (job : Id) : Except AppError RequiredCheck := do
  let j ← okOr ((s.ext.jobs.get? job).filter (fun j => j.project = project))
    (.conflict "check_receipt_missing"
      "A selected check job does not exist in this project.")
  refuseIf (j.task ≠ ctx.activity.activityTask ∨ j.attempt ≠ attempt ∨ j.state ≠ .succeeded ∨
      j.exitCode ≠ some 0 ∨ j.inputsUnchanged ≠ some true ∨ j.reconciledAt ≠ none ∨
      j.sourceRevision ≠ resultRevision ∨ j.sourceTree ≠ resultTree)
    (.conflict "check_receipt_inapplicable"
      ("Required checks must be unreconciled successful producers with stable inputs on the " ++
        "exact intended result."))
  let missing := AppError.conflict "check_identity_missing"
    "Every selected producer must carry immutable check identity, version, and environment."
  let identity ← okOr j.checkIdentity missing
  let version ← okOr j.checkVersion missing
  let environment ← okOr j.checkEnvironment missing
  return ⟨identity, version, environment⟩

/-- The checks the selected jobs answer for, each job and each check once. -/
def receipts (s : Db) (project : Id) (ctx : ActivityContext) (attempt : Id)
    (resultRevision resultTree : String) :
    List Id → List Id → List RequiredCheck → Except AppError (List RequiredCheck)
  | [], _, actual => return actual
  | job :: jobs, unique, actual => do
    refuseIf (job ∈ unique)
      (.conflict "duplicate_check_receipt"
        "A producer job can satisfy at most one required roster entry.")
    let tuple ← receiptOf s project ctx attempt resultRevision resultTree job
    refuseIf (tuple ∈ actual)
      (.conflict "duplicate_check_identity"
        "Required check identity tuples cannot be reused.")
    receipts s project ctx attempt resultRevision resultTree jobs (job :: unique)
      (tuple :: actual)

/-- `validate_check_jobs`: the jobs cover the pinned roster, one producer for each check. -/
def validateCheckJobs (s : Db) (project : Id) (ctx : ActivityContext) (attempt : Id)
    (resultRevision resultTree : String) (jobs : List Id) : Except AppError Unit := do
  let roster ← okOr (((s.ext.workflowPolicies.get? project).bind
      (fun wp => wp.rosters.lookup ctx.rosterRevision)))
    (.conflict "workflow_policy_missing"
      "The pinned required-check roster is unavailable.")
  validateChecks roster
  refuseIf (jobs.length ≠ roster.length ∨ jobs.length > 100)
    (.conflict "required_checks_incomplete"
      "Select exactly one producer receipt for every pinned required check.")
  let actual ← receipts s project ctx attempt resultRevision resultTree jobs [] []
  refuseIf (¬ (actual ⊆ roster ∧ roster ⊆ actual))
    (.conflict "required_checks_incomplete"
      "Selected producer receipts do not exactly cover the pinned required-check roster.")

/-! ### Outcome -/

/-- `IntegrationResultInput`. -/
structure IntegrationResultInput where
  generation : Int
  submission : Id
  publicationState : PublicationState
  observedTargetRevision : String
  resultRevision : String
  resultTree : String
  checkJobIds : List Id
  summary : String

/-- The row `integration_result` inserts. -/
def newResult (s : Db) (actor : Actor) (ctx : ActivityContext) (attempt : Id)
    (input : IntegrationResultInput) : IntegrationResult where
  activity := ctx.activity.id
  submission := ctx.submission.id
  attempt := attempt
  publicationState := input.publicationState
  observedTargetRevision := input.observedTargetRevision
  resultRevision := input.resultRevision
  resultTree := input.resultTree
  checkJobIds := input.checkJobIds
  reportedBy := actor.id
  createdAt := s.now

/-- Park the activity for reconciliation and end its owner's attempt. -/
def Db.parkForRecovery (s : Db) (ctx : ActivityContext) (attempt : Id) (summary : String) : Db :=
  let s := (s.setActivityState ctx.activity.id .recoveryRequired).endAttempts
    (fun a => a.id = attempt) .blocked summary
  { s with
    tasks := s.tasks.modify (fun t => t.id = ctx.activity.activityTask) (fun t => { t with
      currentAttempt := none
      blockedReason := some "Publication outcome requires human reconciliation." }) }

/-- `integration_result`. -/
def integrationResult (s : Db) (actor : Actor) (project id : Id) (input : IntegrationResultInput) :
    Except AppError Db := do
  bounded input.summary "summary" 16384 true
  revision input.observedTargetRevision "observed_target_revision"
  revision input.resultRevision "result_revision"
  revision input.resultTree "result_tree"
  let ctx ← ownedActivity s actor project id input.generation .integration
  ensureActivityDecisions s project ctx
  refuseIf (input.submission ≠ ctx.submission.id)
    (.conflict "integration_candidate_mismatch"
      "Integration result must name the exact current submission.")
  let intent ← okOr (s.publicationIntents.get? ctx.activity.id)
    (.conflict "publication_intent_required"
      "Record immutable publication intent before reporting an integration result.")
  refuseIf (intent.observedTargetRevision ≠ input.observedTargetRevision ∨
      intent.resultRevision ≠ input.resultRevision ∨ intent.resultTree ≠ input.resultTree)
    (.conflict "publication_intent_mismatch"
      "Integration result identities must exactly match saved publication intent.")
  let currentAttempt ← currentAttemptId s ctx.activity.activityTask
  refuseIf (intent.attempt ≠ currentAttempt)
    (.conflict "publication_attempt_mismatch"
      "The saved publication intent belongs to a different activity attempt.")
  (if input.publicationState = .published then
    validateCheckJobs s project ctx intent.attempt input.resultRevision input.resultTree
      input.checkJobIds
  else
    refuseIf (input.checkJobIds ≠ [])
      (.badRequest
        "Unknown or known nonpublication results omit completion check receipts."))
  let results ← okOr (s.integrationResults.insert? (newResult s actor ctx intent.attempt input))
    .recordConflict
  let s := { s with integrationResults := results }
  let s :=
    if input.publicationState ≠ .published then s.parkForRecovery ctx intent.attempt input.summary
    else s
  return s.finish actor "integration.result_recorded" ctx.activity.id

/-! ### Finalizing -/

/-- `FinalizeIntegrationInput`. -/
structure FinalizeIntegrationInput where
  generation : Int
  submission : Id
  observedTargetRevision : String
  observedTargetTree : String

/-- The publication is established: reported as published, or reconciled as published. -/
def Db.publicationEstablished (s : Db) (r : IntegrationResult) : Bool :=
  r.publicationState = .published ||
    (s.publicationReconciliations.get? r.activity).any (fun pr => pr.disposition = .published)

/-- The writes of `finalize`: activity, attempt, subject and both tasks are done, and the hold is
released. -/
def Db.completeIntegration (s : Db) (actor : Actor) (ctx : ActivityContext) (attempt : Id) : Db :=
  let s := s.endAttempts (fun a => a.id = attempt) .submitted "Exact integrated result validated."
  let s := { s with
    tasks := s.tasks.modify
      (fun t => t.id = ctx.activity.activityTask ∨ t.id = ctx.activity.subjectTask)
      (Task.closed .done) (Task.key_closed .done)
    workflowActivities := s.workflowActivities.modify (fun wa => wa.id = ctx.activity.id)
      (fun wa => { wa with state := .completed, completedAt := some s.now }) }
  let s := s.setPhase ctx.activity.subjectTask .done
  let s := s.releaseHolds (fun a => a = ctx.activity.id) actor.id
    "Exact integrated result completed."
  s.readyDependents ctx.activity.subjectTask

/-- `finalize`. -/
def finalize (s : Db) (actor : Actor) (project id : Id) (input : FinalizeIntegrationInput) :
    Except AppError Db := do
  revision input.observedTargetRevision "observed_target_revision"
  revision input.observedTargetTree "observed_target_tree"
  let ctx ← ownedActivity s actor project id input.generation .integration
  ensureActivityDecisions s project ctx
  refuseIf (input.submission ≠ ctx.submission.id)
    (.conflict "integration_candidate_mismatch"
      "Finalization must name the exact current submission.")
  let satisfied ← approvalsSatisfied s ctx.submission.id
  refuseIf (satisfied = false)
    (reviewsPending "All required reviews must still approve this exact submission.")
  refuseIf (ctx.project.automaticIntegration = false ∧ s.integrationAuthorized ctx = false)
    (.conflict "integration_authorization_required"
      "This integration activity lacks current human authorization.")
  let result ← okOr (s.integrationResults.get? ctx.activity.id)
    (.conflict "integration_result_required"
      "Record the publication result and exact check receipts before finalization.")
  refuseIf (s.publicationEstablished result = false)
    (.conflict "publication_unresolved"
      "Human reconciliation has not established publication.")
  refuseIf (input.observedTargetRevision ≠ result.resultRevision ∨
      input.observedTargetTree ≠ result.resultTree)
    (.conflict "integrated_source_mismatch"
      "Fresh remote observation must equal the exact intended integrated revision and tree.")
  validateCheckJobs s project ctx result.attempt result.resultRevision result.resultTree
    result.checkJobIds
  ensureAttemptQuiescent s project ctx.activity.subjectTask
  ensureAttemptQuiescent s project ctx.activity.activityTask
  let attempt ← currentAttemptId s ctx.activity.activityTask
  return (s.completeIntegration actor ctx attempt).finish actor "integration.completed"
    ctx.activity.id

end AgentCoordinator
