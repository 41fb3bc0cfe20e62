import AgentCoordinator.Workflow.Integration

/-
Reconciling an uncertain publication.

A human, or under conditions an agent, settles what happened to a recorded intent by observing the
target. The activity's attempt ends, its hold is released, and a replacement integration with a
hold of its own takes its place.
-/

namespace AgentCoordinator

open Guarded Tabular

/-- `PublicationReconciliationInput`. -/
structure PublicationReconciliationInput where
  submission : Id
  disposition : Disposition
  observedTargetRevision : String
  observedTargetTree : String
  evidence : String

/-- The row a reconciliation inserts. -/
def newReconciliation (s : Db) (actor : Actor) (ctx : ActivityContext) (disposition : Disposition)
    (observedTargetRevision observedTargetTree : String) : PublicationReconciliation where
  activity := ctx.activity.id
  submission := ctx.submission.id
  disposition := disposition
  observedTargetRevision := observedTargetRevision
  observedTargetTree := observedTargetTree
  actor := actor.id
  createdAt := s.now

/-- The word of a disposition. -/
def Disposition.word : Disposition → String
  | .published => "published"
  | .notPublished => "not_published"
  | .targetMoved => "target_moved"

/-- Release the hold, cancel the activity with its task, and queue a replacement that holds the
target. -/
def replaceActivity (s : Db) (actor : Actor) (project : Id) (ctx : ActivityContext)
    (reason : String) (why : CancelReason) : Except AppError Db := do
  let s := s.releaseHolds (fun a => a = ctx.activity.id) actor.id reason
  let s := s.cancelActivities (fun wa => wa.id = ctx.activity.id) actor.id why
  let s := { s with
    tasks := s.tasks.modify (fun t => t.id = ctx.activity.activityTask) (Task.closed .canceled)
      (Task.key_closed .canceled) }
  let replacement := s.workflowActivities.fresh
  let s := s.replaceIntegration ctx project
  let key ← okOr ctx.submission.canonicalRepositoryKey
    (.conflict "workflow_policy_required"
      "Replacement integration requires the pinned canonical repository key.")
  let branch ← okOr ctx.submission.targetBranch
    (.conflict "target_required"
      "Replacement integration requires the pinned target branch.")
  s.insertHold replacement key branch actor.id .recordConflict

/-- `reconcile_publication`. -/
def reconcilePublication (s : Db) (actor : Actor) (project id : Id)
    (input : PublicationReconciliationInput) : Except AppError Db := do
  revision input.observedTargetRevision "observed_target_revision"
  revision input.observedTargetTree "observed_target_tree"
  bounded input.evidence "evidence" 16384 true
  human actor "publication_reconciliation"
  let ctx ← activityContext s project id
  ensureAgentIntegration ctx
  refuseIf (input.submission ≠ ctx.submission.id ∨
      ctx.submission.id ≠ ctx.subject.currentSubmission)
    (.conflict "integration_candidate_mismatch"
      "Reconciliation must name the exact current submission.")
  let intent ← okOr (s.publicationIntents.get? ctx.activity.id)
    (.conflict "publication_intent_required"
      "There is no publication intent to reconcile.")
  let resultState := (s.integrationResults.get? ctx.activity.id).map (·.publicationState)
  refuseIf (input.disposition = .notPublished ∧ resultState = some .published)
    (.conflict "publication_known"
      "A known published result cannot be reconciled as not published.")
  refuseIf (input.disposition = .notPublished ∧
      (input.observedTargetRevision ≠ intent.observedTargetRevision ∨
        input.observedTargetTree ≠ intent.observedTargetTree ∨
        input.observedTargetRevision = intent.resultRevision))
    (.conflict "nonpublication_source_mismatch"
      ("Known nonpublication must observe the exact target revision and tree saved before " ++
        "publication."))
  refuseIf (input.disposition = .published ∧
      (input.observedTargetRevision ≠ intent.resultRevision ∨
        input.observedTargetTree ≠ intent.resultTree))
    (.conflict "integrated_source_mismatch"
      ("Published reconciliation must observe the exact intended result revision and tree."))
  refuseIf (input.disposition = .targetMoved ∧
      (input.observedTargetRevision = intent.resultRevision ∨
        input.observedTargetRevision = intent.observedTargetRevision))
    (.conflict "target_not_moved"
      ("Target-moved reconciliation must observe a revision distinct from both the CAS " ++
        "expectation and intended result."))
  let reconciliations ← okOr (s.publicationReconciliations.insert?
    (newReconciliation s actor ctx input.disposition input.observedTargetRevision
      input.observedTargetTree)) .recordConflict
  let s := { s with publicationReconciliations := reconciliations }
  let s := s.endAttempts (fun a =>
      (s.tasks.get? ctx.activity.activityTask).bind (·.currentAttempt) = some a.id ∧
        a.state = .active)
    .canceled "Publication reconciled by a human; replacement integration required."
  let s ← replaceActivity s actor project ctx
    ("Human reconciliation: " ++ input.disposition.word)
    ⟨"publication_reconciled", "A human reconciled the publication as " ++
      input.disposition.word ++ "; a replacement integration follows."⟩
  return s.finish actor "integration.publication_reconciled" ctx.activity.id

/-! ### Reconciliation by an agent -/

/-- `AgentPublicationReconciliationInput`. -/
structure AgentPublicationReconciliationInput where
  submission : Id
  attempt : Id
  generation : Int
  disposition : Disposition
  observedTargetRevision : String
  observedTargetTree : String
  canonicalRepositoryKey : String
  targetBranch : String
  observedAt : Time
  localJournalVerified : Bool
  publisherStopped : Bool
  evidence : String

/-- `OBSERVATION_MAX_AGE_MS`. -/
def observationMaxAgeMs : Time := 120000

/-- `owner_live`: the attempt is active and unexpired, and its credential or browser session
still stands. -/
def Db.producerLive (s : Db) (attempt : Id) : Bool :=
  (s.attempts.get? attempt).any (fun a =>
    a.state = .active && a.expiresAt > s.now &&
      match a.credential with
      | none => (s.ext.browserSessions.get? a.session).any
          (fun b => b.revokedAt = none ∧ b.expiresAt > s.now)
      | some c =>
        (s.ext.credentials.get? c).any
          (fun cr => cr.revokedAt = none ∧ cr.expiresAt.all (fun e => e > s.now)) &&
        (s.ext.agentSessions.get? a.session).any
          (fun ag => ag.credential = c ∧ ag.closedAt = none))

/-- The attempt has a live owner, a job in doubt or a held reservation. -/
def Db.producerUncertain (s : Db) (attempt : Id) : Prop :=
  s.producerLive attempt = true ∨
    (∃ j ∈ s.ext.jobs, j.attempt = attempt ∧
      j.state ∈ [JobState.registered, .running, .unknown]) ∨
    attempt ∈ s.ext.heldReservations

instance (s : Db) (attempt : Id) : Decidable (s.producerUncertain attempt) := by
  unfold Db.producerUncertain; infer_instance

/-- The target an agent must have observed: the intended result, or the target saved before. -/
def expectedTarget (intent : PublicationIntent) (disposition : Disposition) : String × String :=
  if disposition = .published then (intent.resultRevision, intent.resultTree)
  else (intent.observedTargetRevision, intent.observedTargetTree)

/-- What `agent_reconcile_publication` validates before its transaction. -/
def validateAgentReconciliation (input : AgentPublicationReconciliationInput) :
    Except AppError Unit := do
  refuseIf (input.disposition = .targetMoved)
    (.badRequest ("Agent reconciliation accepts only published or not_published; target " ++
      "movement and uncertainty require a human operator."))
  revision input.observedTargetRevision "observed_target_revision"
  revision input.observedTargetTree "observed_target_tree"
  bounded input.canonicalRepositoryKey "canonical_repository_key" 255 true
  bounded input.targetBranch "target_branch" 255 true
  bounded input.evidence "evidence" 16384 true
  refuseIf (input.localJournalVerified = false ∨ input.publisherStopped = false)
    (.conflict "publication_evidence_incomplete"
      ("Agent reconciliation requires a verified durable local intent journal and " ++
        "confirmation that the original publication process stopped; otherwise a human must " ++
        "reconcile."))

/-- The checks of `agent_reconcile_publication` on the activity and its candidate. -/
def ensureAgentReconcilable (s : Db) (project : Id) (ctx : ActivityContext)
    (input : AgentPublicationReconciliationInput) : Except AppError Unit := do
  ensureAgentIntegration ctx
  refuseIf (input.submission ≠ ctx.submission.id ∨
      ctx.submission.id ≠ ctx.subject.currentSubmission)
    (.conflict "integration_candidate_mismatch"
      "Reconciliation must name the exact current submission.")
  refuseIf (ctx.pinsCurrent = false)
    (.conflict "workflow_policy_changed"
      ("The candidate's task requirements changed; only a human can reconcile this " ++
        "publication."))
  refuseIf (ctx.project.recoveryMode ≠ .agent)
    (.conflict "agent_reconciliation_policy_disabled"
      ("The project recovery policy reserves publication reconciliation to a human " ++
        "operator."))
  ensureActivityDecisions s project ctx
  refuseIf (ctx.activity.kind ≠ .integration ∨
      ctx.activity.state ∉ [ActivityState.active, .recoveryRequired])
    (.conflict "activity_not_eligible"
      "Only an unresolved integration activity can use agent reconciliation.")
  refuseIf (input.canonicalRepositoryKey ≠ ctx.submission.canonicalRepositoryKey.getD "" ∨
      input.targetBranch ≠ ctx.submission.targetBranch.getD "")
    (.conflict "publication_target_mismatch"
      ("The observation must identify the exact repository and branch pinned to this " ++
        "integration."))
  refuseIf (input.observedAt > s.now ∨ s.now - input.observedAt > observationMaxAgeMs)
    (.conflict "publication_observation_stale"
      ("Agent reconciliation requires a fresh target observation from the last two " ++
        "minutes."))

/-- The checks of `agent_reconcile_publication` on the intent, its attempt and the observation. -/
def ensureObservation (s : Db) (project : Id) (ctx : ActivityContext)
    (input : AgentPublicationReconciliationInput) : Except AppError PublicationIntent := do
  let intent ← okOr ((s.publicationIntents.get? ctx.activity.id).filter
      (fun pi => pi.submission = ctx.submission.id))
    (.conflict "publication_intent_required"
      "There is no immutable publication intent to reconcile.")
  let generation := ((s.attempts.get? intent.attempt).filter (fun a => a.project = project)).map
    (·.generation)
  refuseIf (input.attempt ≠ intent.attempt ∨ generation ≠ some input.generation)
    (.conflict "publication_attempt_mismatch"
      ("Agent reconciliation must name the exact attempt generation pinned by the immutable " ++
        "publication intent."))
  refuseIf (s.producerUncertain intent.attempt)
    (.conflict "publication_producer_uncertain"
      ("An active integration owner, live or uncertain producer, or held reservation remains; " ++
        "retain the global hold and use human reconciliation."))
  let resultState := (s.integrationResults.get? ctx.activity.id).map (·.publicationState)
  refuseIf (resultState = some .published ∨ resultState = some .notPublished)
    (.conflict "publication_already_known"
      "A known integration result does not need agent reconciliation.")
  refuseIf ((input.observedTargetRevision, input.observedTargetTree) ≠
      expectedTarget intent input.disposition)
    (.conflict "publication_observation_ambiguous"
      ("The observed target is neither the exact intended result nor the exact saved " ++
        "pre-publication target; a human must inspect the changed target."))
  refuseIf (¬ s.holdsTarget ctx.activity.id)
    (.conflict "integration_hold_required"
      ("The original integration hold is not held; agent reconciliation cannot recreate or " ++
        "bypass it."))
  return intent

/-- `agent_reconcile_publication`. It ends the attempt the intent pins. -/
def agentReconcilePublication (s : Db) (actor : Actor) (project id : Id)
    (input : AgentPublicationReconciliationInput) : Except AppError Db := do
  validateAgentReconciliation input
  refuseIf (actor.kind ≠ .agent)
    (.forbidden "This endpoint is reserved for an authenticated agent session.")
  discard (session actor)
  let ctx ← activityContext s project id
  ensureAgentReconcilable s project ctx input
  let intent ← ensureObservation s project ctx input
  let reconciliations ← okOr (s.publicationReconciliations.insert?
    (newReconciliation s actor ctx input.disposition input.observedTargetRevision
      input.observedTargetTree)) .recordConflict
  let s := { s with publicationReconciliations := reconciliations }
  let s := s.endAttempts (fun a => a.id = intent.attempt ∧ a.state = .active) .canceled
    ("Publication reconciled by an agent from exact durable intent and fresh remote evidence; " ++
      "replacement integration required.")
  let s ← replaceActivity s actor project ctx
    ("Agent reconciliation: " ++ input.disposition.word)
    ⟨"publication_reconciled", "An agent reconciled the publication as " ++
      input.disposition.word ++
        " from fresh remote evidence; a replacement integration follows."⟩
  return s.finish actor "integration.publication_reconciled" ctx.activity.id

end AgentCoordinator
