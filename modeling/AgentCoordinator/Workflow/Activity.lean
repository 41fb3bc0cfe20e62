import AgentCoordinator.Workflow.Submit

/-
Owning a workflow activity.

A review or an integration is claimed through its activity: the claim checks that the candidate is
still current and the caller may take this kind of work, ends an earlier owner's lapsed attempt,
takes the target's hold when the work is an integration, and grants an attempt on the activity's
own task. Releasing requeues a review; a released integration is canceled, gives its hold back and
is followed by a new one in the next slot.
-/

namespace AgentCoordinator

open Guarded Tabular

/-- The hold an activity has, held or released. -/
def Db.holdOf (s : Db) (activity : Id) : Option IntegrationHold :=
  s.integrationHolds.rows.find? (fun h => h.activity = activity)

/-- `SELECT current_attempt_id FROM tasks`. -/
def currentAttemptId (s : Db) (task : Id) : Except AppError Id :=
  okOr ((s.tasks.get? task).bind (·.currentAttempt)) .notFound

/-- `owned_activity`: the caller owns this activity, and its candidate is current. -/
def ownedActivity (s : Db) (actor : Actor) (project id : Id) (generation : Int)
    (kind : ActivityKind) : Except AppError ActivityContext := do
  let ctx ← activityContext s project id
  ensureAgentIntegration ctx
  ensureCurrent ctx
  refuseIf (ctx.activity.kind ≠ kind)
    (.conflict "activity_kind_mismatch"
      "This operation does not apply to this workflow activity.")
  let a ← okOr ((s.tasks.get? ctx.activity.activityTask).bind s.attemptOf)
    (.conflict "ownership_lost" "Claim this workflow activity before changing it.")
  let ownerSession ← session actor
  refuseIf
    (a.owner ≠ actor.id ∨ a.session ≠ ownerSession ∨ a.credential ≠ actor.credential ∨
      a.generation ≠ generation ∨ a.state ≠ .active ∨ a.expiresAt ≤ s.now)
    (.conflict "ownership_lost" "This workflow activity lease is no longer current.")
  return ctx

/-! ### Claiming -/

/-- `ActivityClaimInput`. -/
structure ActivityClaimInput where
  expectedSubmission : Id
  expectedProjectPolicyRevision : Int
  expectedWorkflowPolicyRevision : Int
  reviewIndependence : Option ReviewIndependence

/-- The refusal of an integration whose reviews are missing. -/
def reviewsPending (message : String) : AppError := .conflict "reviews_pending" message

/-- The caller may take this kind of activity. -/
def ensureEligible (s : Db) (actor : Actor) (project ownerSession : Id) (ctx : ActivityContext)
    (independence : Option ReviewIndependence) : Except AppError Unit :=
  match ctx.activity.kind with
  | .agentReview =>
    if actor.kind = .agent then
      ensureIndependentReviewer s project ctx.activity.subjectTask actor.id ownerSession
        independence
    else .error
      (.forbidden "An agent session must own an independent agent review.")
  | .eitherReview =>
    if actor.kind = .agent then
      ensureIndependentReviewer s project ctx.activity.subjectTask actor.id ownerSession
        independence
    else human actor "human_review_claim"
  | .humanReview => human actor "human_review_claim"
  | .integration => do
    let satisfied ← approvalsSatisfied s ctx.submission.id
    refuseIf (satisfied = false)
      (reviewsPending "Every required review must approve this exact submission.")
    refuseIf (ctx.project.automaticIntegration = false ∧ s.integrationAuthorized ctx = false)
      (.conflict "integration_authorization_required"
        "A human must authorize this exact integration activity and policy.")

/-- End the lapsed attempt of an earlier owner; refuse while it is live. -/
def expirePrevious (s : Db) (actor : Actor) (project : Id) (ctx : ActivityContext) (task : Task) :
    Except AppError Db :=
  match task.currentAttempt with
  | none => return s
  | some previous => do
    refuseIf (s.ownerLive task = true)
      (.conflict "claim_conflict" "This workflow activity already has a current owner.")
    refuseIf (ctx.project.recoveryMode = .manual ∧ actor.kind ≠ .human)
      (.forbidden ("This project requires a human to inspect expired or revoked workflow " ++
        "activity authority."))
    ensureAttemptQuiescent s project ctx.activity.activityTask
    return s.endAttempts (fun a => a.id = previous ∧ a.state = .active) .expired
      "Workflow activity lease expired."

/-- Take the hold on the candidate's target, unless the activity holds it already. -/
def acquireHold (s : Db) (actor : Actor) (ctx : ActivityContext) : Except AppError Db :=
  match s.holdOf ctx.activity.id with
  | some h => do
    refuseIf (h.state ≠ .held)
      (.conflict "integration_hold_closed"
        "This integration activity's canonical hold is closed.")
    return s
  | none => do
    let key ← okOr ctx.submission.canonicalRepositoryKey
      (.conflict "workflow_policy_required"
        "Code integration requires a canonical repository key.")
    let branch ← okOr ctx.submission.targetBranch
      (.conflict "target_required" "Code integration requires a target branch.")
    s.insertHold ctx.activity.id key branch actor.id
      (.conflict "integration_target_held"
        "Another integration holds this canonical repository and target branch.")

/-- `UPDATE workflow_activities SET state=…` for one activity. -/
def Db.setActivityState (s : Db) (id : Id) (state : ActivityState) : Db :=
  { s with
    workflowActivities := s.workflowActivities.modify (fun wa => wa.id = id)
      (fun wa => { wa with state := state }) }

/-- `claim_activity`. -/
def claimActivity (s : Db) (actor : Actor) (project id : Id) (input : ActivityClaimInput) :
    Except AppError Db := do
  let ownerSession ← session actor
  let ctx ← activityContext s project id
  ensureAgentIntegration ctx
  ensureActivityDecisions s project ctx
  ensureCurrent ctx
  refuseIf (input.expectedSubmission ≠ ctx.submission.id ∨
      input.expectedProjectPolicyRevision ≠ ctx.submission.projectPolicyRevision ∨
      input.expectedWorkflowPolicyRevision ≠ ctx.submission.workflowPolicyRevision)
    (.conflict "workflow_revision_conflict"
      "Read the current activity and retry with its exact candidate and policy revisions.")
  refuseIf (ctx.submission.workflowPolicyRevision > 0 ∧
      ctx.submission.candidateCheckpointPresent = false)
    (.conflict "candidate_checkpoint_missing"
      ("This historical code submission has no durable candidate ref. Revise it (reason_code " ++
        "candidate_missing) or ask an operator to reopen it for a checkpointed submission."))
  refuseIf (ctx.project.archivedAt ≠ none)
    (.conflict "project_archived"
      "This project is archived. Restore it before claiming workflow work.")
  refuseIf (actor.kind = .agent ∧ s.instructionsAcknowledged ownerSession project = false)
    (.conflict "instructions_required"
      ("Read and acknowledge the current coordination instructions before claiming workflow " ++
        "work."))
  ensureEligible s actor project ownerSession ctx input.reviewIndependence
  let task ← okOr (s.tasks.get? ctx.activity.activityTask) .notFound
  refuseIf (task.project ≠ project) .notFound
  refuseIf (task.blockedReason ≠ none)
    (.conflict "activity_blocked" "This workflow activity still has unmet guards.")
  let s ← expirePrevious s actor project ctx task
  let s ← (if ctx.activity.kind = .integration then acquireHold s actor ctx else pure s)
  let s ← s.grantAttempt
    { project, task := ctx.activity.activityTask, owner := actor.id, session := ownerSession
      credential := actor.credential, generation := task.generation + 1, mode := .work
      expiresAt := min (s.now + ctx.project.leaseSeconds * 1000)
        (attemptLimit ctx.project.maxAttemptSeconds s.now)
      taskRevision := 1, policyRevision := ctx.project.policyRevision }
  return (s.setActivityState ctx.activity.id .active).finish actor "workflow_activity.claimed"
    ctx.activity.id

/-! ### Releasing -/

/-- `ActivityReleaseInput`. -/
structure ActivityReleaseInput where
  generation : Int
  summary : String
  blocked : Bool

/-- Give the activity's attempt back and requeue the activity. -/
def Db.requeueActivity (s : Db) (ctx : ActivityContext) (attempt : Id) (summary : String) : Db :=
  let s := s.endAttempts (fun a => a.id = attempt) .released summary
  let s := { s with
    tasks := s.tasks.modify (fun t => t.id = ctx.activity.activityTask) (fun t => { t with
      currentAttempt := none
      blockedReason := none
      readySince := s.now }) }
  s.setActivityState ctx.activity.id .queued

/-- Cancel one activity and queue the next integration of its submission. -/
def Db.replaceIntegration (s : Db) (ctx : ActivityContext) (project : Id) : Db :=
  s.createActivity project ctx.subjectTask.id ctx.subjectTask.title ctx.submission.id .integration
    (s.nextSlot ctx.submission.id .integration)

/-- A released integration gives its hold back, is canceled, and is followed by another. -/
def Db.releaseIntegration (s : Db) (actor : Actor) (project : Id) (ctx : ActivityContext)
    (summary : String) : Db :=
  let s := s.releaseHolds (fun a => a = ctx.activity.id) actor.id
    "Integration activity released before publication intent."
  let s := s.cancelActivities (fun wa => wa.id = ctx.activity.id) actor.id
    ⟨"released", "The integration owner released it before publication: " ++ summary⟩
  let s := { s with
    tasks := s.tasks.modify (fun t => t.id = ctx.activity.activityTask) Task.dropped
      Task.key_dropped }
  s.replaceIntegration ctx project

/-- `release_activity`. -/
def releaseActivity (s : Db) (actor : Actor) (project id : Id) (input : ActivityReleaseInput) :
    Except AppError Db := do
  bounded input.summary "summary" 8192 true
  refuseIf (input.blocked = true)
    (.badRequest ("Workflow activities cannot be released with blocked=true; checkpoint the " ++
      "blocker and release for a guarded retry."))
  let raw ← activityContext s project id
  let ctx ← ownedActivity s actor project id input.generation raw.activity.kind
  ensureAttemptQuiescent s project ctx.activity.activityTask
  refuseIf ((s.publicationIntents.get? ctx.activity.id).isSome = true)
    (.conflict "publication_result_required"
      ("Publication intent exists. Record a known or uncertain result instead of releasing " ++
        "authority."))
  let attempt ← currentAttemptId s ctx.activity.activityTask
  let s := s.requeueActivity ctx attempt input.summary
  let s :=
    if ctx.activity.kind = .integration then s.releaseIntegration actor project ctx input.summary
    else s
  return s.finish actor "workflow_activity.released" ctx.activity.id

end AgentCoordinator
