import AgentCoordinator.Evidence

/-
Required reviews, the context of an activity, and who may revise.

`reviewsSatisfied` matches the review kinds a mode requires against the approvals on record;
`approvalsSatisfied` applies it to a submission, under the project's current mode while the
subject is in review and under the reviews that completed once it is past review. An
`ActivityContext` is the joined row every activity handler starts from.
-/

namespace AgentCoordinator

open Guarded Tabular

/-! ### Required reviews -/

/-- `required_review_kinds`: review activity kinds a project review mode requires. -/
def requiredReviewKinds : ReviewMode → List ActivityKind
  | .agent => [.agentReview]
  | .human => [.humanReview]
  | .either => [.eitherReview]
  | .both => [.agentReview, .humanReview]
  | .none => []

/-- `reviews_satisfied`: match required review kinds against approver classes. A human approval
satisfies any kind, an agent approval satisfies agent or either reviews, and each approval counts
once; when a human review is required as well, the agent review needs an agent. -/
def reviewsSatisfied (required : List ActivityKind) (approvers : List PrincipalKind) : Bool :=
  let human := required.count .humanReview
  let agent := required.count .agentReview
  let either := required.count .eitherReview
  let humans := approvers.count .human
  let agents := approvers.length - humans
  if humans < human then false
  else
    let humans := humans - human
    let byAgents := min agent agents
    let agents := agents - byAgents
    let rest := agent - byAgents
    if rest > 0 ∧ (human > 0 ∨ humans < rest) then false
    else decide (humans - rest + agents ≥ either)

/-- `review_mode_floor`: a revert that needs review has at least an agent review. -/
def Db.reviewModeFloor (s : Db) (task : Id) (mode : ReviewMode) : ReviewMode :=
  if mode ≠ .none then mode
  else if (s.ext.reverts.get? task).any (·.reviewRequired) then .agent
  else mode

/-- The phase of the subject whose current submission this is. -/
def Db.currentPhase (s : Db) (submission : Id) : Option Phase :=
  (s.workflowSubjects.rows.find? (fun ws => ws.currentSubmission = submission)).map (·.phase)

/-- The kinds of the submission's review activities that completed. -/
def Db.completedReviews (s : Db) (submission : Id) : List ActivityKind :=
  (s.workflowActivities.filter (fun wa =>
    wa.submission = submission ∧ wa.kind ≠ .integration ∧ wa.state = .completed)).map (·.kind)

/-- The account kinds behind the submission's standing approvals. -/
def Db.approvers (s : Db) (submission : Id) : List PrincipalKind :=
  (s.reviewDecisions.filter (fun rd =>
    rd.submission = submission ∧ rd.decision = .approved ∧ rd.invalidatedAt = none)).filterMap
      (fun rd => (s.ext.principals.get? rd.reviewer).map (·.kind))

/-- The reviews a submission needs. -/
def Db.requiredReviews (s : Db) (u : Submission) (p : Project) : List ActivityKind :=
  if s.currentPhase u.id = some .review then
    requiredReviewKinds (s.reviewModeFloor u.task p.reviewMode)
  else s.completedReviews u.id

/-- `approvals_satisfied`: the submission's approvals satisfy its required reviews. -/
def approvalsSatisfied (s : Db) (submission : Id) : Except AppError Bool := do
  let u ← okOr (s.submissions.get? submission) .notFound
  let p ← okOr (s.projects.get? u.project) .notFound
  return reviewsSatisfied (s.requiredReviews u p) (s.approvers submission)

/-! ### Activity context -/

/-- `ActivityContext`: an activity with its subject, submission, project and subject task. -/
structure ActivityContext where
  activity : WorkflowActivity
  subject : WorkflowSubject
  submission : Submission
  project : Project
  subjectTask : Task
  /-- Roster this activity validates checks against: the one captured on its publication intent,
  else the current roster (0 for general work). -/
  rosterRevision : Int

/-- The candidate is the subject's current submission and the task's judged fields are
unchanged. -/
def ActivityContext.pinsCurrent (a : ActivityContext) : Bool :=
  a.submission.id = a.subject.currentSubmission && a.submission.supersededAt = none &&
    a.submission.taskDigest.all (fun pinned => pinned = a.subjectTask.digest)

/-- `activity_context`. -/
def activityContext (s : Db) (project id : Id) : Except AppError ActivityContext := do
  let wa ← okOr (s.workflowActivities.get? id) .notFound
  refuseIf (wa.project ≠ project) .notFound
  let ws ← okOr (s.workflowSubjects.get? wa.subjectTask) .notFound
  let u ← okOr (s.submissions.get? wa.submission) .notFound
  let p ← okOr (s.projects.get? wa.project) .notFound
  let t ← okOr (s.tasks.get? wa.subjectTask) .notFound
  let pinned := (s.publicationIntents.get? id).map
    (fun pi => pi.rosterRevision.getD u.workflowPolicyRevision)
  let current := (s.ext.workflowPolicies.get? wa.project).map (·.revision)
  return ⟨wa, ws, u, p, t,
    if u.kind = .code then (pinned.or current).getD u.workflowPolicyRevision else 0⟩

/-- The rows an activity context joins. -/
structure ActivityContext.Joins (s : Db) (project id : Id) (ctx : ActivityContext) : Prop where
  activity : s.workflowActivities.get? id = some ctx.activity
  activityProject : ctx.activity.project = project
  subject : s.workflowSubjects.get? ctx.activity.subjectTask = some ctx.subject
  submission : s.submissions.get? ctx.activity.submission = some ctx.submission
  project : s.projects.get? project = some ctx.project
  task : s.tasks.get? ctx.activity.subjectTask = some ctx.subjectTask

lemma joins_of_activityContext {s : Db} {project id : Id} {ctx : ActivityContext}
    (h : activityContext s project id = .ok ctx) : ctx.Joins s project id := by
  simp only [activityContext, bind_eq_ok, okOr_eq_ok, refuseIf_eq_ok, pure_eq_ok, not_not] at h
  obtain ⟨wa, hwa, -, rfl, ws, hws, u, hu, p, hp, t, ht, rfl⟩ := h
  exact ⟨hwa, rfl, hws, hu, hp, ht⟩

/-- `candidate_checkpoint_present`: a code submission with a durable candidate ref. -/
def Submission.candidateCheckpointPresent (u : Submission) : Bool :=
  u.kind = .code && u.candidateRef.any (fun value => value ≠ "")

/-- `ensure_agent_integration`: refuses the agent integration path on a project handed to the
integrator. -/
def ensureAgentIntegration (a : ActivityContext) : Except AppError Unit :=
  refuseIf (a.activity.kind = .integration ∧ a.project.integrationOwner = .integrator)
    { AppError.conflict "integration_owned_by_integrator"
        ("The deterministic integrator integrates this project; agents and humans do not " ++
          "claim, publish or finalize its integrations.") with
      gate := some "integration_owned_by_integrator" }

/-- `ensure_current`. -/
def ensureCurrent (a : ActivityContext) : Except AppError Unit := do
  refuseIf (¬ a.pinsCurrent = true ∨ a.subject.phase = .revisionNeeded)
    (.conflict "workflow_policy_changed"
      "The candidate is no longer current or its task requirements changed.")
  refuseIf (a.activity.state ∈ [ActivityState.completed, .canceled, .recoveryRequired])
    (.conflict "activity_not_eligible" "This workflow activity cannot grant new work authority.")

/-- `ensure_activity_decisions`. -/
def ensureActivityDecisions (s : Db) (project : Id) (a : ActivityContext) :
    Except AppError Unit := do
  ensureDecisionsResolved s project a.activity.subjectTask
  ensureDecisionsResolved s project a.activity.activityTask

/-- A standing human authorization of this exact integration activity and its pinned policies. -/
def Db.integrationAuthorized (s : Db) (a : ActivityContext) : Bool :=
  (s.integrationAuthorizations.get? a.activity.id).any (fun r =>
    r.submission = a.submission.id ∧
      r.projectPolicyRevision = a.submission.projectPolicyRevision ∧
      r.workflowPolicyRevision = a.submission.workflowPolicyRevision ∧ r.invalidatedAt = none)

/-! ### Revise limits -/

/-- `REVISE_LIMIT`. -/
def reviseLimit : Nat := 3

/-- `SERIALIZED_REVISE_CAP`. -/
def serializedReviseCap : Nat := 6

/-- `DAY_MS`. -/
def dayMs : Time := 86400000

/-- The agent revises of a task's submissions in the last 24 hours. -/
def Db.agentRevises (s : Db) (task : Id) : List Event :=
  s.events.filter (fun e =>
    e.kind == "submission.reopened" &&
      (s.ext.principals.get? e.actor).any (fun p => p.kind = .agent) &&
      (s.submissions.get? e.record).any (fun u => u.task = task) && e.createdAt > s.now - dayMs)

/-- The integrator recorded the revise of a submission as serialized after a landing. -/
def Db.serialized (s : Db) (submission : Id) : Bool :=
  (s.ext.integratorRevises.get? submission).any (·.serializedAfter.isSome)

/-- `agent_revise_count`. -/
def Db.agentReviseCount (s : Db) (task : Id) : Nat := (s.agentRevises task).length

/-- `park_revise_count`: the agent revises that are not serialized. -/
def Db.parkReviseCount (s : Db) (task : Id) : Nat :=
  ((s.agentRevises task).filter (fun e => !s.serialized e.record)).length

/-- `revise_limit_reached`: the task is parked for agents. -/
def Db.reviseLimitReached (s : Db) (task : Id) : Bool :=
  s.parkReviseCount task ≥ reviseLimit || s.agentReviseCount task ≥ serializedReviseCap

/-- `revise_limit_refusal`. -/
def reviseLimitRefusal : AppError :=
  .humanCoded "revise_limit_reached"
    ("Agents revised this task too often in 24 hours (three revises not serialized after a new " ++
      "landing, or six in all); a human must look at it.")

/-- `ensure_not_parked`: refuses an agent's work claim on a task that the revise limit parked. -/
def ensureNotParked (s : Db) (actor : Actor) (task : Id) : Except AppError Unit :=
  refuseIf (actor.kind = .agent ∧ s.reviseLimitReached task = true) reviseLimitRefusal

/-- `is_mechanical`: a revert whose candidate the integrator computes. -/
def Db.isMechanical (s : Db) (task : Id) : Bool :=
  (s.ext.reverts.get? task).any (fun r => r.mode = .mechanical)

/-- `ensure_not_mechanical`. -/
def ensureNotMechanical (s : Db) (task : Id) : Except AppError Unit :=
  refuseIf (s.isMechanical task = true)
    (.conflict "revert_awaits_integrator"
      "The integrator computes this revert's candidate; it cannot be claimed or unblocked.")

end AgentCoordinator
