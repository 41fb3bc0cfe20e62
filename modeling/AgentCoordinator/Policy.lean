import AgentCoordinator.Workflow.Reopen

/-
Changing a project's policy.

`updatePolicy` writes the new policy and then brings every subject in review up to the new review
mode: queued reviews of kinds no longer required are canceled, required kinds without an activity
get one, and a subject whose approvals already satisfy the mode moves on. A subject that cannot be
reconciled is left as it was.
-/

namespace AgentCoordinator

open Guarded Tabular

/-! ### Reconciling required reviews -/

/-- One row of the query of `reconcile_required_reviews`. -/
structure ReviewSubject where
  project : Id
  task : Id
  submission : Id
  title : String
  reviewMode : ReviewMode
  amended : Bool

/-- The subjects in review of a project, as `reconcile_required_reviews` reads them. -/
def Db.reviewSubjects (s : Db) (project : Id) : List ReviewSubject :=
  (s.workflowSubjects.filter (fun ws => ws.phase = .review ∧ ws.project = project)).filterMap
    (fun ws => do
      let t ← s.tasks.get? ws.task
      let p ← s.projects.get? ws.project
      let u ← s.submissions.get? ws.currentSubmission
      return ⟨ws.project, ws.task, ws.currentSubmission, t.title, p.reviewMode,
        u.acAmendment.isSome⟩)

/-- The queued reviews of a submission whose kind is not required. -/
def unrequiredReview (submission : Id) (required : List ActivityKind) (wa : WorkflowActivity) :
    Prop :=
  wa.submission = submission ∧ wa.state = .queued ∧ wa.kind ≠ .integration ∧ wa.kind ∉ required

instance (submission : Id) (required : List ActivityKind) :
    DecidablePred (unrequiredReview submission required) :=
  fun _ => by unfold unrequiredReview; infer_instance

/-- `cancel_unrequired_reviews`. -/
def Db.cancelUnrequiredReviews (s : Db) (submission : Id) (required : List ActivityKind) : Db :=
  let s := s.cancelTasksOf (unrequiredReview submission required)
  { s with
    workflowActivities := s.workflowActivities.modify (unrequiredReview submission required)
      (fun wa => { wa with state := .canceled, canceledAt := some s.now }) }

/-- The submission has an activity of this kind that is not canceled. -/
def Db.hasReview (s : Db) (submission : Id) (kind : ActivityKind) : Prop :=
  ∃ wa ∈ s.workflowActivities, wa.submission = submission ∧ wa.kind = kind ∧ wa.state ≠ .canceled

instance (s : Db) (submission : Id) (kind : ActivityKind) : Decidable (s.hasReview submission kind) :=
  inferInstanceAs (Decidable (∃ wa ∈ s.workflowActivities,
    wa.submission = submission ∧ wa.kind = kind ∧ wa.state ≠ .canceled))

/-- `add_missing_reviews`, for one required kind. -/
def Db.addMissingReview (s : Db) (r : ReviewSubject) (kind : ActivityKind) : Db :=
  if s.hasReview r.submission kind then s
  else s.createActivity r.project r.task r.title r.submission kind (s.nextSlot r.submission kind)

/-- `add_missing_reviews`: queue a review for each required kind without an activity that is not
canceled. -/
def Db.addMissingReviews (s : Db) (r : ReviewSubject) (required : List ActivityKind) : Db :=
  required.foldl (fun s kind => s.addMissingReview r kind) s

/-- A review of the submission is still active. -/
def Db.reviewActive (s : Db) (submission : Id) : Prop :=
  ∃ wa ∈ s.workflowActivities, wa.submission = submission ∧ wa.kind ≠ .integration ∧
    wa.state = .active

instance (s : Db) (submission : Id) : Decidable (s.reviewActive submission) :=
  inferInstanceAs (Decidable (∃ wa ∈ s.workflowActivities, wa.submission = submission ∧
    wa.kind ≠ .integration ∧ wa.state = .active))

/-- `advance_if_quiet`: move a satisfied subject on, unless a review is still active. -/
def advanceIfQuiet (s : Db) (r : ReviewSubject) : Except AppError Db :=
  if s.reviewActive r.submission then return s
  else advanceApprovedSubject s r.project r.task r.submission

/-- The review kinds a subject needs under its project's mode, with the floor of a revert. -/
def Db.subjectKinds (s : Db) (r : ReviewSubject) : List ActivityKind :=
  requiredReviewKinds (s.reviewModeFloor r.task r.reviewMode)

/-- `record_reconciled`, when something changed. -/
def Db.recordReconciled (s : Db) (actor : Actor) (r : ReviewSubject) (changed : Bool) : Db :=
  if changed then s.finish actor "workflow.reconciled" r.submission else s

/-- `reconcile_subject`, as a policy update runs it. -/
def reconcileSubject (s : Db) (actor : Actor) (r : ReviewSubject) : Except AppError Db := do
  let required := s.subjectKinds r
  let canceled := s.workflowActivities.filter (unrequiredReview r.submission required)
  let s := s.cancelUnrequiredReviews r.submission required
  let satisfied ← approvalsSatisfied s r.submission
  if satisfied then do
    if r.amended then return s.recordReconciled actor r (canceled ≠ [])
    else do
      let advanced := decide (¬ s.reviewActive r.submission)
      let s ← advanceIfQuiet s r
      return s.recordReconciled actor r (canceled ≠ [] || advanced)
  else
    let added := decide (∃ kind ∈ required, ¬ s.hasReview r.submission kind)
    return (s.addMissingReviews r required).recordReconciled actor r (canceled ≠ [] || added)

/-- One subject in its savepoint: a refusal leaves everything as it was. -/
def Db.reconcileInSavepoint (s : Db) (actor : Actor) (r : ReviewSubject) : Db :=
  match reconcileSubject s actor r with
  | .ok s' => s'
  | .error _ => s

/-- `reconcile_required_reviews` of one project. -/
def Db.reconcileRequiredReviews (s : Db) (actor : Actor) (project : Id) : Db :=
  (s.reviewSubjects project).foldl (fun s r => s.reconcileInSavepoint actor r) s

/-! ### Updating the policy -/

/-- `PolicyInput`. An omitted option keeps the current value. -/
structure PolicyInput where
  expectedRevision : Int
  reviewMode : ReviewMode
  recoveryMode : RecoveryMode
  leaseSeconds : Int
  rules : String
  provenance : String
  agentRuleEditing : Bool
  automaticIntegration : Bool
  allowSubagentReviews : Option Bool
  integrationOwner : Option IntegrationOwner
  maxAttemptSeconds : Option Int
  allowRelayedHumanAnswers : Option Bool

/-- What `update_policy` validates before its transaction. -/
def validatePolicy (input : PolicyInput) : Except AppError Unit := do
  refuseIf (¬ (30 ≤ input.leaseSeconds ∧ input.leaseSeconds ≤ 3600) ∨
      input.maxAttemptSeconds.any (fun limit =>
        limit ≠ 0 ∧ ¬ (600 ≤ limit ∧ limit ≤ 604800)) = true)
    (.badRequest ("Invalid review/recovery mode, integration_owner, lease_seconds (30–3600) or " ++
      "max_attempt_seconds (0, or 600–604800)."))
  bounded input.rules "rules" 32768 false
  bounded input.provenance "policy provenance" 4096 false

/-- The update alters a permission agents may not alter, or the project does not delegate its
rules. -/
def altersPermission (current : Project) (input : PolicyInput) : Prop :=
  current.agentRuleEditing = false ∨ current.agentRuleEditing ≠ input.agentRuleEditing ∨
    current.automaticIntegration ≠ input.automaticIntegration ∨
    current.reviewMode ≠ input.reviewMode ∨ current.recoveryMode ≠ input.recoveryMode ∨
    input.allowSubagentReviews.any (fun v => v ≠ current.allowSubagentReviews) = true ∨
    input.integrationOwner.any (fun v => v ≠ current.integrationOwner) = true ∨
    input.maxAttemptSeconds.any (fun v => v ≠ current.maxAttemptSeconds) = true ∨
    input.allowRelayedHumanAnswers.any (fun v => v ≠ current.allowRelayedHumanAnswers) = true

instance (current : Project) (input : PolicyInput) : Decidable (altersPermission current input) := by
  unfold altersPermission; infer_instance

/-- The policy columns of a project after the update. -/
def Project.withPolicy (p : Project) (input : PolicyInput) : Project :=
  { p with
    policyRevision := p.policyRevision + 1
    reviewMode := input.reviewMode
    recoveryMode := input.recoveryMode
    leaseSeconds := input.leaseSeconds
    rules := input.rules
    agentRuleEditing := input.agentRuleEditing
    automaticIntegration := input.automaticIntegration
    allowSubagentReviews := input.allowSubagentReviews.getD p.allowSubagentReviews
    integrationOwner := input.integrationOwner.getD p.integrationOwner
    maxAttemptSeconds := input.maxAttemptSeconds.getD p.maxAttemptSeconds
    allowRelayedHumanAnswers := input.allowRelayedHumanAnswers.getD p.allowRelayedHumanAnswers }

/-- An integration of the project holds its target. -/
def Db.policyHeld (s : Db) (project : Id) : Prop :=
  ∃ h ∈ s.integrationHolds, h.state = .held ∧
    (s.workflowActivities.get? h.activity).any (fun wa => wa.project = project) = true

instance (s : Db) (project : Id) : Decidable (s.policyHeld project) := by
  unfold Db.policyHeld; infer_instance

/-- The update of the project's row and its policy history. -/
def writePolicy (s : Db) (actor : Actor) (project : Id) (current : Project) (input : PolicyInput) :
    Except AppError Db := do
  let revisions ← okOr (s.policyRevisions.insert?
    ⟨project, current.policyRevision + 1, input.rules, actor.id, s.now,
      input.allowRelayedHumanAnswers.getD current.allowRelayedHumanAnswers⟩) .recordConflict
  return { s with
    projects := s.projects.modify (fun p => p.id = project) (fun p => p.withPolicy input)
    policyRevisions := revisions }

/-- `update_policy`. -/
def updatePolicy (s : Db) (actor : Actor) (project : Id) (input : PolicyInput) :
    Except AppError Db := do
  validatePolicy input
  let current ← okOr (s.projects.get? project) .notFound
  refuseIf (current.archivedAt ≠ none)
    (.conflict "project_archived"
      "This project is archived. Restore it before changing its tasks or policy.")
  refuseIf (actor.kind = .agent ∧ altersPermission current input)
    (.humanGate "policy_permission_change"
      ("This project has not delegated this rule change. Agents cannot alter permission grants, " ++
        "review mode, recovery mode, the integration owner, the maximum attempt duration or " ++
        "relayed human answers."))
  refuseIf (current.policyRevision ≠ input.expectedRevision)
    (.conflict "revision_conflict" "Read the current project policy before editing it.")
  refuseIf (s.policyHeld project)
    (.conflict "policy_hold_conflict"
      ("Finish or reconcile the held integration before changing its policy. Publication may " ++
        "already be in progress."))
  let s ← writePolicy s actor project current input
  return (s.reconcileRequiredReviews actor project).finish actor "policy.updated" project

end AgentCoordinator
