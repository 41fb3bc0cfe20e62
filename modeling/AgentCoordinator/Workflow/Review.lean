import AgentCoordinator.Workflow.Activity

/-
Deciding a review.

A decision completes its activity. A request for changes supersedes the submission, sends the
subject back to revision and cancels the submission's other queued and active activities. An
approval that satisfies the required reviews applies an accepted amendment and moves the subject
on: general work is done, code work proceeds to its integration activity.
-/

namespace AgentCoordinator

open Guarded Tabular

/-- One finding of a review: whether it is required, its remedy and its evidence. -/
structure Finding where
  required : Bool
  remedy : String
  evidence : String

/-- `ReviewInput`. -/
structure ReviewInput where
  generation : Int
  submission : Id
  decision : Decision
  summary : String
  findings : List Finding
  amendmentDecision : Option AmendmentDecision
  reviewIndependence : Option ReviewIndependence

/-- `amendment_outcome`: a review's effective decision, and the accepted criteria to apply. -/
def amendmentOutcome (s : Db) (submission : Id) (input : ReviewInput) :
    Except AppError (Decision × Option (List String)) := do
  let u ← okOr (s.submissions.get? submission) .notFound
  match u.acAmendment, input.amendmentDecision, input.decision with
  | none, none, decision => return (decision, none)
  | some _, none, .changesRequested => return (.changesRequested, none)
  | some _, some .rejected, _ => return (.changesRequested, none)
  | some amendment, some .accepted, .approved => return (.approved, some amendment.new)
  | _, _, _ =>
    .error (.badRequest ("amendment_decision (accepted or rejected) is required exactly when approving " ++
      "a submission with an ac_amendment."))

/-! ### Moving on -/

/-- `save_task_revision`: record the judged fields the task has now. -/
def saveTaskRevision (s : Db) (project task : Id) : Except AppError Db := do
  let t ← s.visibleTask project task
  let revisions ← okOr (s.taskRevisions.insert? ⟨task, t.revision, t.digest⟩) .recordConflict
  return { s with taskRevisions := revisions }

/-- `apply_amendment`: amend the criteria, unless they are in force, and pin the submission to the
amended judged fields. -/
def applyAmendment (s : Db) (project task submission : Id) (criteria : List String) :
    Except AppError Db := do
  let t ← okOr (s.tasks.get? task) .notFound
  let s ←
    (if t.acceptance ≠ criteria then
      saveTaskRevision { s with
        tasks := s.tasks.modify (fun t => t.id = task)
          (fun t => { t with acceptance := criteria, revision := t.revision + 1 }) } project task
    else pure s)
  let t ← okOr (s.tasks.get? task) .notFound
  return { s with
    submissions := s.submissions.modify (fun u => u.id = submission)
      (fun u => { u with taskDigest := some t.digest }) }

/-- `UPDATE workflow_subjects SET phase=…` for one task. -/
def Db.setPhase (s : Db) (task : Id) (phase : Phase) : Db :=
  { s with
    workflowSubjects := s.workflowSubjects.modify (fun ws => ws.task = task)
      (fun ws => { ws with phase := phase, updatedAt := s.now }) }

/-- Mark the subject done with its task, and stamp its dependents. -/
def Db.finishSubject (s : Db) (subjectTask : Id) : Db :=
  (s.setPhase subjectTask .done).completeTask subjectTask

/-- `complete_general_subject`. -/
def completeGeneralSubject (s : Db) (project subjectTask : Id) : Except AppError Db := do
  ensureRequiredChildrenDone s project subjectTask
  ensureAttemptQuiescent s project subjectTask
  ensureWorkflowQuiescent s project subjectTask
  return s.finishSubject subjectTask

/-- The queued reviews of a submission. -/
def queuedReview (submission : Id) (wa : WorkflowActivity) : Prop :=
  wa.submission = submission ∧ wa.kind ≠ .integration ∧ wa.state = .queued

instance (submission : Id) : DecidablePred (queuedReview submission) :=
  fun _ => by unfold queuedReview; infer_instance

/-- Cancel the reviews still queued: the required approvals are satisfied. -/
def Db.cancelQueuedReviews (s : Db) (u : Submission) : Db :=
  (s.cancelTasksOf (queuedReview u.id)).cancelActivities (queuedReview u.id) u.createdBy
    ⟨"review_not_needed", "The required approvals were already satisfied."⟩

/-- The task of the submission's queued integration activity. -/
def Db.queuedIntegrationTask (s : Db) (submission : Id) : Option Id :=
  (s.workflowActivities.rows.find? (fun wa =>
    wa.submission = submission ∧ wa.kind = .integration ∧ wa.state = .queued)).map
      (·.activityTask)

/-- Send a code subject on to its queued integration activity. -/
def Db.startIntegration (s : Db) (subjectTask submission : Id) : Db :=
  let s := s.setPhase subjectTask .integration
  { s with
    tasks := s.tasks.modify (fun t => s.queuedIntegrationTask submission = some t.id)
      (fun t => { t with blockedReason := none, readySince := s.now }) }

/-- `advance_approved_subject`: move a subject whose required reviews are satisfied on. -/
def advanceApprovedSubject (s : Db) (project subjectTask submission : Id) :
    Except AppError Db := do
  let u ← okOr (s.submissions.get? submission) .notFound
  let s := s.cancelQueuedReviews u
  if u.kind = .general then completeGeneralSubject s project subjectTask
  else return s.startIntegration subjectTask submission

/-! ### Requesting changes -/

/-- The other activities of the submission in one of `states`. -/
def otherActivity (submission except : Id) (state : ActivityState) (wa : WorkflowActivity) : Prop :=
  wa.submission = submission ∧ wa.id ≠ except ∧ wa.state = state

instance (submission except : Id) (state : ActivityState) :
    DecidablePred (otherActivity submission except state) :=
  fun _ => by unfold otherActivity; infer_instance

/-- The attempt is the current one of the task of some activity that satisfies `p`. -/
def Db.isCurrentOf (s : Db) (p : WorkflowActivity → Prop) (attempt : Id) : Prop :=
  ∃ wa ∈ s.workflowActivities, p wa ∧
    (s.tasks.get? wa.activityTask).bind (·.currentAttempt) = some attempt

instance (s : Db) (p : WorkflowActivity → Prop) [DecidablePred p] (attempt : Id) :
    Decidable (s.isCurrentOf p attempt) :=
  inferInstanceAs (Decidable (∃ wa ∈ s.workflowActivities, p wa ∧
    (s.tasks.get? wa.activityTask).bind (·.currentAttempt) = some attempt))

/-- `reject_mechanical`: a request for changes on a mechanical revert rejects the revert. -/
def rejectMechanical (s : Db) (project task : Id) : Except AppError Db :=
  if s.isMechanical task then
    saveTaskRevision { s with
      tasks := s.tasks.modify (fun t => t.id = task) (fun t => { t with
        lifecycle := .canceled
        blockedReason := none
        revision := t.revision + 1 }) } project task
  else return s

/-- Cancel the submission's other activities, queued and active, and end their attempts. -/
def Db.cancelOthers (s : Db) (submission except actor : Id) : Db :=
  let why : CancelReason :=
    ⟨"changes_requested", "A review requested changes to this submission."⟩
  let s := s.cancelActivities (otherActivity submission except .queued) actor why
  let s := s.endAttempts
    (fun a => s.isCurrentOf (otherActivity submission except .active) a.id ∧ a.state = .active)
    .canceled "A concurrent review requested changes."
  let s := { s with
    tasks := s.tasks.modify (fun t => s.isTaskOf (otherActivity submission except .active) t.id)
      (Task.closed .canceled) (Task.key_closed .canceled) }
  let s := s.cancelActivities (otherActivity submission except .active) actor why
  s.cancelTasksOf (otherActivity submission except .canceled)

/-- The writes of a request for changes: supersede, send back to revision, cancel the rest. -/
def Db.sendBack (s : Db) (actor : Actor) (ctx : ActivityContext) : Db :=
  let s := s.supersede ctx.submission.id
  let s := s.setPhase ctx.activity.subjectTask .revisionNeeded
  let s := s.cancelOthers ctx.submission.id ctx.activity.id actor.id
  { s with
    tasks := s.tasks.modify (fun t => t.id = ctx.activity.subjectTask)
      (fun t => { t with blockedReason := none, readySince := s.now }) }

/-! ### The decision -/

/-- The row `review` inserts. -/
def reviewDecision (s : Db) (actor : Actor) (ownerSession attempt : Id) (ctx : ActivityContext)
    (decision : Decision) (input : ReviewInput) : ReviewDecision where
  activity := ctx.activity.id
  submission := ctx.submission.id
  attempt := attempt
  reviewer := actor.id
  reviewerSession := ownerSession
  decision := decision
  createdAt := s.now
  amendmentDecision := input.amendmentDecision
  reviewIndependence := input.reviewIndependence
  invalidatedAt := none

/-- Complete the review's activity, its attempt and its task. -/
def Db.completeReview (s : Db) (ctx : ActivityContext) (attempt : Id) (summary : String) : Db :=
  let s := s.endAttempts (fun a => a.id = attempt) .submitted summary
  { s with
    tasks := s.tasks.modify (fun t => t.id = ctx.activity.activityTask) (Task.closed .done)
      (Task.key_closed .done)
    workflowActivities := s.workflowActivities.modify (fun wa => wa.id = ctx.activity.id)
      (fun wa => { wa with state := .completed, completedAt := some s.now }) }

/-- What `review` validates before its transaction. -/
def validateReview (input : ReviewInput) : Except AppError Unit := do
  bounded input.summary "summary" 16384 true
  refuseIf (input.findings.length > 100)
    (.badRequest "Use approved or changes_requested and at most 100 findings.")
  input.findings.forM fun f => do
    bounded f.remedy "finding remedy" 8192 true
    bounded f.evidence "finding evidence" 8192 false
  refuseIf (input.decision = .approved ∧ ∃ f ∈ input.findings, f.required = true)
    (.badRequest "An approval cannot retain an unresolved required finding.")

/-- The caller owns this review and may decide its exact submission. -/
def ensureReviewer (s : Db) (actor : Actor) (project id : Id) (input : ReviewInput) :
    Except AppError ActivityContext := do
  let raw ← activityContext s project id
  let ctx ← ownedActivity s actor project id input.generation raw.activity.kind
  ensureActivityDecisions s project ctx
  refuseIf (ctx.activity.kind = .integration ∨ input.submission ≠ ctx.submission.id)
    (.conflict "review_candidate_mismatch"
      "The review must decide its exact immutable submission.")
  refuseIf ((ctx.activity.kind = .agentReview ∧ actor.kind ≠ .agent) ∨
      (ctx.activity.kind = .humanReview ∧ actor.kind ≠ .human))
    (.forbidden "The authenticated actor type does not match this review slot.")
  (if actor.kind = .agent then do
    let reviewerSession ← session actor
    ensureIndependentReviewer s project ctx.activity.subjectTask actor.id reviewerSession
      input.reviewIndependence
  else pure ())
  ensureAttemptQuiescent s project ctx.activity.activityTask
  return ctx

/-- Apply the amendment a review accepted, if there is one. -/
def applyAccepted (s : Db) (project task submission : Id) (amendment : Option (List String)) :
    Except AppError Db :=
  match amendment with
  | some criteria => applyAmendment s project task submission criteria
  | none => return s

/-- After a decision: send the subject back, or move it on when its reviews are satisfied. -/
def applyDecision (s : Db) (actor : Actor) (project : Id) (ctx : ActivityContext)
    (decision : Decision) (amendment : Option (List String)) : Except AppError Db :=
  match decision with
  | .changesRequested => do
    ensureWorkflowQuiescent s project ctx.activity.subjectTask
    rejectMechanical (s.sendBack actor ctx) project ctx.activity.subjectTask
  | .approved => do
    let satisfied ← approvalsSatisfied s ctx.submission.id
    if satisfied then do
      let s ← applyAccepted s project ctx.activity.subjectTask ctx.submission.id amendment
      advanceApprovedSubject s project ctx.activity.subjectTask ctx.submission.id
    else return s

/-- `review`. -/
def review (s : Db) (actor : Actor) (project id : Id) (input : ReviewInput) :
    Except AppError Db := do
  validateReview input
  let ctx ← ensureReviewer s actor project id input
  let (decision, amendment) ← amendmentOutcome s ctx.submission.id input
  let attempt ← currentAttemptId s ctx.activity.activityTask
  let ownerSession ← session actor
  let decisions ← okOr (s.reviewDecisions.insert?
    (reviewDecision s actor ownerSession attempt ctx decision input)) .recordConflict
  let s := { s with reviewDecisions := decisions }.completeReview ctx attempt input.summary
  let s ← applyDecision s actor project ctx decision amendment
  return s.finish actor "review.decided" ctx.activity.id

end AgentCoordinator
