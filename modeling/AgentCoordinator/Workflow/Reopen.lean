import AgentCoordinator.Workflow.Reconcile

/-
Reopening a submission.

A human, or an agent that may revise, sends a candidate back: its activities are canceled, their
attempts end, its hold is released, and the subject task becomes claimable again. An agent revise
waits while the integrator holds push authority for the submission. An intent that was not settled
as `not_published` blocks the reopen.
-/

namespace AgentCoordinator

open Guarded Tabular

/-- `ReopenSubmissionInput`. -/
structure ReopenSubmissionInput where
  submission : Id
  reason : String
  reasonCode : Option String
  evidence : Option String

/-! ### Who may revise -/

/-- `require_evidence`. -/
def requireEvidence (evidence : Option String) : Except AppError Unit :=
  refuseIf (evidence.all (fun value => value.toList.all isWhitespace || value.utf8ByteSize > 16384)
      = true)
    (.badRequest "This reason_code needs 1–16384 bytes of evidence.")

/-- `holds_integration`: the caller's session owns the submission's live integration attempt. -/
def Db.holdsIntegration (s : Db) (actor : Actor) (submission : Id) : Bool :=
  decide (∃ wa ∈ s.workflowActivities, wa.submission = submission ∧ wa.kind = .integration ∧
    wa.state = .active ∧ (((s.tasks.get? wa.activityTask).bind s.attemptOf).any (fun a =>
      a.state = .active ∧ a.owner = actor.id ∧ some a.session = actor.session ∧
        a.expiresAt > s.now)) = true)

/-- `candidate_missing`: a code submission without a durable candidate ref. -/
def Db.candidateMissing (s : Db) (submission : Id) : Bool :=
  (s.submissions.get? submission).any (fun u =>
    u.kind = .code ∧ (u.candidateRef = none ∨ u.candidateRef = some ""))

/-- `digest_changed`: the task's judged fields differ from those the submission pinned. -/
def Db.digestChanged (s : Db) (submission task : Id) : Bool :=
  ((s.submissions.get? submission).bind (·.taskDigest)).any (fun pinned =>
    (s.tasks.get? task).any (fun t => pinned ≠ t.digest))

/-- `ensure_revise_actor`: the reason code's allowed actor and its evidence. -/
def ensureReviseActor (s : Db) (actor : Actor) (task : Id) (input : ReopenSubmissionInput)
    (code : String) : Except AppError Unit := do
  let allowed ←
    if code = "conflict" ∨ code = "check_failed" then do
      requireEvidence input.evidence
      pure (s.holdsIntegration actor input.submission)
    else if code = "candidate_missing" then pure (s.candidateMissing input.submission)
    else if code = "requirements_changed" then
      pure (!s.taskContributors.any (fun tc => tc.task = task && tc.principal = actor.id) &&
        s.digestChanged input.submission task)
    else if code = "author_withdraw" then
      pure ((s.submissions.get? input.submission).any (fun u => u.createdBy = actor.id))
    else .error (.badRequest "Unknown reason_code.")
  refuseIf (allowed = false)
    (.conflict "revise_not_permitted"
      "This caller or the recorded state does not permit this revise reason.")

/-- `authorize_revise`, for callers other than humans. -/
def authorizeRevise (s : Db) (actor : Actor) (project task : Id) (input : ReopenSubmissionInput) :
    Except AppError Unit :=
  if actor.kind = .human then pure ()
  else do
    discard (session actor)
    let p ← okOr (s.projects.get? project) .notFound
    refuseIf (p.recoveryMode ≠ .agent)
      (.humanCoded "human_reopen_required"
        "This project reserves reopening submissions to a human (recovery_mode is manual).")
    let code ← okOr input.reasonCode
      (.badRequest ("Agents must give reason_code: conflict, check_failed, candidate_missing, " ++
        "requirements_changed or author_withdraw."))
    refuseIf (s.reviseLimitReached task = true) reviseLimitRefusal
    ensureReviseActor s actor task input code

/-- `outstanding_authority`: the result that the integrator may still push for a submission. -/
def Db.outstandingAuthority? (s : Db) (submission : Id) : Option IntegratorResult :=
  s.ext.integratorResults.rows.find? (fun r =>
    r.submission = submission && r.authorityIssuedAt.isSome)

/-- The integrator may still push this submission. -/
def Db.outstandingAuthority (s : Db) (submission : Id) : Bool :=
  (s.outstandingAuthority? submission).isSome

/-- The result whose push a revise by this caller waits for. -/
def Db.pushAwaited (s : Db) (actor : Actor) (submission : Id) : Option IntegratorResult :=
  if actor.kind = .human then none else s.outstandingAuthority? submission

/-- `defer_revise`: record an agent's revise, which waits for a result's push, for later. -/
def deferRevise (s : Db) (actor : Actor) (result : Id) (input : ReopenSubmissionInput) :
    Except AppError Db := do
  refuseIf ((s.ext.reviseRequests.get? input.submission).isSome = true)
    (.conflict "revise_already_pending"
      "A revise already waits for this submission's outstanding push.")
  return { s with ext := { s.ext with
    reviseRequests := s.ext.reviseRequests.put
      { submission := input.submission
        result := result
        requestedBy := actor.id
        reason := input.reason
        reasonCode := input.reasonCode.getD ""
        evidence := input.evidence
        requestedAt := s.now
        resolvedAt := none
        resolution := none
        followUpTask := none } } }

/-! ### Superseding -/

/-- `supersede_reason`: the code and text a superseded submission's activities are canceled with;
`movedBy` is the published result that the integrator says moved the target. -/
def supersedeReason (input : ReopenSubmissionInput) (movedBy : Option Id := none) : CancelReason :=
  match input.reasonCode, movedBy with
  | some "conflict", some _ => ⟨"target_advanced",
      "The target branch advanced past the submission's base revision; rebase onto the current " ++
        "target. " ++ input.reason⟩
  | some "conflict", none => ⟨"merge_conflict",
      "The candidate conflicts with the target branch; resolve the conflict. " ++ input.reason⟩
  | some code, _ => ⟨code, input.reason⟩
  | none, _ => ⟨"manual", input.reason⟩

/-- `AWAITING_CANDIDATE`. -/
def awaitingCandidate : String :=
  "Waiting for the integrator to record the mechanical revert candidate."

/-- The activities of a submission. -/
def ofSubmission (submission : Id) (wa : WorkflowActivity) : Prop := wa.submission = submission

instance (submission : Id) : DecidablePred (ofSubmission submission) :=
  fun _ => by unfold ofSubmission; infer_instance

/-- The canceled activities of a submission. -/
def canceledOf (submission : Id) (wa : WorkflowActivity) : Prop :=
  wa.submission = submission ∧ wa.state = .canceled

instance (submission : Id) : DecidablePred (canceledOf submission) :=
  fun _ => by unfold canceledOf; infer_instance

/-- End the live attempts of the submission's activities and free their tasks. -/
def Db.endActivityAttempts (s : Db) (submission : Id) : Db :=
  let s := s.endAttempts
    (fun a => s.isCurrentOf (ofSubmission submission) a.id ∧ a.state = .active) .canceled
    "Workflow reopened: expired, revoked, stale, or revised authority."
  { s with
    tasks := s.tasks.modify (fun t => s.isTaskOf (ofSubmission submission) t.id)
      (fun t => { t with currentAttempt := none }) }

/-- The writes of `supersede_submission`. -/
def Db.sendToRevision (s : Db) (actor : Actor) (task : Id) (input : ReopenSubmissionInput)
    (movedBy : Option Id := none) : Db :=
  let s := s.endActivityAttempts input.submission
  let s := (s.supersede input.submission).setPhase task .revisionNeeded
  let s := s.cancelActivities (ofSubmission input.submission) actor.id
    (supersedeReason input movedBy)
  let s := s.cancelTasksOf (canceledOf input.submission)
  let s := s.releaseHolds
    (fun a => (s.workflowActivities.get? a).any (fun wa => wa.submission = input.submission) = true)
    actor.id input.reason
  -- `restore_awaiting`: a mechanical revert waits for the integrator instead
  let blocked := if s.isMechanical task then some awaitingCandidate else none
  { s with
    tasks := s.tasks.modify (fun t => t.id = task)
      (fun t => { t with blockedReason := blocked, readySince := s.now }) }

/-- `supersede_submission`. -/
def supersedeSubmission (s : Db) (actor : Actor) (project task : Id)
    (input : ReopenSubmissionInput) (movedBy : Option Id := none) : Except AppError Db := do
  ensureAttemptQuiescent s project task
  ensureWorkflowQuiescent s project task
  return s.sendToRevision actor task input movedBy

/-! ### Reopening -/

/-- Publication intents of the submission that are not settled as `not_published`. -/
def Db.publicationEffects (s : Db) (submission : Id) : Prop :=
  ∃ wa ∈ s.workflowActivities, wa.submission = submission ∧
    (s.publicationIntents.get? wa.id).isSome = true ∧
    (s.publicationReconciliations.get? wa.id).all (fun pr => pr.disposition ≠ .notPublished) = true

instance (s : Db) (submission : Id) : Decidable (s.publicationEffects submission) := by
  unfold Db.publicationEffects; infer_instance

/-- The snapshot of the task's workflow has no blockers: the judged fields are still those its
current submission pinned. An activity task is looked up as its subject. -/
def Db.snapshotFresh (s : Db) (project task : Id) : Bool :=
  let mapped := ((s.workflowActivities.rows.find? (fun wa =>
    wa.project = project ∧ wa.activityTask = task)).map (·.subjectTask)).getD task
  ((s.workflowSubjects.get? mapped).filter (fun ws => ws.project = project)).all
    (fun ws => !s.digestChanged ws.currentSubmission mapped)

/-- A live authorized attempt of somebody else works on an activity of the submission. -/
def Db.activityOwned (s : Db) (actor : Actor) (submission : Id) : Prop :=
  ∃ wa ∈ s.workflowActivities, wa.submission = submission ∧
    ((s.tasks.get? wa.activityTask).bind s.attemptOf).any (fun a =>
      a.expiresAt > s.now ∧ a.ownerAuthorized s.ext s.now = true ∧
        ¬ (a.owner = actor.id ∧ some a.session = actor.session)) = true

instance (s : Db) (actor : Actor) (submission : Id) :
    Decidable (s.activityOwned actor submission) := by
  unfold Db.activityOwned; infer_instance

/-- `reopen`. -/
def reopen (s : Db) (actor : Actor) (project task : Id) (input : ReopenSubmissionInput) :
    Except AppError Db := do
  bounded input.reason "reason" 8192 true
  let subject ← okOr ((s.workflowSubjects.get? task).filter (fun ws => ws.project = project))
    .notFound
  refuseIf (subject.currentSubmission ≠ input.submission)
    (.conflict "submission_changed" "Reopen must name the exact current submission.")
  refuseIf (subject.phase = .done)
    (.conflict "workflow_complete" "A completed workflow cannot be reopened.")
  authorizeRevise s actor project task input
  match s.pushAwaited actor input.submission with
  | some result => do
    let s ← deferRevise s actor result.id input
    return s.finish actor "submission.revise_deferred" input.submission
  | none => do
    refuseIf (s.publicationEffects input.submission)
      (.conflict "publication_reconciliation_required"
        ("Publication intent or result exists. Reconcile that external effect before " ++
          "reopening revision work."))
    refuseIf (s.snapshotFresh project task = true ∧ s.activityOwned actor input.submission)
      (.conflict "activity_owned"
        "Release every live current workflow activity before reopening.")
    let s ← supersedeSubmission s actor project task input
    return s.finish actor "submission.reopened" input.submission

end AgentCoordinator
