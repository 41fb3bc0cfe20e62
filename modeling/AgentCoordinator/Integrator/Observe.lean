import AgentCoordinator.Integrator.Authority

/-
Observations of the target.

After a push, or instead of one, the integrator attests what it saw at the target: the result is
contained in the tip, the tip still equals the one it was computed for, or the tip moved elsewhere.
The observation ends push authority, completes the subject when the result is in the target, and
settles a revise that an agent asked for meanwhile: the revise applies if the push did not land, and
becomes a task of its own if it did.
-/

namespace AgentCoordinator

open Guarded Tabular

/-! ### What was seen -/

/-- `ancestry` of an observation: how the tip relates to the result. -/
inductive Ancestry | contained | equalT0 | moved
  deriving DecidableEq, Repr

/-- `ObservationInput`: what the integrator saw at the target for one result. -/
structure TipObservationInput where
  result : Id
  tip : String
  ancestry : Ancestry
  evidence : String

/-- `ObservationInput::validate`. -/
def TipObservationInput.validate (input : TipObservationInput) : Except AppError Unit := do
  revision input.tip "tip"
  bounded input.evidence "evidence" 16384 true

/-- A row of `observed_sql`: a result with its submission and its subject. -/
structure ObservedResult where
  result : IntegratorResult
  submission : Submission
  subject : WorkflowSubject

/-- `observed_result`. -/
def observedResult (s : Db) (project id : Id) : Except AppError ObservedResult := do
  let r ← loadResult s project id
  let u ← okOr (s.submissions.get? r.submission) .notFound
  let ws ← okOr (s.workflowSubjects.get? u.task) .notFound
  refuseIf (ws.phase = .done)
    (.conflict "result_already_published"
      "This subject is already integrated; nothing is left to observe.")
  return ⟨r, u, ws⟩

/-- `still_current`. -/
def ObservedResult.stillCurrent (o : ObservedResult) : Bool :=
  o.submission.supersededAt = none && o.subject.currentSubmission = o.submission.id

/-- The tip contradicts the ancestry. -/
def ObservedResult.contradicts (o : ObservedResult) (input : TipObservationInput) : Prop :=
  match input.ancestry with
  | .equalT0 => input.tip ≠ o.result.t0
  | .moved => input.tip = o.result.t0 ∨ input.tip = o.result.r
  | .contained => False

instance (o : ObservedResult) (input : TipObservationInput) : Decidable (o.contradicts input) := by
  unfold ObservedResult.contradicts; split <;> infer_instance

/-- What an ancestry means for the observed result. -/
def ObservedResult.classify (o : ObservedResult) : Ancestry → ObservedDisposition
  | .contained =>
    if o.stillCurrent = false then .publishedAfterReopen
    else if o.result.r = o.result.t0 then .alreadyContained
    else .published
  | .equalT0 => .notPublished
  | .moved => .targetMoved

/-- `disposition`. -/
def ObservedResult.disposition (o : ObservedResult) (input : TipObservationInput) :
    Except AppError ObservedDisposition := do
  refuseIf (o.contradicts input)
    (.badRequest ("tip contradicts ancestry: equal_t0 needs tip == t0; moved needs a tip other " ++
      "than t0 and r."))
  return o.classify input.ancestry

/-- The word of a disposition. -/
def ObservedDisposition.word : ObservedDisposition → String
  | .published => "published"
  | .alreadyContained => "already_contained"
  | .publishedAfterReopen => "published_after_reopen"
  | .notPublished => "not_published"
  | .targetMoved => "target_moved"

/-- The result is in the target, and its submission is the current one. -/
def ObservedDisposition.landed (d : ObservedDisposition) : Bool :=
  d = .published || d = .alreadyContained

/-- `ensure_observable`. -/
def ensureObservable (s : Db) (o : ObservedResult) (d : ObservedDisposition) :
    Except AppError Unit := do
  refuseIf ((s.outstandingAuthority? o.result.submission).any (fun r => r.id ≠ o.result.id) = true)
    (.conflict "observation_required"
      "Another result of this submission holds push authority; observe that result first.")
  refuseIf (d = .published ∧ o.result.authorityIssuedAt = none)
    (.conflict "authority_not_issued"
      "R is reported published, but this result holds no push authority.")

/-- `insert_observation`. -/
def Db.insertObservation (s : Db) (input : TipObservationInput) (d : ObservedDisposition) : Db :=
  { s with ext := { s.ext with
    integratorObservations := s.ext.integratorObservations ++
      [⟨input.result, input.tip, d, s.now⟩] } }

/-! ### The subject -/

/-- The activity is one of the submission. -/
def Db.activityOf (s : Db) (submission activity : Id) : Prop :=
  (s.workflowActivities.get? activity).any (fun wa => wa.submission = submission) = true

instance (s : Db) (submission : Id) : DecidablePred (s.activityOf submission) :=
  fun _ => by unfold Db.activityOf; infer_instance

/-- `end_authority`. -/
def Db.endAuthority (s : Db) (actor : Actor) (o : ObservedResult) (why : String) : Db :=
  (s.updateResult o.result.id (fun r => { r with authorityIssuedAt := none }) fun _ => rfl).releaseHolds
    (s.activityOf o.result.submission) actor.id why

/-- An integration of the submission. -/
def integrationOf (submission : Id) (wa : WorkflowActivity) : Prop :=
  wa.submission = submission ∧ wa.kind = .integration

instance (submission : Id) : DecidablePred (integrationOf submission) :=
  fun _ => by unfold integrationOf; infer_instance

/-- `complete_subject`. -/
def Db.completeSubject (s : Db) (o : ObservedResult) : Db :=
  let task := o.submission.task
  let s := { s with
    tasks := s.tasks.modify
      (fun t => t.id = task ∨ s.isTaskOf (integrationOf o.result.submission) t.id)
      (Task.closed .done) (Task.key_closed .done)
    workflowActivities := s.workflowActivities.modify (liveIntegrationOf o.result.submission)
      (fun wa => { wa with state := .completed, completedAt := some s.now }) }
  (s.setPhase task .done).readyDependents task

/-! ### Re-landing -/

/-- `defect_revert`: the revert of the task, of a defect and without a re-land task yet, with the
original task and the candidate that was reverted. -/
def Integration.defectRevert (n : Integration) (task : Id) : Option (TaskRevert × Task × String) := do
  let target ← (n.db.ext.reverts.get? task).filter (fun tr =>
    tr.reason = .defect ∧ task ∉ n.relands)
  let original ← n.db.tasks.get? target.originalTask
  let u ← n.db.submissions.get? target.submission
  return (target, original, (u.candidateRef <|> u.candidateRevision).getD "")

/-- `propose_reland`, of the revert of this task. -/
def Integration.proposeReland (n : Integration) (project task : Id) :
    Except AppError Integration :=
  match n.defectRevert task with
  | none => return n
  | some (target, original, candidate) => do
    let b ← n.backlog.proposeReland project original target candidate
    return { n with backlog := b, relands := n.relands ++ [task] }

/-! ### A deferred revise -/

/-- `pending_revise`. -/
def Db.pendingRevise (s : Db) (submission : Id) : Option ReviseRequest :=
  (s.ext.reviseRequests.get? submission).filter (fun q => q.resolvedAt = none)

/-- What becomes of a deferred revise. -/
inductive ReviseOutcome
  | moot
  | applied
  | followUp (task : Id)
  deriving DecidableEq, Repr

/-- A request that is resolved so. -/
def ReviseRequest.resolve (now : Time) (outcome : ReviseOutcome) (q : ReviseRequest) :
    ReviseRequest :=
  match outcome with
  | .moot => { q with resolvedAt := some now }
  | .applied => { q with resolvedAt := some now, resolution := some .applied, followUpTask := none }
  | .followUp task => { q with
      resolvedAt := some now
      resolution := some .followUp
      followUpTask := some task }

lemma ReviseRequest.key_resolve (now : Time) (outcome : ReviseOutcome) (q : ReviseRequest) :
    Keyed.key (q.resolve now outcome) = Keyed.key q := by
  cases outcome <;> rfl

/-- `moot_revise` and `resolve_revise`. -/
def Db.resolveRevise (s : Db) (submission : Id) (outcome : ReviseOutcome) : Db :=
  { s with ext := { s.ext with
    reviseRequests := s.ext.reviseRequests.modify (fun q => q.submission = submission)
      (ReviseRequest.resolve s.now outcome) (ReviseRequest.key_resolve s.now outcome) } }

/-- `create_follow_up`: a withdraw that lost to a push reverts what landed; every other revise that
lost becomes an ordinary task. -/
def createFollowUp (b : Backlog) (project : Id) (o : ObservedResult) (published : Bool)
    (request : ReviseRequest) : Except AppError (Backlog × Id) :=
  if published = true ∧ request.reasonCode = "author_withdraw" then
    b.createAutomatic project o.result.id request
  else do
    let t ← okOr (b.work.db.tasks.get? o.submission.task) .notFound
    let id := b.work.db.tasks.fresh
    let b ← b.createFollowUp project t request.reasonCode o.result.r request.reason
      (request.evidence.getD "")
    return (b, id)

/-- `apply_revise`: the submission is superseded in the name of the agent that asked for it. -/
def applyRevise (s : Db) (actor : Actor) (project : Id) (o : ObservedResult)
    (request : ReviseRequest) : Except AppError Db := do
  let s ← supersedeSubmission s { actor with id := request.requestedBy } project o.submission.task
    { submission := o.result.submission
      reason := request.reason
      reasonCode := some request.reasonCode
      evidence := request.evidence }
  return s.resolveRevise o.result.submission .applied

/-- `settle_revise`. -/
def settleRevise (n : Integration) (actor : Actor) (project : Id) (o : ObservedResult)
    (d : ObservedDisposition) : Except AppError (Integration × Option ReviseOutcome) :=
  match n.db.pendingRevise o.result.submission with
  | none => return (n, none)
  | some request =>
    if o.stillCurrent = false then
      return (n.withDb (n.db.resolveRevise o.result.submission .moot), some .moot)
    else if d.landed = false then do
      let s ← applyRevise n.db actor project o request
      return (n.withDb s, some .applied)
    else do
      let (b, task) ← createFollowUp n.backlog project o (d = .published) request
      let n := { n with backlog := b }
      return (n.withDb (n.db.resolveRevise o.result.submission (.followUp task)),
        some (.followUp task))

/-! ### Observing -/

/-- `apply_disposition`, after the authority ended: a result that landed completes its subject, and
a published one may be re-landed later. -/
def completeLanded (n : Integration) (project : Id) (o : ObservedResult)
    (d : ObservedDisposition) : Except AppError Integration :=
  if d.landed = false then return n
  else
    let n := n.withDb (n.db.completeSubject o)
    if d = .published then n.proposeReland project o.submission.task else return n

/-- `apply_disposition`. -/
def applyDisposition (n : Integration) (actor : Actor) (project : Id) (o : ObservedResult)
    (d : ObservedDisposition) : Except AppError (Integration × Option ReviseOutcome) := do
  let n := n.withDb (n.db.endAuthority actor o ("Integrator observation: " ++ d.word ++ "."))
  let n ← completeLanded n project o d
  settleRevise n actor project o d

/-- `observe`. -/
def Integration.observe (n : Integration) (auth : Auth) (project : Id) (input : TipObservationInput) :
    Except AppError (Integration × ObservedDisposition × Option ReviseOutcome) := do
  input.validate
  -- the relations between tasks are read from their tables
  let n := n.withDb n.backlog.work.view
  let actor ← beginIntegrator n.db auth
  requireIntegratorProject n.db project
  let o ← observedResult n.db project input.result
  let d ← o.disposition input
  ensureObservable n.db o d
  let (n, outcome) ← applyDisposition (n.withDb (n.db.insertObservation input d)) actor project o d
  return ((n.withDb (n.db.finish actor "integrator.observed" input.result)).record project
    "integrator.observed", d, outcome)

end AgentCoordinator
