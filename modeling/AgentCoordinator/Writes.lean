import AgentCoordinator.Autonomy

/-
The writes that several handlers share.

Each is one statement, or a fixed group of statements, of the source: end an attempt, grant a new
one, queue an activity with its task, cancel activities, release a hold. They are total functions
on the database; the handlers check first and write afterwards.
-/

namespace AgentCoordinator

open Guarded Tabular

/-! ### Attempts -/

/-- End the attempts that satisfy `p`. -/
def Db.endAttempts (s : Db) (p : Attempt → Prop) [DecidablePred p] (state : AttemptState)
    (outcome : String) : Db :=
  { s with
    attempts := s.attempts.modify p
      (fun a => { a with state := state, endedAt := some s.now, outcome := some outcome }) }

/-- What a claim grants. -/
structure Grant where
  project : Id
  task : Id
  owner : Id
  session : Id
  credential : Option Id
  generation : Int
  mode : AttemptMode
  expiresAt : Time
  taskRevision : Int
  policyRevision : Int

/-- The attempt a grant creates at `now`. -/
def Grant.attempt (g : Grant) (now : Time) (id : Id) : Attempt where
  id := id
  project := g.project
  task := g.task
  owner := g.owner
  session := g.session
  credential := g.credential
  generation := g.generation
  state := .active
  mode := g.mode
  expiresAt := g.expiresAt
  lastHeartbeatAt := now
  lastProgressAt := now
  createdAt := now
  endedAt := none
  outcome := none
  taskRevision := some g.taskRevision
  policyRevision := some g.policyRevision

/-- Insert the new attempt and point its task at it. The unique indexes refuse a second active
attempt of the task and a second attempt of the generation. -/
def Db.grantAttempt (s : Db) (g : Grant) : Except AppError Db := do
  refuseIf (∃ a ∈ s.attempts, a.task = g.task ∧ (a.state = .active ∨ a.generation = g.generation))
    .recordConflict
  return { s with
    attempts := s.attempts.create (g.attempt s.now)
    tasks := s.tasks.modify (fun t => t.id = g.task) (fun t =>
      { t with currentAttempt := some s.attempts.fresh, generation := g.generation }) }

/-- The largest millisecond timestamp (`i64::MAX`). -/
def maxTime : Time := 9223372036854775807

/-- `attempt_limit`: the latest an attempt created at `createdAt` may hold its lease. -/
def attemptLimit (maxAttemptSeconds : Int) (createdAt : Time) : Time :=
  if maxAttemptSeconds = 0 then maxTime
  else min maxTime (createdAt + min maxTime (maxAttemptSeconds * 1000))

/-- `add_checkpoint`, for a checkpoint without contributor sessions. -/
def Db.addCheckpoint (s : Db) (attempt : Id) (revision : Option String) : Db :=
  { s with
    checkpoints := s.checkpoints ++ [⟨attempt, revision, s.now⟩]
    attempts := s.attempts.modify (fun a => a.id = attempt)
      (fun a => { a with lastProgressAt := s.now }) }

/-! ### Activities -/

/-- The title `create_activity` gives the activity's task. -/
def activityTitle (kind : ActivityKind) (title : String) : String :=
  match kind with
  | .agentReview => "Agent review: " ++ title
  | .humanReview => "Human review: " ++ title
  | .eitherReview => "Agent or human review: " ++ title
  | .integration => "Integrate: " ++ title

/-- The task an activity is worked under. -/
def activityTask (s : Db) (project submission : Id) (kind : ActivityKind) (title : String)
    (id : Id) : Task where
  id := id
  project := project
  title := activityTitle kind title
  description :=
    "Internal workflow activity for submission " ++ toString submission ++ "."
  acceptance :=
    [if kind = .integration then "Publish and validate the exact integrated result"
     else "Record a decision for the immutable submission"]
  kind := .general
  priority := 0
  lifecycle := .open
  revision := 1
  generation := 0
  currentAttempt := none
  blockedReason := none
  readySince := s.now
  archivedAt := none
  deletedAt := none
  humanDelivered := false

/-- A queued activity. -/
def queuedActivity (s : Db) (project subjectTask submission activityTask : Id)
    (kind : ActivityKind) (slot : Nat) (id : Id) : WorkflowActivity where
  id := id
  project := project
  subjectTask := subjectTask
  submission := submission
  activityTask := activityTask
  kind := kind
  slot := slot
  state := .queued
  createdAt := s.now
  completedAt := none
  canceledAt := none
  cancelCode := none
  cancelDetail := none

/-- `create_activity`: queue an activity of `submission` with a task of its own. Task, first task
revision and activity get new identities. -/
def Db.createActivity (s : Db) (project subjectTask : Id) (title : String) (submission : Id)
    (kind : ActivityKind) (slot : Nat) : Db :=
  let mk := activityTask s project submission kind title
  { s with
    tasks := s.tasks.create mk
    taskRevisions := s.taskRevisions.put ⟨s.tasks.fresh, 1, (mk s.tasks.fresh).digest⟩
    workflowActivities := s.workflowActivities.create
      (queuedActivity s project subjectTask submission s.tasks.fresh kind slot) }

/-- The next free slot of the submission's activities of `kind`. -/
def Db.nextSlot (s : Db) (submission : Id) (kind : ActivityKind) : Nat :=
  ((s.workflowActivities.filter (fun wa => wa.submission = submission ∧ wa.kind = kind)).map
    (·.slot)).foldr max 0 + 1

/-- Why workflow activities are canceled. -/
structure CancelReason where
  code : String
  detail : String

/-- `cancel_activities`: cancel the given live activities with `why`, and record an event on the
subject task for each integration activity among them. -/
def Db.cancelActivities (s : Db) (p : WorkflowActivity → Prop) [DecidablePred p] (actor : Id)
    (why : CancelReason) : Db :=
  { s with
    workflowActivities := s.workflowActivities.modify
      (fun wa => p wa ∧ (wa.state = .queued ∨ wa.state = .active))
      (fun wa => { wa with
        state := .canceled
        canceledAt := some s.now
        cancelCode := some why.code
        cancelDetail := some why.detail })
    events := s.events ++
      (s.workflowActivities.filter (fun wa =>
        p wa ∧ (wa.state = .queued ∨ wa.state = .active) ∧ wa.kind = .integration)).map
          (fun wa => ⟨actor, "workflow.activity_canceled", wa.subjectTask, s.now⟩) }

/-- A task whose work ends: it has no owner and no block any more. -/
def Task.closed (lifecycle : Lifecycle) (t : Task) : Task :=
  { t with lifecycle := lifecycle, currentAttempt := none, blockedReason := none }

lemma Task.key_closed (lifecycle : Lifecycle) (t : Task) :
    Keyed.key (t.closed lifecycle) = Keyed.key t := rfl

@[simp] lemma Task.closed_currentAttempt (lifecycle : Lifecycle) (t : Task) :
    (t.closed lifecycle).currentAttempt = none := rfl

/-- A canceled task, without its block. -/
def Task.dropped (t : Task) : Task := { t with lifecycle := .canceled, blockedReason := none }

lemma Task.key_dropped (t : Task) : Keyed.key t.dropped = Keyed.key t := rfl

@[simp] lemma Task.dropped_currentAttempt (t : Task) :
    t.dropped.currentAttempt = t.currentAttempt := rfl

/-- The task of some activity that satisfies `p`. -/
def Db.isTaskOf (s : Db) (p : WorkflowActivity → Prop) (task : Id) : Prop :=
  ∃ wa ∈ s.workflowActivities, p wa ∧ wa.activityTask = task

instance (s : Db) (p : WorkflowActivity → Prop) [DecidablePred p] (task : Id) :
    Decidable (s.isTaskOf p task) :=
  inferInstanceAs (Decidable (∃ wa ∈ s.workflowActivities, p wa ∧ wa.activityTask = task))

/-- `UPDATE tasks SET lifecycle='canceled',blocked_reason=NULL`, for the tasks of the activities
that satisfy `p`. -/
def Db.cancelTasksOf (s : Db) (p : WorkflowActivity → Prop) [DecidablePred p] : Db :=
  { s with tasks := s.tasks.modify (fun t => s.isTaskOf p t.id) Task.dropped Task.key_dropped }

/-! ### Holds -/

/-- Release the held holds of the activities that satisfy `p`. -/
def Db.releaseHolds (s : Db) (p : Id → Prop) [DecidablePred p] (actor : Id) (reason : String) :
    Db :=
  { s with
    integrationHolds := s.integrationHolds.modify
      (fun h => p h.activity ∧ h.state = .held)
      (fun h => { h with
        state := .released
        releasedBy := some actor
        releasedAt := some s.now
        releaseReason := some reason }) }

/-- The hold an activity takes on its target. -/
def heldHold (s : Db) (activity : Id) (key branch : String) (actor : Id) (id : Id) :
    IntegrationHold where
  id := id
  activity := activity
  canonicalRepositoryKey := key
  targetBranch := branch
  state := .held
  acquiredBy := actor
  acquiredAt := s.now
  releasedBy := none
  releasedAt := none
  releaseReason := none

/-- Insert a held hold. The unique indexes refuse a second hold of the activity and a second held
hold of the target. -/
def Db.insertHold (s : Db) (activity : Id) (key branch : String) (actor : Id)
    (taken : AppError) : Except AppError Db := do
  refuseIf (∃ h ∈ s.integrationHolds, h.activity = activity ∨
      (h.canonicalRepositoryKey = key ∧ h.targetBranch = branch ∧ h.state = .held)) taken
  return { s with
    integrationHolds := s.integrationHolds.create (heldHold s activity key branch actor) }

/-- `ready_dependents`: stamp the tasks and objectives that waited for `task` alone. -/
def Db.readyDependents (s : Db) (task : Id) : Db :=
  let waits (edges : List (Id × Id)) (t : Task) : Prop :=
    (t.id, task) ∈ edges ∧ ∀ e ∈ edges, e.1 = t.id →
      (s.tasks.get? e.2).all (fun p => p.lifecycle = .done) = true
  { s with
    tasks := s.tasks.modify
      (fun t => waits s.ext.dependencies t ∨ waits s.ext.requiredChildren t)
      (fun t => { t with readySince := s.now }) }

end AgentCoordinator
