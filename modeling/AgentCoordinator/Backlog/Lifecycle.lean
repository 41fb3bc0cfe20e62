import AgentCoordinator.Backlog.Admission
import AgentCoordinator.Workflow.Reopen

/-
Archiving, canceling, deleting and restoring tasks, and completing them from outside.

Every one of these is a new revision of its task. A canceled task leaves the queue for good: it is
deleted, or archived when its history must be retained. An external completion records a human's
word that the change of an open task is on the target branch already.
-/

namespace AgentCoordinator

open Guarded Tabular

/-! ### Who may change a lifecycle -/

/-- The four lifecycle actions. -/
inductive LifecycleAction | archive | restore | cancel | delete
  deriving DecidableEq, Repr

/-- The word of an action in its route. -/
def LifecycleAction.word : LifecycleAction → String
  | .archive => "archive"
  | .restore => "restore"
  | .cancel => "cancel"
  | .delete => "delete"

/-- `TaskLifecycleInput`. -/
structure TaskLifecycleInput where
  expectedRevision : Int
  reason : String
  replacement : Option Id

/-- `ensure_lifecycle_actor`: people, and agents where the project delegates the action. -/
def ensureLifecycleActor (s : Db) (actor : Actor) (project : Id) (action : String)
    (delegated : Project → Bool) : Except AppError Unit :=
  if actor.kind = .human then return
  else do
    let p ← okOr (s.projects.get? project) .notFound
    refuseIf (delegated p = false)
      (.humanGate ("task_" ++ action)
        "This project has not delegated this task lifecycle action to agents.")
    discard (session actor)

/-- The stored origin of a task of the project. -/
def Backlog.originOf (b : Backlog) (project task : Id) : Option Origin :=
  ((b.work.db.tasks.get? task).filter (fun t => t.project = project)).map fun _ =>
    if b.work.db.isActivityTask project task then .service
    else (b.origins.get? task).elim .human (·.origin)

/-- `ensure_task_lifecycle_actor`: an agent may also act on what agents and the service created. -/
def ensureTaskLifecycleActor (b : Backlog) (actor : Actor) (project task : Id)
    (action : LifecycleAction) : Except AppError Unit :=
  if actor.kind ≠ .human ∧
      (b.originOf project task = some .agent ∨ b.originOf project task = some .service) then
    discard (session actor)
  else ensureLifecycleActor b.work.db actor project action.word
    (fun p => action = .cancel && p.agentRuleEditing)

/-- `reverted_tasks`: the tasks whose work a revert undoes. -/
def Db.revertedTasks (s : Db) (project task : Id) : List Id :=
  match (s.ext.reverts.get? task).filter (fun tr => tr.project = project) with
  | none => []
  | some tr =>
    let range := (s.ext.integratorResults.get? tr.result).elim [] (·.landingRange)
    let landing (submission : Id) : Bool := decide (∃ o ∈ s.ext.integratorResults,
      o.project = project ∧ o.submission = submission ∧ o.landingRange.any (· ∈ range) = true)
    tr.originalTask ::
      (s.submissions.filter (fun u => u.project = project ∧
        (u.id = tr.submission ∨ u.candidateRevision.any (· ∈ range) = true ∨
          landing u.id = true))).map (·.task) ++
      (s.ext.integratorResults.get? tr.result).elim [] (·.contributorTasks)

/-- `ensure_independent_revert_exit`. -/
def ensureIndependentRevertExit (b : Backlog) (actor : Actor) (project task : Id)
    (action : LifecycleAction) : Except AppError Unit :=
  if actor.kind = .human ∨ ¬ (action = .cancel ∨ action = .archive) then return
  else do
    let own ← session actor
    refuseIf ((b.work.db.revertedTasks project task).any (fun reverted =>
        b.work.db.contributed project reverted actor.id own ||
          b.work.db.launchShared [reverted] own) = true)
      (.conflict "revert_author_conflict"
        ("This agent contributed to the change this revert undoes, or shares a launch with a " ++
          "contributor. An independent agent or a human must cancel or archive the revert."))

/-- `ensure_replacement`. -/
def ensureReplacement (s : Db) (project task : Id) (replacement : Option Id) :
    Except AppError Unit :=
  match replacement with
  | none => return
  | some replacement => do
    refuseIf (replacement = task) (.badRequest "A task cannot replace itself.")
    refuseIf (¬ (s.tasks.get? replacement).any (fun t => t.project = project ∧
        t.deletedAt = none ∧ t.archivedAt = none ∧
        (t.lifecycle = .open ∨ t.lifecycle = .planned ∨ t.lifecycle = .done)) = true)
      (.badRequest
        "replacement_task_id must name a live (open, planned or done) task in this project.")

/-- `open_revert` and `ensure_restorable` take a revert for open: it is planned or open, and not
archived. -/
def Db.openRevert (s : Db) (task : Id) : Bool :=
  (s.tasks.get? task).any (fun t =>
    (t.lifecycle = .planned ∨ t.lifecycle = .open) ∧ t.archivedAt = none)

/-- `ensure_restorable`: no other open revert undoes the same result. -/
def ensureRestorable (s : Db) (task : Id) : Except AppError Unit :=
  refuseIf (∃ other ∈ s.ext.reverts,
      (s.ext.reverts.get? task).any (fun tr =>
        other.result = tr.result ∧ other.task ≠ tr.task) = true ∧ s.openRevert other.task = true)
    (.conflict "revert_exists" "An open revert of this result already exists.")

/-- `has_retained_history`: attempts, links or a subject that deleting the task would lose. -/
def Work.retainsHistory (w : Work) (task : Id) : Prop :=
  (∃ a ∈ w.db.attempts, a.task = task) ∨
    (∃ d ∈ w.dependencies, d.task = task ∨ d.prerequisite = task) ∨
    (∃ c ∈ w.children, c.childTask = task ∨ c.objectiveTask = task) ∨
    (w.db.workflowSubjects.get? task).isSome = true

instance (w : Work) (task : Id) : Decidable (w.retainsHistory task) := by
  unfold Work.retainsHistory; infer_instance

/-- Active review or integration work of a task, or a task that is such work. -/
def Db.protected (s : Db) (task : Id) : Prop :=
  (∃ wa ∈ s.workflowActivities, wa.subjectTask = task ∧
      (wa.state = .queued ∨ wa.state = .active ∨ wa.state = .recoveryRequired)) ∨
    (s.workflowSubjects.get? task).any (fun ws =>
      ws.phase = .review ∨ ws.phase = .integration) = true ∨
    ∃ wa ∈ s.workflowActivities, wa.activityTask = task

instance (s : Db) (task : Id) : Decidable (s.protected task) := by
  unfold Db.protected; infer_instance

/-- The refusals a lifecycle change and an external completion share. -/
def ensureUnprotected (s : Db) (task : Id) : Except AppError Unit :=
  refuseIf (s.protected task)
    (.conflict "task_workflow_protected"
      "Resolve active review or integration work before changing task lifecycle.")

/-! ### Lifecycle changes -/

/-- A task at its next revision, in another lifecycle or another place of the backlog. -/
def Task.moved (lifecycle : Lifecycle) (archivedAt deletedAt : Option Time) (t : Task) : Task :=
  { t with
    lifecycle := lifecycle
    archivedAt := archivedAt
    deletedAt := deletedAt
    revision := t.revision + 1 }

lemma Task.key_moved (lifecycle : Lifecycle) (archivedAt deletedAt : Option Time) (t : Task) :
    Keyed.key (t.moved lifecycle archivedAt deletedAt) = Keyed.key t := rfl

/-- `UPDATE tasks SET …,revision=revision+1`, without a saved revision. -/
def Db.moveTask (s : Db) (task : Id) (lifecycle : Lifecycle) (archivedAt deletedAt : Option Time) :
    Db :=
  { s with
    tasks := s.tasks.modify (fun t => t.id = task) (Task.moved lifecycle archivedAt deletedAt)
      (Task.key_moved lifecycle archivedAt deletedAt) }

/-- The refusal of a task that is not in a lifecycle for the action. -/
def lifecycleInvalid : AppError :=
  .conflict "task_lifecycle_invalid"
    "This task is not in a lifecycle state that permits this action."

/-- Write the action on a task that permits it. What is deleted gets no saved revision. -/
def applyLifecycle (w : Work) (project : Id) (t : Task) (action : LifecycleAction)
    (replaced : Bool) : Except AppError Db :=
  let s := w.db
  match action with
  | .archive => do
    refuseIf (t.archivedAt ≠ none) lifecycleInvalid
    saveTaskRevision (s.moveTask t.id t.lifecycle (some s.now) t.deletedAt) project t.id
  | .restore => do
    refuseIf (t.archivedAt = none) lifecycleInvalid
    saveTaskRevision (s.moveTask t.id t.lifecycle none t.deletedAt) project t.id
  | .cancel => do
    refuseIf (¬ (t.lifecycle = .open ∨ t.lifecycle = .planned)) lifecycleInvalid
    if replaced = false ∧ ¬ w.retainsHistory t.id then
      return s.moveTask t.id .canceled t.archivedAt (some s.now)
    else saveTaskRevision (s.moveTask t.id .canceled (some s.now) t.deletedAt) project t.id
  | .delete => do
    refuseIf (¬ (t.lifecycle = .planned ∨ t.lifecycle = .canceled))
      (.badRequest "Unknown task lifecycle action.")
    refuseIf (w.retainsHistory t.id)
      (.conflict "task_history_protected"
        "This task has history or workflow links. Archive it to retain its records.")
    return s.moveTask t.id t.lifecycle t.archivedAt (some s.now)

/-- The event of an action. -/
def LifecycleAction.event : LifecycleAction → String
  | .archive => "task.archived"
  | .restore => "task.restored"
  | .cancel => "task.canceled"
  | .delete => "task.deleted"

/-- `lifecycle_change`. -/
def lifecycleChange (b : Backlog) (actor : Actor) (project id : Id) (action : LifecycleAction)
    (input : TaskLifecycleInput) : Except AppError Backlog := do
  bounded input.reason "reason" 4096 true
  ensureTaskLifecycleActor b actor project id action
  ensureIndependentRevertExit b actor project id action
  refuseIf (action ≠ .cancel ∧ input.replacement ≠ none)
    (.badRequest "replacement_task_id applies only to cancel.")
  ensureReplacement b.work.db project id input.replacement
  let t ← okOr ((b.work.db.tasks.get? id).filter (fun t => t.project = project ∧
    t.deletedAt = none)) .notFound
  refuseIf (t.archivedAt ≠ none ∧ action ≠ .restore)
    (.conflict "task_archived" "Restore this task before changing its lifecycle.")
  refuseIf (t.revision ≠ input.expectedRevision)
    (.conflict "task_revision_changed"
      "The task changed. Reload it before applying this lifecycle action.")
  (if action = .restore ∧ t.archivedAt ≠ none then ensureRestorable b.work.db id else pure ())
  refuseIf (t.currentAttempt ≠ none)
    (.conflict "task_attempt_protected"
      "Release or resolve the current attempt before changing task lifecycle.")
  ensureUnprotected b.work.db id
  let s ← applyLifecycle b.work project t action input.replacement.isSome
  return { b with work := b.work.withDb (s.finish actor action.event id) }.record project
    action.event

/-! ### External completion -/

/-- `ExternalCompletionInput`; each check with its conclusion. -/
structure ExternalCompletionInput where
  expectedRevision : Int
  deliveredRevision : String
  targetBranch : String
  reason : String
  checks : List (String × String)

/-- What `complete_task_externally` validates before its transaction. -/
def validateExternalCompletion (input : ExternalCompletionInput) : Except AppError Unit := do
  revision input.deliveredRevision "delivered_revision"
  bounded input.targetBranch "target_branch" 255 true
  bounded input.reason "reason" 4096 true
  refuseIf (input.checks = [] ∨ input.checks.length > 100)
    (.badRequest "Cite 1–100 required-check results.")
  input.checks.forM fun check => do
    bounded check.1 "check identity" 255 true
    refuseIf (check.2 ≠ "success")
      (.badRequest ("Every cited required check must have conclusion success on the delivered " ++
        "revision."))

/-- The required checks of the project's current roster. -/
def Db.currentRoster (s : Db) (project : Id) : List RequiredCheck :=
  ((s.ext.workflowPolicies.get? project).bind (fun wp => wp.rosters.head?)).elim [] (·.2)

/-- A task at its next revision, done. -/
def Task.delivered (t : Task) : Task :=
  { t with lifecycle := .done, blockedReason := none, revision := t.revision + 1 }

lemma Task.key_delivered (t : Task) : Keyed.key t.delivered = Keyed.key t := rfl

/-- The writes of an external completion, before its saved revision. -/
def Db.deliver (s : Db) (task : Id) : Db :=
  let delivered : Db := { s with
    tasks := s.tasks.modify (fun t => t.id = task) Task.delivered Task.key_delivered
    workflowSubjects := s.workflowSubjects.modify
      (fun ws => ws.task = task ∧ ws.phase = .revisionNeeded)
      (fun ws => { ws with phase := .done, updatedAt := s.now }) }
  delivered.readyDependents task

/-- `complete_task_externally`. -/
def completeTaskExternally (b : Backlog) (actor : Actor) (project id : Id)
    (input : ExternalCompletionInput) : Except AppError Backlog := do
  validateExternalCompletion input
  refuseIf (actor.kind ≠ .human)
    (.humanGate "task_external_completion"
      ("Only an authenticated human operator can complete a task delivered outside the " ++
        "coordinator; an agent's candidate goes through review and integration."))
  let s := b.work.view
  let p ← okOr (s.projects.get? project) .notFound
  refuseIf (input.targetBranch ≠ p.targetBranch)
    (.conflict "target_branch_mismatch"
      "The delivered revision must be on the project's target branch.")
  refuseIf (∃ required ∈ s.currentRoster project, ∀ check ∈ input.checks,
      check.1 ≠ required.identity)
    (.conflict "required_check_missing"
      "Cite a result for every required check in the workflow policy roster.")
  let t ← s.visibleTask project id
  refuseIf (t.archivedAt ≠ none)
    (.conflict "task_archived" "Restore this task before changing its lifecycle.")
  refuseIf (t.revision ≠ input.expectedRevision)
    (.conflict "task_revision_changed"
      "The task changed. Reload it before applying this lifecycle action.")
  refuseIf (t.lifecycle ≠ .open)
    (.conflict "task_lifecycle_invalid"
      "Only an open task can be completed as delivered externally.")
  refuseIf (t.currentAttempt ≠ none)
    (.conflict "task_attempt_protected"
      "Release or resolve the current attempt before changing task lifecycle.")
  ensureUnprotected s id
  let s ← saveTaskRevision (s.deliver id) project id
  return { b with work := b.work.withDb (s.finish actor "task.completed_externally" id) }.record
    project "task.completed_externally"

/-! ### Unblocking, and delivery by a human -/

/-- A task at its next revision, without its block. -/
def Task.unblocked (now : Time) (t : Task) : Task :=
  { t with blockedReason := none, readySince := now, revision := t.revision + 1 }

lemma Task.key_unblocked (now : Time) (t : Task) : Keyed.key (t.unblocked now) = Keyed.key t := rfl

/-- `unblock_task`. -/
def unblockTask (b : Backlog) (actor : Actor) (project id : Id) (expectedRevision : Int)
    (reason : String) : Except AppError Backlog := do
  bounded reason "reason" 4096 true
  let s := b.work.db
  ensureLifecycleActor s actor project "unblock" (fun p => p.recoveryMode = .agent)
  let t ← s.visibleTask project id
  guardSubjectMutation s project id
  ensureNotMechanical s id
  refuseIf (t.revision ≠ expectedRevision)
    (.conflict "revision_conflict" "Refresh this task first.")
  refuseIf (t.currentAttempt ≠ none ∨ t.lifecycle ≠ .open)
    (.conflict "task_not_editable"
      "An active or expired attempt requires its recovery workflow.")
  ensureAttemptQuiescent s project id
  let s ← saveTaskRevision { s with
    tasks := s.tasks.modify (fun t => t.id = id) (Task.unblocked s.now)
      (Task.key_unblocked s.now) } project id
  return { b with work := b.work.withDb (s.finish actor "task.unblocked" id) }.record project
    "task.unblocked"

/-- `HumanDeliveryInput`. -/
structure HumanDeliveryInput where
  expectedRevision : Int
  humanDelivered : Bool
  reason : String

/-- A task that a human delivers, or does not. -/
def Task.marked (humanDelivered : Bool) (t : Task) : Task :=
  { t with humanDelivered := humanDelivered }

lemma Task.key_marked (humanDelivered : Bool) (t : Task) :
    Keyed.key (t.marked humanDelivered) = Keyed.key t := rfl

/-- The caller may set the mark. -/
def ensureMarks (actor : Actor) (humanDelivered : Bool) : Except AppError Unit :=
  if actor.kind = .human then return
  else do
    discard (session actor)
    refuseIf (actor.isSupervisor = true ∨ humanDelivered = false)
      (.humanGate "human_delivery"
        ("Only a human or an interactive session can mark a task human-delivered, and only a " ++
          "human can clear the mark."))

/-- `set_human_delivery`: the mark is not versioned. -/
def setHumanDelivery (b : Backlog) (actor : Actor) (project id : Id) (input : HumanDeliveryInput) :
    Except AppError Backlog := do
  bounded input.reason "reason" 4096 true
  ensureMarks actor input.humanDelivered
  let s := b.work.db
  let t ← s.visibleTask project id
  refuseIf (t.revision ≠ input.expectedRevision)
    (.conflict "revision_conflict"
      "Read the latest task revision before changing the mark.")
  refuseIf (t.archivedAt ≠ none ∨ ¬ (t.lifecycle = .open ∨ t.lifecycle = .planned))
    (.conflict "task_not_editable"
      "Only an open or planned task can be marked or unmarked as human-delivered.")
  let s := { s with
    tasks := s.tasks.modify (fun t => t.id = id) (Task.marked input.humanDelivered)
      (Task.key_marked input.humanDelivered) }
  return { b with work := b.work.withDb (s.finish actor "task.human_delivery_set" id) }.record
    project "task.human_delivery_set"

end AgentCoordinator
