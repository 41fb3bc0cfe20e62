import AgentCoordinator.Library.Digraph
import AgentCoordinator.Workflow.Review

/-
Task prerequisites and objectives.

A task waits for its prerequisites (`task_dependencies`), and an objective for its children
(`objective_children`). Four handlers write these relations: tasks are created and edited with
their prerequisites, objectives are created and edited with their children. A fifth, the
integrator's revise of a conflicting candidate, lets its task wait for the one whose landing is in
the way. Each checks every edge against both relations before it writes any.
-/

namespace AgentCoordinator

open Guarded Tabular Digraph

/-! ### Rows -/

/-- `task_dependencies`. -/
structure TaskDependency where
  project : Id
  task : Id
  prerequisite : Id
  deriving DecidableEq, Repr

/-- `objective_children`. -/
structure ObjectiveChild where
  project : Id
  objectiveTask : Id
  childTask : Id
  required : Bool
  position : Nat
  deriving DecidableEq, Repr

/-- `objectives`. -/
structure Objective where
  task : Id
  project : Id
  revision : Int

instance : Keyed Objective Id := ⟨Objective.task⟩

/-- `task_definition_grants`, of those that are not revoked: a principal or a role. -/
structure DefinitionGrant where
  project : Id
  target : Id ⊕ Role
  deriving DecidableEq

/-- The database, with the relations between its tasks. -/
structure Work where
  db : Db
  dependencies : List TaskDependency
  children : List ObjectiveChild
  objectives : Table Objective
  definitionGrants : List DefinitionGrant
  /-- Tasks with `budget_held_at` set. -/
  budgetHeld : List Id

/-- The work with the database a request left. -/
def Work.withDb (w : Work) (s : Db) : Work := { w with db := s }

@[simp] lemma Work.db_withDb (w : Work) (s : Db) : (w.withDb s).db = s := rfl

@[simp] lemma Work.dependencies_withDb (w : Work) (s : Db) :
    (w.withDb s).dependencies = w.dependencies := rfl

@[simp] lemma Work.children_withDb (w : Work) (s : Db) : (w.withDb s).children = w.children := rfl

/-- What waits for what: tasks for prerequisites, and objectives for children. -/
def Work.edges (w : Work) : List (Id × Id) :=
  w.dependencies.map (fun d => (d.task, d.prerequisite)) ++
    w.children.map (fun c => (c.objectiveTask, c.childTask))

/-! ### Prerequisites -/

/-- `dependency_cycles`: the task is reached from its new prerequisite. -/
def Work.dependencyCycles (w : Work) (task prerequisite : Id) : Bool :=
  decide (task ∈ reached w.edges prerequisite)

/-- The task is one of the project's. -/
def Work.hasTask (w : Work) (project task : Id) : Prop :=
  (w.db.tasks.get? task).any (fun t => t.project = project) = true

instance (w : Work) (project task : Id) : Decidable (w.hasTask project task) := by
  unfold Work.hasTask; infer_instance

/-- What `set_dependencies` checks of each prerequisite, after those in `seen`. -/
def checkDependencies (w : Work) (project task : Id) : List Id → List Id → Except AppError Unit
  | [], _ => return
  | d :: deps, seen => do
    refuseIf (d = task ∨ d ∈ seen)
      (.badRequest "Dependencies must be distinct and cannot reference this task.")
    refuseIf (¬ w.hasTask project d)
      (.badRequest "Every dependency must identify a task in this project.")
    refuseIf (w.dependencyCycles task d = true)
      (.conflict "dependency_cycle" "This dependency would create a cycle.")
    checkDependencies w project task deps (d :: seen)

/-- `set_dependencies`. -/
def setDependencies (w : Work) (project task : Id) (deps : List Id) : Except AppError Work := do
  refuseIf (deps.length > 100) (.badRequest "A task may have at most 100 direct prerequisites.")
  checkDependencies w project task deps []
  return { w with
    dependencies := w.dependencies.filter (fun d => d.task ≠ task) ++
      deps.map (fun d => ⟨project, task, d⟩) }

/-! ### Children -/

/-- `ObjectiveChildInput`. -/
structure ObjectiveChildInput where
  task : Id
  required : Bool

/-- `validate_child_input`. -/
def validateChildInput (children : List ObjectiveChildInput) : Except AppError Unit := do
  refuseIf (children.length > 100)
    (.badRequest "An objective may contain at most 100 direct children.")
  refuseIf (¬ (children.map ObjectiveChildInput.task).Nodup)
    (.badRequest "Objective child task IDs must be distinct.")

/-- `validate_children`. -/
def validateChildren (w : Work) (project objective : Id) :
    List ObjectiveChildInput → Except AppError Unit
  | [] => return
  | child :: children => do
    refuseIf (child.task = objective) (.badRequest "An objective cannot contain itself.")
    refuseIf (¬ w.hasTask project child.task)
      (.badRequest "Every objective child must be a task in the same project.")
    refuseIf (∃ wa ∈ w.db.workflowActivities, wa.activityTask = child.task)
      (.badRequest
        "Internal review and integration activities cannot be objective children.")
    refuseIf (∃ c ∈ w.children, c.childTask = child.task ∧ c.objectiveTask ≠ objective)
      (.conflict "objective_parent_conflict" "A task can belong to only one parent objective.")
    refuseIf (w.dependencyCycles objective child.task = true)
      (.conflict "dependency_cycle"
        ("This objective membership would create a cycle through task prerequisites or " ++
          "objectives."))
    validateChildren w project objective children

/-- Insert the children in order; a child is `UNIQUE`. -/
def insertChildren (w : Work) (project objective : Id) :
    List ObjectiveChildInput → Nat → Except AppError Work
  | [], _ => return w
  | child :: children, position => do
    refuseIf (∃ c ∈ w.children, c.childTask = child.task) .recordConflict
    insertChildren
      { w with children := w.children ++
          [⟨project, objective, child.task, child.required, position⟩] }
      project objective children (position + 1)

/-- `replace_children`. -/
def replaceChildren (w : Work) (project objective : Id) (children : List ObjectiveChildInput) :
    Except AppError Work := do
  validateChildren w project objective children
  insertChildren { w with children := w.children.filter (fun c => c.objectiveTask ≠ objective) }
    project objective children 0

/-! ### Tasks -/

/-- `criteria`. -/
def criteria (values : List String) : Except AppError Unit := do
  refuseIf (values = [] ∨ values.length > 100) (.badRequest "Provide 1–100 acceptance criteria.")
  values.forM fun v => bounded v "acceptance criterion" 2048 true

/-- The judged fields and the priority of a task or an objective. -/
def validateDefinition (fields : TaskDigest) (priority : Int) (message : String) :
    Except AppError Unit := do
  bounded fields.title "title" 300 true
  bounded fields.description "description" 32768 false
  criteria fields.acceptance
  refuseIf (¬ (0 ≤ priority ∧ priority ≤ 3)) (.badRequest message)

/-- `active_project`. -/
def activeProject (s : Db) (project : Id) : Except AppError Project := do
  let p ← okOr (s.projects.get? project) .notFound
  refuseIf (p.archivedAt ≠ none)
    (.conflict "project_archived"
      "This project is archived. Restore it before changing its tasks or policy.")
  return p

/-- A new task; the weekly budget may hold it as planned. -/
def Db.addTask (s : Db) (project : Id) (fields : TaskDigest) (priority : Int)
    (planned held humanDelivered : Bool) : Db :=
  { s with
    tasks := s.tasks.create (fun id =>
      { id := id
        project := project
        title := fields.title
        description := fields.description
        acceptance := fields.acceptance
        kind := fields.kind
        priority := priority
        lifecycle := if planned || held then .planned else .open
        revision := 1
        generation := 0
        currentAttempt := none
        blockedReason := none
        readySince := s.now
        archivedAt := none
        deletedAt := none
        humanDelivered := humanDelivered }) }

/-- `admission::record`: the tasks that the weekly budget holds. -/
def Work.recordAdmission (w : Work) (task : Id) (held : Bool) : Work :=
  { w with budgetHeld := if held then w.budgetHeld ++ [task] else w.budgetHeld }

/-- `TaskInput`. -/
structure TaskInput where
  fields : TaskDigest
  priority : Int
  dependsOn : List Id
  planned : Bool
  humanDelivered : Bool

/-- `create_task`; `held` is what the weekly budget decided. -/
def createTask (w : Work) (actor : Actor) (project : Id) (input : TaskInput) (held : Bool) :
    Except AppError Work := do
  validateDefinition input.fields input.priority
    "kind must be code/general and priority 0 (urgent) through 3 (low)."
  let _ ← activeProject w.db project
  let id := w.db.tasks.fresh
  let w := { w with
    db := w.db.addTask project input.fields input.priority input.planned held
      input.humanDelivered }.recordAdmission id held
  let w ← setDependencies w project id input.dependsOn
  let s ← saveTaskRevision w.db project id
  return { w with db := s.finish actor "task.created" id }

/-- `TaskEdit`. An omitted kind keeps the current one. -/
structure TaskEdit where
  expectedRevision : Int
  fields : TaskDigest
  keepsKind : Bool
  priority : Int
  dependsOn : List Id
  planned : Bool

/-- The judged fields after the edit. -/
def TaskEdit.result (input : TaskEdit) (current : Task) : TaskDigest :=
  { input.fields with kind := if input.keepsKind then current.kind else input.fields.kind }

/-- `guard_subject_mutation`. -/
def guardSubjectMutation (s : Db) (project task : Id) : Except AppError Unit := do
  refuseIf (∃ wa ∈ s.workflowActivities, wa.project = project ∧ wa.activityTask = task)
    (.conflict "workflow_managed_task"
      "Linked workflow activity tasks cannot be edited directly.")
  refuseIf ((s.workflowSubjects.get? task).any (fun ws =>
      ws.project = project ∧ ws.phase ≠ .revisionNeeded) = true)
    (.conflict "submission_current"
      "Reopen or finish the current submission before editing task requirements.")

/-- What only an agent's edit needs. -/
def authorizeAgentEdit (w : Work) (actor : Actor) (project : Id) (current : Task)
    (input : TaskEdit) : Except AppError Unit := do
  let _ ← session actor
  refuseIf (¬ ∃ g ∈ w.definitionGrants, g.project = project ∧
      (g.target = .inl actor.id ∨ g.target = .inr actor.role))
    (.humanGate "task_definition_grant"
      ("A human administrator must grant this agent task-definition editing authority for this " ++
        "project."))
  refuseIf (current.id ∈ w.budgetHeld ∧ current.lifecycle = .planned ∧ input.planned = false)
    (.humanGate "admission_budget"
      "The weekly agent-task budget held this task as planned. A human must release it.")
  refuseIf
    ((input.result current ≠ current.digest ∨
      ¬ ((w.dependencies.filter (fun d => d.task = current.id)).map
        TaskDependency.prerequisite).Perm input.dependsOn ∨
      current.priority ≠ input.priority ∨
      (decide (current.lifecycle = .planned)) ≠ input.planned) ∧
      ∃ c ∈ w.db.taskContributors, c.task = current.id ∧ c.principal = actor.id)
    (.humanGate "self_related_definition_change"
      ("A human must change a task definition after this agent has contributed to it. Delegation " ++
        "never permits self-related requirement changes."))

/-- People may edit; agents need a grant. -/
def authorizeEdit (w : Work) (actor : Actor) (project : Id) (current : Task) (input : TaskEdit) :
    Except AppError Unit :=
  if actor.kind = .agent then authorizeAgentEdit w actor project current input else return

/-- `edit_task`. -/
def editTask (w : Work) (actor : Actor) (project id : Id) (input : TaskEdit) :
    Except AppError Work := do
  validateDefinition input.fields input.priority "priority must be between 0 and 3."
  let current ← w.db.visibleTask project id
  let fields := input.result current
  refuseIf (fields.kind ≠ current.kind ∧
      ((w.objectives.get? id).isSome = true ∨ (w.db.ext.reverts.get? id).isSome = true))
    (.conflict "task_kind_fixed"
      "Objectives must remain general and revert tasks must remain code.")
  refuseIf (fields.kind ≠ current.kind ∧ ∃ u ∈ w.db.submissions, u.project = project ∧
      u.task = id ∧ (w.db.attempts.get? u.attempt).any (fun a =>
        a.generation = current.generation) = true)
    (.conflict "task_kind_workflow_protected"
      ("A submission or its review/integration workflow exists for this task generation; " ++
        "preserve its kind."))
  guardSubjectMutation w.db project id
  refuseIf (current.revision ≠ input.expectedRevision)
    (.conflict "revision_conflict" "Read the latest task revision before editing.")
  refuseIf (current.currentAttempt ≠ none ∨
      ¬ (current.lifecycle = .open ∨ current.lifecycle = .planned))
    (.conflict "task_not_editable"
      ("Only unowned open or planned tasks can be edited. Preserve active work and reconcile it " ++
        "first."))
  authorizeEdit w actor project current input
  let w ← setDependencies w project id input.dependsOn
  let s ← saveTaskRevision { w.db with
    tasks := w.db.tasks.modify (fun t => t.id = id) (fun t => { t with
      title := fields.title
      description := fields.description
      acceptance := fields.acceptance
      priority := input.priority
      lifecycle := if input.planned then .planned else .open
      kind := fields.kind
      revision := t.revision + 1 }) } project id
  return { w with
    db := s.finish actor "task.edited" id
    budgetHeld := if input.planned then w.budgetHeld else w.budgetHeld.filter (· ≠ id) }

/-! ### Objectives -/

/-- `ObjectiveInput`. -/
structure ObjectiveInput where
  title : String
  description : String
  acceptance : List String
  priority : Int
  children : List ObjectiveChildInput
  planned : Bool

/-- An objective is a general task. -/
def ObjectiveInput.fields (input : ObjectiveInput) : TaskDigest :=
  ⟨input.title, input.description, input.acceptance, .general⟩

/-- `create_objective`; `held` is what the weekly budget decided. -/
def createObjective (w : Work) (actor : Actor) (project : Id) (input : ObjectiveInput)
    (held : Bool) : Except AppError Work := do
  validateDefinition input.fields input.priority "priority must be between 0 and 3."
  validateChildInput input.children
  let _ ← okOr (w.db.projects.get? project) .notFound
  let id := w.db.tasks.fresh
  let w := { w with
    db := w.db.addTask project input.fields input.priority input.planned held false }.recordAdmission
      id held
  let objectives ← okOr (w.objectives.insert? ⟨id, project, 1⟩) .recordConflict
  let w ← replaceChildren { w with objectives := objectives } project id input.children
  let s ← saveTaskRevision w.db project id
  return { w with db := s.finish actor "objective.created" id }

/-- `update_children`. -/
def updateChildren (w : Work) (actor : Actor) (project id : Id) (expectedRevision : Int)
    (children : List ObjectiveChildInput) : Except AppError Work := do
  validateChildInput children
  refuseIf (expectedRevision ≤ 0) (.badRequest "expected_revision must be positive.")
  let objective ← okOr (w.objectives.get? id) .notFound
  let t ← okOr (w.db.tasks.get? id) .notFound
  refuseIf (objective.project ≠ project ∨ t.project ≠ project) .notFound
  refuseIf (objective.revision ≠ expectedRevision)
    (.conflict "revision_conflict"
      "Read the current objective revision before changing its children.")
  refuseIf ((∃ a ∈ w.db.attempts, a.task = id) ∨ (w.db.workflowSubjects.get? id).isSome = true ∨
      ¬ (t.lifecycle = .open ∨ t.lifecycle = .planned))
    (.conflict "objective_membership_frozen"
      ("Objective membership is frozen after its work begins. Preserve the reviewed completion " ++
        "scope."))
  let w ← replaceChildren w project id children
  let s ← saveTaskRevision { w.db with
    tasks := w.db.tasks.modify (fun t => t.id = id) (fun t =>
      { t with revision := t.revision + 1 }) } project id
  return { w with
    db := s.finish actor "objective.children_updated" id
    objectives := w.objectives.modify (fun o => o.task = id) (fun o =>
      { o with revision := expectedRevision + 1 }) }

/-! ### Serialized revises -/

/-- `ReviseCase`: one integrator revise about to apply. -/
structure ReviseCase where
  project : Id
  task : Id
  submission : Id
  reasonCode : String
  movedBy : Option Id

/-- `Landing`: a cited result, and the task whose landing it published. -/
structure Landing where
  result : Id
  task : Id

/-- `serializable`: the landing task the subject is serialized after, or why not. `citedBefore` says
whether an earlier revise in the window was serialized after the same landing. -/
def serializable (w : Work) (case : ReviseCase) (landing : Option Landing)
    (citedBefore : Id → Bool) : Except String Id :=
  if case.reasonCode ≠ "conflict" then .error "not_a_conflict"
  else match landing with
    | none => .error "landing_unknown"
    | some landing =>
      if landing.task = case.task then .error "landing_is_subject"
      else if citedBefore landing.task = true then .error "landing_repeated"
      else if w.dependencyCycles case.task landing.task = true then .error "dependency_cycle"
      else .ok landing.task

/-- `depend_on`: the new prerequisite, as a new task revision if it was not one before. -/
def dependOn (w : Work) (case : ReviseCase) (landing : Id) : Except AppError Work := do
  if ∃ d ∈ w.dependencies, d.task = case.task ∧ d.prerequisite = landing then return w
  else
    let s ← saveTaskRevision { w.db with
      tasks := w.db.tasks.modify (fun t => t.id = case.task) (fun t =>
        { t with revision := t.revision + 1 }) } case.project case.task
    return { w with
      db := s
      dependencies := w.dependencies ++ [⟨case.project, case.task, landing⟩] }

/-- What an admitted integrator revise does to the relations: nothing, unless it is serialized. -/
def recordRevise (w : Work) (case : ReviseCase) (landing : Option Landing)
    (citedBefore : Id → Bool) : Except AppError Work :=
  match serializable w case landing citedBefore with
  | .error _ => return w
  | .ok landing => dependOn w case landing

/-! ### Steps -/

/-- The requests that write the relations. -/
inductive WorkRequest
  | createTask (project : Id) (input : TaskInput) (held : Bool)
  | editTask (project id : Id) (input : TaskEdit)
  | createObjective (project : Id) (input : ObjectiveInput) (held : Bool)
  | updateChildren (project id : Id) (expectedRevision : Int) (children : List ObjectiveChildInput)
  | serializedRevise (case : ReviseCase) (landing : Option Landing) (citedBefore : Id → Bool)

/-- The handler of a request. -/
def WorkRequest.handle (w : Work) (actor : Actor) : WorkRequest → Except AppError Work
  | .createTask project input held => AgentCoordinator.createTask w actor project input held
  | .editTask project id input => AgentCoordinator.editTask w actor project id input
  | .createObjective project input held =>
    AgentCoordinator.createObjective w actor project input held
  | .updateChildren project id expectedRevision children =>
    AgentCoordinator.updateChildren w actor project id expectedRevision children
  | .serializedRevise case landing citedBefore => recordRevise w case landing citedBefore

/-- What happens to the work: a request, or anything the rest of the service does to other
tables. -/
inductive WorkAction
  | request (actor : Actor) (req : WorkRequest)
  | other

/-- One step. A refused request changes nothing. -/
inductive WorkStep : Work → WorkAction → Work → Prop
  | accepted {w w' : Work} {actor : Actor} {req : WorkRequest} (h : req.handle w actor = .ok w') :
      WorkStep w (.request actor req) w'
  | refused {w : Work} {actor : Actor} {req : WorkRequest} {e : AppError}
      (h : req.handle w actor = .error e) : WorkStep w (.request actor req) w
  | other {w w' : Work} (dependencies : w'.dependencies = w.dependencies)
      (children : w'.children = w.children) : WorkStep w .other w'

end AgentCoordinator
