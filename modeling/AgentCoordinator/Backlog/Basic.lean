import AgentCoordinator.WorkGraph

/-
The backlog: the tasks with everything that says where they come from.

Besides the tables of `Work` it has the admission columns of the tasks, the reports a fix may cite,
the imports, and the project of every event. A request acts
on the database as these tables describe it: which children an objective requires and which
prerequisites a task has is read from `objective_children` and `task_dependencies`.
-/

namespace AgentCoordinator

open Guarded Tabular

/-! ### Where tasks come from -/

/-- `tasks.origin`. -/
inductive Origin | human | agent | service
  deriving DecidableEq, Repr

/-- `tasks.admission_class`. -/
inductive AdmissionClass | revert | fixTarget | deflake | refusalFix
  deriving DecidableEq, Repr

/-- The admission columns of `tasks`. A task without a row has the defaults of the columns. The set
of tasks with `budget_held_at` is `Work.budgetHeld`. -/
structure TaskOrigin where
  task : Id
  origin : Origin
  admissionClass : Option AdmissionClass
  budgetExempt : Bool
  budgetAdmittedAt : Option Time

/-- `integrator_reports.kind`. -/
inductive ReportKind | fixTarget | flaky | other
  deriving DecidableEq, Repr

/-- `integrator_reports`. -/
structure ReportRecord where
  id : Id
  project : Id
  kind : ReportKind

instance : Keyed TaskOrigin Id := ⟨TaskOrigin.task⟩

/-! ### Imports -/

/-- A SHA-256 digest over context, path, section and anchor; here the four texts themselves. -/
structure StableIdentity where
  context : String
  path : String
  «section» : String
  anchor : String
  deriving DecidableEq, Repr

/-- `import_records.record_kind`. -/
inductive RecordKind | task | historical
  deriving DecidableEq, Repr

/-- `import_records.disposition`. -/
inductive ImportDisposition | planned | closed | rejected | superseded
  deriving DecidableEq, Repr

/-- `ImportSource`. -/
structure ImportSource where
  context : String
  gitRevision : String
  observedAt : String
  branch : String
  environment : String
  deriving DecidableEq, Repr

/-- `ImportItem`, as it is parsed from a source. -/
structure ImportItem where
  stableIdentity : StableIdentity
  sourcePath : String
  sectionIdentity : String
  title : String
  recordKind : RecordKind
  disposition : ImportDisposition
  sourceLine : Nat
  evidence : String
  deriving DecidableEq, Repr

/-- `ImportConflict`. -/
structure ImportConflict where
  code : String
  sourcePath : String
  sectionIdentity : String
  message : String
  blocking : Bool
  deriving DecidableEq, Repr

/-- `import_previews`. Each item comes with the revision its record had, `prior_record_revision`;
no two items have the same identity. -/
structure ImportPreview where
  id : Id
  project : Id
  digest : String
  projectEventRevision : Nat
  source : ImportSource
  items : List (ImportItem × Option Int)
  distinct : (items.map fun i => i.1.stableIdentity).Nodup
  conflicts : List ImportConflict
  appliedAt : Option Time

/-- What an import record is linked to, with the revision the last apply left. -/
inductive ImportLink
  | task (id : Id) (revisionAtApply : Int)
  | knowledge (id : Id) (revisionAtApply : Int)
  deriving DecidableEq, Repr

/-- `import_records`; the unique index on project and identity is its key. -/
structure ImportRecord where
  project : Id
  stableIdentity : StableIdentity
  recordRevision : Int
  disposition : ImportDisposition
  title : String
  source : ImportSource
  sourcePath : String
  sectionIdentity : String
  sourceDigest : String
  evidence : String
  link : ImportLink
  /-- The preview and the item that first closed the record. -/
  closureProvenance : Option (Id × String)
  preview : Id

/-- `knowledge_records.kind`, of imported records. -/
inductive KnowledgeKind | fact | rejectedApproach | checkpoint | other
  deriving DecidableEq, Repr

/-- `knowledge_records.status`, of imported records. -/
inductive KnowledgeStatus | validated | superseded | other
  deriving DecidableEq, Repr

/-- `knowledge_records`. -/
structure KnowledgeRecord where
  id : Id
  sourceProject : Id
  currentRevision : Int
  kind : KnowledgeKind
  status : KnowledgeStatus
  title : String
  body : String

instance : Keyed ImportPreview Id := ⟨ImportPreview.id⟩
instance : Keyed ImportRecord (Id × StableIdentity) := ⟨fun r => (r.project, r.stableIdentity)⟩
instance : Keyed KnowledgeRecord Id := ⟨KnowledgeRecord.id⟩

/-! ### The backlog -/

/-- `events`, as the imports read them: the place in the list is the sequence number. -/
structure JournalEvent where
  project : Option Id
  kind : String

/-- The database, with everything that says where tasks come from. -/
structure Backlog where
  work : Work
  origins : Table TaskOrigin
  reports : List ReportRecord
  previews : Table ImportPreview
  records : Table ImportRecord
  knowledge : Table KnowledgeRecord
  journal : List JournalEvent

/-- The database as a request reads it: the relations between tasks are those of the tables. -/
def Work.view (w : Work) : Db :=
  { w.db with
    ext := { w.db.ext with
      requiredChildren :=
        (w.children.filter (·.required)).map fun c => (c.objectiveTask, c.childTask)
      dependencies := w.dependencies.map fun d => (d.task, d.prerequisite) } }

/-- `events.kind` of a new preview, which does not count as a change of the project. -/
def previewCreated : String := "import.preview_created"

/-- `project_event_revision`: the number of the project's last event that is not a new preview. -/
def Backlog.projectEventRevision (b : Backlog) (project : Id) : Nat :=
  (b.journal.zipIdx.filter fun e =>
    decide (e.1.project = some project ∧ e.1.kind ≠ previewCreated)).foldl
      (fun last e => max last (e.2 + 1)) 0

/-- The event a request records. -/
def Backlog.record (b : Backlog) (project : Id) (kind : String) : Backlog :=
  { b with journal := b.journal ++ [⟨some project, kind⟩] }

end AgentCoordinator
