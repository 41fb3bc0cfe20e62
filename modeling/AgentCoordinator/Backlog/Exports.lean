import Mathlib.Algebra.Group.Int.Defs
import AgentCoordinator.Access
import AgentCoordinator.Library.Paging
import AgentCoordinator.Library.Table
import Mathlib.Data.String.Basic

/-
Exports: the records of a project in pages.

A page reads the revision of the project's events and the records behind its cursor in separate
statements, each of which sees the last committed state. It then leaves records out at the end until
its JSON fits. The cursor of the next page names the revision and the last record; a page whose own
revision is another one is refused.
-/

namespace AgentCoordinator.Exports

open Guarded Tabular Paging

/-! ### What an export reads -/

/-- A value of `json_object`. -/
inductive Value
  | null
  | number (n : Int)
  | text (s : String)
  | json (s : String)
  deriving DecidableEq, Repr

/-- A column that may be null. -/
def Value.ofOption : Option String → Value
  | none => .null
  | some s => .text s

structure Task where
  id : String
  project : String
  title : String
  description : String
  lifecycle : String
  revision : Int
  createdAt : Int

structure Submission where
  id : String
  project : String
  task : String
  kind : String
  summary : String
  handoff : String
  createdAt : Int
  supersededAt : Option Int

structure PolicyRevision where
  project : String
  revision : Nat
  dataJson : String
  provenance : String
  createdAt : Int

structure WorkflowPolicyRevision where
  project : String
  revision : Nat
  canonicalRepositoryKey : String
  requiredChecksJson : String
  createdAt : Int

structure KnowledgeRecord where
  id : String
  sourceProject : String
  collection : String
  currentRevision : Int
  kind : String
  status : String
  title : String
  body : String
  scopeJson : String
  tagsJson : String
  applicability : String
  provenanceJson : String
  createdAt : Int
  updatedAt : Int

structure Decision where
  id : String
  project : String
  question : String
  optionsJson : String
  rationale : String
  requiredActor : String
  currentGeneration : Int
  createdAt : Int

structure DecisionCycle where
  decision : String
  generation : Int
  environment : String
  conditions : String

structure DecisionAnswer where
  decision : String
  generation : Int
  disposition : String
  answer : String

structure ImportRecord where
  id : String
  project : String
  stableIdentity : String
  recordRevision : Int
  recordKind : String
  disposition : String
  title : String
  sourceContext : String
  sourcePath : String
  sectionIdentity : String
  sourceGitRevision : String
  sourceObservedAt : String
  sourceBranch : String
  sourceEnvironment : String
  evidence : String
  task : Option String

instance : Keyed Task String := ⟨Task.id⟩
instance : Keyed Submission String := ⟨Submission.id⟩
instance : Keyed PolicyRevision (String × Nat) := ⟨fun r => (r.project, r.revision)⟩
instance : Keyed WorkflowPolicyRevision (String × Nat) := ⟨fun r => (r.project, r.revision)⟩
instance : Keyed KnowledgeRecord String := ⟨KnowledgeRecord.id⟩
instance : Keyed Decision String := ⟨Decision.id⟩
instance : Keyed DecisionCycle (String × Int) := ⟨fun c => (c.decision, c.generation)⟩
instance : Keyed DecisionAnswer (String × Int) := ⟨fun a => (a.decision, a.generation)⟩
instance : Keyed ImportRecord String := ⟨ImportRecord.id⟩

/-- `events`: the place in the list is the sequence number. -/
structure Event where
  project : Option String
  kind : String
  deriving DecidableEq, Repr

/-- The database as an export reads it. -/
structure Store where
  projects : List String
  tasks : Table Task
  /-- `workflow_activities.activity_task_id`. -/
  activityTasks : List String
  submissions : Table Submission
  policyRevisions : Table PolicyRevision
  workflowPolicyRevisions : Table WorkflowPolicyRevision
  knowledgeRecords : Table KnowledgeRecord
  decisions : Table Decision
  decisionCycles : Table DecisionCycle
  decisionAnswers : Table DecisionAnswer
  importRecords : Table ImportRecord
  events : List Event
  /-- An apply links a new record to the task it has just created, and no other record to it. -/
  linked : ∀ r ∈ importRecords, ∀ r' ∈ importRecords, r.task = r'.task → r.task ≠ none → r = r'

/-- `project_event_revision`: the number of the project's last event that is not a new preview. -/
def Store.projectEventRevision (s : Store) (project : String) : Nat :=
  (s.events.zipIdx.filter fun e =>
    decide (e.1.project = some project ∧ e.1.kind ≠ "import.preview_created")).foldl
      (fun last e => max last (e.2 + 1)) 0

/-! ### Records -/

/-- `ExportRecord`. -/
structure ExportRecord where
  sortKey : String
  kind : String
  id : String
  title : String
  status : String
  body : String
  provenance : List (String × Value)
  deriving DecidableEq, Repr

/-- `printf('%020d', n)`. -/
def padded (n : Nat) : String :=
  String.ofList (List.replicate (20 - n.repr.length) '0') ++ n.repr

/-- The import record that is linked to a task. -/
def Store.importIdentity (s : Store) (task : String) : List (Option String) :=
  match s.importRecords.filter fun r => r.task = some task with
  | [] => [none]
  | rs => rs.map fun r => some r.stableIdentity

def Store.taskRecords (s : Store) (project : String) : List ExportRecord :=
  (s.tasks.filter fun t => t.project = project ∧ t.id ∉ s.activityTasks).flatMap fun t =>
    (s.importIdentity t.id).map fun identity =>
      { sortKey := "task:" ++ t.id
        kind := "task"
        id := t.id
        title := t.title
        status := t.lifecycle
        body := t.description
        provenance := [("revision", .number t.revision), ("created_at", .number t.createdAt),
          ("import_identity", .ofOption identity)] }

def Store.submissionRecords (s : Store) (project : String) : List ExportRecord :=
  (s.submissions.filter fun sub => sub.project = project).map fun sub =>
    { sortKey := "submission:" ++ sub.id
      kind := "submission"
      id := sub.id
      title := sub.summary
      status := if sub.supersededAt = none then "current" else "superseded"
      body := sub.handoff
      provenance := [("task_id", .text sub.task), ("kind", .text sub.kind),
        ("created_at", .number sub.createdAt)] }

def Store.policyRecords (s : Store) (project : String) : List ExportRecord :=
  (s.policyRevisions.filter fun r => r.project = project).map fun r =>
    { sortKey := "project-policy:" ++ padded r.revision
      kind := "project_policy"
      id := r.revision.repr
      title := "Project policy revision " ++ r.revision.repr
      status := "historical"
      body := r.dataJson
      provenance := [("revision", .number r.revision), ("created_at", .number r.createdAt),
        ("provenance", .text r.provenance)] }

def Store.workflowPolicyRecords (s : Store) (project : String) : List ExportRecord :=
  (s.workflowPolicyRevisions.filter fun r => r.project = project).map fun r =>
    { sortKey := "workflow-policy:" ++ padded r.revision
      kind := "workflow_policy"
      id := r.revision.repr
      title := "Workflow policy revision " ++ r.revision.repr
      status := "historical"
      body := r.requiredChecksJson
      provenance := [("revision", .number r.revision),
        ("canonical_repository_key", .text r.canonicalRepositoryKey),
        ("created_at", .number r.createdAt)] }

def Store.knowledgeExports (s : Store) (project : String) : List ExportRecord :=
  (s.knowledgeRecords.filter fun r => r.sourceProject = project).map fun r =>
    { sortKey := "knowledge:" ++ r.id
      kind := "knowledge"
      id := r.id
      title := r.title
      status := r.status
      body := r.body
      provenance := [("revision", .number r.currentRevision), ("collection", .text r.collection),
        ("kind", .text r.kind), ("scope", .json r.scopeJson), ("tags", .json r.tagsJson),
        ("applicability", .text r.applicability), ("provenance", .json r.provenanceJson),
        ("created_at", .number r.createdAt), ("updated_at", .number r.updatedAt)] }

def Store.decisionRecords (s : Store) (project : String) : List ExportRecord :=
  (s.decisions.filter fun d => d.project = project).map fun d =>
    let answer := s.decisionAnswers.get? (d.id, d.currentGeneration)
    let cycle := s.decisionCycles.get? (d.id, d.currentGeneration)
    { sortKey := "decision:" ++ d.id
      kind := "decision"
      id := d.id
      title := d.question
      status := (answer.map (·.disposition)).getD "pending"
      body := d.rationale
      provenance := [("generation", .number d.currentGeneration),
        ("required_actor", .text d.requiredActor), ("options", .json d.optionsJson),
        ("cycle_environment", .ofOption (cycle.map (·.environment))),
        ("cycle_conditions", .ofOption (cycle.map (·.conditions))),
        ("answer", .ofOption (answer.map (·.answer))), ("created_at", .number d.createdAt)] }

def Store.historicalRecords (s : Store) (project : String) : List ExportRecord :=
  (s.importRecords.filter fun r => r.project = project ∧ r.recordKind = "historical").map fun r =>
    { sortKey := "historical:" ++ r.id
      kind := "historical"
      id := r.id
      title := r.title
      status := r.disposition
      body := r.evidence
      provenance := [("stable_identity", .text r.stableIdentity),
        ("source_context", .text r.sourceContext), ("source_path", .text r.sourcePath),
        ("section_identity", .text r.sectionIdentity), ("git_revision", .text r.sourceGitRevision),
        ("observed_at", .text r.sourceObservedAt), ("branch", .text r.sourceBranch),
        ("environment", .text r.sourceEnvironment),
        ("record_revision", .number r.recordRevision)] }

/-- The records of a project, by sort key. -/
def Store.exportRecords (s : Store) (project : String) : List ExportRecord :=
  (s.taskRecords project ++ s.submissionRecords project ++ s.policyRecords project ++
    s.workflowPolicyRecords project ++ s.knowledgeExports project ++ s.decisionRecords project ++
    s.historicalRecords project).insertionSort fun r r' => r.sortKey ≤ r'.sortKey

/-! ### Pages -/

/-- `MAX_EXPORT_DATA_BYTES`. -/
def maxExportDataBytes : Nat := 256 * 1024 - 512

/-- The data of a page, its constant fields apart. -/
structure ExportPage where
  projectId : String
  snapshotEventRevision : Nat
  generatedAt : String
  records : List ExportRecord
  markdown : String
  nextCursor : Option String
  pageComplete : Bool
  deriving DecidableEq, Repr

/-- What `serde_json` makes of a page: the lines of a provenance printed in full, and the length of
the data in bytes. -/
structure Encoder where
  pretty : List (String × Value) → List String
  size : ExportPage → Nat

/-- The Markdown of a page. -/
def exportMarkdown (e : Encoder) (project : String) (snapshot : Nat) (generatedAt : String)
    (records : List ExportRecord) : String :=
  "<!-- agent-coordinator-generated-export project=" ++ project ++ " event_revision=" ++
    snapshot.repr ++ " generated_at=" ++ generatedAt ++ " -->\n\n# Agent Coordinator export\n\n" ++
    String.join (records.map fun r =>
      "## " ++ r.kind ++ ": " ++ r.title ++ "\n\nRecord ID: `" ++ r.id ++ "`\n\nStatus: `" ++
        r.status ++ "`\n\n" ++ r.body ++ "\n\nProvenance:\n\n" ++
        String.join ((e.pretty r.provenance).map fun line => "    " ++ line ++ "\n") ++ "\n")

/-- `next_cursor`: the revision and the last record of a page that leaves some out. -/
def cursorAfter (snapshot : Nat) (records : List ExportRecord) (more : Bool) : Option String :=
  if more then records.getLast?.map fun r => snapshot.repr ++ "~" ++ r.sortKey else none

/-- The page of some records. -/
def exportPage (e : Encoder) (project : String) (snapshot : Nat) (generatedAt : String)
    (records : List ExportRecord) (more : Bool) : ExportPage where
  projectId := project
  snapshotEventRevision := snapshot
  generatedAt := generatedAt
  records := records
  markdown := exportMarkdown e project snapshot generatedAt records
  nextCursor := cursorAfter snapshot records more
  pageComplete := !more

def recordTooLarge : AppError :=
  .conflict "export_record_too_large"
    ("One authoritative export record exceeds the 256 KiB page budget; no content was " ++
      "truncated.")

/-- The page with as many of the records as fit, from the start. The fuel is their number. -/
def fit (e : Encoder) (page : List ExportRecord → Bool → ExportPage) :
    Nat → List ExportRecord → Bool → Except AppError ExportPage
  | fuel, records, more =>
    if e.size (page records more) ≤ maxExportDataBytes then .ok (page records more)
    else if records.length ≤ 1 then .error recordTooLarge
    else match fuel with
      | 0 => .error recordTooLarge
      | fuel + 1 => fit e page fuel records.dropLast true

/-! ### Cursors -/

/-- `str::parse::<i64>`. -/
def parseI64 (text : List Char) : Option Int :=
  let value (digits : List Char) : Option Nat :=
    if digits ≠ [] ∧ digits.all Char.isDigit = true then some (Nat.ofDigitChars 10 digits 0)
    else none
  let parsed := match text with
    | '-' :: digits => (value digits).map fun n => -(n : Int)
    | '+' :: digits => (value digits).map Int.ofNat
    | digits => (value digits).map Int.ofNat
  parsed.filter fun n => decide (-(2 ^ 63) ≤ n ∧ n < 2 ^ 63)

/-- The key a cursor names, when its revision is the one of the project now. -/
def readCursor (snapshot : Nat) : Option String → Except AppError String
  | none => .ok ""
  | some cursor => do
    bounded cursor "export cursor" 512 true
    refuseIf ('~' ∉ cursor.toList) (.badRequest "Invalid export cursor.")
    refuseIf (parseI64 (cursor.toList.takeWhile (· != '~')) ≠ some (snapshot : Int))
      (.conflict "export_snapshot_changed"
        "Project records changed between export pages; restart the export.")
    return String.ofList ((cursor.toList.dropWhile (· != '~')).drop 1)

/-! ### Requests -/

/-- A request for a page: when its statements run, in the order of the committed states, and what
the clock says. -/
structure Visit where
  limit : Option Int
  cursor : Option String
  found : Nat
  counted : Nat
  listed : Nat
  generatedAt : String

/-- `export`, on the states that its three statements see. -/
def exportRecords (e : Encoder) (history : Nat → Store) (project : String) (v : Visit) :
    Except AppError ExportPage := do
  let limit := v.limit.getD 50
  refuseIf (limit < 1 ∨ 200 < limit) (.badRequest "limit must be between 1 and 200.")
  refuseIf (project ∉ (history v.found).projects) .notFound
  let snapshot := (history v.counted).projectEventRevision project
  let key ← readCursor snapshot v.cursor
  let rows := (after ExportRecord.sortKey key ((history v.listed).exportRecords project)).take
    (limit.toNat + 1)
  let records := rows.take limit.toNat
  fit e (exportPage e project snapshot v.generatedAt) records.length records
    (decide (limit.toNat < rows.length))

end AgentCoordinator.Exports
