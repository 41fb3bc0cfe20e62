import AgentCoordinator.Backlog.Reverts

/-
Imports: previews of parsed sources, and applying them.

A preview remembers the project's last event and the revision of every record it lists; applying it
is refused when either has changed. Applying reconciles each item with its record: a new item
creates a task or a knowledge record, an item with a record updates what it is linked to, unless
the service has changed that since.
-/

namespace AgentCoordinator

open Guarded Tabular

/-! ### Previews -/

/-- `ParsedImport`: what a source parses to, without its unresolved links. An item whose identity
is taken becomes a conflict instead. -/
structure ParsedImport where
  items : List ImportItem
  conflicts : List ImportConflict
  distinct : (items.map ImportItem.stableIdentity).Nodup

/-- `ImportPreviewInput`, parsed, with its digest. -/
structure ImportPreviewInput where
  source : ImportSource
  parsed : ParsedImport
  digest : String

/-- `validate_source`, the form of the observation time apart. -/
def validateSource (source : ImportSource) : Except AppError Unit := do
  bounded source.context "source context" 255 true
  bounded source.gitRevision "Git revision" 128 true
  bounded source.observedAt "observation time" 64 true
  bounded source.branch "source branch" 255 false
  bounded source.environment "source environment" 255 false
  refuseIf (¬ (source.gitRevision.utf8ByteSize = 40 ∨ source.gitRevision.utf8ByteSize = 64) ∨
      ¬ source.gitRevision.toList.all isAsciiHexdigit = true)
    (.badRequest "git_revision must be a full hexadecimal Git object ID.")

/-- The revision of the record an identity has in a project. -/
def Backlog.recordRevision (b : Backlog) (project : Id) (identity : StableIdentity) : Option Int :=
  (b.records.get? (project, identity)).map (·.recordRevision)

/-- The task has an attempt. -/
def Db.hasAttempts (s : Db) (task : Id) : Prop := ∃ a ∈ s.attempts, a.task = task

instance (s : Db) (task : Id) : Decidable (s.hasAttempts task) :=
  inferInstanceAs (Decidable (∃ a ∈ s.attempts, a.task = task))

/-- `import_managed`: only imports have worked on the task. -/
def Db.importManaged (s : Db) (t : Task) : Prop :=
  (t.lifecycle = .planned ∨ t.lifecycle = .done) ∧ t.currentAttempt = none ∧
    ¬ s.hasAttempts t.id ∧ s.workflowSubjects.get? t.id = none

instance (s : Db) (t : Task) : Decidable (s.importManaged t) := by
  unfold Db.importManaged
  cases s.workflowSubjects.get? t.id <;> infer_instance

/-- The task an item's record is linked to has newer edits. -/
def Backlog.newerServiceState (b : Backlog) (project : Id) (item : ImportItem) : Bool :=
  (b.records.get? (project, item.stableIdentity)).any fun r =>
    match r.link with
    | .task id revisionAtApply =>
      (b.work.db.tasks.get? id).any fun t =>
        t.revision > revisionAtApply ∨ ¬ b.work.db.importManaged t
    | .knowledge .. => false

/-- The conflict of an item whose task has newer edits. -/
def newerServiceStateConflict (item : ImportItem) : ImportConflict where
  code := "newer_service_state"
  sourcePath := item.sourcePath
  sectionIdentity := item.sectionIdentity
  message := "The linked service task has newer edits and will be preserved."
  blocking := false

/-- The row `preview` inserts. -/
def newPreview (b : Backlog) (project : Id) (input : ImportPreviewInput) (id : Id) :
    ImportPreview where
  id := id
  project := project
  digest := input.digest
  projectEventRevision := b.projectEventRevision project
  source := input.source
  items := input.parsed.items.map fun item =>
    (item, b.recordRevision project item.stableIdentity)
  distinct := (congrArg List.Nodup List.map_map).mpr input.parsed.distinct
  conflicts := input.parsed.conflicts ++
    (input.parsed.items.filter (b.newerServiceState project)).map newerServiceStateConflict
  appliedAt := none

/-- `preview`. -/
def previewImport (b : Backlog) (actor : Actor) (project : Id) (input : ImportPreviewInput) :
    Except AppError Backlog := do
  validateSource input.source
  let _ ← okOr (b.work.db.projects.get? project) .notFound
  return { b with
    work := b.work.withDb (b.work.db.finish actor previewCreated b.previews.fresh)
    previews := b.previews.create (newPreview b project input) }.record project previewCreated

/-! ### Writes of an apply -/

/-- `save_imported_task_revision`. -/
def saveImportedTaskRevision (s : Db) (project task : Id) : Except AppError Db := do
  let t ← okOr ((s.tasks.get? task).filter (fun t => t.project = project)) .internal
  let revisions ← okOr (s.taskRevisions.insert? ⟨task, t.revision, t.digest⟩) .recordConflict
  return { s with taskRevisions := revisions }

/-- Kind and status an item gives a knowledge record. -/
def importedKnowledge (item : ImportItem) : KnowledgeKind × KnowledgeStatus :=
  match item.disposition with
  | .rejected => (.rejectedApproach, .validated)
  | .superseded => (.checkpoint, .superseded)
  | _ => (.fact, .validated)

/-- `save_imported_knowledge` at revision 1. -/
def Backlog.createKnowledge (b : Backlog) (project : Id) (item : ImportItem) : Backlog :=
  { b with
    knowledge := b.knowledge.create fun id =>
      { id := id
        sourceProject := project
        currentRevision := 1
        kind := (importedKnowledge item).1
        status := (importedKnowledge item).2
        title := item.title
        body := item.evidence } }

/-- `save_imported_knowledge` at a later revision: the kind stays. -/
def Backlog.reviseKnowledge (b : Backlog) (knowledge : Id) (revision : Int) (item : ImportItem) :
    Backlog :=
  { b with
    knowledge := b.knowledge.modify
      (fun k => k.id = knowledge ∧ k.currentRevision = revision - 1)
      (fun k => { k with
        currentRevision := revision
        status := (importedKnowledge item).2
        title := item.title
        body := item.evidence }) }

/-- `closure_provenance`. -/
def closureProvenance (item : ImportItem) (preview : Id) (disposition : ImportDisposition) :
    Option (Id × String) :=
  if disposition = .closed then some (preview, item.evidence) else none

/-- A task with the title and the lifecycle of its item, at its next revision. -/
def Task.imported (title : String) (lifecycle : Lifecycle) (t : Task) : Task :=
  { t with title := title, lifecycle := lifecycle, revision := t.revision + 1 }

lemma Task.key_imported (title : String) (lifecycle : Lifecycle) (t : Task) :
    Keyed.key (t.imported title lifecycle) = Keyed.key t := rfl

/-- The lifecycle of a disposition. -/
def ImportDisposition.lifecycle (disposition : ImportDisposition) : Lifecycle :=
  if disposition = .closed then .done else .planned

/-- The disposition of a record after an item, before its task is looked at. -/
def ImportRecord.disposed (r : ImportRecord) (item : ImportItem) : ImportDisposition :=
  if r.disposition ≠ .closed ∧ item.disposition = .closed then .closed else r.disposition

/-- Reconcile a record's task with an item: what is left of the database, the disposition of the
record, and the revision the task has now if this apply left it. -/
def syncTask (s : Db) (project task : Id) (revisionAtApply : Int) (item : ImportItem)
    (disposition : ImportDisposition) : Except AppError (Db × ImportDisposition × Int) := do
  let t ← okOr ((s.tasks.get? task).filter (fun t => t.project = project)) .internal
  if t.revision = revisionAtApply ∧ s.importManaged t then
    let disposition := if t.lifecycle = .done ∨ disposition = .closed then .closed else disposition
    if t.title ≠ item.title ∨ t.lifecycle ≠ disposition.lifecycle then do
      let s ← saveImportedTaskRevision { s with
        tasks := s.tasks.modify (fun t => t.id = task)
          (Task.imported item.title disposition.lifecycle)
          (Task.key_imported item.title disposition.lifecycle) } project task
      return (s, disposition, t.revision + 1)
    else return (s, disposition, revisionAtApply)
  else
    -- the task is preserved as the service has it
    return (s, if t.lifecycle = .done then .closed else disposition, revisionAtApply)

/-- Reconcile a record's knowledge with an item; the answer is the revision it has now if this
apply left it. -/
def syncKnowledge (b : Backlog) (project knowledge : Id) (revisionAtApply : Int)
    (item : ImportItem) : Except AppError (Backlog × Int) := do
  let k ← okOr ((b.knowledge.get? knowledge).filter (fun k => k.sourceProject = project)) .internal
  if k.currentRevision = revisionAtApply then
    return (b.reviseKnowledge knowledge (k.currentRevision + 1) item, k.currentRevision + 1)
  else return (b, revisionAtApply)

/-- The record after an item was applied to it. -/
def ImportRecord.updated (r : ImportRecord) (pv : ImportPreview) (item : ImportItem)
    (disposition : ImportDisposition) (link : ImportLink) : ImportRecord :=
  { r with
    recordRevision := r.recordRevision + 1
    disposition := disposition
    title := item.title
    source := { pv.source with context := r.source.context }
    sourceDigest := pv.digest
    evidence := item.evidence
    link := link
    closureProvenance :=
      r.closureProvenance <|> AgentCoordinator.closureProvenance item pv.id disposition
    preview := pv.id }

/-- Apply an item whose identity has a record. -/
def updateImported (b : Backlog) (pv : ImportPreview) (r : ImportRecord) (item : ImportItem) :
    Except AppError Backlog :=
  let disposition := r.disposed item
  match r.link with
  | .task id revisionAtApply => do
    let (s, disposition, revision) ←
      syncTask b.work.db pv.project id revisionAtApply item disposition
    return { b with
      work := b.work.withDb s
      records := b.records.put (r.updated pv item disposition (.task id revision)) }
  | .knowledge id revisionAtApply => do
    let (b, revision) ← syncKnowledge b pv.project id revisionAtApply item
    return { b with
      records := b.records.put (r.updated pv item disposition (.knowledge id revision)) }

/-- The task an item creates. -/
def importedTask (pv : ImportPreview) (item : ImportItem) (now : Time) (id : Id) : Task where
  id := id
  project := pv.project
  title := item.title
  description :=
    "Imported from " ++ item.sourcePath ++ " at " ++ pv.source.gitRevision ++ " (" ++
      pv.source.observedAt ++ "; branch " ++ pv.source.branch ++ "; environment " ++
      pv.source.environment ++ ").\n\n" ++ item.evidence
  acceptance :=
    ["Imported checklist item remains traceable to " ++ item.sourcePath ++ " / " ++
      item.sectionIdentity ++ "."]
  kind := .general
  priority := 2
  lifecycle := item.disposition.lifecycle
  revision := 1
  generation := 0
  currentAttempt := none
  blockedReason := none
  readySince := now
  archivedAt := none
  deletedAt := none
  humanDelivered := false

/-- The record a new item gets. -/
def importedRecord (pv : ImportPreview) (item : ImportItem) (link : ImportLink) :
    ImportRecord where
  project := pv.project
  stableIdentity := item.stableIdentity
  recordRevision := 1
  disposition := item.disposition
  title := item.title
  source := pv.source
  sourcePath := item.sourcePath
  sectionIdentity := item.sectionIdentity
  sourceDigest := pv.digest
  evidence := item.evidence
  link := link
  closureProvenance := AgentCoordinator.closureProvenance item pv.id item.disposition
  preview := pv.id

/-- The task or the knowledge record of a new item. -/
def createImported (b : Backlog) (actor : Actor) (pv : ImportPreview) (item : ImportItem) :
    Except AppError (Backlog × ImportLink) :=
  match item.recordKind with
  | .task => do
    let id := b.work.db.tasks.fresh
    let s ← saveImportedTaskRevision { b.work.db with
      tasks := b.work.db.tasks.create (importedTask pv item b.work.db.now) } pv.project id
    return ({ b with work := b.work.withDb s }.setOrigin id (.ofPrincipal actor.kind) none,
      .task id 1)
  | .historical =>
    return (b.createKnowledge pv.project item, .knowledge b.knowledge.fresh 1)

/-- Apply an item whose identity has no record yet. -/
def insertImported (b : Backlog) (actor : Actor) (pv : ImportPreview) (item : ImportItem) :
    Except AppError Backlog := do
  let (b, link) ← createImported b actor pv item
  let records ← okOr (b.records.insert? (importedRecord pv item link)) .recordConflict
  return { b with records := records }

/-- Apply one item. -/
def applyItem (b : Backlog) (actor : Actor) (pv : ImportPreview) (item : ImportItem) :
    Except AppError Backlog :=
  match b.records.get? (pv.project, item.stableIdentity) with
  | some r => updateImported b pv r item
  | none => insertImported b actor pv item

/-- Apply the items in order. -/
def applyItems (b : Backlog) (actor : Actor) (pv : ImportPreview) :
    List ImportItem → Except AppError Backlog
  | [] => return b
  | item :: items => do
    let b ← applyItem b actor pv item
    applyItems b actor pv items

/-! ### Applying -/

/-- `ApplyImportInput`. -/
structure ApplyImportInput where
  previewDigest : String
  expectedProjectEventRevision : Nat

/-- What `apply` checks of its preview. -/
def ensureFresh (b : Backlog) (pv : ImportPreview) (input : ApplyImportInput) :
    Except AppError Unit := do
  refuseIf (pv.appliedAt ≠ none)
    (.conflict "import_already_applied"
      "This preview was already applied; retry with its original idempotency key.")
  refuseIf (pv.digest ≠ input.previewDigest ∨
      pv.projectEventRevision ≠ input.expectedProjectEventRevision)
    (.conflict "preview_mismatch"
      "Apply must name the exact saved preview digest and project event revision.")
  refuseIf (b.projectEventRevision pv.project ≠ pv.projectEventRevision)
    (.conflict "stale_import_preview"
      "Project state changed after preview; create and inspect a new preview.")
  refuseIf (∃ c ∈ pv.conflicts, c.blocking = true)
    (.conflict "import_conflicts" "Resolve blocking preview conflicts before applying.")
  refuseIf (∃ i ∈ pv.items, b.recordRevision pv.project i.1.stableIdentity ≠ i.2)
    (.conflict "stale_import_record"
      "An imported record changed after preview; create and inspect a new preview.")

/-- A preview that was applied. -/
def ImportPreview.applied (now : Time) (pv : ImportPreview) : ImportPreview :=
  { pv with appliedAt := some now }

/-- `apply`. -/
def applyImport (b : Backlog) (actor : Actor) (project preview : Id) (input : ApplyImportInput) :
    Except AppError Backlog := do
  bounded input.previewDigest "preview digest" 64 true
  refuseIf (actor.kind ≠ .human)
    (.humanGate "import_apply" "A human operator must apply imported records.")
  let pv ← okOr ((b.previews.get? preview).filter (fun pv => pv.project = project)) .notFound
  ensureFresh b pv input
  let b ← applyItems b actor pv (pv.items.map Prod.fst)
  return { b with
    work := b.work.withDb (b.work.db.finish actor "import.applied" preview)
    previews := b.previews.put (pv.applied b.work.db.now) }.record project "import.applied"

end AgentCoordinator
