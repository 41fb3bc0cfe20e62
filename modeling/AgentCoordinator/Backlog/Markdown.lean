import AgentCoordinator.Backlog.Imports
import AgentCoordinator.Library.Headings
import AgentCoordinator.Library.Text

/-
Reading Markdown: the checklist items of the chunks of a source.

A chunk is read line by line. What a line means depends on the place it stands at: the headings
above it, and the last coordinator-id marker that no item has taken. A checklist item gets its
identity from its own marker, from the pending one, or from its title; one whose identity is taken
becomes a conflict. Unicode letters and numbers are what `alphanumeric` says they are.
-/

namespace AgentCoordinator

open Guarded Headings Text

/-- `MarkdownChunk`. -/
structure MarkdownChunk where
  path : String
  markdown : String
  deriving DecidableEq, Repr

/-- `HistoricalMapping`. -/
structure HistoricalMapping where
  path : String
  sectionIdentity : String
  title : String
  disposition : String
  evidence : String
  deriving DecidableEq, Repr

/-- `UnresolvedMarkdownLink`. -/
structure UnresolvedMarkdownLink where
  sourcePath : String
  sourceLine : Nat
  target : String
  deriving DecidableEq, Repr

/-! ### Lines -/

/-- `str::trim`. -/
def trimmed (line : List Char) : List Char := trimBy isWhitespace line

/-- `normalize_path`. -/
def normalizePath (value : String) : Except AppError String := do
  bounded value "source path" 512 true
  let value := value.toList.map fun c => if c = '\\' then '/' else c
  refuseIf (value.head? = some '/' ∨ ['.', '.'] ∈ value.splitOn '/')
    (.badRequest "Source paths must be relative metadata paths without parent traversal.")
  let parts := (value.splitOn '/').filter fun part => part ≠ [] ∧ part ≠ ['.']
  refuseIf (parts = [] ∨ ':' ∈ parts.headD []) (.badRequest "Source path metadata is invalid.")
  return String.ofList (['/'].intercalate parts)

/-- `str::split_whitespace`. -/
def splitWhitespace (s : List Char) : List (List Char) :=
  (s.splitOnP isWhitespace).filter (· ≠ [])

/-- `normalize_identity_text`. -/
def normalizeIdentityText (alphanumeric : Char → Bool) (value : List Char) : String :=
  String.ofList ([' '].intercalate
    (splitWhitespace (value.map fun c => if alphanumeric c then c.toLower else ' ')))

/-- How a coordinator-id marker starts. -/
def anchorMarker : List Char := "<!-- coordinator-id:".toList

/-- `explicit_anchor`: the name in the first coordinator-id marker of a line. -/
def explicitAnchor (line : List Char) : Option String := do
  let (_, rest) ← cut anchorMarker line
  let (value, _) ← cut "-->".toList rest
  let name := String.ofList (trimmed value)
  if name ≠ "" ∧ name.utf8ByteSize ≤ 128 ∧
      (trimmed value).all (fun c => c.isAlphanum || c ∈ "-_.".toList) = true then
    some name
  else none

/-- What a checklist item starts with, and whether it is closed. -/
def checkboxes : List (List Char × Bool) :=
  [("- [ ] ".toList, false), ("* [ ] ".toList, false), ("- [x] ".toList, true),
    ("- [X] ".toList, true), ("* [x] ".toList, true), ("* [X] ".toList, true)]

/-- A checklist item: whether it is closed, and its raw title. -/
structure Checkbox where
  closed : Bool
  rawTitle : List Char
  deriving DecidableEq, Repr

/-- `checklist`. -/
def checklist (line : List Char) : Option Checkbox :=
  let line := line.dropWhile isWhitespace
  checkboxes.findSome? fun box =>
    if box.1 <+: line then some ⟨box.2, line.drop box.1.length⟩ else none

/-- `clean_title`. -/
def cleanTitle (value : List Char) : List Char :=
  let withoutAnchor := ((cut anchorMarker value).map (·.1)).getD value
  trimmed (trimBy (· == '*') (trimBy (· == '~') (trimmed withoutAnchor)))

/-- The title an item would have. -/
def Checkbox.title (b : Checkbox) : String := String.ofList (cleanTitle b.rawTitle)

/-- The title has 1 to 300 bytes. -/
def Checkbox.Valid (b : Checkbox) : Prop := b.title ≠ "" ∧ b.title.utf8ByteSize ≤ 300

instance (b : Checkbox) : Decidable b.Valid := by
  unfold Checkbox.Valid
  infer_instance

/-- The heading of a line: one to six `#`, a blank, and a title. -/
def heading (line : List Char) : Option (Heading String) :=
  let level := ((trimmed line).takeWhile (· == '#')).length
  if h : 1 ≤ level ∧ level ≤ 6 ∧ (trimmed line)[level]? = some ' ' then
    some ⟨level, String.ofList (trimmed ((trimmed line).drop (level + 1))), h.1⟩
  else none

/-! ### Links -/

/-- `resolve_link`. -/
def resolveLink (source target : List Char) : List Char :=
  let slashes := target.map fun c => if c = '\\' then '/' else c
  if target.head? = some '/' then slashes.dropWhile (· == '/')
  else ['/'].intercalate ((slashes.splitOn '/').foldl (fun parts part =>
    if part = [] ∨ part = ['.'] then parts
    else if part = ['.', '.'] then parts.dropLast
    else parts ++ [part]) (source.splitOn '/').dropLast)

/-- The link to a target, if it is a relative one that no chunk answers. -/
def unresolvedLink (sourcePath : String) (lineNumber : Nat) (knownPaths : List String)
    (raw : List Char) : List UnresolvedMarkdownLink :=
  let target := (splitWhitespace raw).headD []
  let path := target.takeWhile fun c => c ≠ '#' ∧ c ≠ '?'
  if target = [] ∨ target.head? = some '#' ∨ "://".toList <:+: target ∨
      "mailto:".toList <+: target ∨
      String.ofList (resolveLink sourcePath.toList path) ∈ knownPaths then []
  else [⟨sourcePath, lineNumber, String.ofList path⟩]

/-- `scan_links`, of at most `fuel` links. -/
def scanLinks (sourcePath : String) (lineNumber : Nat) (knownPaths : List String) :
    Nat → List Char → List UnresolvedMarkdownLink
  | 0, _ => []
  | fuel + 1, rest =>
    match cut "](".toList rest with
    | none => []
    | some (_, rest) =>
      match cut [')'] rest with
      | none => []
      | some (raw, rest) =>
        unresolvedLink sourcePath lineNumber knownPaths raw ++
          scanLinks sourcePath lineNumber knownPaths fuel rest

/-! ### Places -/

/-- What the lines before a place say about it. -/
structure Place where
  headings : List String
  pendingAnchor : Option String
  deriving DecidableEq, Repr

/-- The start of a chunk. -/
def Place.start : Place := ⟨[], none⟩

/-- A line with a marker makes it the pending one; a heading closes others by position and drops
the pending marker. -/
def Place.reach (p : Place) (line : List Char) : Place :=
  match heading line with
  | some h => ⟨p.headings.take (h.level - 1) ++ [h.title], none⟩
  | none => { p with pendingAnchor := (explicitAnchor (trimmed line)).or p.pendingAnchor }

/-- An item without a marker of its own takes the pending one. -/
def Place.take (p : Place) (b : Checkbox) : Place :=
  if explicitAnchor b.rawTitle = none then { p with pendingAnchor := none } else p

/-- The place after a line. -/
def Place.step (p : Place) (line : List Char) : Place :=
  match checklist line with
  | none => p.reach line
  | some b => if b.Valid then (p.reach line).take b else p.reach line

/-- The section of a place. -/
def Place.section (p : Place) : String :=
  if p.headings = [] then "(root)" else " / ".intercalate p.headings

/-- What gives an item its identity. -/
def Place.anchor (alphanumeric : Char → Bool) (p : Place) (b : Checkbox) : String :=
  ((explicitAnchor b.rawTitle).or p.pendingAnchor).getD
    (normalizeIdentityText alphanumeric (cleanTitle b.rawTitle))

/-! ### Items -/

/-- The item of a checklist line. -/
def Place.item (alphanumeric : Char → Bool) (source : ImportSource) (path : String) (p : Place)
    (index : Nat) (b : Checkbox) : ImportItem where
  stableIdentity := ⟨source.context, path, p.section, p.anchor alphanumeric b⟩
  sourcePath := path
  sectionIdentity := p.section
  title := b.title
  recordKind := .task
  disposition := if b.closed then .closed else .planned
  sourceLine := index + 1
  evidence :=
    if b.closed then "Explicit checked Markdown checklist item at the recorded source revision."
    else ""

/-- What has been read so far. The map `identities` of the source holds the path and the section of
each item under its identity. -/
structure Gathered where
  items : List ImportItem
  conflicts : List ImportConflict
  unresolvedLinks : List UnresolvedMarkdownLink
  distinct : (items.map ImportItem.stableIdentity).Nodup

def Gathered.empty : Gathered := ⟨[], [], [], List.nodup_nil⟩

/-- A conflict that blocks the import. -/
def Gathered.block (g : Gathered) (code path «section» message : String) : Gathered :=
  { g with conflicts := g.conflicts ++ [⟨code, path, «section», message, true⟩] }

/-- An item is kept when its identity is free. -/
def Gathered.file (g : Gathered) (item : ImportItem) (repeats : ImportItem → String) : Gathered :=
  match h : g.items.find? fun first => first.stableIdentity = item.stableIdentity with
  | some first =>
    g.block "ambiguous_source_identity" item.sourcePath item.sectionIdentity (repeats first)
  | none =>
    { g with
      items := g.items ++ [item]
      distinct := by
        rw [List.map_append, List.nodup_append]
        refine ⟨g.distinct, by simp, ?_⟩
        intro identity hmem identity' hmem' heq
        obtain ⟨first, hfirst, rfl⟩ := List.mem_map.1 hmem
        obtain rfl := List.mem_singleton.1 hmem'
        exact List.find?_eq_none.1 h first hfirst (decide_eq_true heq) }

/-- The message about a checklist item that repeats an identity. -/
def repeatsMessage (first : ImportItem) : String :=
  "This item repeats source identity already used at " ++ first.sourcePath ++ " in " ++
    first.sectionIdentity ++ "; add distinct coordinator-id markers."

/-- What a line adds, at its place. -/
def Gathered.readLine (alphanumeric : Char → Bool) (source : ImportSource) (path : String)
    (paths : List String) (g : Gathered) (p : Place) (index : Nat) (line : List Char) : Gathered :=
  let g := { g with
    unresolvedLinks := g.unresolvedLinks ++ scanLinks path (index + 1) paths line.length line }
  match checklist line with
  | none => g
  | some b =>
    if b.Valid then g.file ((p.reach line).item alphanumeric source path index b) repeatsMessage
    else g.block "invalid_checklist_item" path (" / ".intercalate (p.reach line).headings)
      "Checklist titles must contain 1–300 bytes."

/-- The lines of a chunk, from a place on. -/
def Gathered.readLines (alphanumeric : Char → Bool) (source : ImportSource) (path : String)
    (paths : List String) : Gathered → Place → Nat → List (List Char) → Gathered
  | g, _, _, [] => g
  | g, p, index, line :: rest =>
    (g.readLine alphanumeric source path paths p index line).readLines alphanumeric source path
      paths (p.step line) (index + 1) rest

/-- A chunk; generated exports are no source. -/
def Gathered.readChunk (alphanumeric : Char → Bool) (source : ImportSource) (paths : List String)
    (g : Gathered) (chunk : String × String) : Gathered :=
  let g :=
    if "<!-- agent-coordinator-generated-export".toList <:+: chunk.2.toList then
      g.block "generated_projection" chunk.1 "(document)"
        "Generated exports are projections and cannot be imported as authority."
    else g
  g.readLines alphanumeric source chunk.1 paths .start 0 (lines chunk.2.toList)

/-! ### Historical mappings -/

/-- The dispositions of a historical mapping. -/
def historicalDisposition : String → Option ImportDisposition
  | "closed" => some .closed
  | "rejected" => some .rejected
  | "superseded" => some .superseded
  | _ => none

/-- The item of a historical mapping. -/
def readMapping (alphanumeric : Char → Bool) (source : ImportSource) (paths : List String)
    (g : Gathered) (mapping : HistoricalMapping) : Except AppError Gathered := do
  let path ← normalizePath mapping.path
  refuseIf (path ∉ paths)
    (.badRequest "Every historical mapping path must name a supplied source chunk.")
  bounded mapping.sectionIdentity "section identity" 512 true
  bounded mapping.title "historical title" 255 true
  bounded mapping.evidence "historical evidence" 8192 true
  let disposition ← okOr (historicalDisposition mapping.disposition)
    (.badRequest "Historical disposition must be closed, rejected, or superseded.")
  return g.file
    { stableIdentity := ⟨source.context, path, mapping.sectionIdentity,
        normalizeIdentityText alphanumeric mapping.title.toList⟩
      sourcePath := path
      sectionIdentity := mapping.sectionIdentity
      title := mapping.title
      recordKind := .historical
      disposition := disposition
      sourceLine := 0
      evidence := mapping.evidence }
    fun _ => "Historical mapping duplicates another source identity."

/-! ### Sources -/

/-- `MAX_CHUNKS`. -/
def maxChunks : Nat := 32

/-- `MAX_SOURCE_BYTES`. -/
def maxSourceBytes : Nat := 200 * 1024

/-- `MAX_ITEMS`. -/
def maxItems : Nat := 200

/-- A chunk with its normalized path, which no chunk before it has. -/
def normalizeChunk (normalized : List (String × String)) (chunk : MarkdownChunk) :
    Except AppError (List (String × String)) := do
  let path ← normalizePath chunk.path
  bounded chunk.markdown "Markdown chunk" maxSourceBytes false
  refuseIf (path ∈ normalized.map (·.1)) (.badRequest "Source chunk paths must be unique.")
  return normalized ++ [(path, chunk.markdown)]

/-- `parse_chunks`. -/
def parseChunks (alphanumeric : Char → Bool) (source : ImportSource) (chunks : List MarkdownChunk)
    (mappings : List HistoricalMapping) : Except AppError Gathered := do
  refuseIf (chunks = [] ∨ chunks.length > maxChunks)
    (.badRequest "Provide 1–32 Markdown source chunks.")
  refuseIf ((chunks.map (·.markdown.utf8ByteSize)).sum > maxSourceBytes ∨
      mappings.length > maxItems)
    (.badRequest
      "Import source is limited to 200 KiB and 200 mappings or parsed items.")
  let normalized ← chunks.foldlM normalizeChunk []
  let paths := normalized.map (·.1)
  let g := normalized.foldl (Gathered.readChunk alphanumeric source paths) .empty
  let g ← mappings.foldlM (readMapping alphanumeric source paths) g
  refuseIf (g.items.length > maxItems) (.badRequest "A preview may contain at most 200 items.")
  return g

/-- What a preview is made from. -/
def Gathered.parsed (g : Gathered) : ParsedImport := ⟨g.items, g.conflicts, g.distinct⟩

end AgentCoordinator
