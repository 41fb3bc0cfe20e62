import Mathlib.Data.Int.Notation
import Mathlib.Data.List.Sort
import AgentCoordinator.Library.Buckets

/-
Retention of the snapshots in a backup repository.

After each backup the repository keeps the newest snapshot of each of the latest hours and days that
have one, and removes the other snapshot directories one after another. Every run reads the marker
and the manifest of each directory first. A run can end early, between two candidates or while a
directory is being removed; it then leaves some of the files of that directory.
-/

namespace AgentCoordinator.Backup

/-- `Completion`. -/
structure Completion where
  formatVersion : ℕ
  snapshotId : String
  manifestSha256 : String
  deriving DecidableEq

/-- `Manifest`, as far as retention reads it. -/
structure Manifest where
  formatVersion : ℕ
  snapshotId : String
  createdAtMs : ℤ
  deriving DecidableEq

/-- The formats of the metadata, the digest of a file, and the timestamps that are supported. -/
structure Formats where
  parseCompletion : List UInt8 → Except String Completion
  parseManifest : List UInt8 → Except String Manifest
  sha256 : List UInt8 → String
  supported : ℤ → Bool

/-- What a path names. -/
inductive Node
  | file (bytes : List UInt8)
  | directory
  | symlink
  | special
  deriving DecidableEq

/-- An entry of the `snapshots` directory, with everything below it. -/
structure Entry where
  path : String
  node : Node
  contents : List (String × Node)
  deriving DecidableEq

def MAX_BACKUP_DATABASE_BYTES : ℕ := 8 * 1024 * 1024 * 1024
def MAX_BACKUP_ARTIFACTS : ℕ := 1000000
def MAX_BACKUP_MANIFEST_BYTES : ℕ := 64 * 1024 * 1024
def MAX_BACKUP_ARTIFACT_BYTES : ℕ := 16 * 1024 * 1024
def FORMAT_VERSION : ℕ := 1
def HOURLY_BUCKETS : ℕ := 24
def DAILY_BUCKETS : ℕ := 30
def MAX_REPOSITORY_SNAPSHOTS : ℕ := 10000
def U64_MAX : ℕ := 18446744073709551615

/-- `ensure!`. -/
def ensure (p : Prop) [Decidable p] (message : String) : Except String Unit :=
  if p then .ok () else .error message

/-! ### Metadata -/

/-- `read_bounded`, of a file in a snapshot. -/
def readBounded (e : Entry) (name : String) (limit : ℕ) : Except String (List UInt8) :=
  match e.contents.lookup name with
  | none => .error "Could not inspect snapshot metadata."
  | some (.file bytes) =>
    if bytes.length ≤ limit then .ok bytes
    else .error "Snapshot metadata exceeds its fixed size limit."
  | some _ => .error "snapshot metadata must be a regular file, not a symlink."

/-- `read_manifest_metadata`. -/
def readManifestMetadata (f : Formats) (snapshot : Entry) : Except String Manifest := do
  let completion ← f.parseCompletion (← readBounded snapshot "COMPLETE" (64 * 1024))
  let bytes ← readBounded snapshot "manifest.json" MAX_BACKUP_MANIFEST_BYTES
  ensure (completion.formatVersion = FORMAT_VERSION ∧ completion.manifestSha256 = f.sha256 bytes)
    "A retained snapshot has an invalid completion marker."
  let manifest ← f.parseManifest bytes
  ensure (manifest.snapshotId = completion.snapshotId ∧ manifest.formatVersion = FORMAT_VERSION)
    "A retained snapshot has mismatched metadata."
  return manifest

/-- One entry of `directory_size`: the bytes and the entries so far. -/
def addSize (limit : ℕ) (s : ℕ × ℕ) (file : String × Node) : Except String (ℕ × ℕ) :=
  if MAX_BACKUP_ARTIFACTS + 16 < s.2 + 1 then
    .error "Snapshot contains too many filesystem entries."
  else
    match file.2 with
    | .symlink => .error "Snapshots must not contain symlinks."
    | .special => .error "Snapshots may contain only regular files."
    | .directory => .ok (s.1, s.2 + 1)
    | .file bytes =>
      if U64_MAX < s.1 + bytes.length then .error "Snapshot byte count overflowed."
      else if limit < s.1 + bytes.length then .error "Snapshot exceeds its fixed byte limit."
      else .ok (s.1 + bytes.length, s.2 + 1)

/-- `directory_size`. -/
def directorySize (e : Entry) (limit : ℕ) : Except String ℕ :=
  (e.contents.foldlM (addSize limit) (0, 0)).map Prod.fst

/-! ### Retention -/

/-- The hour and the day of a timestamp, in UTC. -/
def hour (ms : ℤ) : ℤ := ms / 3600000

def day (ms : ℤ) : ℤ := ms / 86400000

/-- A snapshot in the list of `apply_retention`. -/
structure Candidate where
  created : ℤ
  snapshot : Entry
  deriving DecidableEq

/-- The candidates, in the order in which the directory lists them. -/
def candidates (f : Formats) : List Entry → List Candidate → Except String (List Candidate)
  | [], found => .ok found
  | e :: entries, found => do
    ensure (found.length < MAX_REPOSITORY_SNAPSHOTS)
      "Backup repository contains more than 10,000 snapshots."
    ensure (e.node = .directory) "Backup snapshot entries must be ordinary directories."
    let manifest ← readManifestMetadata f e
    candidates f entries (found ++ [⟨manifest.createdAtMs, e⟩])

/-- `candidates.sort_by_key(|candidate| Reverse(candidate.0))`. -/
def newestFirst (cs : List Candidate) : List Candidate :=
  cs.mergeSort fun a b => decide (b.created ≤ a.created)

/-- What is kept, and the hours and days that have a snapshot. -/
structure Kept where
  keep : List String
  hours : List ℤ
  days : List ℤ

/-- One candidate: it is kept for its hour, for its day or for both. -/
def Kept.add (s : Kept) (created : ℤ) (path : String) : Kept where
  keep :=
    if (s.hours.length < HOURLY_BUCKETS ∧ hour created ∉ s.hours) ∨
        (s.days.length < DAILY_BUCKETS ∧ day created ∉ s.days)
    then path :: s.keep else s.keep
  hours := Buckets.see HOURLY_BUCKETS s.hours (hour created)
  days := Buckets.see DAILY_BUCKETS s.days (day created)

/-- The pass over the candidates, newest first. -/
def keepers (f : Formats) : List Candidate → Kept → Except String Kept
  | [], s => .ok s
  | c :: cs, s =>
    if f.supported c.created then keepers f cs (s.add c.created c.snapshot.path)
    else .error "Snapshot timestamp is outside the supported range."

/-- `RetentionResult`. -/
structure RetentionResult where
  keptSnapshots : ℕ
  prunedSnapshots : ℕ
  retainedBytes : ℕ
  deriving DecidableEq

/-- Where a run ends early: after so many candidates, with what is left of the files if the next
one was being removed. -/
structure Interruption where
  after : ℕ
  left : String → Bool

/-- An interruption as the next candidate sees it. -/
def Interruption.pass (i : Interruption) : Interruption := { i with after := i.after - 1 }

/-- The files that an interrupted removal leaves. -/
def Entry.cut (e : Entry) (left : String → Bool) : Entry :=
  { e with contents := e.contents.filter fun file => left file.1 }

/-- The pass that removes what is not kept. -/
def prune (keep : List String) : List Candidate → Option Interruption → List Entry →
    RetentionResult → List Entry × Except String RetentionResult
  | [], _, entries, result => (entries, .ok result)
  | c :: cs, stop, entries, result =>
    match stop.filter fun i => i.after = 0 with
    | some i =>
      if c.snapshot.path ∈ keep then (entries, .error "interrupted")
      else (entries.map fun e => if e.path = c.snapshot.path then e.cut i.left else e,
        .error "interrupted")
    | none =>
      if c.snapshot.path ∈ keep then
        match directorySize c.snapshot (U64_MAX - result.retainedBytes) with
        | .error message => (entries, .error message)
        | .ok size => prune keep cs (stop.map Interruption.pass) entries
            { result with
              keptSnapshots := result.keptSnapshots + 1
              retainedBytes := min (result.retainedBytes + size) U64_MAX }
      else prune keep cs (stop.map Interruption.pass)
        (entries.filter fun e => e.path ≠ c.snapshot.path)
        { result with prunedSnapshots := result.prunedSnapshots + 1 }

/-- `apply_retention`, on the entries in the order in which they are listed. -/
def applyRetention (f : Formats) (entries : List Entry) (stop : Option Interruption) :
    List Entry × Except String RetentionResult :=
  match candidates f entries [] with
  | .error message => (entries, .error message)
  | .ok cs =>
    match keepers f (newestFirst cs) ⟨[], [], []⟩ with
    | .error message => (entries, .error message)
    | .ok s => prune s.keep (newestFirst cs) stop entries ⟨0, 0, 0⟩

end AgentCoordinator.Backup
