import AgentCoordinator.Local.SecretScan

/-
What Git writes of the outgoing commits for the scan.

`git log -p` writes the line `commit:` with the commit's ID, and for each changed file a header and
its hunks; no line of a header starts like a hunk, and each line of a hunk starts with one of four
marks. `git log --name-only -z` ends every path with NUL, and puts a newline before the first one.
`git cat-file --batch` writes each commit object behind a line with its size.
-/

namespace AgentCoordinator.SecretScan

open Text Utf8

/-- The bytes of an ASCII text. -/
def encode (s : List Char) : List UInt8 := s.map fun c => UInt8.ofNat c.toNat

/-- `\n`. -/
def newline : UInt8 := 10

/-- The bytes of one line. -/
abbrev Line := {t : List UInt8 // newline ∉ t}

/-- A line of the header of a changed file, by how it starts. -/
inductive HeaderKind
  | oldMode | newMode | deletedFileMode | newFileMode | copyFrom | copyTo | renameFrom | renameTo
  | similarity | dissimilarity | index | before | after
  deriving DecidableEq, Repr

def HeaderKind.start : HeaderKind → List Char
  | .oldMode => "old mode ".toList
  | .newMode => "new mode ".toList
  | .deletedFileMode => "deleted file mode ".toList
  | .newFileMode => "new file mode ".toList
  | .copyFrom => "copy from ".toList
  | .copyTo => "copy to ".toList
  | .renameFrom => "rename from ".toList
  | .renameTo => "rename to ".toList
  | .similarity => "similarity index ".toList
  | .dissimilarity => "dissimilarity index ".toList
  | .index => "index ".toList
  | .before => "--- ".toList
  | .after => "+++ ".toList

/-- A line of a hunk; the last kind says that the line before has no newline. -/
inductive HunkMark | added | removed | context | noNewline
  deriving DecidableEq, Repr

def HunkMark.start : HunkMark → Char
  | .added => '+'
  | .removed => '-'
  | .context => ' '
  | .noNewline => '\\'

/-- A hunk: what follows `@@`, and its lines. -/
structure Hunk where
  heading : Line
  lines : List (HunkMark × Line)

/-- A changed file: what follows `diff --`, the lines of its header, and its hunks. -/
structure FileChange where
  names : Line
  header : List (HeaderKind × Line)
  hunks : List Hunk

/-- The ID of a commit. -/
abbrev CommitId := {oid : List Char // (oid.length = 40 ∨ oid.length = 64) ∧
  ∀ c ∈ oid, isAsciiHexdigit c = true}

/-- An outgoing commit: its patch, the paths it adds, modifies, renames or copies, and the bytes of
its object. -/
structure OutgoingCommit where
  oid : CommitId
  files : List FileChange
  paths : List {p : List UInt8 // 0 ∉ p}
  object : {bytes : List UInt8 // bytes.length < 2 ^ 64}

/-! ### The patch -/

def Hunk.patch (h : Hunk) : List (List UInt8) :=
  (encode "@@".toList ++ h.heading) :: h.lines.map fun l => encode [l.1.start] ++ l.2

def FileChange.patch (f : FileChange) : List (List UInt8) :=
  (encode "diff --".toList ++ f.names) ::
    f.header.map (fun l => encode l.1.start ++ l.2) ++ f.hunks.flatMap Hunk.patch

/-- The line that names a commit. -/
def OutgoingCommit.marker (c : OutgoingCommit) : List Char := "commit:".toList ++ c.oid

lemma OutgoingCommit.marker_eq (c : OutgoingCommit) : c.marker = "commit:".toList ++ c.oid := rfl

/-- The lines of the patch of a commit: an empty one stands before the files. -/
def OutgoingCommit.patch (c : OutgoingCommit) : List (List UInt8) :=
  encode c.marker :: (if c.files = [] then [] else [[]]) ++ c.files.flatMap FileChange.patch

/-- `git log -p --text --format=commit:%H`. -/
def gitPatch (commits : List OutgoingCommit) : List UInt8 :=
  (commits.flatMap OutgoingCommit.patch).flatMap (· ++ [newline])

/-! ### The other listings -/

/-- The entries of the paths of a commit: the first has a newline in front. -/
def OutgoingCommit.entries (c : OutgoingCommit) : List (List UInt8) :=
  match c.paths with
  | [] => []
  | p :: paths => (newline :: p) :: paths.map Subtype.val

/-- `git log --name-only -z --diff-filter=AMRC --format=commit:%H`. -/
def gitPaths (commits : List OutgoingCommit) : List UInt8 :=
  (commits.flatMap fun c => encode c.marker :: c.entries).flatMap (· ++ [0])

/-- The header of a commit object. -/
def OutgoingCommit.objectHeader (c : OutgoingCommit) : List Char :=
  c.oid ++ " commit ".toList ++ (c.object.val.length.repr).toList

/-- `git cat-file --batch`. -/
def gitObjects (commits : List OutgoingCommit) : List UInt8 :=
  commits.flatMap fun c => encode c.objectHeader ++ newline :: c.object.val ++ [newline]

/-- The findings for outgoing commits. -/
def outgoingFindings (m : Matchers) (known : List String) (commits : List OutgoingCommit) :
    Except String (List Finding) :=
  secretFindingsForRevisions m known (.ok (gitPatch commits)) (.ok (gitPaths commits))
    (.ok (gitObjects commits))

end AgentCoordinator.SecretScan
