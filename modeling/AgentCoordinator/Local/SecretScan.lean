import Mathlib.Algebra.Group.Nat.Defs
import AgentCoordinator.Access
import AgentCoordinator.Library.Text
import AgentCoordinator.Library.Utf8
import Mathlib.Data.List.Destutter

/-
The scan of outgoing commits for secrets.

A candidate push is refused when the patch, a file name or a commit object of an outgoing commit
holds a likely secret. Git writes the three listings, and the scan reads them line by line, or entry
by entry. Text is a list of characters, decoded lossily from what Git writes. The regular
expressions of the rules and the digest of a token are parameters.
-/

namespace AgentCoordinator.SecretScan

open Text Utf8

/-- `Finding`. -/
structure Finding where
  rule : String
  commit : List Char
  path : List Char
  deriving DecidableEq, Repr

/-- `RULES`: the names of the token shapes and their patterns. -/
def RULES : List (String × String) :=
  [("aws_access_key", "\\bAKIA[0-9A-Z]\x7b16\x7d\\b"),
    ("github_token", "\\bgh[pousr]_[A-Za-z0-9]\x7b36,\x7d"),
    ("github_fine_grained_token", "\\bgithub_pat_[A-Za-z0-9_]\x7b40,\x7d"),
    ("private_key", "-----BEGIN [A-Z ]*PRIVATE KEY-----"),
    ("anthropic_key", "\\bsk-ant-[A-Za-z0-9_-]\x7b20,\x7d"),
    ("openai_key", "\\bsk-(?:proj-)?[A-Za-z0-9]\x7b20,\x7d"),
    ("slack_token", "\\bxox[baprs]-[A-Za-z0-9-]\x7b10,\x7d"),
    ("google_api_key", "\\bAIza[0-9A-Za-z_-]\x7b35\x7d")]

def MESSAGE_LOCATION : List Char := "(commit message or identity)".toList

/-- `FORBIDDEN_FILES`. -/
def FORBIDDEN_FILES : List (List Char) :=
  ["credentials.toml".toList, "id_rsa".toList, "id_ed25519".toList, ".env".toList]

/-- What the scan uses of other packages. -/
structure Matchers where
  /-- `Regex::new(pattern).is_match`: the pattern matches somewhere in the text. -/
  isMatch : String → List Char → Bool
  /-- The SHA-256 of a text, in lowercase hexadecimal digits. -/
  digest : List Char → String

/-! ### Rules -/

/-- `contains_known_token`. -/
def containsKnownToken (m : Matchers) (known : List String) (added : List Char) : Bool :=
  !known.isEmpty &&
    ((added.splitOnP (! isAsciiHexdigit ·)).filter (·.length = 64)).any fun word =>
      [word, word.map Char.toLower].any fun candidate => known.contains (m.digest candidate)

/-- `matching_rule`. -/
def matchingRule (m : Matchers) (known : List String) (added : List Char) : Option String :=
  if containsKnownToken m known added then some "coordinator_credential"
  else (RULES.find? fun rule => m.isMatch rule.2 added).map Prod.fst

/-- `forbidden_file`. -/
def forbiddenFile (path : List Char) : Bool :=
  let name := (path.splitOnP (· = '/')).getLastD path
  FORBIDDEN_FILES.contains name || ".pem".toList.isSuffixOf name

/-- `commit_marker`. -/
def commitMarker (entry : List Char) : Option (List Char) :=
  match afterStart "commit:".toList entry with
  | none => none
  | some hash =>
    if (hash.length = 40 || hash.length = 64) && hash.all isAsciiHexdigit then some hash else none

/-! ### Patches -/

/-- `PatchState`. -/
structure PatchState where
  commit : List Char
  path : List Char
  inHeader : Bool
  deriving DecidableEq, Repr

/-- `unescape`. -/
def unescape : List Char → List Char
  | [] => []
  | '\\' :: 't' :: rest => '\t' :: unescape rest
  | '\\' :: 'n' :: rest => '\n' :: unescape rest
  | '\\' :: '"' :: rest => '"' :: unescape rest
  | '\\' :: '\\' :: rest => '\\' :: unescape rest
  | '\\' :: other :: rest => '\\' :: other :: unescape rest
  | ['\\'] => ['\\']
  | c :: rest => c :: unescape rest

/-- What stands between two quotes. -/
def unquoted (header : List Char) : Option (List Char) :=
  (afterStart ['"'] header).bind (chomp ['"'])

/-- `header_path`. -/
def headerPath (header : List Char) : List Char :=
  let path := ((unquoted header).map unescape).getD header
  (afterStart "b/".toList path).getD path

/-- `PatchState::advance`: the state after a line, and the text of an added hunk line. -/
def PatchState.advance (st : PatchState) (line : List Char) : PatchState × Option (List Char) :=
  if "commit:".toList <+: line then
    ({ st with commit := trimBy isWhitespace (line.drop 7), inHeader := false }, none)
  else if "diff --".toList <+: line then ({ st with inHeader := true }, none)
  else if st.inHeader then
    if "@@".toList <+: line then ({ st with inHeader := false }, none)
    else if "+++ ".toList <+: line then ({ st with path := headerPath (line.drop 4) }, none)
    else (st, none)
  else (st, afterStart ['+'] line)

/-- The findings of the lines of a patch. -/
def scanLines (m : Matchers) (known : List String) : PatchState → List (List Char) → List Finding
  | _, [] => []
  | st, line :: lines =>
    let next := (st.advance line).1
    (((st.advance line).2.bind (matchingRule m known)).map
      fun rule => ⟨rule, next.commit, next.path⟩).toList ++ scanLines m known next lines

/-- `scan_patch`. -/
def scanPatch (m : Matchers) (known : List String) (patch : List Char) : List Finding :=
  (scanLines m known ⟨[], [], false⟩ (lines patch)).destutter (· ≠ ·)

/-! ### Paths -/

/-- A path entry without a newline in front. -/
def dropNewline (entry : List Char) : List Char := (afterStart ['\n'] entry).getD entry

/-- The findings of the entries of a path listing. -/
def scanEntries : List Char → List (List Char) → List Finding
  | _, [] => []
  | commit, entry :: entries =>
    match commitMarker (dropNewline entry) with
    | some hash => scanEntries hash entries
    | none =>
      if forbiddenFile (dropNewline entry) then
        ⟨"credential_file", commit, dropNewline entry⟩ :: scanEntries commit entries
      else scanEntries commit entries

/-- `scan_paths`. -/
def scanPaths (listing : List UInt8) : List Finding :=
  scanEntries [] ((listing.splitOnP (· = 0)).map lossy)

/-! ### Commit objects -/

/-- The findings of the lines of a message listing. -/
def scanMessageLines (m : Matchers) (known : List String) :
    List Char → List (List Char) → List Finding
  | _, [] => []
  | commit, line :: lines =>
    let commit := (commitMarker line).getD commit
    ((matchingRule m known line).map fun rule => ⟨rule, commit, MESSAGE_LOCATION⟩).toList ++
      scanMessageLines m known commit lines

/-- `scan_messages`. -/
def scanMessages (m : Matchers) (known : List String) (listing : List Char) : List Finding :=
  (scanMessageLines m known [] (lines listing)).destutter (· ≠ ·)

/-- `split_once(' ')`. -/
def splitOnce (s : List Char) : Option (List Char × List Char) := cut [' '] s

/-- `parse::<usize>`. -/
def parseUsize (s : List Char) : Option Nat :=
  let digits := (afterStart ['+'] s).getD s
  if digits ≠ [] ∧ digits.all Char.isDigit = true ∧ Nat.ofDigitChars 10 digits 0 < 2 ^ 64 then
    some (Nat.ofDigitChars 10 digits 0)
  else none

/-- The ID and the size in the header of a commit object. -/
def objectHeader (header : List Char) : Option (List Char × Nat) := do
  let (oid, rest) ← splitOnce header
  let (kind, size) ← splitOnce rest
  let size ← parseUsize size
  if kind = "commit".toList then some (oid, size) else none

/-- The text of a commit object: its bytes but NUL, decoded. -/
def objectText (body : List UInt8) : List Char := lossy (body.filter (· ≠ 0))

/-- `commit_batch_listing`, with so many turns of its loop left: each takes a newline at least. -/
def commitBatchLoop : Nat → List UInt8 → List Char → Except String (List Char)
  | _, [], listing => .ok listing
  | 0, _, _ => .error "truncated object batch"
  | turns + 1, batch, listing => do
    let some stop := batch.findIdx? (· = 10) | .error "truncated object batch"
    let some header := strict (batch.take stop) | .error "malformed object batch"
    let some (oid, size) := objectHeader header
      | .error "outgoing object is not a readable commit"
    if batch.length < stop + 1 + size then .error "truncated object batch"
    else
      commitBatchLoop turns (batch.drop (stop + 2 + size))
        (listing ++ ("commit:".toList ++ oid ++ '\n' ::
          objectText ((batch.drop (stop + 1)).take size) ++ ['\n']))

/-- `commit_batch_listing`. -/
def commitBatchListing (batch : List UInt8) : Except String (List Char) :=
  commitBatchLoop batch.length batch []

/-- `secret_findings_for_revisions`, by what Git writes: the patch, the path listing, and the commit
objects. -/
def secretFindingsForRevisions (m : Matchers) (known : List String)
    (patch paths batch : Except String (List UInt8)) : Except String (List Finding) := do
  let patch ← patch
  let paths ← paths
  let messages ← commitBatchListing (← batch)
  return scanPatch m known (lossy patch) ++ scanPaths paths ++ scanMessages m known messages

end AgentCoordinator.SecretScan
