import AgentCoordinator.Access
import AgentCoordinator.Library.Text

/-
Local actions that a workflow uses, read without a YAML parser.

Every place in a line where the key stands, with or without quotes and before a colon, gives one
reference. Its value is the scalar behind the colon, or the one on the next line that is not blank.
A scalar in quotes ends at the next quote of the same kind, a plain one at the first blank, comma,
closing bracket or quote. What the reader does not take for a plain path is reported as unparsed.
Texts are lists of characters; the places are counted in characters.
-/

namespace AgentCoordinator.ActionRefs

open Text

/-- `Ref`. -/
inductive Ref
  | local (dir : List Char)
  | remote
  | unparsed
  deriving DecidableEq, Repr

/-! ### Paths -/

/-- The parts of a path, the last first; none when it climbs above the root. -/
def resolveParts : List (List Char) → List (List Char) → Option (List (List Char))
  | parts, [] => some parts
  | parts, part :: rest =>
    if part = [] ∨ part = ['.'] then resolveParts parts rest
    else if part = ['.', '.'] then
      match parts with
      | [] => none
      | _ :: parts => resolveParts parts rest
    else resolveParts (part :: parts) rest

/-- `resolve`. -/
def resolve (path : List Char) : List Char :=
  match resolveParts [] (path.splitOnP (· = '/')) with
  | none => []
  | some parts => ['/'].intercalate parts.reverse

/-- `is_ascii_alphanumeric`. -/
def isAsciiAlphanumeric (c : Char) : Bool := c.isAlphanum

/-- `classify_uses`. -/
def classifyUses (value : List Char) : Ref :=
  match afterStart ['.', '/'] value with
  | some path => .local (resolve path)
  | none =>
    if "docker://".toList <+: value ∨ value.head?.any isAsciiAlphanumeric = true then .remote
    else .unparsed

/-! ### Keys -/

/-- The places where `key` stands in a text, from the left and apart from each other; the text
starts at `start`. -/
def keyStarts (key : List Char) : Nat → Nat → List Char → List Nat
  | 0, _, _ => []
  | turns + 1, start, text =>
    match cut key text with
    | none => []
    | some (before, after) =>
      (start + before.length) ::
        keyStarts key turns (start + before.length + key.length) after

def isQuote (c : Char) : Bool := c = '"' || c = '\''

def isBlank (c : Char) : Bool := c = ' ' || c = '\t'

/-- A text without a quote at its end. -/
def dropQuote (before : List Char) : List Char :=
  if before.getLast?.any isQuote then before.dropLast else before

/-- `word_before`: the text before a key goes on with a word. -/
def wordBefore (before : List Char) : Bool :=
  (dropQuote before).getLast?.any fun c => isAsciiAlphanumeric c || c = '_' || c = '-'

/-- What follows a key after its closing quote, if it has one. -/
def afterQuote : List Char → List Char
  | [] => []
  | c :: rest => if isQuote c then rest else c :: rest

/-- `colon_after`: how long the text from a key up to the colon is. -/
def colonAfter (after : List Char) : Option Nat :=
  let rest := (afterQuote after).dropWhile isBlank
  if rest.head? = some ':' then some (after.length - rest.length + 1) else none

/-- The place past the colon of the key at a place of a line, if it is one. -/
def keyEnd (key lower : List Char) (start : Nat) : Option Nat :=
  if wordBefore (lower.take start) then none
  else (colonAfter (lower.drop (start + key.length))).map (start + key.length + ·)

/-- The places of `key` on a line, in any letter case. -/
def lineStarts (key line : List Char) : List Nat :=
  keyStarts key (line.length + 1) 0 (line.map Char.toLower)

/-- `key_ends`. -/
def keyEnds (line key : List Char) : List Nat :=
  (lineStarts key line).filterMap (keyEnd key (line.map Char.toLower))

/-! ### Values -/

/-- `trim_start`. -/
def trimStart (s : List Char) : List Char := s.dropWhile isWhitespace

/-- `trim`. -/
def trim (s : List Char) : List Char := trimBy isWhitespace s

/-- `block_header`. -/
def blockHeader (value : List Char) : Bool :=
  let header := (value.takeWhile (· ≠ '#')).rdropWhile isWhitespace
  match header with
  | [] => false
  | c :: rest => (c = '|' || c = '>') && rest.all fun c => c = '-' || c = '+' || c.isDigit

/-- The characters at which a plain scalar ends. -/
def endsPlain (c : Char) : Bool :=
  c = ' ' || c = '\t' || c = ',' || c = '}' || c = ']' || c = '"' || c = '\''

/-- `plain`. -/
def plain (value : List Char) : List Char := value.takeWhile (! endsPlain ·)

/-- A value that is not empty and has no escape. -/
def readable (content : List Char) : Option (List Char) :=
  if content ≠ [] ∧ '\\' ∉ content then some content else none

/-- `scalar`. -/
def scalar (value : List Char) : Option (List Char) :=
  match value with
  | [] => none
  | first :: rest =>
    if isQuote first then (cut [first] rest).bind fun found => readable found.1
    else if isAsciiAlphanumeric first || first = '.' || first = '/' then readable (plain value)
    else none

/-- `value_after`. -/
def valueAfter (rest : List Char) (following : List (List Char)) : Option (List Char) :=
  let value := trimStart rest
  if value = [] ∨ value.head? = some '#' ∨ blockHeader value = true then
    ((following.map trim).find? (· ≠ [])).bind scalar
  else scalar value

/-! ### References -/

/-- `key_values`. -/
def keyValues (key : List Char) : List (List Char) → List (Option (List Char))
  | [] => []
  | line :: following =>
    ((keyEnds line key).map fun stop => valueAfter (line.drop stop) following) ++
      keyValues key following

def USES : List Char := "uses".toList

/-- The reference of a value. -/
def refOf (value : Option (List Char)) : Ref := (value.map classifyUses).getD .unparsed

/-- `uses_refs`. -/
def usesRefs (text : List Char) : List Ref := (keyValues USES (lines text)).map refOf

end AgentCoordinator.ActionRefs
