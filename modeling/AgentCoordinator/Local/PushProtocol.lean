import AgentCoordinator.Access
import AgentCoordinator.Library.Stream
import AgentCoordinator.Local.CandidatePush

/-
The request of a candidate push, as the helper receives it.

A client sends a line with a JSON request and eight bytes with the length of its bundle. The helper
reads the line byte by byte, so that nothing behind it is consumed. What a line holds as JSON is a
parameter: the document, in which an object keeps the fields it repeats. A derived reader of a
record takes an object whose fields are the record's, none twice and none unknown, or an array of
their values in order.
-/

namespace AgentCoordinator.CandidatePush

open Guarded Streams

/-! ### JSON -/

/-- A JSON document, as it is written. -/
inductive Json
  | null
  | bool (b : Bool)
  /-- An integer of 64 bits without a sign. -/
  | unsigned (n : Nat)
  /-- Any other number. -/
  | number (text : String)
  | string (s : String)
  | array (items : List Json)
  | object (fields : List (String × Json))

/-- The field `name` of a value: of the ones an object repeats the last, and `null` if it has none
or is no object. -/
def Json.field (name : String) : Json → Json
  | .object fields => ((fields.reverse.find? (·.1 = name)).map Prod.snd).getD .null
  | _ => .null

/-- `as_u64`. -/
def Json.asU64 : Json → Option Nat
  | .unsigned n => some n
  | _ => none

/-- `u32`. -/
def Json.asU32 : Json → Option Nat
  | .unsigned n => if n < 2 ^ 32 then some n else none
  | _ => none

/-- `String`. -/
def Json.asString : Json → Option String
  | .string s => some s
  | _ => none

/-! ### The request -/

/-- The wire name of a `PushKind`. -/
def PushKind.named : String → Option PushKind
  | "candidate" => some .candidate
  | "wip" => some .wip
  | _ => none

/-- `PushKind`: its name, or an object with its name as the only field. -/
def Json.asPushKind : Json → Option PushKind
  | .string name => PushKind.named name
  | .object [(name, .null)] => PushKind.named name
  | _ => none

/-- `PushRequest` on the wire. -/
structure RequestLine where
  version : Nat
  revision : String
  tree : String
  kind : PushKind
  deriving DecidableEq, Repr

/-- The fields of a request read so far. -/
structure RequestFields where
  version : Option Nat
  revision : Option String
  tree : Option String
  kind : Option PushKind

/-- A field is read once. -/
def once {α : Type} (old : Option α) (new : Option α) : Option α :=
  if old.isSome then none else new

/-- The next field of an object; an unknown or a repeated one is refused. -/
def RequestFields.visit (r : RequestFields) (field : String × Json) : Option RequestFields :=
  if field.1 = "version" then
    (once r.version field.2.asU32).map fun v => { r with version := some v }
  else if field.1 = "revision" then
    (once r.revision field.2.asString).map fun v => { r with revision := some v }
  else if field.1 = "tree" then
    (once r.tree field.2.asString).map fun v => { r with tree := some v }
  else if field.1 = "kind" then
    (once r.kind field.2.asPushKind).map fun v => { r with kind := some v }
  else none

/-- The request, once all fields are read: only the kind has a default. -/
def RequestFields.finish (r : RequestFields) : Option RequestLine := do
  let version ← r.version
  let revision ← r.revision
  let tree ← r.tree
  return ⟨version, revision, tree, r.kind.getD .candidate⟩

/-- The derived reader of a request. -/
def RequestLine.ofJson : Json → Option RequestLine
  | .object fields => do (← fields.foldlM RequestFields.visit ⟨none, none, none, none⟩).finish
  | .array [version, revision, tree] => do
    return ⟨← version.asU32, ← revision.asString, ← tree.asString, .candidate⟩
  | .array [version, revision, tree, kind] => do
    return ⟨← version.asU32, ← revision.asString, ← tree.asString, ← kind.asPushKind⟩
  | _ => none

def PROTOCOL_VERSION : Nat := 1

/-- `MAX_REQUEST_LINE`; the preamble has a bound of the same name and value. -/
def MAX_REQUEST_LINE : Nat := 4 * 1024

/-- `validate_full_oid`. -/
def isFullOid (value : String) : Bool :=
  (value.utf8ByteSize = 40 || value.utf8ByteSize = 64) && value.toList.all isAsciiHexdigit

def malformed : PushRefusal :=
  ⟨.badRequest, "request line is missing, too long, or not a version 1 request"⟩

def unsupportedVersion : PushRefusal :=
  ⟨.badRequest, "unsupported candidate push protocol version"⟩

def notFullOids : PushRefusal := ⟨.badRequest, "revision and tree must be full object IDs"⟩

/-- The checks of `read_request`, and the object IDs in lowercase. -/
def RequestLine.check (r : RequestLine) : Except PushRefusal PushRequest := do
  refuseIf (r.version ≠ PROTOCOL_VERSION) unsupportedVersion
  refuseIf ((isFullOid r.revision && isFullOid r.tree) = false) notFullOids
  return ⟨r.kind, ⟨r.revision.toLower, r.tree.toLower⟩⟩

/-- The request that a document holds. -/
def Json.request (d : Json) : Except PushRefusal PushRequest := do
  (← okOr (RequestLine.ofJson d) malformed).check

/-! ### Reading -/

variable {σ : Type}

/-- `\n`. -/
def newline : UInt8 := 10

/-- `read_line`, with room for so many more bytes. -/
def readLine (S : Source UInt8 σ) : Nat → List UInt8 → σ → Option (List UInt8) × σ
  | room, line, s =>
    match S.readOne s with
    | (none, s') => (none, s')
    | (some b, s') =>
      if b = newline then (some line, s')
      else match room with
        | 0 => (none, s')
        | room + 1 => readLine S room (line ++ [b]) s'

/-- `u64::from_be_bytes`. -/
def fromBeBytes (bytes : List UInt8) : Nat := bytes.foldl (fun n b => n * 256 + b.toNat) 0

/-- `read_request`. -/
def readRequest (document : List UInt8 → Option Json) (S : Source UInt8 σ) (s : σ) :
    Except PushRefusal PushRequest × σ :=
  match readLine S MAX_REQUEST_LINE [] s with
  | (none, s') => (.error malformed, s')
  | (some line, s') => (okOr (document line) malformed >>= Json.request, s')

/-- `read_length`. -/
def readLength (S : Source UInt8 σ) (limit : Nat) (s : σ) : Except PushRefusal Nat × σ :=
  match S.readExact 8 s with
  | (none, s') => (.error ⟨.badRequest, "bundle length is missing"⟩, s')
  | (some bytes, s') =>
    (if fromBeBytes bytes > limit then
      .error ⟨.tooLarge, "bundle exceeds the helper's size limit"⟩
    else .ok (fromBeBytes bytes), s')

/-- What `receive_and_publish` reads before it opens the helper and runs Git. -/
def receive (document : List UInt8 → Option Json) (S : Source UInt8 σ) (limit : Nat) (s : σ) :
    Except PushRefusal (PushRequest × Nat) := do
  let request ← (readRequest document S s).1
  let length ← (readLength S limit (readRequest document S s).2).1
  return (request, length)

/-! ### What is ahead of a request -/

variable {S : Source UInt8 σ} {s : σ}

/-- A line is read when it is ahead of the stream. -/
inductive LineRead (S : Source UInt8 σ) (limit : Nat) (s : σ) : Option (List UInt8) × σ → Prop
  | line {line : List UInt8} {s' : σ} (h : Delimited newline limit (S.ahead s) line (S.ahead s')) :
      LineRead S limit s (some line, s')
  | noLine {s' : σ} (h : ∀ line rest, ¬ Delimited newline limit (S.ahead s) line rest) :
      LineRead S limit s (none, s')

section Reads

variable {limit : Nat} {line : List UInt8} {s₀ s' : σ}

/-- The line ends with the next byte. -/
lemma LineRead.of_newline (hnot : newline ∉ line) (hle : line.length ≤ limit)
    (hahead : S.ahead s₀ = line.map .value ++ S.ahead s)
    (hnext : S.ahead s = .value newline :: S.ahead s') : LineRead S limit s₀ (some line, s') :=
  .line ⟨by rw [hahead, hnext], hnot, hle⟩

/-- The stream stops before the line has ended. -/
lemma LineRead.of_stops (hnot : newline ∉ line)
    (hahead : S.ahead s₀ = line.map .value ++ S.ahead s) (hstops : S.Stops s s' []) :
    LineRead S limit s₀ (none, s') := by
  refine .noLine fun line' rest => ?_
  have hstops' := hstops.append hahead
  rw [List.append_nil] at hstops'
  exact hstops'.not_delimited hnot

/-- A line and one more byte of it. -/
lemma ahead_concat {b : UInt8} (hahead : S.ahead s₀ = line.map .value ++ S.ahead s)
    (hnext : S.ahead s = .value b :: S.ahead s') :
    S.ahead s₀ = (line ++ [b]).map .value ++ S.ahead s' := by
  rw [hahead, hnext, List.map_append, List.append_assoc]
  rfl

lemma newline_not_mem_concat {b : UInt8} (hnot : newline ∉ line) (hb : b ≠ newline) :
    newline ∉ line ++ [b] := by
  rw [List.mem_append, List.mem_singleton]
  rintro (h | h)
  · exact hnot h
  · exact hb h.symm

/-- `read_line` goes on with a line of which it has read the bytes `line`. -/
lemma readLine_spec (room : Nat) (hroom : line.length + room = limit) (hnot : newline ∉ line)
    (hahead : S.ahead s₀ = line.map .value ++ S.ahead s) :
    LineRead S limit s₀ (readLine S room line s) := by
  induction room generalizing line s with
  | zero =>
    rw [readLine]
    rcases S.readOne_cases s with ⟨b, s', hread, hnext⟩ | ⟨s', hread, hstops⟩
    · rw [hread]
      by_cases hb : b = newline
      · subst hb
        exact .of_newline hnot (by omega) hahead hnext
      · -- one byte too many
        simp only [if_neg hb]
        refine .noLine fun line' rest => not_delimited_of_long (ahead_concat hahead hnext)
          (newline_not_mem_concat hnot hb) ?_
        rw [List.length_append, List.length_singleton]
        omega
    · rw [hread]
      exact .of_stops hnot hahead hstops
  | succ room ih =>
    rw [readLine]
    rcases S.readOne_cases s with ⟨b, s', hread, hnext⟩ | ⟨s', hread, hstops⟩
    · rw [hread]
      by_cases hb : b = newline
      · subst hb
        exact .of_newline hnot (by omega) hahead hnext
      · simp only [if_neg hb]
        refine ih ?_ (newline_not_mem_concat hnot hb) (ahead_concat hahead hnext)
        rw [List.length_append, List.length_singleton]
        omega
    · rw [hread]
      exact .of_stops hnot hahead hstops

/-- `read_line` reads the line that is ahead. -/
lemma readLine_reads (limit : Nat) (s : σ) : LineRead S limit s (readLine S limit [] s) :=
  readLine_spec limit (Nat.zero_add _) List.not_mem_nil rfl

end Reads

/-- A request line is ahead, and the bytes of a length behind it. -/
structure Framed (l : List (Ahead UInt8)) (line length : List UInt8) (rest : List (Ahead UInt8)) :
    Prop where
  line : Delimited newline MAX_REQUEST_LINE l line (length.map .value ++ rest)
  length : length.length = 8

/-- Two frames of one stream are the same. -/
lemma Framed.unique {l rest rest' : List (Ahead UInt8)} {line length line' length' : List UInt8}
    (h : Framed l line length rest) (h' : Framed l line' length' rest') :
    line = line' ∧ length = length' := by
  obtain ⟨hline, hrest⟩ := h.line.unique h'.line
  have hbytes := List.append_inj hrest
    (by rw [List.length_map, List.length_map, h.length, h'.length])
  exact ⟨hline, Source.map_value_injective hbytes.1⟩

/-- What is ahead of a whole preamble. -/
lemma Framed.ahead {l rest : List (Ahead UInt8)} {line length : List UInt8}
    (h : Framed l line length rest) :
    l = (line ++ [newline] ++ length).map .value ++ rest := by
  rw [h.line.ahead, List.map_append, List.map_append, List.append_assoc, List.append_assoc]
  rfl

/-- The request and its length are accepted exactly when they are ahead, the document of the line
holds a request, and the length is within the limit. -/
theorem receive_eq_ok {document : List UInt8 → Option Json} {limit : Nat}
    {accepted : PushRequest × Nat} :
    receive document S limit s = .ok accepted ↔
      ∃ line length rest d, Framed (S.ahead s) line length rest ∧ document line = some d ∧
        d.request = .ok accepted.1 ∧ fromBeBytes length = accepted.2 ∧ accepted.2 ≤ limit := by
  have hline := readLine_reads (S := S) MAX_REQUEST_LINE s
  rw [receive, readRequest]
  generalize readLine S MAX_REQUEST_LINE [] s = result at hline
  cases hline with
  | noLine h =>
    constructor
    · intro h'
      cases h'
    · rintro ⟨line, length, rest, d, hframed, -⟩
      exact absurd hframed.line (h _ _)
  | @line line s' h =>
    have hlength := S.readExact_exactly 8 s'
    rw [readLength]
    generalize S.readExact 8 s' = result at hlength
    cases hlength with
    | short part hshort hstops =>
      constructor
      · intro h'
        simp only [bind_eq_ok] at h'
        obtain ⟨_, _, _, herror, _⟩ := h'
        cases herror
      · rintro ⟨line', length, rest, d, ⟨hline', hlength⟩, -⟩
        obtain ⟨-, hrest⟩ := h.unique hline'
        have hle := hstops.not_ahead hrest
        omega
    | full length hlength hahead =>
      simp only [bind_eq_ok, okOr_eq_ok, pure_eq_ok]
      constructor
      · rintro ⟨request, ⟨d, hd, hrequest⟩, n, hn, rfl⟩
        split_ifs at hn with hlimit
        cases hn
        exact ⟨line, length, _, d, ⟨hahead ▸ h, hlength⟩, hd, hrequest, rfl,
          Nat.le_of_not_lt hlimit⟩
      · rintro ⟨line', length', rest, d, ⟨hline', hlength'⟩, hd, hrequest, hn, hle⟩
        obtain ⟨rfl, hrest⟩ := h.unique hline'
        have hbytes := List.append_inj (hahead.symm.trans hrest)
          (by rw [List.length_map, List.length_map, hlength, hlength'])
        obtain rfl := Source.map_value_injective hbytes.1
        refine ⟨accepted.1, ⟨d, hd, hrequest⟩, accepted.2, ?_, rfl⟩
        rw [if_neg (by omega), hn]

end AgentCoordinator.CandidatePush
