import Mathlib.Data.List.Basic
import Mathlib.Tactic.Basic

/-
Scalars of YAML on one line.

A scalar stands plainly, in single quotes, or in double quotes, and may be followed by blanks, a
comment, or, in a flow collection, by what ends it there. A plain scalar has no indicator where it
would end it: outside a flow collection, commas, brackets and quotes are ordinary characters. In
single quotes a quote is doubled; in double quotes a backslash starts an escape.
-/

namespace Yaml

inductive Context | block | flow
  deriving DecidableEq, Repr

/-- `s-white`. -/
def isWhite (c : Char) : Bool := c = ' ' || c = '\t'

/-- `b-char`. -/
def isBreak (c : Char) : Bool := c = '\n' || c = '\r'

/-- `nb-char`: a printable character that breaks no line. -/
def isPrintable (c : Char) : Bool :=
  let n := c.toNat
  n = 9 || (0x20 ≤ n && n ≤ 0x7E) || n = 0x85 || (0xA0 ≤ n && n ≤ 0xD7FF) ||
    (0xE000 ≤ n && n ≤ 0xFFFD && n ≠ 0xFEFF) || 0x10000 ≤ n

/-- `c-indicator`. -/
def isIndicator (c : Char) : Bool :=
  ['-', '?', ':', ',', '[', ']', '\x7b', '\x7d', '#', '&', '*', '!', '|', '>', '\'', '"', '%', '@',
    '\x60'].contains c

/-- `c-flow-indicator`. -/
def isFlowIndicator (c : Char) : Bool := [',', '[', ']', '\x7b', '\x7d'].contains c

/-- `ns-plain-safe`. -/
def isPlainSafe (ctx : Context) (c : Char) : Bool :=
  isPrintable c && !isWhite c && (ctx = .block || !isFlowIndicator c)

/-- `ns-plain-first`, with the character behind it. -/
def startsPlain (ctx : Context) (c : Char) (behind : Option Char) : Bool :=
  isPrintable c && !isWhite c &&
    (!isIndicator c || (c = '?' || c = ':' || c = '-') && behind.any (isPlainSafe ctx))

/-- `ns-plain`: the text of a plain scalar on one line, which is its value. -/
structure IsPlain (ctx : Context) (v : List Char) : Prop where
  first : ∃ c rest, v = c :: rest ∧ startsPlain ctx c rest.head? = true
  /-- Blanks stand inside only. -/
  last : ∀ c ∈ v.getLast?, isWhite c = false
  chars : ∀ c ∈ v, isPrintable c = true ∧ (ctx = .flow → isFlowIndicator c = false)
  colon : ∀ a b, v = a ++ ':' :: b → b.head?.any (isPlainSafe ctx) = true
  comment : ∀ a b, v = a ++ '#' :: b → a.getLast?.any (fun c => !isWhite c) = true

/-- The text of a value in single quotes. -/
def singleQuoted (v : List Char) : List Char :=
  v.flatMap fun c => if c = '\'' then ['\'', '\''] else [c]

/-- The escapes of one character. -/
def ESCAPES : List (Char × Char) :=
  [('0', Char.ofNat 0), ('a', Char.ofNat 7), ('b', Char.ofNat 8), ('t', '\t'), ('\t', '\t'),
    ('n', '\n'), ('v', Char.ofNat 11), ('f', Char.ofNat 12), ('r', '\r'), ('e', Char.ofNat 27),
    (' ', ' '), ('"', '"'), ('/', '/'), ('\\', '\\'), ('N', Char.ofNat 0x85),
    ('_', Char.ofNat 0xA0), ('L', Char.ofNat 0x2028), ('P', Char.ofNat 0x2029)]

/-- The escapes by number, with their digits. -/
def NUMBERED : List (Char × Nat) := [('x', 2), ('u', 4), ('U', 8)]

/-- The value of a hexadecimal digit. -/
def hexValue (c : Char) : Option Nat :=
  if '0' ≤ c ∧ c ≤ '9' then some (c.toNat - '0'.toNat)
  else if 'a' ≤ c ∧ c ≤ 'f' then some (c.toNat - 'a'.toNat + 10)
  else if 'A' ≤ c ∧ c ≤ 'F' then some (c.toNat - 'A'.toNat + 10)
  else none

/-- The value of a text in double quotes. -/
inductive Escaped : List Char → List Char → Prop
  | nil : Escaped [] []
  | char {c : Char} {raw v : List Char} (hc : isPrintable c = true) (hquote : c ≠ '"')
      (hescape : c ≠ '\\') (h : Escaped raw v) : Escaped (c :: raw) (c :: v)
  | escape {code c : Char} {raw v : List Char} (hcode : (code, c) ∈ ESCAPES) (h : Escaped raw v) :
      Escaped ('\\' :: code :: raw) (c :: v)
  | numbered {code : Char} {count : Nat} {digits raw v : List Char} {values : List Nat}
      (hcode : (code, count) ∈ NUMBERED) (hcount : digits.length = count)
      (hvalues : digits.mapM hexValue = some values) (h : Escaped raw v) :
      Escaped ('\\' :: code :: digits ++ raw)
        (Char.ofNat (values.foldl (fun n d => n * 16 + d) 0) :: v)

/-- A scalar on one line. -/
inductive Scalar (ctx : Context)
  | plain (v : List Char) (h : IsPlain ctx v)
  | single (v : List Char) (h : ∀ c ∈ v, isPrintable c = true)
  | double (raw v : List Char) (h : Escaped raw v)

variable {ctx : Context} {v raw : List Char}

def Scalar.text : Scalar ctx → List Char
  | .plain v _ => v
  | .single v _ => '\'' :: singleQuoted v ++ ['\'']
  | .double raw _ _ => '"' :: raw ++ ['"']

def Scalar.value : Scalar ctx → List Char
  | .plain v _ => v
  | .single v _ => v
  | .double _ v _ => v

/-! ### One line -/

lemma not_isBreak_of {P : Char → Prop} (hlf : ¬ P '\n') (hcr : ¬ P '\r') {c : Char} (h : P c) :
    isBreak c = false := by
  by_contra hbreak
  rw [Bool.not_eq_false, isBreak, Bool.or_eq_true, decide_eq_true_eq, decide_eq_true_eq] at hbreak
  rcases hbreak with rfl | rfl
  · exact hlf h
  · exact hcr h

lemma not_isBreak_of_isPrintable {c : Char} (h : isPrintable c = true) : isBreak c = false :=
  not_isBreak_of (P := fun c => isPrintable c = true) (by decide) (by decide) h

/-- No escape breaks the line. -/
lemma Escaped.not_isBreak (h : Escaped raw v) : ∀ c ∈ raw, isBreak c = false := by
  induction h with
  | nil => nofun
  | char hc _ _ _ ih => exact List.forall_mem_cons.2 ⟨not_isBreak_of_isPrintable hc, ih⟩
  | escape hcode _ ih =>
    have hcodes : ∀ entry ∈ ESCAPES, isBreak entry.1 = false := by decide
    exact List.forall_mem_cons.2 ⟨by decide, List.forall_mem_cons.2 ⟨hcodes _ hcode, ih⟩⟩
  | numbered hcode _ hvalues _ ih =>
    have hcodes : ∀ entry ∈ NUMBERED, isBreak entry.1 = false := by decide
    have hdigits {digits : List Char} {values : List Nat}
        (h : digits.mapM hexValue = some values) : ∀ c ∈ digits, isBreak c = false := by
      induction digits generalizing values with
      | nil => nofun
      | cons c digits ihd =>
        simp only [List.mapM_cons, Option.bind_eq_bind, Option.bind_eq_some_iff] at h
        obtain ⟨n, hn, values, hvalues, -⟩ := h
        refine List.forall_mem_cons.2 ⟨?_, ihd hvalues⟩
        exact not_isBreak_of (P := fun c => hexValue c ≠ none) (by decide) (by decide)
          (by rw [hn]; simp)
    intro c hc
    simp only [List.cons_append, List.mem_cons, List.mem_append] at hc
    rcases hc with rfl | rfl | hc | hc
    · decide
    · exact hcodes _ hcode
    · exact hdigits hvalues c hc
    · exact ih c hc

lemma mem_singleQuoted {c : Char} : c ∈ singleQuoted v ↔ c ∈ v := by
  rw [singleQuoted, List.mem_flatMap]
  constructor
  · rintro ⟨d, hd, hc⟩
    split_ifs at hc with hquote
    · simp only [List.mem_cons, List.not_mem_nil, or_false, or_self] at hc
      rwa [hc, ← hquote]
    · rwa [List.mem_singleton.1 hc]
  · intro hc
    refine ⟨c, hc, ?_⟩
    split_ifs with hquote
    · rw [hquote]
      exact List.mem_cons_self
    · exact List.mem_singleton.2 rfl

/-- A scalar breaks no line. -/
theorem Scalar.not_isBreak_text (s : Scalar ctx) : ∀ c ∈ s.text, isBreak c = false := by
  cases s with
  | plain v h => exact fun c hc => not_isBreak_of_isPrintable (h.chars c hc).1
  | single v h =>
    intro c hc
    simp only [Scalar.text, List.cons_append, List.mem_cons, List.mem_append, List.not_mem_nil,
      or_false] at hc
    rcases hc with rfl | hc | rfl
    · decide
    · exact not_isBreak_of_isPrintable (h c (mem_singleQuoted.1 hc))
    · decide
  | double raw v h =>
    intro c hc
    simp only [Scalar.text, List.cons_append, List.mem_cons, List.mem_append, List.not_mem_nil,
      or_false] at hc
    rcases hc with rfl | hc | rfl
    · decide
    · exact h.not_isBreak c hc
    · decide

lemma Scalar.text_ne_nil (s : Scalar ctx) : s.text ≠ [] := by
  cases s with
  | plain v h =>
    obtain ⟨c, rest, rfl, -⟩ := h.first
    exact List.cons_ne_nil c rest
  | single => exact List.cons_ne_nil _ _
  | double => exact List.cons_ne_nil _ _

/-- What may follow a scalar on its line: blanks, and then nothing, a comment behind a blank, or in
a flow collection what ends the scalar there. -/
inductive Follows : Context → List Char → Prop
  | blanks {ctx : Context} {blanks : List Char} (h : ∀ c ∈ blanks, isWhite c = true) :
      Follows ctx blanks
  | comment {ctx : Context} {blanks text : List Char} (h : ∀ c ∈ blanks, isWhite c = true)
      (hne : blanks ≠ []) (htext : ∀ c ∈ text, isBreak c = false) :
      Follows ctx (blanks ++ '#' :: text)
  | flow {blanks text : List Char} {c : Char} (h : ∀ c ∈ blanks, isWhite c = true)
      (hc : c = ',' ∨ c = ']' ∨ c = '\x7d') (htext : ∀ c ∈ text, isBreak c = false) :
      Follows .flow (blanks ++ c :: text)

/-- What follows a scalar starts with a blank, or with what ends the scalar in a flow collection. -/
lemma Follows.head {t : List Char} (h : Follows ctx t) :
    ∀ c ∈ t.head?, isWhite c = true ∨ c = ',' ∨ c = ']' ∨ c = '\x7d' := by
  intro c hc
  cases h with
  | blanks h => exact .inl (h c (List.mem_of_mem_head? hc))
  | @comment _ blanks _ h hne =>
    obtain ⟨b, blanks, rfl⟩ := List.exists_cons_of_ne_nil hne
    obtain rfl := Option.some.inj hc
    exact .inl (h b List.mem_cons_self)
  | @flow blanks _ d h hd =>
    cases blanks with
    | nil =>
      obtain rfl := Option.some.inj hc
      exact .inr hd
    | cons b blanks =>
      obtain rfl := Option.some.inj hc
      exact .inl (h b List.mem_cons_self)

end Yaml
