import Mathlib.Data.List.Basic
import Mathlib.Data.Nat.Notation
import Mathlib.Tactic.Basic

/-
Decoding UTF-8 that may be broken.

A machine reads a text byte by byte and knows which bytes may come next. A byte that may not come
ends the broken sequence before it, which stands as one mark, and is read anew. So an ASCII byte
always stands for itself, and what is before it is decoded apart from what is behind it.
-/

namespace Utf8

/-- Which continuation bytes may come next. -/
inductive Range | any | fromA0 | upTo9F | from90 | upTo8F
  deriving DecidableEq, Repr

def Range.mem (b : ℕ) : Range → Bool
  | .any => 0x80 ≤ b && b ≤ 0xBF
  | .fromA0 => 0xA0 ≤ b && b ≤ 0xBF
  | .upTo9F => 0x80 ≤ b && b ≤ 0x9F
  | .from90 => 0x90 ≤ b && b ≤ 0xBF
  | .upTo8F => 0x80 ≤ b && b ≤ 0x8F

/-- Where the machine stands: between characters, or with one byte of the range and so many more to
come, after bytes of this value. -/
inductive State
  | between
  | within (range : Range) (more : ℕ) (value : ℕ)
  deriving DecidableEq, Repr

/-- A decoded character, or `none` for a broken sequence. -/
abbrev Mark := Option Char

/-- The first byte of a character. -/
def lead (b : ℕ) : List Mark × State :=
  if b ≤ 0x7F then ([some (Char.ofNat b)], .between)
  else if 0xC2 ≤ b ∧ b ≤ 0xDF then ([], .within .any 0 (b - 0xC0))
  else if b = 0xE0 then ([], .within .fromA0 1 0)
  else if b = 0xED then ([], .within .upTo9F 1 (b - 0xE0))
  else if 0xE1 ≤ b ∧ b ≤ 0xEF then ([], .within .any 1 (b - 0xE0))
  else if b = 0xF0 then ([], .within .from90 2 0)
  else if 0xF1 ≤ b ∧ b ≤ 0xF3 then ([], .within .any 2 (b - 0xF0))
  else if b = 0xF4 then ([], .within .upTo8F 2 (b - 0xF0))
  else ([none], .between)

/-- A continuation byte, after which `more` bytes are to come. -/
def next (more value : ℕ) : List Mark × State :=
  match more with
  | 0 => ([some (Char.ofNat value)], .between)
  | more + 1 => ([], .within .any more value)

/-- The machine reads a byte. -/
def step : State → ℕ → List Mark × State
  | .between, b => lead b
  | .within range more value, b =>
    if range.mem b then next more (value * 64 + (b - 0x80)) else (none :: (lead b).1, (lead b).2)

/-- What is left of a character at the end. -/
def State.flush : State → List Mark
  | .between => []
  | .within .. => [none]

/-- What the machine decodes from a state on. -/
def run : State → List UInt8 → List Mark
  | st, [] => st.flush
  | st, b :: bytes => (step st b.toNat).1 ++ run (step st b.toNat).2 bytes

/-- `from_utf8`. -/
def strict (bytes : List UInt8) : Option (List Char) := (run .between bytes).mapM id

/-- `from_utf8_lossy`: a broken sequence is replaced by U+FFFD. -/
def lossy (bytes : List UInt8) : List Char :=
  (run .between bytes).map fun m => m.getD (Char.ofNat 0xFFFD)

/-! ### ASCII -/

/-- The byte is an ASCII character. -/
def IsAscii (b : UInt8) : Prop := b.toNat ≤ 0x7F

instance (b : UInt8) : Decidable (IsAscii b) := inferInstanceAs (Decidable (_ ≤ _))

/-- The character of an ASCII byte. -/
def ascii (b : UInt8) : Char := Char.ofNat b.toNat

variable {b : UInt8} {st : State} {a c : List UInt8}

lemma Range.mem_of_ascii (range : Range) (h : IsAscii b) : range.mem b.toNat = false := by
  rw [IsAscii] at h
  cases range <;> simp only [Range.mem, Bool.and_eq_false_iff, decide_eq_false_iff_not] <;> omega

/-- An ASCII byte ends what is before it and stands for itself. -/
lemma step_ascii (h : IsAscii b) : step st b.toNat = (st.flush ++ [some (ascii b)], .between) := by
  have hlead : lead b.toNat = ([some (ascii b)], .between) := if_pos h
  cases st with
  | between => exact hlead
  | within range more value =>
    rw [step, range.mem_of_ascii h, if_neg Bool.false_ne_true, hlead]
    rfl

/-- What is before an ASCII byte is decoded apart from what is behind it. -/
lemma run_ascii (h : IsAscii b) :
    run st (a ++ b :: c) = run st a ++ some (ascii b) :: run .between c := by
  induction a generalizing st with
  | nil =>
    rw [List.nil_append, run.eq_2, step_ascii h, List.append_assoc]
    rfl
  | cons x a ih => rw [List.cons_append, run, ih, run, List.append_assoc]

theorem lossy_ascii (h : IsAscii b) : lossy (a ++ b :: c) = lossy a ++ ascii b :: lossy c := by
  rw [lossy, run_ascii h, List.map_append]
  rfl

/-- Decoding ASCII bytes changes nothing. -/
lemma run_all_ascii (h : ∀ b ∈ a, IsAscii b) : run .between a = a.map (some ∘ ascii) := by
  induction a with
  | nil => rfl
  | cons b a ih =>
    rw [← List.nil_append (b :: a), run_ascii (h b (by simp)),
      ih fun b hb => h b (List.mem_cons_of_mem _ hb)]
    rfl

theorem lossy_all_ascii (h : ∀ b ∈ a, IsAscii b) : lossy a = a.map ascii := by
  rw [lossy, run_all_ascii h, List.map_map]
  rfl

theorem strict_all_ascii (h : ∀ b ∈ a, IsAscii b) : strict a = some (a.map ascii) := by
  rw [strict, run_all_ascii h]
  clear h
  induction a with
  | nil => rfl
  | cons b a ih =>
    rw [List.map_cons, List.mapM_cons, ih]
    rfl

/-! ### Other characters -/

/-- The code points from `low` to below `high` are characters, and not ASCII. -/
def Beyond (low high : ℕ) : Prop := 0x80 ≤ low ∧ (high ≤ 0xD800 ∨ 0xE000 ≤ low ∧ high ≤ 0x110000)

/-- How many values a character can have when so many bytes are still to come. -/
def span : ℕ → ℕ
  | 0 => 64
  | more + 1 => 64 * span more

/-- Whatever comes, a character of several bytes is beyond ASCII. -/
def State.Sound : State → Prop
  | .between => True
  | .within range more value =>
    match range with
    | .any => more ≤ 2 ∧ Beyond (value * span more) (value * span more + span more)
    | .fromA0 => more = 1 ∧ value = 0
    | .upTo9F => more = 1 ∧ value = 0xD
    | .from90 => more = 2 ∧ value = 0
    | .upTo8F => more = 2 ∧ value = 4

lemma toNat_ofNat {n low high : ℕ} (h : Beyond low high) (hlow : low ≤ n) (hhigh : n < high) :
    (Char.ofNat n).toNat = n := by
  have hvalid : n.isValidChar := by
    rw [Nat.isValidChar]
    rw [Beyond] at h
    omega
  rw [Char.ofNat, dif_pos hvalid]
  rfl

/-- The marks of a byte: itself if it is ASCII, and nothing else that is. -/
def Fresh (b : ℕ) (marks : List Mark) : Prop :=
  ∀ x, some x ∈ marks → x.toNat ≤ 0x7F → b = x.toNat

lemma lead_sound (b : ℕ) : (lead b).2.Sound ∧ Fresh b (lead b).1 := by
  rw [lead]
  split_ifs with hascii
  · refine ⟨trivial, fun x hx _ => ?_⟩
    obtain rfl := Option.some.inj (List.mem_singleton.1 hx)
    rw [Char.ofNat, dif_pos (Or.inl (by omega))]
    rfl
  all_goals refine ⟨?_, by simp [Fresh]⟩
  · refine ⟨Nat.zero_le _, ?_⟩
    rw [Beyond, span]
    omega
  · exact ⟨rfl, rfl⟩
  · exact ⟨rfl, by omega⟩
  · refine ⟨by decide, ?_⟩
    rw [Beyond, span, span]
    omega
  · exact ⟨rfl, rfl⟩
  · refine ⟨by decide, ?_⟩
    rw [Beyond, span, span, span]
    omega
  · exact ⟨rfl, by omega⟩
  · trivial

/-- A continuation byte that leaves the character beyond ASCII. -/
lemma next_sound {b more value : ℕ} (hmore : more ≤ 2)
    (h : match more with
      | 0 => Beyond value (value + 1)
      | more + 1 => Beyond (value * span more) (value * span more + span more)) :
    (next more value).2.Sound ∧ Fresh b (next more value).1 := by
  cases more with
  | zero =>
    refine ⟨trivial, fun x hx hascii => ?_⟩
    obtain rfl := Option.some.inj (List.mem_singleton.1 hx)
    rw [toNat_ofNat h (Nat.le_refl _) (Nat.lt_succ_self _)] at hascii
    obtain ⟨hlow, -⟩ := h
    omega
  | succ more => exact ⟨⟨by omega, h⟩, nofun⟩

lemma step_sound (h : st.Sound) (b : ℕ) : (step st b).2.Sound ∧ Fresh b (step st b).1 := by
  cases st with
  | between => exact lead_sound b
  | within range more value =>
    rw [step]
    split_ifs with hmem
    · -- each range leaves the character beyond ASCII, whatever is still to come
      cases range with
      | any =>
        obtain ⟨hmore, hbeyond⟩ := h
        simp only [Range.mem, Bool.and_eq_true, decide_eq_true_eq] at hmem
        refine next_sound hmore ?_
        cases more with
        | zero =>
          rw [Beyond, span] at hbeyond
          simp only [Beyond]
          omega
        | succ more =>
          obtain rfl | rfl : more = 0 ∨ more = 1 := by omega
          · simp only [Beyond, span, Nat.reduceMul] at hbeyond ⊢
            omega
          · simp only [Beyond, span, Nat.reduceMul] at hbeyond ⊢
            have hvalue : 1 ≤ value ∧ value ≤ 3 := by omega
            exact ⟨by omega, .inr ⟨by omega, by omega⟩⟩
      | fromA0 =>
        obtain ⟨rfl, rfl⟩ := h
        simp only [Range.mem, Bool.and_eq_true, decide_eq_true_eq] at hmem
        refine next_sound (by decide) ?_
        simp only [Beyond, span, Nat.reduceMul]
        omega
      | upTo9F =>
        obtain ⟨rfl, rfl⟩ := h
        simp only [Range.mem, Bool.and_eq_true, decide_eq_true_eq] at hmem
        refine next_sound (by decide) ?_
        simp only [Beyond, span, Nat.reduceMul]
        omega
      | from90 =>
        obtain ⟨rfl, rfl⟩ := h
        simp only [Range.mem, Bool.and_eq_true, decide_eq_true_eq] at hmem
        refine next_sound (by decide) ?_
        simp only [Beyond, span, Nat.reduceMul]
        omega
      | upTo8F =>
        obtain ⟨rfl, rfl⟩ := h
        simp only [Range.mem, Bool.and_eq_true, decide_eq_true_eq] at hmem
        refine next_sound (by decide) ?_
        simp only [Beyond, span, Nat.reduceMul]
        omega
    · -- the byte is read anew
      obtain ⟨hsound, hfresh⟩ := lead_sound b
      refine ⟨hsound, fun x hx => ?_⟩
      rcases List.mem_cons.1 hx with hx | hx
      · cases hx
      · exact hfresh x hx

/-- An ASCII character of the decoded text is a byte of the text. -/
lemma mem_run_ascii {x : Char} (hst : st.Sound) (hx : x.toNat ≤ 0x7F) (h : some x ∈ run st a) :
    ∃ b ∈ a, b.toNat = x.toNat := by
  induction a generalizing st with
  | nil =>
    cases st with
    | between => cases h
    | within => simp [run, State.flush] at h
  | cons b a ih =>
    obtain ⟨hsound, hfresh⟩ := step_sound hst b.toNat
    rw [run, List.mem_append] at h
    rcases h with h | h
    · exact ⟨b, List.mem_cons_self, hfresh x h hx⟩
    · obtain ⟨b', hb', heq⟩ := ih hsound h
      exact ⟨b', List.mem_cons_of_mem _ hb', heq⟩

theorem mem_lossy_ascii {x : Char} (hx : x.toNat ≤ 0x7F) (h : x ∈ lossy a) :
    ∃ b ∈ a, b.toNat = x.toNat := by
  obtain ⟨m, hm, rfl⟩ := List.mem_map.1 h
  cases m with
  | none => exact absurd hx (by decide)
  | some x =>
    have hst : State.between.Sound := trivial
    exact mem_run_ascii hst hx hm

end Utf8
