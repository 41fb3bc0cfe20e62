import Mathlib.Data.List.Forall2
import Mathlib.Data.List.Infix
import Mathlib.Data.Nat.Notation

/-
Readers of a text at an offset, and what they read exactly.

A reader starts at an offset and ends behind what it has read, refuses, or goes wrong. It reads a
language exactly (`Reads`) when it succeeds on just the texts that go on with a word of the
language, ends behind that word, and never goes wrong. Exact readers can be composed: one after the
other, and one for a number of times.
-/

namespace Reading

variable {α β γ : Type}

/-- How a reader ends without a value. -/
inductive Fault
  | rejected
  | panicked
  deriving DecidableEq, Repr

/-- A reader, from an offset to the offset behind what it has read. -/
abbrev Reader (α : Type) := StateT ℕ (Except Fault) α

/-- The reader for a number of times. -/
def times (f : Reader α) : ℕ → Reader (List α)
  | 0 => pure []
  | n + 1 => do
    let x ← f
    let xs ← times f n
    pure (x :: xs)

/-- A reader of `input` succeeds exactly on the words of a language `G`, with their values. -/
structure Reads (input : List γ) (f : Reader α) (G : α → List γ → Prop) : Prop where
  exact : ∀ at' ≤ input.length, ∀ x stop, f at' = .ok (x, stop) ↔
    ∃ word, G x word ∧ word <+: input.drop at' ∧ stop = at' + word.length
  safe : ∀ at' ≤ input.length, f at' ≠ .error .panicked

section Reads

variable {input : List γ} {f : Reader α} {G : α → List γ → Prop} {k : α → Reader β}
  {H : α → β → List γ → Prop}

lemma Reads.congr {H : α → List γ → Prop} (h : Reads input f G)
    (hG : ∀ x word, G x word ↔ H x word) : Reads input f H where
  exact := by
    intro start hstart x stop
    simp only [h.exact start hstart, hG]
  safe := h.safe

/-- What a reader has read is within the text. -/
lemma Reads.stop_le (h : Reads input f G) {start stop : ℕ} {x : α} (hstart : start ≤ input.length)
    (hread : f start = .ok (x, stop)) : stop ≤ input.length := by
  obtain ⟨word, -, hprefix, rfl⟩ := (h.exact start hstart x stop).1 hread
  have hle := hprefix.length_le
  rw [List.length_drop] at hle
  omega

/-- Nothing is read. -/
lemma reads_pure (x : α) : Reads input (pure x) fun y word => y = x ∧ word = [] where
  exact := by
    intro start _ y stop
    constructor
    · intro h
      obtain ⟨rfl, rfl⟩ := Prod.mk.inj (Except.ok.inj h)
      exact ⟨[], ⟨rfl, rfl⟩, List.nil_prefix, rfl⟩
    · rintro ⟨word, ⟨rfl, rfl⟩, -, rfl⟩
      rfl
  safe := fun _ _ h => nomatch h

/-- Nothing is accepted. -/
lemma reads_rejected : Reads input (throw .rejected : Reader α) fun _ _ => False where
  exact := by
    intro start _ y stop
    constructor
    · exact fun h => nomatch h
    · rintro ⟨word, hword, -⟩
      exact hword.elim
  safe := fun _ _ h => nomatch h

lemma bind_apply (start : ℕ) : (f >>= k) start =
    match f start with
    | .ok (x, stop) => k x stop
    | .error e => .error e := by
  change (f start >>= fun p => k p.1 p.2) = _
  cases f start <;> rfl

/-- One reader behind another. -/
theorem Reads.bind (hf : Reads input f G) (hk : ∀ x a, G x a → Reads input (k x) (H x)) :
    Reads input (f >>= k) fun y word => ∃ x a b, G x a ∧ H x y b ∧ word = a ++ b where
  exact := by
    intro start hstart y stop
    rw [bind_apply]
    constructor
    · intro h
      cases hfirst : f start with
      | error e =>
        rw [hfirst] at h
        cases h
      | ok p =>
        obtain ⟨x, middle⟩ := p
        rw [hfirst] at h
        obtain ⟨a, ha, hprefix, rfl⟩ := (hf.exact start hstart x middle).1 hfirst
        obtain ⟨b, hb, hprefix', rfl⟩ :=
          ((hk x a ha).exact _ (hf.stop_le hstart hfirst) y stop).1 h
        refine ⟨a ++ b, ⟨x, a, b, ha, hb, rfl⟩, ?_, by rw [List.length_append, Nat.add_assoc]⟩
        obtain ⟨rest, hrest⟩ := hprefix
        have hdrop : input.drop (start + a.length) = rest := by
          rw [← List.drop_drop, ← hrest, List.drop_left]
        rw [← hrest]
        exact (List.prefix_append_right_inj a).2 (hdrop ▸ hprefix')
    · rintro ⟨word, ⟨x, a, b, ha, hb, rfl⟩, hprefix, rfl⟩
      have hfirst : f start = .ok (x, start + a.length) :=
        (hf.exact start hstart x _).2 ⟨a, ha, (List.prefix_append a b).trans hprefix, rfl⟩
      rw [hfirst]
      refine ((hk x a ha).exact _ (hf.stop_le hstart hfirst) y _).2 ⟨b, hb, ?_, ?_⟩
      · obtain ⟨rest, hrest⟩ := hprefix
        rw [← List.drop_drop, ← hrest, List.append_assoc, List.drop_left]
        exact List.prefix_append b rest
      · rw [List.length_append, Nat.add_assoc]
  safe := by
    intro start hstart h
    rw [bind_apply] at h
    cases hfirst : f start with
    | error e =>
      rw [hfirst] at h
      obtain rfl := Except.error.inj h
      exact hf.safe start hstart hfirst
    | ok p =>
      obtain ⟨x, middle⟩ := p
      rw [hfirst] at h
      obtain ⟨a, ha, -⟩ := (hf.exact start hstart x middle).1 hfirst
      exact (hk x a ha).safe _ (hf.stop_le hstart hfirst) h

/-- The words of several readings, one behind the other. -/
def Words (G : α → List γ → Prop) (n : ℕ) (xs : List α) (word : List γ) : Prop :=
  xs.length = n ∧ ∃ parts, List.Forall₂ G xs parts ∧ word = parts.flatten

/-- A reader for a number of times reads so many words. -/
theorem Reads.times (hf : Reads input f G) (n : ℕ) : Reads input (times f n) (Words G n) := by
  induction n with
  | zero =>
    refine (reads_pure []).congr fun xs word => ?_
    constructor
    · rintro ⟨rfl, rfl⟩
      exact ⟨rfl, [], .nil, rfl⟩
    · rintro ⟨hlength, parts, hparts, rfl⟩
      obtain rfl := List.eq_nil_of_length_eq_zero hlength
      cases hparts
      exact ⟨rfl, rfl⟩
  | succ n ih =>
    refine (hf.bind fun x _ _ => ih.bind fun xs _ _ => reads_pure (x :: xs)).congr
      fun xs word => ?_
    constructor
    · rintro ⟨x, a, b, ha, ⟨xs', b', c, ⟨hlength, parts, hparts, rfl⟩, ⟨rfl, rfl⟩, rfl⟩, rfl⟩
      refine ⟨by rw [List.length_cons, hlength], a :: parts, .cons ha hparts, ?_⟩
      rw [List.append_nil, List.flatten_cons]
    · rintro ⟨hlength, parts, hparts, rfl⟩
      cases hparts with
      | nil => cases hlength
      | @cons x a xs' parts' ha hparts =>
        refine ⟨x, a, parts'.flatten, ha, ⟨xs', parts'.flatten, [], ⟨?_, parts', hparts, rfl⟩,
          ⟨rfl, rfl⟩, (List.append_nil _).symm⟩, rfl⟩
        exact Nat.succ.inj hlength

end Reads

end Reading
