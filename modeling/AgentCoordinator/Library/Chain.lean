import Mathlib.Data.Nat.Notation
import Mathlib.Data.Option.Basic
import Mathlib.Tactic.Basic

/-
Parent chains.

A partial function `f` takes a node to its parent. The chain of a node ends in its root, or goes on
for more hops than one is willing to follow. A bounded climb tells the two apart, and nothing else:
it finds the root of every chain within the bound, and gives up on all the others, cycles
included.
-/

namespace Chain

variable {α : Type*} {f : α → Option α} {a b r r' : α} {k n : ℕ}

/-- The ancestor `n` hops up. -/
def up (f : α → Option α) : ℕ → α → Option α
  | 0, a => some a
  | n + 1, a => (f a).bind (up f n)

/-- The chain of `a` has more than `n` hops. -/
def Deep (f : α → Option α) (n : ℕ) (a : α) : Prop := (up f (n + 1) a).isSome

/-- The chain of `a` ends in `r`. -/
def Root (f : α → Option α) (a r : α) : Prop := ∃ k, up f k a = some r ∧ f r = none

/-- The root of `a`, looked for at most `n` hops up. -/
def top (f : α → Option α) : ℕ → α → Option α
  | 0, a => (f a).elim (some a) fun _ => none
  | n + 1, a => (f a).elim (some a) (top f n)

lemma up_succ_of_parent (h : f a = some b) : up f (n + 1) a = up f n b := by
  rw [up, h, Option.bind_some]

lemma up_succ_of_root (h : f a = none) : up f (n + 1) a = none := by
  rw [up, h, Option.bind_none]

lemma top_of_root (h : f a = none) : top f n a = some a := by
  cases n <;> rw [top, h, Option.elim_none]

lemma top_zero_of_parent (h : f a = some b) : top f 0 a = none := by
  rw [top, h, Option.elim_some]

lemma top_succ_of_parent (h : f a = some b) : top f (n + 1) a = top f n b := by
  rw [top, h, Option.elim_some]

/-- A root ends its own chain, and no other. -/
lemma root_iff_of_root (h : f a = none) : Root f a r ↔ r = a := by
  constructor
  · rintro ⟨k, hk, -⟩
    cases k with
    | zero => exact (Option.some.inj hk).symm
    | succ k => rw [up_succ_of_root h] at hk; cases hk
  · rintro rfl
    exact ⟨0, rfl, h⟩

/-- The root of a node is that of its parent. -/
lemma root_iff_of_parent (h : f a = some b) : Root f a r ↔ Root f b r := by
  constructor
  · rintro ⟨k, hk, hr⟩
    cases k with
    | zero => cases hk; rw [h] at hr; cases hr
    | succ k => exact ⟨k, by rwa [up_succ_of_parent h] at hk, hr⟩
  · rintro ⟨k, hk, hr⟩
    exact ⟨k + 1, by rwa [up_succ_of_parent h], hr⟩

/-- A climb gives up exactly on the chains deeper than its bound. -/
theorem top_eq_none_iff : top f n a = none ↔ Deep f n a := by
  induction n generalizing a with
  | zero =>
    cases h : f a with
    | none => simp [top_of_root h, Deep, up_succ_of_root h]
    | some b => simp [top_zero_of_parent h, Deep, up, h]
  | succ n ih =>
    cases h : f a with
    | none => simp [top_of_root h, Deep, up_succ_of_root h]
    | some b => rw [top_succ_of_parent h, ih, Deep, Deep, up_succ_of_parent h]

/-- What a climb finds is the root. -/
theorem root_of_top (h : top f n a = some r) : Root f a r := by
  induction n generalizing a with
  | zero =>
    cases ha : f a with
    | none =>
      rw [top_of_root ha] at h
      exact (root_iff_of_root ha).2 (Option.some.inj h).symm
    | some b => rw [top_zero_of_parent ha] at h; cases h
  | succ n ih =>
    cases ha : f a with
    | none =>
      rw [top_of_root ha] at h
      exact (root_iff_of_root ha).2 (Option.some.inj h).symm
    | some b =>
      rw [top_succ_of_parent ha] at h
      exact (root_iff_of_parent ha).2 (ih h)

/-- A chain has one end. -/
theorem Root.unique (h : Root f a r) (h' : Root f a r') : r = r' := by
  obtain ⟨k, hk, hr⟩ := h
  induction k generalizing a with
  | zero =>
    cases hk
    exact ((root_iff_of_root hr).1 h').symm
  | succ k ih =>
    cases ha : f a with
    | none => rw [up_succ_of_root ha] at hk; cases hk
    | some b =>
      rw [up_succ_of_parent ha] at hk
      exact ih ((root_iff_of_parent ha).1 h') hk

/-- On a chain within the bound, the climb answers the root. -/
theorem top_eq_some_iff (h : ¬ Deep f n a) : top f n a = some r ↔ Root f a r := by
  constructor
  · exact root_of_top
  · intro hr
    cases ht : top f n a with
    | none => exact absurd (top_eq_none_iff.1 ht) h
    | some r' => rw [(root_of_top ht).unique hr]

/-- What two climbs within the bound that agree have found: a root of both. -/
theorem exists_root_iff (h : top f n a = some r) : Root f b r ↔ ∃ r, Root f a r ∧ Root f b r := by
  constructor
  · intro hb
    exact ⟨r, root_of_top h, hb⟩
  · rintro ⟨r', ha, hb⟩
    rwa [(root_of_top h).unique ha]

end Chain
