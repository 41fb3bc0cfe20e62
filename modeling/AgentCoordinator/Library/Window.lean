import Mathlib.Data.List.Sort

/-
Counting in a sliding window.

A history of times is sorted, and a window counts the times after its start. As the start moves on,
times leave the window from the front: the window holds `length - i` times for as long as the `i`-th
is in it.
-/

namespace Window

variable {α : Type*} [LinearOrder α]

/-- How many times of the history are after the start of the window. -/
def count (l : List α) (start : α) : ℕ := (l.filter fun x => decide (start < x)).length

lemma count_le_length (l : List α) (start : α) : count l start ≤ l.length :=
  List.length_filter_le _ _

lemma count_append (l l' : List α) (start : α) :
    count (l ++ l') start = count l start + count l' start := by
  simp only [count, List.filter_append, List.length_append]

lemma count_perm {l l' : List α} (h : l.Perm l') (start : α) : count l start = count l' start :=
  (h.filter _).length_eq

lemma count_eq_zero {l : List α} {start : α} (h : ∀ x ∈ l, x ≤ start) : count l start = 0 := by
  rw [count, List.length_eq_zero_iff, List.filter_eq_nil_iff]
  intro x hx
  simpa using h x hx

lemma count_eq_length {l : List α} {start : α} (h : ∀ x ∈ l, start < x) :
    count l start = l.length := by
  rw [count, List.filter_eq_self.2]
  intro x hx
  simpa using h x hx

/-- The window holds everything from the `i`-th time on exactly while it holds the `i`-th. -/
theorem le_count_iff {l : List α} (hl : l.Pairwise (· ≤ ·)) {i : ℕ} (hi : i < l.length)
    (start : α) : l.length - i ≤ count l start ↔ start < l[i] := by
  constructor
  · intro hcount
    by_contra hle
    -- the first `i + 1` times have left
    have hleft : ∀ x ∈ l.take (i + 1), x ≤ start := by
      intro x hx
      obtain ⟨j, hj, rfl⟩ := List.mem_iff_getElem.1 hx
      rw [List.length_take] at hj
      rw [List.getElem_take]
      refine le_trans ?_ (not_lt.1 hle)
      rcases Nat.lt_or_eq_of_le (Nat.lt_succ_iff.1 (lt_of_lt_of_le hj (min_le_left _ _))) with
        hlt | rfl
      · exact List.pairwise_iff_getElem.1 hl j i _ hi hlt
      · exact le_rfl
    have hsplit := count_append (l.take (i + 1)) (l.drop (i + 1)) start
    rw [List.take_append_drop, count_eq_zero hleft, Nat.zero_add] at hsplit
    have hrest := count_le_length (l.drop (i + 1)) start
    rw [List.length_drop] at hrest
    omega
  · intro hlt
    have hright : ∀ x ∈ l.drop i, start < x := by
      intro x hx
      obtain ⟨j, hj, rfl⟩ := List.mem_iff_getElem.1 hx
      rw [List.length_drop] at hj
      rw [List.getElem_drop]
      refine lt_of_lt_of_le hlt ?_
      rcases Nat.eq_zero_or_pos j with rfl | hpos
      · exact le_rfl
      · exact List.pairwise_iff_getElem.1 hl i (i + j) hi (by omega) (by omega)
    have hsplit := count_append (l.take i) (l.drop i) start
    rw [List.take_append_drop, count_eq_length hright, List.length_drop] at hsplit
    omega

end Window
