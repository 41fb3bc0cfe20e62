import Mathlib.Data.List.Infix
import Mathlib.Data.List.Nodup
import Mathlib.Data.Nat.Notation
import Mathlib.Tactic.Basic

/-
Headings with levels, and which of them enclose a place in a document.

A heading is closed by a later one of the same or a smaller level; those that are not closed enclose
the place, in document order. A stack kept by position, which a heading of level `l` cuts to `l - 1`
entries, is a common short cut. It never loses an enclosing heading, but it keeps a closed one that
stands higher in the stack than its level says, because a level was skipped. So it is right exactly
when every enclosing heading that skips a level is the first one below its parent.
-/

namespace Headings

/-- A heading of a document. -/
structure Heading (α : Type*) where
  level : ℕ
  title : α
  positive : 1 ≤ level
  deriving DecidableEq, Repr

variable {α : Type*} {h g : Heading α} {hs a b : List (Heading α)} {l : ℕ}

/-- The headings that enclose the end of the list: no later one is of the same or a smaller
level. -/
def enclosing : List (Heading α) → List (Heading α)
  | [] => []
  | h :: hs =>
    if ∀ g ∈ hs, h.level < g.level then h :: enclosing hs else enclosing hs

/-- The headings before a place that would enclose a heading of level `l` there. -/
def above (l : ℕ) (hs : List (Heading α)) : List (Heading α) :=
  (enclosing hs).filter fun h => decide (h.level < l)

/-- What a heading does to a stack kept by position. -/
def push (stack : List (Heading α)) (h : Heading α) : List (Heading α) :=
  stack.take (h.level - 1) ++ [h]

/-- The stack kept by position. -/
def stack (hs : List (Heading α)) : List (Heading α) := hs.foldl push []

@[simp] lemma stack_nil : stack ([] : List (Heading α)) = [] := rfl

lemma stack_concat : stack (hs ++ [h]) = (stack hs).take (h.level - 1) ++ [h] := by
  rw [stack, List.foldl_concat]
  rfl

/-- An enclosing heading is not closed. -/
lemma mem_enclosing : h ∈ enclosing hs ↔ ∃ a b, hs = a ++ h :: b ∧ ∀ g ∈ b, h.level < g.level := by
  induction hs with
  | nil => simp [enclosing]
  | cons k hs ih =>
    have hsplit : (∃ a b, k :: hs = a ++ h :: b ∧ ∀ g ∈ b, h.level < g.level) ↔
        (h = k ∧ ∀ g ∈ hs, k.level < g.level) ∨
          ∃ a b, hs = a ++ h :: b ∧ ∀ g ∈ b, h.level < g.level := by
      constructor
      · rintro ⟨a, b, heq, hb⟩
        cases a with
        | nil =>
          obtain ⟨rfl, rfl⟩ := List.cons.inj heq
          exact .inl ⟨rfl, hb⟩
        | cons x a =>
          obtain ⟨rfl, rfl⟩ := List.cons.inj heq
          exact .inr ⟨a, b, rfl, hb⟩
      · rintro (⟨rfl, hb⟩ | ⟨a, b, rfl, hb⟩)
        · exact ⟨[], hs, rfl, hb⟩
        · exact ⟨k :: a, b, rfl, hb⟩
    rw [hsplit, ← ih, enclosing]
    split_ifs with hk
    · rw [List.mem_cons, and_iff_left hk]
    · exact (or_iff_right fun hand => hk hand.2).symm

lemma enclosing_sublist (hs : List (Heading α)) : (enclosing hs).Sublist hs := by
  induction hs with
  | nil => exact List.Sublist.slnil
  | cons h hs ih =>
    rw [enclosing]
    split_ifs
    · exact ih.cons_cons h
    · exact ih.cons h

/-- Enclosing headings get deeper. -/
lemma pairwise_enclosing (hs : List (Heading α)) :
    (enclosing hs).Pairwise fun h g => h.level < g.level := by
  induction hs with
  | nil => exact List.Pairwise.nil
  | cons h hs ih =>
    rw [enclosing]
    split_ifs with hall
    · exact List.pairwise_cons.2 ⟨fun g hg => hall g ((enclosing_sublist hs).subset hg), ih⟩
    · exact ih

/-- A heading at the end closes those of its level or deeper. -/
lemma enclosing_concat : enclosing (hs ++ [h]) = above h.level hs ++ [h] := by
  induction hs with
  | nil => simp [enclosing, above]
  | cons k hs ih =>
    rw [List.cons_append, enclosing, ih]
    by_cases hlt : k.level < h.level
    · have hiff : (∀ g ∈ hs ++ [h], k.level < g.level) ↔ ∀ g ∈ hs, k.level < g.level := by
        simp [or_imp, forall_and, hlt]
      simp only [hiff, above, enclosing]
      split_ifs with hk
      · simp [hlt]
      · rfl
    · have hnot : ¬ ∀ g ∈ hs ++ [h], k.level < g.level := fun hall => hlt (hall h (by simp))
      rw [if_neg hnot]
      simp only [above, enclosing]
      split_ifs with hk
      · simp [hlt]
      · rfl

/-- Above a level there is nothing new when the last heading is not below it. -/
lemma above_concat_of_le (hle : l ≤ h.level) : above l (hs ++ [h]) = above l hs := by
  rw [above, enclosing_concat, List.filter_append, above, List.filter_filter]
  have hlast : ([h].filter fun g => decide (g.level < l)) = [] := by
    simp [hle]
  rw [hlast, List.append_nil, above]
  refine List.filter_congr fun g _ => ?_
  rw [Bool.and_eq_left_iff_imp, decide_eq_true_eq, decide_eq_true_eq]
  exact fun hg => hg.trans_le hle

/-- A heading above the level stands right below what is above itself. -/
lemma above_concat_of_lt (hlt : h.level < l) : above l (hs ++ [h]) = above h.level hs ++ [h] := by
  rw [above, enclosing_concat, List.filter_append]
  have hlast : ([h].filter fun g => decide (g.level < l)) = [h] := by
    simp [hlt]
  rw [hlast, above, List.filter_filter]
  congr 1
  refine List.filter_congr fun g _ => ?_
  rw [Bool.and_eq_right_iff_imp, decide_eq_true_eq, decide_eq_true_eq]
  exact fun hg => hg.trans hlt

/-- The stack keeps every enclosing heading. -/
lemma above_sublist_stack (hs : List (Heading α)) (l : ℕ) :
    (above l hs).Sublist ((stack hs).take (l - 1)) := by
  induction hs using List.reverseRecOn generalizing l with
  | nil => simp [above, enclosing]
  | append_singleton hs h ih =>
    have hpositive := h.positive
    have hlen : ((stack hs).take (h.level - 1)).length ≤ h.level - 1 := List.length_take_le _ _
    rw [stack_concat]
    rcases Nat.lt_or_ge h.level l with hlt | hle
    · rw [above_concat_of_lt hlt, List.take_of_length_le (by simp; omega)]
      exact (ih _).append_right [h]
    · rw [above_concat_of_le hle]
      refine (ih l).trans ?_
      rw [List.take_append, List.take_take, min_eq_left (by omega)]
      exact List.sublist_append_left _ _

lemma enclosing_sublist_stack (hs : List (Heading α)) : (enclosing hs).Sublist (stack hs) := by
  induction hs using List.reverseRecOn with
  | nil => simp [enclosing]
  | append_singleton hs h _ =>
    rw [enclosing_concat, stack_concat]
    exact (above_sublist_stack hs _).append_right [h]

/-- A heading of level `l` after `hs` stands at its own depth, or first below its parent. -/
def Settled (hs : List (Heading α)) (l : ℕ) : Prop :=
  l = (above l hs).length + 1 ∨ ∀ g ∈ hs.getLast?, g.level < l

/-- Each heading above level `l` is settled. -/
def SettledAbove (hs : List (Heading α)) (l : ℕ) : Prop :=
  ∀ a h b, hs = a ++ h :: b → (∀ g ∈ b, h.level < g.level) → h.level < l → Settled a h.level

lemma settledAbove_concat_of_lt (hlt : h.level < l) :
    SettledAbove (hs ++ [h]) l ↔ SettledAbove hs h.level ∧ Settled hs h.level := by
  constructor
  · intro hall
    refine ⟨fun a g b heq hb hg => ?_, hall hs h [] rfl (by simp) hlt⟩
    refine hall a g (b ++ [h]) (by simp [heq]) ?_ (hg.trans hlt)
    simp only [List.mem_append, List.mem_singleton]
    rintro k (hk | rfl)
    · exact hb k hk
    · exact hg
  · rintro ⟨hall, hlast⟩ a g b heq hb hg
    rcases List.eq_nil_or_concat b with rfl | ⟨b, k, rfl⟩
    · obtain ⟨rfl, hgh⟩ := List.append_inj' heq rfl
      obtain rfl := List.singleton_inj.1 hgh
      exact hlast
    · rw [List.concat_eq_append, ← List.cons_append, ← List.append_assoc] at heq
      obtain ⟨rfl, hkh⟩ := List.append_inj' heq rfl
      obtain rfl := List.singleton_inj.1 hkh
      rw [List.concat_eq_append] at hb
      exact hall a g b rfl (fun k hk => hb k (by simp [hk])) (hb h (by simp))

lemma settledAbove_concat_of_le (hle : l ≤ h.level) :
    SettledAbove (hs ++ [h]) l ↔ SettledAbove hs l := by
  constructor
  · intro hall a g b heq hb hg
    refine hall a g (b ++ [h]) (by simp [heq]) ?_ hg
    simp only [List.mem_append, List.mem_singleton]
    rintro k (hk | rfl)
    · exact hb k hk
    · exact hg.trans_le hle
  · intro hall a g b heq hb hg
    rcases List.eq_nil_or_concat b with rfl | ⟨b, k, rfl⟩
    · obtain ⟨rfl, hgh⟩ := List.append_inj' heq rfl
      obtain rfl := List.singleton_inj.1 hgh
      exact absurd hg (not_lt.2 hle)
    · rw [List.concat_eq_append, ← List.cons_append, ← List.append_assoc] at heq
      obtain ⟨rfl, hkh⟩ := List.append_inj' heq rfl
      rw [List.concat_eq_append] at hb
      exact hall a g b rfl (fun k hk => hb k (by simp [hk])) hg

/-- Cut for a heading of level `l`, the stack is right exactly when that heading and all above it
are settled. -/
theorem take_stack_eq_above_iff (hs : List (Heading α)) (l : ℕ) (hl : 1 ≤ l) :
    (stack hs).take (l - 1) = above l hs ↔ SettledAbove hs l ∧ Settled hs l := by
  induction hs using List.reverseRecOn generalizing l with
  | nil => simp [above, enclosing, SettledAbove, Settled]
  | append_singleton hs h ih =>
    have hpositive := h.positive
    rw [stack_concat]
    rcases Nat.lt_or_ge h.level l with hlt | hle
    · -- the last heading is the parent of one of level `l`
      have hlen : ((stack hs).take (h.level - 1)).length ≤ h.level - 1 := List.length_take_le _ _
      have hlast : Settled (hs ++ [h]) l := .inr (by simpa using hlt)
      rw [above_concat_of_lt hlt, List.take_of_length_le (by simp; omega),
        List.append_left_inj, ih h.level hpositive, settledAbove_concat_of_lt hlt]
      exact (and_iff_left hlast).symm
    · -- the last heading is closed by one of level `l`
      have hsettled : Settled (hs ++ [h]) l ↔ l = (above l hs).length + 1 := by
        rw [Settled, above_concat_of_le hle]
        refine or_iff_left fun hall => ?_
        exact absurd (hall h (by simp)) (not_lt.2 hle)
      rw [above_concat_of_le hle, settledAbove_concat_of_le hle, hsettled]
      have hsub := (above_sublist_stack hs l).length_le
      rw [List.length_take] at hsub
      rcases Nat.lt_or_ge (stack hs).length (l - 1) with hshort | hlong
      · -- and it stays on the stack, above its level
        refine iff_of_false (fun heq => ?_) (fun hall => by omega)
        have hmem : h ∈ above l hs := by
          rw [← heq, List.take_of_length_le (by omega : (stack hs).length ≤ h.level - 1),
            List.take_of_length_le (by simp; omega)]
          simp
        have hlevel : h.level < l := by
          simpa using (List.mem_filter.1 hmem).2
        omega
      · rw [List.take_append_of_le_length (by rw [List.length_take]; omega), List.take_take,
          min_eq_left (by omega), ih l hl]
        constructor
        · rintro ⟨habove, hl'⟩
          refine ⟨habove, ?_⟩
          have heq := congrArg List.length ((ih l hl).2 ⟨habove, hl'⟩)
          rw [List.length_take] at heq
          omega
        · rintro ⟨habove, hl'⟩
          exact ⟨habove, .inl hl'⟩

/-- The stack kept by position is the list of enclosing headings exactly when each of these is
settled. -/
theorem stack_eq_enclosing_iff (hs : List (Heading α)) :
    stack hs = enclosing hs ↔
      ∀ a h b, hs = a ++ h :: b → (∀ g ∈ b, h.level < g.level) → Settled a h.level := by
  rcases List.eq_nil_or_concat hs with rfl | ⟨hs, h, rfl⟩
  · simp [enclosing]
  · rw [List.concat_eq_append, stack_concat, enclosing_concat, List.append_left_inj,
      take_stack_eq_above_iff hs h.level h.positive,
      ← settledAbove_concat_of_lt (Nat.lt_succ_self h.level)]
    constructor
    · intro hall a g b heq hb
      refine hall a g b heq hb ?_
      -- an enclosing heading is not deeper than the last one
      rcases List.eq_nil_or_concat b with rfl | ⟨b, k, rfl⟩
      · obtain ⟨-, hgh⟩ := List.append_inj' heq rfl
        obtain rfl := List.singleton_inj.1 hgh
        exact Nat.lt_succ_self _
      · rw [List.concat_eq_append, ← List.cons_append, ← List.append_assoc] at heq
        obtain ⟨-, hkh⟩ := List.append_inj' heq rfl
        obtain rfl := List.singleton_inj.1 hkh
        exact Nat.lt_succ_of_lt (hb h (by simp))
    · intro hall a g b heq hb _
      exact hall a g b heq hb

/-- What stands between two places does not show in the second one, when all of it is at least as
deep as the heading the second one starts with. -/
theorem enclosing_append_of_le (hmid : ∀ g ∈ b, h.level ≤ g.level) (c : List (Heading α)) :
    enclosing (a ++ b ++ h :: c) = enclosing (a ++ h :: c) := by
  induction c using List.reverseRecOn with
  | nil =>
    rw [enclosing_concat, enclosing_concat, List.append_left_inj]
    induction b using List.reverseRecOn with
    | nil => rw [List.append_nil]
    | append_singleton b g ih =>
      rw [← List.append_assoc, above_concat_of_le (hmid g (by simp))]
      exact ih fun k hk => hmid k (by simp [hk])
  | append_singleton c k ih =>
    have hcons (x : List (Heading α)) : x ++ h :: (c ++ [k]) = x ++ h :: c ++ [k] := by simp
    rw [hcons, hcons, enclosing_concat, enclosing_concat, above, ih]
    rfl

end Headings
