import Mathlib.Data.List.Basic
import Mathlib.Data.Nat.Notation
import Mathlib.Order.Basic

/-
Longest common subsequences.

The length of a longest common subsequence is found by the first letters: equal ones are taken, of
different ones one is left out. A sequence that is what is left of two texts after deletions, and as
long as that, is a longest one.
-/

namespace Subsequence

variable {α : Type} {a b s d : List α}

/-! ### Deletions -/

/-- A text is `s` and the letters `d` deleted from it, both in order. -/
inductive Without : List α → List α → List α → Prop
  | nil : Without [] [] []
  | delete {a d s : List α} (x : α) (h : Without a d s) : Without (x :: a) (x :: d) s
  | keep {a d s : List α} (x : α) (h : Without a d s) : Without (x :: a) d (x :: s)

lemma Without.sublist (h : Without a d s) : s.Sublist a := by
  induction h with
  | nil => exact .slnil
  | delete x _ ih => exact ih.cons x
  | keep x _ ih => exact ih.cons_cons x

/-- Without deletions all is left. -/
lemma Without.eq_of_nil (h : Without a [] s) : a = s := by
  generalize hd : ([] : List α) = d at h
  induction h with
  | nil => rfl
  | delete x _ _ => cases hd
  | keep x _ ih => rw [ih hd]

lemma Without.length_eq (h : Without a d s) : a.length = d.length + s.length := by
  induction h with
  | nil => rfl
  | delete x _ ih =>
    rw [List.length_cons, List.length_cons, ih]
    omega
  | keep x _ ih =>
    rw [List.length_cons, List.length_cons, ih]
    omega

/-- Everything may be deleted. -/
lemma without_nil (a : List α) : Without a a [] := by
  induction a with
  | nil => exact .nil
  | cons x a ih => exact .delete x ih

/-! ### Longest common subsequences -/

/-- A longest common subsequence of two texts. -/
structure Longest (a b s : List α) : Prop where
  left : s.Sublist a
  right : s.Sublist b
  longest : ∀ t : List α, t.Sublist a → t.Sublist b → t.length ≤ s.length

variable [DecidableEq α]

/-- The length of a longest common subsequence. -/
def common : List α → List α → ℕ
  | [], _ => 0
  | _ :: _, [] => 0
  | x :: a, y :: b => if x = y then common a b + 1 else max (common a (y :: b)) (common (x :: a) b)
termination_by a b => a.length + b.length

lemma common_nil_left (b : List α) : common [] b = 0 := by rw [common]

lemma common_nil_right (a : List α) : common a [] = 0 := by
  cases a with
  | nil => exact common_nil_left []
  | cons x a => rw [common]

lemma common_of_eq (x : α) (a b : List α) : common (x :: a) (x :: b) = common a b + 1 := by
  rw [common, if_pos rfl]

lemma common_of_ne {x y : α} (h : x ≠ y) (a b : List α) :
    common (x :: a) (y :: b) = max (common a (y :: b)) (common (x :: a) b) := by
  rw [common, if_neg h]

omit [DecidableEq α] in
/-- A text of another first letter is a subsequence of the rest. -/
lemma sublist_of_ne {x z : α} {t : List α} (h : z ≠ x) (ht : (z :: t).Sublist (x :: a)) :
    (z :: t).Sublist a := by
  rcases List.sublist_cons_iff.1 ht with ht | ⟨t', heq, -⟩
  · exact ht
  · exact absurd (List.cons.inj heq).1 h

/-- No common subsequence is longer. -/
theorem length_le_common {t : List α} (ha : t.Sublist a) (hb : t.Sublist b) :
    t.length ≤ common a b := by
  induction a, b using common.induct generalizing t with
  | case1 b =>
    rw [List.sublist_nil.1 ha]
    exact Nat.zero_le _
  | case2 x a =>
    rw [List.sublist_nil.1 hb]
    exact Nat.zero_le _
  | case3 a y b ih =>
    have htail := ih ha.tail hb.tail
    rw [common_of_eq]
    rw [List.length_tail] at htail
    omega
  | case4 x a y b hne ih ih' =>
    rw [common_of_ne hne]
    cases t with
    | nil => exact Nat.zero_le _
    | cons z t =>
      by_cases hz : z = x
      · -- the first letter is not that of the second text
        have hy : z ≠ y := hz ▸ hne
        exact Nat.le_trans (ih' ha (sublist_of_ne hy hb)) (Nat.le_max_right _ _)
      · exact Nat.le_trans (ih (sublist_of_ne hz ha) hb) (Nat.le_max_left _ _)

/-- What is left of both texts, and as long as a longest common subsequence, is one. -/
theorem Longest.of_without {da db : List α} (ha : Without a da s) (hb : Without b db s)
    (hlength : s.length = common a b) : Longest a b s where
  left := ha.sublist
  right := hb.sublist
  longest := by
    intro t hta htb
    rw [hlength]
    exact length_le_common hta htb

end Subsequence
