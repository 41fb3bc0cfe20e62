import Mathlib.Combinatorics.Hall.Basic
import Mathlib.Data.Fintype.Fin

/-
Assigning the entries of a list to distinct entries of another.

`Assigns fits as bs` gives each entry of `as` an entry of `bs` that fits it, and none twice. By
Hall's theorem this comes down to counting (`assigns_iff`), so the order of the entries does not
matter, and more entries in `bs` do no harm.
-/

namespace Assignment

open Finset

universe u v

variable {α : Type u} {β : Type v} {fits : α → β → Prop} {as as' : List α} {bs bs' : List β}

/-- Every entry of `as` has an entry of `bs` of its own that fits it. -/
def Assigns (fits : α → β → Prop) (as : List α) (bs : List β) : Prop :=
  ∃ f : Fin as.length → Fin bs.length,
    Function.Injective f ∧ ∀ i, fits (as.get i) (bs.get (f i))

/-- The positions with a property, counted. -/
lemma card_get (p : α → Prop) [DecidablePred p] (as : List α) :
    #{i : Fin as.length | p (as.get i)} = as.countP p := by
  induction as with
  | nil => rfl
  | cons a as ih =>
    have hsucc := Fin.card_filter_univ_succ' fun i : Fin (as.length + 1) => p ((a :: as).get i)
    rw [List.countP_cons, ← ih, Nat.add_comm]
    refine hsucc.trans (congrArg₂ _ ?_ rfl)
    by_cases h : p a <;> simp [h]

variable [DecidableEq α] [∀ a, DecidablePred (fits a)]

/-- Hall's condition: the entries with some values are no more than the entries that fit one of
these values. -/
theorem assigns_iff : Assigns fits as bs ↔
    ∀ S : Finset α, as.countP (· ∈ S) ≤ bs.countP fun b => ∃ a ∈ S, fits a b := by
  constructor
  · rintro ⟨f, hinjective, hfits⟩ S
    rw [← card_get (· ∈ S), ← card_get fun b => ∃ a ∈ S, fits a b]
    refine Finset.card_le_card_of_injOn f (fun i hi => ?_) hinjective.injOn
    simp only [coe_filter, mem_univ, true_and, Set.mem_ofPred_eq] at hi ⊢
    exact ⟨as.get i, hi, hfits i⟩
  · intro hcount
    refine (Fintype.all_card_le_filter_rel_iff_exists_injective
      fun (i : Fin as.length) (j : Fin bs.length) => fits (as.get i) (bs.get j)).1 fun A => ?_
    have hA : A ⊆ ({i | as.get i ∈ A.image as.get} : Finset (Fin as.length)) := by
      intro i hi
      exact mem_filter.2 ⟨mem_univ i, mem_image_of_mem _ hi⟩
    have hcard : #A ≤ #{j : Fin bs.length | ∃ a ∈ A.image as.get, fits a (bs.get j)} :=
      calc #A ≤ #{i : Fin as.length | as.get i ∈ A.image as.get} := card_le_card hA
        _ = as.countP (· ∈ A.image as.get) := card_get (· ∈ A.image as.get) as
        _ ≤ bs.countP fun b => ∃ a ∈ A.image as.get, fits a b := hcount _
        _ = _ := (card_get (fun b => ∃ a ∈ A.image as.get, fits a b) bs).symm
    refine hcard.trans (card_le_card fun j hj => ?_)
    simpa only [mem_filter, mem_image, exists_exists_and_eq_and] using hj

/-- The order of the entries does not matter. -/
lemma Assigns.perm (h : Assigns fits as bs) (has : as'.Perm as) (hbs : bs'.Perm bs) :
    Assigns fits as' bs' := by
  refine assigns_iff.2 fun S => ?_
  rw [has.countP_eq, hbs.countP_eq]
  exact assigns_iff.1 h S

/-- More entries do no harm. -/
lemma Assigns.sublist (h : Assigns fits as bs) (hbs : bs.Sublist bs') : Assigns fits as bs' :=
  assigns_iff.2 fun S => (assigns_iff.1 h S).trans hbs.countP_le

end Assignment
