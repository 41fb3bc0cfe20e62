import Mathlib.Algebra.Order.BigOperators.Group.List
import Mathlib.Data.List.Nodup

/-
Requests for several resources at once.

A request is a list of items, each asking for an amount of one resource. Whether the whole request
fits is decided item by item against what is used before any of it is granted. That is enough
because the resources of a request are distinct: `fits` needs nothing else.
-/

namespace Allocation

universe u v w

variable {ι : Type u} {ρ : Type v} {M : Type w} [DecidableEq ρ]

/-- What the items ask of resource `r`, all together. -/
def asked [AddMonoid M] (resource : ι → ρ) (amount : ι → M) (items : List ι) (r : ρ) : M :=
  ((items.filter (fun i => resource i = r)).map amount).sum

section Monoid

variable [AddMonoid M] {resource : ι → ρ} {amount : ι → M} {items : List ι} {r : ρ}

/-- A resource that no item names is not asked for. -/
lemma asked_of_absent (h : ∀ i ∈ items, resource i ≠ r) : asked resource amount items r = 0 := by
  have hnone : items.filter (fun i => resource i = r) = [] :=
    List.filter_eq_nil_iff.2 fun i hi => by simpa using h i hi
  rw [asked, hnone, List.map_nil, List.sum_nil]

/-- Of a resource named by one item, that item's amount is asked. -/
lemma asked_of_mem (hdistinct : (items.map resource).Nodup) {i : ι} (hi : i ∈ items) :
    asked resource amount items (resource i) = amount i := by
  induction items with
  | nil => exact absurd hi List.not_mem_nil
  | cons j items ih =>
    rw [List.map_cons, List.nodup_cons] at hdistinct
    obtain ⟨hj, hrest⟩ := hdistinct
    rcases List.mem_cons.1 hi with rfl | hmem
    · have hothers : asked resource amount items (resource i) = 0 :=
        asked_of_absent fun k hk heq => hj (List.mem_map.2 ⟨k, hk, heq⟩)
      unfold asked at hothers ⊢
      rw [List.filter_cons_of_pos (by simp), List.map_cons, List.sum_cons, hothers, add_zero]
    · have hne : ¬ resource j = resource i := fun heq =>
        hj (List.mem_map.2 ⟨i, hmem, heq.symm⟩)
      have hrec := ih hrest hmem
      unfold asked at hrec ⊢
      rw [List.filter_cons_of_neg (by simpa using hne), hrec]

end Monoid

/-- Items that ask for no less than nothing ask so together. -/
lemma asked_nonneg [AddCommMonoid M] [PartialOrder M] [IsOrderedAddMonoid M] {resource : ι → ρ}
    {amount : ι → M} {items : List ι} {r : ρ} (h : ∀ i ∈ items, 0 ≤ amount i) :
    0 ≤ asked resource amount items r := by
  refine List.sum_nonneg fun a ha => ?_
  obtain ⟨i, hi, rfl⟩ := List.mem_map.1 ha
  exact h i (List.mem_of_mem_filter hi)

/-- A request whose items fit one by one, next to what was used before, fits as a whole. -/
theorem fits [AddMonoid M] [LE M] {resource : ι → ρ} {amount : ι → M} {items : List ι} {r : ρ}
    {used capacity : ρ → M} (hdistinct : (items.map resource).Nodup)
    (hbefore : used r ≤ capacity r)
    (hitem : ∀ i ∈ items, used (resource i) + amount i ≤ capacity (resource i)) :
    used r + asked resource amount items r ≤ capacity r := by
  by_cases hr : ∃ i ∈ items, resource i = r
  · obtain ⟨i, hi, rfl⟩ := hr
    rw [asked_of_mem hdistinct hi]
    exact hitem i hi
  · rw [asked_of_absent fun i hi heq => hr ⟨i, hi, heq⟩, add_zero]
    exact hbefore

end Allocation
