import Mathlib.Data.List.Sort

/-
Reading a table in pages, each after the last key of the one before.

The rows of a table are sorted by a key, and a page is the start of the rows behind its cursor. As
long as every page sees the same rows, the pages put together are the rows: what is left behind the
last key of a page is what the page left out.
-/

namespace Paging

variable {α κ : Type*} [LinearOrder κ] {key : α → κ} {rows a b : List α} {r : α} {k k' : κ}

/-- The rows behind a key. -/
def after (key : α → κ) (k : κ) (rows : List α) : List α :=
  rows.filter fun r => decide (k < key r)

/-- The rows have increasing keys. -/
abbrev Increasing (key : α → κ) (rows : List α) : Prop := rows.Pairwise fun r r' => key r < key r'

lemma after_eq_self (h : ∀ r ∈ rows, k < key r) : after key k rows = rows := by
  rw [after, List.filter_eq_self]
  exact fun r hr => decide_eq_true (h r hr)

/-- A later cursor sees what is behind it of what an earlier one sees. -/
lemma after_after (h : k ≤ k') : after key k' (after key k rows) = after key k' rows := by
  rw [after, after, List.filter_filter]
  refine List.filter_congr fun r _ => ?_
  rw [Bool.and_eq_left_iff_imp, decide_eq_true_eq, decide_eq_true_eq]
  exact fun hr => h.trans_lt hr

/-- Behind the last key of a page is what the page left out. -/
lemma after_last (h : Increasing key (a ++ r :: b)) : after key (key r) (a ++ r :: b) = b := by
  obtain ⟨-, hrest, hcross⟩ := List.pairwise_append.1 h
  obtain ⟨hb, -⟩ := List.pairwise_cons.1 hrest
  have ha : after key (key r) a = [] := by
    rw [after, List.filter_eq_nil_iff]
    intro x hx
    simpa using (hcross x hx r (by simp)).le
  have hr : after key (key r) (r :: b) = b := by
    rw [after, List.filter_cons_of_neg (by simp)]
    exact after_eq_self hb
  rw [after, List.filter_append, ← after, ← after, ha, hr, List.nil_append]

/-- A page behind `k` that ends in `r`, and what is behind `r`, is all that is behind `k`. -/
theorem page_append_after (hrows : Increasing key rows) (h : after key k rows = a ++ r :: b) :
    a ++ [r] ++ after key (key r) rows = after key k rows := by
  have hsub : Increasing key (a ++ r :: b) := h ▸ hrows.filter _
  have hlt : k < key r := by
    have hmem : r ∈ after key k rows := by
      rw [h]
      simp
    simpa using (List.mem_filter.1 hmem).2
  rw [← after_after hlt.le, h, after_last hsub, List.append_assoc, List.singleton_append]

/-- Rows sorted by pairwise different keys have increasing ones. -/
lemma increasing_insertionSort (h : (rows.map key).Nodup) :
    Increasing key (rows.insertionSort fun r r' => key r ≤ key r') := by
  have : Std.Total fun r r' : α => key r ≤ key r' := ⟨fun r r' => le_total _ _⟩
  have : IsTrans α fun r r' => key r ≤ key r' := ⟨fun r r' r'' => le_trans⟩
  have hle := List.pairwise_insertionSort (fun r r' : α => key r ≤ key r') rows
  have hnodup : ((rows.insertionSort fun r r' => key r ≤ key r').map key).Nodup :=
    ((List.perm_insertionSort _ rows).map key).nodup_iff.2 h
  rw [List.Nodup, List.pairwise_map] at hnodup
  exact hle.imp₂ (fun _ _ hle hne => lt_of_le_of_ne hle hne) hnodup

end Paging
