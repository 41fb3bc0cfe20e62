import Mathlib.Data.Finset.Card
import Mathlib.Data.List.Dedup

/-
Queues served in batches.

Every round looks at the first `n` entries of a sorted queue, serves those it can and leaves the
others where they are. An entry that cannot be served keeps its place, so it takes one of the `n`
places in every round. Whether the rounds ever reach an entry is a matter of counting those: they
do exactly when fewer than `n` entries before it cannot be served (`Rounds.reached_iff`).
-/

namespace Batches

universe u

variable {α : Type u} {r : α → α → Prop} [DecidableRel r] {l : List α} {n : Nat} {x : α}

/-- The first `n` entries of a sorted list are those with fewer than `n` entries before them. -/
theorem mem_take_iff (hasymm : ∀ a b, r a b → ¬ r b a) (hl : l.Pairwise r) (hx : x ∈ l) :
    x ∈ l.take n ↔ l.countP (fun y => r y x) < n := by
  induction l generalizing n with
  | nil => exact absurd hx List.not_mem_nil
  | cons a l ih =>
    obtain ⟨ha, hl⟩ := List.pairwise_cons.1 hl
    rw [List.countP_cons]
    by_cases hxl : x ∈ l
    · have hax : r a x := ha x hxl
      have hne : x ≠ a := by
        rintro rfl
        exact hasymm x x hax hax
      cases n with
      | zero => simp
      | succ n => simp [hne, hax, ih hl hxl]
    · -- the entry is the head, and nothing is before it
      obtain rfl : x = a := (List.mem_cons.1 hx).resolve_right hxl
      have hzero : l.countP (fun y => r y x) = 0 := by
        rw [List.countP_eq_zero]
        intro y hy
        simpa using hasymm x y (ha y hy)
      have hself : ¬ r x x := fun h => hasymm x x h h
      cases n with
      | zero => simp
      | succ n => simp [hzero, hself]

omit [DecidableRel r] in
/-- An entry past the first `n` comes after all of them. -/
lemma before_of_mem_take (hl : l.Pairwise r) (hx : x ∈ l) (hout : x ∉ l.take n) {y : α}
    (hy : y ∈ l.take n) : r y x := by
  rw [← List.take_append_drop n l] at hl hx
  have hdrop := (List.mem_append.1 hx).resolve_left hout
  exact (List.pairwise_append.1 hl).2.2 y hy x hdrop

omit [DecidableRel r] in
/-- Lists without repetitions that agree on the entries with a property have equally many. -/
lemma countP_congr {l l' : List α} (hl : l.Nodup) (hl' : l'.Nodup) {p : α → Prop}
    [DecidablePred p] (h : ∀ y, p y → (y ∈ l ↔ y ∈ l')) :
    l.countP (fun y => p y) = l'.countP (fun y => p y) := by
  rw [List.countP_eq_length_filter, List.countP_eq_length_filter]
  refine ((List.perm_ext_iff_of_nodup (hl.filter _) (hl'.filter _)).2 fun y => ?_).length_eq
  simp only [List.mem_filter, decide_eq_true_eq]
  exact and_congr_left (h y)

variable {ok : α → Prop} [DecidablePred ok] {q : Nat → List α}

/-- A run of rounds over the queue `q`, as far as it concerns the entry `x`: each round serves the
entries among the first `n` that are `ok`, and no entry ever gets in before `x`. -/
structure Rounds (r : α → α → Prop) (n : Nat) (ok : α → Prop) (x : α) (q : Nat → List α) :
    Prop where
  sorted : ∀ k, (q k).Pairwise r
  start : x ∈ q 0
  stays : ∀ k, x ∈ q k → x ∉ (q k).take n → x ∈ q (k + 1)
  before : ∀ k y, r y x → (y ∈ q (k + 1) ↔ y ∈ q k ∧ ¬ (y ∈ (q k).take n ∧ ok y))

namespace Rounds

omit [DecidableRel r] [DecidablePred ok] in
lemma nodup (hasymm : ∀ a b, r a b → ¬ r b a) (h : Rounds r n ok x q) (k : Nat) :
    (q k).Nodup :=
  (h.sorted k).imp fun {a b} hab => by
    rintro rfl
    exact hasymm a a hab hab

omit [DecidableRel r] [DecidablePred ok] in
/-- The entries before `x` that cannot be served are always the same. -/
lemma mem_stuck_iff (h : Rounds r n ok x q) (k : Nat) (y : α) (hyx : r y x) (hy : ¬ ok y) :
    y ∈ q k ↔ y ∈ q 0 := by
  induction k with
  | zero => exact Iff.rfl
  | succ k ih =>
    rw [h.before k y hyx, ih]
    exact and_iff_left fun hserved => hy hserved.2

lemma countP_stuck (hasymm : ∀ a b, r a b → ¬ r b a) (h : Rounds r n ok x q) (k : Nat) :
    (q k).countP (fun y => r y x ∧ ¬ ok y) = (q 0).countP (fun y => r y x ∧ ¬ ok y) :=
  countP_congr (h.nodup hasymm k) (h.nodup hasymm 0) fun y hy => h.mem_stuck_iff k y hy.1 hy.2

/-- A round that does not reach `x` serves an entry before it, when fewer than `n` of these cannot
be served. -/
lemma exists_served (hasymm : ∀ a b, r a b → ¬ r b a) (h : Rounds r n ok x q) {k : Nat}
    (hx : x ∈ q k) (hout : x ∉ (q k).take n)
    (hfew : (q 0).countP (fun y => r y x ∧ ¬ ok y) < n) :
    ∃ y ∈ (q k).take n, ok y ∧ r y x := by
  by_contra hnone
  push Not at hnone
  have hbefore : ∀ y ∈ (q k).take n, r y x := fun y hy =>
    before_of_mem_take (h.sorted k) hx hout hy
  -- then all `n` places are taken by entries that cannot be served
  have hfull : n ≤ (q k).length := by
    have hle := (not_lt.1 (mt (mem_take_iff hasymm (h.sorted k) hx).2 hout)).trans
      List.countP_le_length
    exact hle
  have hall : ((q k).take n).countP (fun y => r y x ∧ ¬ ok y) = n := by
    rw [List.countP_eq_length.2 fun y hy => ?_, List.length_take, Nat.min_eq_left hfull]
    simp only [decide_eq_true_eq]
    exact ⟨hbefore y hy, fun hok => hnone y hy hok (hbefore y hy)⟩
  have hle := (List.take_sublist n (q k)).countP_le (p := fun y => decide (r y x ∧ ¬ ok y))
  rw [hall, h.countP_stuck hasymm k] at hle
  omega

/-- The rounds reach `x` exactly when fewer than `n` entries before it cannot be served. -/
theorem reached_iff [DecidableEq α] (hasymm : ∀ a b, r a b → ¬ r b a) (h : Rounds r n ok x q) :
    (∃ k, x ∈ (q k).take n) ↔ (q 0).countP (fun y => r y x ∧ ¬ ok y) < n := by
  constructor
  · rintro ⟨k, hk⟩
    have hlt := (mem_take_iff hasymm (h.sorted k) (List.mem_of_mem_take hk)).1 hk
    rw [← h.countP_stuck hasymm k]
    refine lt_of_le_of_lt (List.countP_mono_left fun y _ hy => ?_) hlt
    simp only [decide_eq_true_eq] at hy ⊢
    exact hy.1
  · intro hfew
    -- by induction on the entries before `x` that are still to be served
    suffices hmain : ∀ m k, x ∈ q k →
        (((q k).toFinset.filter fun y => r y x ∧ ok y).card ≤ m) → ∃ k, x ∈ (q k).take n from
      hmain _ 0 h.start le_rfl
    intro m
    induction m with
    | zero =>
      intro k hk hcard
      by_contra hnot
      push Not at hnot
      obtain ⟨y, hy, hok, hyx⟩ := h.exists_served hasymm hk (hnot k) hfew
      have hmem : y ∈ (q k).toFinset.filter fun y => r y x ∧ ok y := by
        simpa using ⟨List.mem_of_mem_take hy, hyx, hok⟩
      have hpos := Finset.card_pos.2 ⟨y, hmem⟩
      omega
    | succ m ih =>
      intro k hk hcard
      by_cases hin : x ∈ (q k).take n
      · exact ⟨k, hin⟩
      · obtain ⟨y, hy, hok, hyx⟩ := h.exists_served hasymm hk hin hfew
        refine ih (k + 1) (h.stays k hk hin) (Nat.le_of_lt_succ (lt_of_lt_of_le ?_ hcard))
        refine Finset.card_lt_card ((Finset.ssubset_iff_of_subset fun z hz => ?_).2 ⟨y, ?_, ?_⟩)
        · simp only [Finset.mem_filter, List.mem_toFinset] at hz ⊢
          exact ⟨((h.before k z hz.2.1).1 hz.1).1, hz.2⟩
        · simpa using ⟨List.mem_of_mem_take hy, hyx, hok⟩
        · simp only [Finset.mem_filter, List.mem_toFinset, not_and]
          exact fun hnext => absurd ⟨hy, hok⟩ ((h.before k y hyx).1 hnext).2

end Rounds

end Batches
