import Mathlib.Data.Finset.Card
import Mathlib.Data.Finset.Lattice.Basic
import Mathlib.Logic.Relation
import Mathlib.Tactic.Linarith

/-
Directed graphs given by a list of edges.

`reached edges a` is the set of nodes that some path from `a` ends in, by as many rounds of adding
successors as there are edges (`mem_reached`). A graph stays acyclic when the edges that leave one
node are replaced, if no new edge leads back to that node (`Acyclic.rewire`).
-/

namespace Digraph

open Relation

universe u

variable {α : Type u}

/-! ### Paths -/

/-- The relation of a list of edges. -/
def Edge (edges : List (α × α)) (a b : α) : Prop := (a, b) ∈ edges

section Reached

variable [DecidableEq α] {edges : List (α × α)} {s t : Finset α} {a b : α}

/-- The nodes one edge away. -/
def successors (edges : List (α × α)) (s : Finset α) : Finset α :=
  ((edges.filter (fun e => e.1 ∈ s)).map Prod.snd).toFinset

def spread (edges : List (α × α)) (s : Finset α) : Finset α := s ∪ successors edges s

/-- The nodes after a number of rounds. -/
def spreads (edges : List (α × α)) (a : α) : ℕ → Finset α
  | 0 => {a}
  | n + 1 => spread edges (spreads edges a n)

/-- The nodes that paths from `a` end in. -/
def reached (edges : List (α × α)) (a : α) : Finset α := spreads edges a edges.length

lemma mem_successors : b ∈ successors edges s ↔ ∃ a ∈ s, Edge edges a b := by
  simp only [successors, List.mem_toFinset, List.mem_map, List.mem_filter, decide_eq_true_eq, Edge]
  constructor
  · rintro ⟨⟨x, y⟩, ⟨he, hx⟩, rfl⟩
    exact ⟨x, hx, he⟩
  · rintro ⟨x, hx, he⟩
    exact ⟨(x, b), ⟨he, hx⟩, rfl⟩

lemma subset_spread : s ⊆ spread edges s := Finset.subset_union_left

lemma start_mem_spreads (n : ℕ) : a ∈ spreads edges a n := by
  induction n with
  | zero => exact Finset.mem_singleton_self a
  | succ n ih => exact subset_spread ih

/-- Only targets of edges are added. -/
lemma spreads_subset (n : ℕ) :
    spreads edges a n ⊆ insert a (edges.map Prod.snd).toFinset := by
  induction n with
  | zero => exact Finset.singleton_subset_iff.2 (Finset.mem_insert_self _ _)
  | succ n ih =>
    refine Finset.union_subset ih fun b hb => ?_
    obtain ⟨x, -, he⟩ := mem_successors.1 hb
    exact Finset.mem_insert_of_mem (List.mem_toFinset.2 (List.mem_map.2 ⟨(x, b), he, rfl⟩))

lemma card_spreads_le (n : ℕ) : (spreads edges a n).card ≤ edges.length + 1 := by
  refine (Finset.card_le_card (spreads_subset n)).trans ((Finset.card_insert_le _ _).trans ?_)
  have hcard := List.toFinset_card_le (edges.map Prod.snd)
  rw [List.length_map] at hcard
  exact Nat.succ_le_succ hcard

/-- Once a round adds nothing, no round does. -/
lemma spreads_stable {n m : ℕ} (h : spreads edges a (n + 1) = spreads edges a n) (hle : n ≤ m) :
    spreads edges a m = spreads edges a n := by
  induction m, hle using Nat.le_induction with
  | base => rfl
  | succ m _ ih => rw [spreads, ih, ← spreads, h]

/-- As long as every round adds something, there are more and more nodes. -/
lemma card_spreads_gt (n : ℕ) (h : ∀ m < n, spreads edges a (m + 1) ≠ spreads edges a m) :
    n < (spreads edges a n).card := by
  induction n with
  | zero => exact Finset.card_pos.2 ⟨a, start_mem_spreads 0⟩
  | succ n ih =>
    have hss : spreads edges a n ⊂ spreads edges a (n + 1) :=
      subset_spread.ssubset_of_ne (h n n.lt_succ_self).symm
    have hlt := Finset.card_lt_card hss
    have hn := ih fun m hm => h m (hm.trans n.lt_succ_self)
    omega

/-- The reached nodes are closed under edges. -/
lemma spread_reached : spread edges (reached edges a) = reached edges a := by
  obtain ⟨n, hn, hstable⟩ : ∃ n ≤ edges.length, spreads edges a (n + 1) = spreads edges a n := by
    by_contra hnone
    have hgt : edges.length + 1 < (spreads edges a (edges.length + 1)).card :=
      card_spreads_gt _ fun m hm heq => hnone ⟨m, Nat.lt_succ_iff.1 hm, heq⟩
    exact absurd (card_spreads_le (a := a) (edges.length + 1)) (not_le.2 hgt)
  have hreached : reached edges a = spreads edges a n := spreads_stable hstable hn
  rw [hreached, ← spreads, hstable]

/-- The reached nodes are the ends of paths. -/
theorem mem_reached : b ∈ reached edges a ↔ ReflTransGen (Edge edges) a b := by
  constructor
  · suffices h : ∀ n, ∀ b ∈ spreads edges a n, ReflTransGen (Edge edges) a b from h _ b
    intro n
    induction n with
    | zero =>
      intro b hb
      rw [Finset.mem_singleton.1 hb]
    | succ n ih =>
      intro b hb
      rcases Finset.mem_union.1 hb with hb | hb
      · exact ih b hb
      · obtain ⟨x, hx, he⟩ := mem_successors.1 hb
        exact (ih x hx).tail he
  · intro h
    induction h with
    | refl => exact start_mem_spreads _
    | tail _ he ih =>
      rw [← spread_reached]
      exact Finset.mem_union_right _ (mem_successors.2 ⟨_, ih, he⟩)

end Reached

/-! ### Cycles -/

/-- No path comes back to where it started. -/
def Acyclic (r : α → α → Prop) : Prop := ∀ a, ¬ TransGen r a a

section Acyclic

variable {r r' : α → α → Prop} {a b c : α}

/-- A path to a node needs no edge that leaves it. -/
lemma reflTransGen_to (hkept : ∀ x y, r' x y → x ≠ a → r x y) (h : ReflTransGen r' b a) :
    ReflTransGen r b a := by
  induction h using ReflTransGen.head_induction_on with
  | refl => exact .refl
  | @head x y he _ ih =>
    by_cases hx : x = a
    · exact hx ▸ .refl
    · exact .head (hkept x y he hx) ih

/-- A path either leaves a node on its way, or uses only edges that leave others. -/
lemma transGen_avoids (hkept : ∀ x y, r' x y → x ≠ a → r x y) (h : TransGen r' b c) :
    TransGen r b c ∨ ∃ y, r' a y ∧ ReflTransGen r' y c ∧ ReflTransGen r' b a := by
  induction h with
  | @single y he =>
    by_cases hb : b = a
    · exact .inr ⟨y, hb ▸ he, .refl, hb ▸ .refl⟩
    · exact .inl (.single (hkept b y he hb))
  | @tail x y hpath he ih =>
    by_cases hx : x = a
    · exact .inr ⟨y, hx ▸ he, .refl, hx ▸ hpath.to_reflTransGen⟩
    · rcases ih with hr | ⟨z, hz, hzx, hba⟩
      · exact .inl (hr.tail (hkept x y he hx))
      · exact .inr ⟨z, hz, hzx.tail he, hba⟩

/-- The edges that leave a node may be replaced by edges that do not lead back to it. -/
theorem Acyclic.rewire (h : Acyclic r) (hkept : ∀ x y, r' x y → x ≠ a → r x y)
    (hnew : ∀ y, r' a y → ¬ ReflTransGen r y a) : Acyclic r' := by
  intro x hcycle
  rcases transGen_avoids hkept hcycle with hr | ⟨y, hy, hyx, hxa⟩
  · exact h x hr
  · exact hnew y hy (reflTransGen_to hkept (hyx.trans hxa))

/-- A path either takes an edge that was added, or was there before. -/
lemma transGen_added {d : α} (hadded : ∀ x y, r' x y → r x y ∨ (x = a ∧ y = d))
    (h : TransGen r' b c) : TransGen r b c ∨ (ReflTransGen r' b a ∧ ReflTransGen r' d c) := by
  induction h with
  | @single y he =>
    rcases hadded b y he with hr | ⟨rfl, rfl⟩
    · exact .inl (.single hr)
    · exact .inr ⟨.refl, .refl⟩
  | @tail x y hpath he ih =>
    rcases ih with hr | ⟨hba, hdx⟩
    · rcases hadded x y he with hxy | ⟨rfl, rfl⟩
      · exact .inl (hr.tail hxy)
      · exact .inr ⟨hpath.to_reflTransGen, .refl⟩
    · exact .inr ⟨hba, hdx.tail he⟩

/-- An edge that does not lead back introduces no cycle. -/
theorem no_new_cycle {d : α} (hadded : ∀ x y, r' x y → r x y ∨ (x = a ∧ y = d))
    (hnew : ¬ ReflTransGen r d a) (hcycle : TransGen r' b b) : TransGen r b b := by
  rcases transGen_added hadded hcycle with hr | ⟨hba, hdb⟩
  · exact hr
  · refine absurd (reflTransGen_to (fun x y he hx => ?_) (hdb.trans hba)) hnew
    exact (hadded x y he).resolve_right fun h => hx h.1

/-- An edge of an acyclic graph does not lead back. -/
lemma Acyclic.not_back (h : Acyclic r) (he : r a b) : ¬ ReflTransGen r b a :=
  fun hback => h a (.head' he hback)

end Acyclic

end Digraph
