import AgentCoordinator.Library.Maps
import AgentCoordinator.Library.Table

/-
A keyed table seen as a map of shorter rows.

`t.project π` answers a key with what `π` keeps of its row. Every write of a table is a write of
the map: an update that `π` sees is `alter`, an insert is `Function.update`, and an update that
`π` does not see leaves the map alone.
-/

namespace Tabular

namespace Table

open Maps

universe u v w

variable {α : Type u} {κ : Type v} {β : Type w} [Keyed α κ] [DecidableEq κ]

/-- The rows of the table under `π`, by key. -/
def project (t : Table α) (π : α → β) : κ → Option β := fun k => (t.get? k).map π

variable {t t' : Table α} {π : α → β} {p : α → Prop} [DecidablePred p] {f : α → α}
  {hf : ∀ r, Keyed.key (f r) = Keyed.key r}

lemma project_eq_some {k : κ} {b : β} :
    t.project π k = some b ↔ ∃ r, t.get? k = some r ∧ π r = b := Option.map_eq_some_iff

lemma project_of_get? {k : κ} {r : α} (h : t.get? k = some r) : t.project π k = some (π r) := by
  rw [project, h, Option.map_some]

@[simp] lemma project_eq_none {k : κ} : t.project π k = none ↔ t.get? k = none :=
  Option.map_eq_none_iff

/-- An update of the rows is a rewrite of the map. -/
lemma project_modify {q : κ → β → Prop} [∀ k b, Decidable (q k b)] {g : β → β}
    (hp : ∀ r, r ∈ t → (p r ↔ q (Keyed.key r) (π r))) (hg : ∀ r, r ∈ t → p r → π (f r) = g (π r)) :
    (t.modify p f hf).project π = alter (t.project π) q g := by
  funext k
  simp only [project, alter, get?_modify]
  cases h : t.get? k with
  | none => rfl
  | some r =>
    have hr := mem_of_get? h
    have hiff := hp r hr
    rw [key_of_get? h] at hiff
    simp only [Option.map_some]
    by_cases hpr : p r
    · rw [if_pos hpr, if_pos (hiff.1 hpr), hg r hr hpr]
    · rw [if_neg hpr, if_neg fun hq => hpr (hiff.2 hq)]

/-- An update that `π` does not see. -/
lemma project_modify_of_same (hg : ∀ r, r ∈ t → p r → π (f r) = π r) :
    (t.modify p f hf).project π = t.project π := by
  funext k
  unfold project
  rw [get?_modify]
  cases h : t.get? k with
  | none => rfl
  | some r =>
    simp only [Option.map_some]
    by_cases hpr : p r
    · rw [if_pos hpr, hg r (mem_of_get? h) hpr]
    · rw [if_neg hpr]

/-- An update relates the old rows to the new ones. -/
lemma related_modify {R : α → α → Prop} (hR : ∀ r, R r r) (h : ∀ r, r ∈ t → p r → R r (f r)) :
    Related R t.get? (t.modify p f hf).get? := by
  constructor
  · intro k r' hr'
    rw [get?_modify] at hr'
    obtain ⟨r, hr, rfl⟩ := Option.map_eq_some_iff.1 hr'
    refine ⟨r, hr, ?_⟩
    by_cases hp : p r
    · rw [if_pos hp]
      exact h r (mem_of_get? hr) hp
    · rw [if_neg hp]
      exact hR r
  · intro k r hr
    refine ⟨_, by rw [get?_modify, hr]; rfl, ?_⟩
    by_cases hp : p r
    · simp only [if_pos hp]
      exact h r (mem_of_get? hr) hp
    · simp only [if_neg hp]
      exact hR r

lemma project_insert? (π : α → β) {r : α} (h : t.insert? r = some t') :
    t.project π (Keyed.key r) = none ∧
      t'.project π = Function.update (t.project π) (Keyed.key r) (some (π r)) := by
  obtain ⟨hfree, hget⟩ := insert?_eq_some h
  refine ⟨project_eq_none.2 hfree, funext fun k => ?_⟩
  unfold project
  rw [hget]
  by_cases hk : k = Keyed.key r
  · subst hk
    simp
  · rw [if_neg hk, Function.update_of_ne hk]

lemma project_put (t : Table α) (r : α) :
    (t.put r).project π = Function.update (t.project π) (Keyed.key r) (some (π r)) := by
  funext k
  unfold project
  rw [get?_put]
  by_cases hk : k = Keyed.key r
  · subst hk
    simp
  · rw [if_neg hk, Function.update_of_ne hk]

end Table

namespace Table

universe u w

variable {α : Type u} {β : Type w} [Keyed α Nat] {π : α → β}

@[simp] lemma project_fresh (t : Table α) : t.project π t.fresh = none :=
  project_eq_none.2 t.get?_fresh

lemma project_create (t : Table α) (mk : Nat → α) (hmk : ∀ k, Keyed.key (mk k) = k) :
    (t.create mk hmk).project π = Function.update (t.project π) t.fresh (some (π (mk t.fresh))) := by
  funext k
  unfold project
  rw [get?_create]
  by_cases hk : k = t.fresh
  · subst hk
    simp
  · rw [if_neg hk, Function.update_of_ne hk]

end Table

end Tabular
