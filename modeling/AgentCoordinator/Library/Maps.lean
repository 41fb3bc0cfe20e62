import Mathlib.Data.Option.Basic
import Mathlib.Logic.Function.Basic

/-
Partial maps as functions, and the two updates the abstract models use.

`Function.update m k (some v)` sets one key; `alter m p f` rewrites every value that satisfies
`p`. `Related R m m'` says that two maps have the same keys with related values: what a rewrite
keeps of the values is a relation, and rewrites compose.
-/

namespace Maps

universe u v

variable {κ : Type u} {β : Type v}

/-! ### Rewriting values -/

/-- Rewrite by `f` every value of the map that satisfies `p`. -/
def alter (m : κ → Option β) (p : κ → β → Prop) [∀ k v, Decidable (p k v)] (f : β → β) :
    κ → Option β :=
  fun k => (m k).map fun v => if p k v then f v else v

section Alter

variable {m : κ → Option β} {p : κ → β → Prop} [∀ k v, Decidable (p k v)] {f : β → β} {k : κ}

lemma alter_eq_some {v : β} :
    alter m p f k = some v ↔ ∃ v₀, m k = some v₀ ∧ (if p k v₀ then f v₀ else v₀) = v :=
  Option.map_eq_some_iff

@[simp] lemma alter_eq_none : alter m p f k = none ↔ m k = none :=
  Option.map_eq_none_iff

/-- A value of the altered map is a rewritten one, or one that does not satisfy `p`. -/
lemma of_alter {v : β} (h : alter m p f k = some v) :
    (∃ v₀, m k = some v₀ ∧ p k v₀ ∧ v = f v₀) ∨ (m k = some v ∧ ¬ p k v) := by
  obtain ⟨v₀, hv₀, rfl⟩ := alter_eq_some.1 h
  by_cases hp : p k v₀
  · exact .inl ⟨v₀, hv₀, hp, if_pos hp⟩
  · simp only [if_neg hp]
    exact .inr ⟨hv₀, hp⟩

lemma alter_of_pos {v : β} (h : m k = some v) (hp : p k v) : alter m p f k = some (f v) :=
  alter_eq_some.2 ⟨v, h, if_pos hp⟩

lemma alter_of_neg {v : β} (h : m k = some v) (hp : ¬ p k v) : alter m p f k = some v :=
  alter_eq_some.2 ⟨v, h, if_neg hp⟩

/-- Rewriting by predicates that agree on the values of the map. -/
lemma alter_congr {q : κ → β → Prop} [∀ k v, Decidable (q k v)]
    (h : ∀ k v, m k = some v → (p k v ↔ q k v)) : alter m p f = alter m q f := by
  funext k
  unfold alter
  cases hk : m k with
  | none => rfl
  | some v => simp only [Option.map_some, h k v hk]

end Alter

/-! ### Setting one key -/

lemma update_eq_some [DecidableEq κ] {m : κ → Option β} {k k' : κ} {v v' : β} :
    Function.update m k (some v) k' = some v' ↔
      (k' = k ∧ v' = v) ∨ (k' ≠ k ∧ m k' = some v') := by
  by_cases h : k' = k
  · subst h
    simp [eq_comm]
  · simp [h]

/-- A new key leaves the old values alone. -/
lemma update_of_fresh [DecidableEq κ] {m : κ → Option β} {k k' : κ} {v v' : β}
    (hfresh : m k = none) (h : m k' = some v') :
    Function.update m k (some v) k' = some v' := by
  have hne : k' ≠ k := by
    rintro rfl
    simp [hfresh] at h
  rw [Function.update_of_ne hne, h]

/-! ### Maps with the same keys -/

/-- The two maps have the same keys, with related values. -/
structure Related (R : β → β → Prop) (m m' : κ → Option β) : Prop where
  old : ∀ k v', m' k = some v' → ∃ v, m k = some v ∧ R v v'
  new : ∀ k v, m k = some v → ∃ v', m' k = some v' ∧ R v v'

namespace Related

variable {R : β → β → Prop} {m m' m'' : κ → Option β}

lemma refl (hR : ∀ v, R v v) (m : κ → Option β) : Related R m m :=
  ⟨fun _ v h => ⟨v, h, hR v⟩, fun _ v h => ⟨v, h, hR v⟩⟩

lemma trans (hR : ∀ v v' v'', R v v' → R v' v'' → R v v'') (h : Related R m m')
    (h' : Related R m' m'') : Related R m m'' := by
  constructor
  · intro k v'' hv''
    obtain ⟨v', hv', h₂⟩ := h'.old k v'' hv''
    obtain ⟨v, hv, h₁⟩ := h.old k v' hv'
    exact ⟨v, hv, hR _ _ _ h₁ h₂⟩
  · intro k v hv
    obtain ⟨v', hv', h₁⟩ := h.new k v hv
    obtain ⟨v'', hv'', h₂⟩ := h'.new k v' hv'
    exact ⟨v'', hv'', hR _ _ _ h₁ h₂⟩

lemma symm {S : β → β → Prop} (hR : ∀ v v', R v v' → S v' v) (h : Related R m m') :
    Related S m' m where
  old k v hv := by
    obtain ⟨v', hv', hr⟩ := h.new k v hv
    exact ⟨v', hv', hR v v' hr⟩
  new k v' hv' := by
    obtain ⟨v, hv, hr⟩ := h.old k v' hv'
    exact ⟨v, hv, hR v v' hr⟩

/-- A rewrite relates the old map to the new one. -/
lemma alter {p : κ → β → Prop} [∀ k v, Decidable (p k v)] {f : β → β} (hR : ∀ v, R v v)
    (hf : ∀ v, R v (f v)) : Related R m (alter m p f) := by
  constructor
  · intro k v' h
    rcases of_alter h with ⟨v, hv, -, rfl⟩ | ⟨hv, -⟩
    · exact ⟨v, hv, hf v⟩
    · exact ⟨v', hv, hR v'⟩
  · intro k v h
    by_cases hp : p k v
    · exact ⟨f v, alter_of_pos h hp, hf v⟩
    · exact ⟨v, alter_of_neg h hp, hR v⟩

lemma eq_none (h : Related R m m') {k : κ} : m' k = none ↔ m k = none := by
  constructor
  · intro hk
    cases hv : m k with
    | none => rfl
    | some v =>
      obtain ⟨v', hv', -⟩ := h.new k v hv
      simp [hk] at hv'
  · intro hk
    cases hv : m' k with
    | none => rfl
    | some v' =>
      obtain ⟨v, hv, -⟩ := h.old k v' hv
      simp [hk] at hv

end Related

end Maps
