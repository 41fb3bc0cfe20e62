import Mathlib.Logic.Relation

/-
Runs of a transition system whose steps satisfy a side condition.

`step s i s'` is one transition from `s` to `s'` under the input `i`. A run may be restricted to
steps that satisfy a condition `ok s i` on the state before the step and the input; with the
condition `fun _ _ => True` every run is meant. What one step preserves, a whole run preserves
(`Run.invariant`), and a reflexive and transitive relation that every step respects relates the
two ends of a run (`Run.related`).
-/

namespace Transition

universe u v

variable {σ : Type u} {ι : Type v}

/-- A run from one state to another, all of whose steps satisfy `ok`. -/
inductive Run (step : σ → ι → σ → Prop) (ok : σ → ι → Prop) : σ → σ → Prop
  | refl (s : σ) : Run step ok s s
  | tail {s s' s'' : σ} {i : ι} :
      Run step ok s s' → ok s' i → step s' i s'' → Run step ok s s''

namespace Run

variable {step : σ → ι → σ → Prop} {ok ok' : σ → ι → Prop} {s s' s'' : σ}

lemma single {i : ι} (hok : ok s i) (h : step s i s') : Run step ok s s' :=
  .tail (.refl s) hok h

lemma trans (h : Run step ok s s') (h' : Run step ok s' s'') : Run step ok s s'' := by
  induction h' with
  | refl => exact h
  | tail _ hok hstep ih => exact .tail ih hok hstep

/-- A run under a condition is a run under every weaker one. -/
lemma mono (hmono : ∀ s i, ok s i → ok' s i) (h : Run step ok s s') : Run step ok' s s' := by
  induction h with
  | refl => exact .refl _
  | tail _ hok hstep ih => exact .tail ih (hmono _ _ hok) hstep

/-- An invariant of the steps is an invariant of the runs. -/
theorem invariant {I : σ → Prop} (hstep : ∀ s i s', I s → ok s i → step s i s' → I s')
    (h : Run step ok s s') (hs : I s) : I s' := by
  induction h with
  | refl => exact hs
  | tail _ hok hstep' ih => exact hstep _ _ _ ih hok hstep'

/-- A preorder that the steps out of the states of an invariant respect relates the ends of a
run. -/
theorem related {I : σ → Prop} {R : σ → σ → Prop} (hrefl : ∀ s, R s s)
    (htrans : ∀ s s' s'', R s s' → R s' s'' → R s s'')
    (hinv : ∀ s i s', I s → ok s i → step s i s' → I s')
    (hstep : ∀ s i s', I s → ok s i → step s i s' → R s s')
    (h : Run step ok s s') (hs : I s) : R s s' := by
  have hboth : I s' ∧ R s s' := by
    induction h with
    | refl => exact ⟨hs, hrefl _⟩
    | tail _ hok hstep' ih =>
      exact ⟨hinv _ _ _ ih.1 hok hstep', htrans _ _ _ ih.2 (hstep _ _ _ ih.1 hok hstep')⟩
  exact hboth.2

end Run

/-! ### Step functions -/

section Follow

variable {f : σ → ι → Option σ} {ok : σ → ι → Prop} [∀ s i, Decidable (ok s i)] {s s' : σ}

/-- The state after a list of inputs that satisfy `ok`, under a step function. -/
def follow (f : σ → ι → Option σ) (ok : σ → ι → Prop) [∀ s i, Decidable (ok s i)] (s : σ) :
    List ι → Option σ
  | [] => some s
  | i :: is => if ok s i then (f s i).bind fun s => follow f ok s is else none

/-- A list of inputs that can be followed is a run. -/
theorem run_of_follow {l : List ι} (h : follow f ok s l = some s') :
    Run (fun s i s' => f s i = some s') ok s s' := by
  induction l generalizing s with
  | nil =>
    obtain rfl := Option.some.inj h
    exact .refl s
  | cons i is ih =>
    simp only [follow, Option.ite_none_right_eq_some, Option.bind_eq_some_iff] at h
    obtain ⟨hok, s₁, hf, hrest⟩ := h
    have hstep : Run (fun s i s' => f s i = some s') ok s s₁ := .single hok hf
    exact hstep.trans (ih hrest)

end Follow

end Transition
