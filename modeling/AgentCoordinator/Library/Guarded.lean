import Mathlib.Logic.Basic

/-
Computations that may refuse.

A request handler reads, checks, and refuses at the first check that fails. Here such a handler is
a value of `Except ε`: `refuseIf p e` is the early return, `okOr o e` the missing row. The simp
lemmas invert a whole handler at once: a `do` block of guards that ends in `.ok b` is the
conjunction of what its guards let through.
-/

namespace Guarded

universe u v w

variable {ε : Type u} {α : Type v} {β : Type v}

/-- Refuse with `e` when `p` holds. -/
def refuseIf (p : Prop) [Decidable p] (e : ε) : Except ε PUnit.{v + 1} :=
  if p then .error e else .ok ⟨⟩

/-- The value of `o`, or a refusal with `e` when there is none. -/
def okOr (o : Option α) (e : ε) : Except ε α :=
  match o with
  | some a => .ok a
  | none => .error e

@[simp] lemma refuseIf_eq_ok {p : Prop} [Decidable p] {e : ε} {u : PUnit.{v + 1}} :
    refuseIf p e = .ok u ↔ ¬ p := by
  unfold refuseIf
  by_cases hp : p <;> simp [hp]

@[simp] lemma okOr_eq_ok {o : Option α} {e : ε} {a : α} : okOr o e = .ok a ↔ o = some a := by
  cases o <;> simp [okOr]

lemma bind_eq_ok {x : Except ε α} {f : α → Except ε β} {b : β} :
    (x >>= f) = .ok b ↔ ∃ a, x = .ok a ∧ f a = .ok b := by
  cases x <;> simp [bind, Except.bind]

/-- An early return. -/
lemma refuseIf_bind {p : Prop} [Decidable p] {e : ε} {f : PUnit → Except ε α} :
    (refuseIf p e >>= f) = if p then .error e else f ⟨⟩ := by
  by_cases hp : p <;> simp [refuseIf, hp, bind, Except.bind]

lemma pure_eq_ok {a b : α} : (pure a : Except ε α) = .ok b ↔ a = b := by
  simp [pure, Except.pure]

lemma throw_eq_ok {e : ε} {b : α} : (throw e : Except ε α) = .ok b ↔ False := by
  simp [throw, throwThe, MonadExceptOf.throw]

/-- A conditional guard: the branch not taken lets everything through. -/
lemma ite_eq_ok {p : Prop} [Decidable p] {x y : Except ε α} {b : α} :
    (if p then x else y) = .ok b ↔ (p ∧ x = .ok b) ∨ (¬ p ∧ y = .ok b) := by
  by_cases hp : p <;> simp [hp]

/-! ### Refusals -/

@[simp] lemma refuseIf_eq_error {p : Prop} [Decidable p] {e e' : ε} :
    (refuseIf p e : Except ε PUnit.{v + 1}) = .error e' ↔ p ∧ e = e' := by
  unfold refuseIf
  by_cases hp : p <;> simp [hp]

@[simp] lemma okOr_eq_error {o : Option α} {e e' : ε} :
    okOr o e = .error e' ↔ o = none ∧ e = e' := by
  cases o <;> simp [okOr]

lemma bind_eq_error {x : Except ε α} {f : α → Except ε β} {e : ε} :
    (x >>= f) = .error e ↔ x = .error e ∨ ∃ a, x = .ok a ∧ f a = .error e := by
  cases x <;> simp [bind, Except.bind]

lemma pure_eq_error {a : α} {e : ε} : (pure a : Except ε α) = .error e ↔ False := by
  simp [pure, Except.pure]

/-- What each step of a fold keeps, about the elements done, holds at the end of all of them. -/
lemma foldlM_induction {γ : Type w} {f : β → γ → Except ε β} {P : List γ → β → Prop} {b b' : β}
    {l : List γ} (h : l.foldlM f b = .ok b') (start : P [] b)
    (step : ∀ done x b₁ b₂, P done b₁ → f b₁ x = .ok b₂ → P (done ++ [x]) b₂) : P l b' := by
  suffices hrun : ∀ done b, P done b → l.foldlM f b = .ok b' → P (done ++ l) b' from
    hrun [] b start h
  clear h start
  induction l with
  | nil =>
    intro done b hdone h
    obtain rfl := pure_eq_ok.1 h
    rwa [List.append_nil]
  | cons x l ih =>
    intro done b hdone h
    rw [List.foldlM_cons, bind_eq_ok] at h
    obtain ⟨b₁, hx, hl⟩ := h
    have hrun := ih (done ++ [x]) b₁ (step done x b b₁ hdone hx) hl
    rwa [List.append_assoc, List.singleton_append] at hrun

lemma toOption_eq_some {x : Except ε α} {a : α} : x.toOption = some a ↔ x = .ok a := by
  cases x <;> simp [Except.toOption]

end Guarded
