import AgentCoordinator.Library.Guarded

/-
What a computation may refuse with.

`RefusesWith P x` says that `x` is refused, if it is, with an error that satisfies `P`. It is
checked guard by guard, so a handler is searched for an error without running it.
-/

namespace Guarded

universe u v w

variable {ε : Type u} {α : Type v} {β : Type v} {P Q : ε → Prop}

/-- All refusals satisfy `P`. -/
def RefusesWith (P : ε → Prop) (x : Except ε α) : Prop := ∀ e, x = .error e → P e

lemma refusesWith_ok {a : α} : RefusesWith P (.ok a : Except ε α) := fun _ h => nomatch h

lemma refusesWith_pure {a : α} : RefusesWith P (pure a : Except ε α) := refusesWith_ok

lemma refusesWith_error {e : ε} (h : P e) : RefusesWith P (.error e : Except ε α) := by
  rintro _ ⟨⟩
  exact h

lemma refusesWith_refuseIf {p : Prop} [Decidable p] {e : ε} (h : p → P e) :
    RefusesWith P (refuseIf p e : Except ε PUnit.{v + 1}) := by
  intro e' he
  obtain ⟨hp, rfl⟩ := refuseIf_eq_error.1 he
  exact h hp

lemma refusesWith_okOr {o : Option α} {e : ε} (h : P e) : RefusesWith P (okOr o e) := by
  intro e' he
  obtain ⟨-, rfl⟩ := okOr_eq_error.1 he
  exact h

lemma RefusesWith.bind {x : Except ε α} {f : α → Except ε β} (hx : RefusesWith P x)
    (hf : ∀ a, x = .ok a → RefusesWith P (f a)) : RefusesWith P (x >>= f) := by
  intro e he
  rcases bind_eq_error.1 he with he | ⟨a, ha, he⟩
  · exact hx e he
  · exact hf a ha e he

lemma RefusesWith.mono {x : Except ε α} (h : RefusesWith P x) (hPQ : ∀ e, P e → Q e) :
    RefusesWith Q x :=
  fun e he => hPQ e (h e he)

end Guarded
