import AgentCoordinator.Library.Transition

/-
Programs that crash.

A program works in stages on a state that outlives it and that it shares with others. A step is
one operation of the program, a crash (which loses the stage, and of the state what was not yet
durable), or a step of the others. An annotation gives each stage an assertion about the state, as
in a proof outline of a concurrent program: `Annotated` says that the operations lead from
assertion to assertion and that the others disturb none. The stage after a crash asserts nothing
beyond the invariant, so the program may crash anywhere. Runs may be restricted to steps that
satisfy a condition.
-/

namespace Crash

open Transition

universe u v w

variable {δ : Type u} {σ : Type v} {ω : Type w}

/-- A program: its operations, each with an outcome, what a crash does to the state, and what the
others do. -/
structure Program (δ : Type u) (σ : Type v) (ω : Type w) where
  /-- The stage after a crash. -/
  rest : σ
  work : δ → σ → ω → δ → σ → Prop
  crash : δ → δ → Prop
  others : δ → δ → Prop

/-- What happens in one step. -/
inductive Event (ω : Type w)
  | work (outcome : ω)
  | crash
  | others

namespace Program

/-- One step of a program among others. -/
inductive Step (P : Program δ σ ω) : δ × σ → Event ω → δ × σ → Prop
  | work {d d' : δ} {s s' : σ} {outcome : ω} (h : P.work d s outcome d' s') :
      Step P (d, s) (.work outcome) (d', s')
  | crash {d d' : δ} {s : σ} (h : P.crash d d') : Step P (d, s) .crash (d', P.rest)
  | others {d d' : δ} {s : σ} (h : P.others d d') : Step P (d, s) .others (d', s)

/-- The states that runs from the given states reach, when all their steps satisfy `ok`. -/
def ReachableBy (P : Program δ σ ω) (ok : δ × σ → Event ω → Prop) (initial : δ → Prop)
    (x : δ × σ) : Prop :=
  ∃ d, initial d ∧ Run P.Step ok (d, P.rest) x

/-- The states that any run from the given states reaches. -/
def Reachable (P : Program δ σ ω) (initial : δ → Prop) (x : δ × σ) : Prop :=
  P.ReachableBy (fun _ _ => True) initial x

/-- The invariant `I` and the assertions `A` are those of a proof outline, for steps that satisfy
`ok`. -/
structure Annotated (P : Program δ σ ω) (ok : δ × σ → Event ω → Prop) (I : δ → Prop)
    (A : σ → δ → Prop) : Prop where
  rest : ∀ d, I d → A P.rest d
  work : ∀ d s outcome d' s', I d → A s d → ok (d, s) (.work outcome) →
    P.work d s outcome d' s' → I d' ∧ A s' d'
  crash : ∀ d s d', I d → A s d → ok (d, s) .crash → P.crash d d' → I d'
  others : ∀ d d', I d → P.others d d' → I d' ∧ ∀ s, A s d → A s d'

/-- The assertions `A` describe the stages of a program, for steps that satisfy `ok`. -/
structure Stages (P : Program δ σ ω) (ok : δ × σ → Event ω → Prop) (A : σ → δ → Prop) : Prop where
  work : ∀ d s outcome d' s', A s d → ok (d, s) (.work outcome) → P.work d s outcome d' s' → A s' d'
  crash : ∀ d s d', A s d → ok (d, s) .crash → P.crash d d' → A P.rest d'
  others : ∀ d d', P.others d d' → ∀ s, A s d → A s d'

section Runs

variable {P : Program δ σ ω} {ok : δ × σ → Event ω → Prop} {I : δ → Prop} {A : σ → δ → Prop}
  {initial : δ → Prop} {x x' : δ × σ} {e : Event ω}

/-- What the assertions say is kept by every step. -/
theorem Stages.step (h : P.Stages ok A) (hA : A x.2 x.1) (hok : ok x e) (hstep : P.Step x e x') :
    A x'.2 x'.1 := by
  cases hstep with
  | work hwork => exact h.work _ _ _ _ _ hA hok hwork
  | crash hcrash => exact h.crash _ _ _ hA hok hcrash
  | others hothers => exact h.others _ _ hothers _ hA

/-- The assertion of the stage holds in every reachable state. -/
theorem Stages.reachable (h : P.Stages ok A) (hinit : ∀ d, initial d → A P.rest d)
    (hx : P.ReachableBy ok initial x) : A x.2 x.1 := by
  obtain ⟨d, hd, hrun⟩ := hx
  refine hrun.invariant (I := fun x => A x.2 x.1) ?_ (hinit d hd)
  exact fun x e x' hA hok hstep => h.step hA hok hstep

lemma Annotated.stages (h : P.Annotated ok I A) : P.Stages ok fun s d => I d ∧ A s d where
  work d s outcome d' s' hboth hok hwork := h.work _ _ _ _ _ hboth.1 hboth.2 hok hwork
  crash d s d' hboth hok hcrash := by
    have hI' := h.crash _ _ _ hboth.1 hboth.2 hok hcrash
    exact ⟨hI', h.rest _ hI'⟩
  others d d' hothers s hboth := by
    obtain ⟨hI', hA'⟩ := h.others _ _ hboth.1 hothers
    exact ⟨hI', hA' _ hboth.2⟩

/-- The invariant and the assertion of the stage hold in every reachable state. -/
theorem Annotated.reachable (h : P.Annotated ok I A) (hinit : ∀ d, initial d → I d)
    (hx : P.ReachableBy ok initial x) : I x.1 ∧ A x.2 x.1 :=
  h.stages.reachable (fun d hd => ⟨hinit d hd, h.rest d (hinit d hd)⟩) hx

lemma ReachableBy.step (h : P.ReachableBy ok initial x) (hstep : P.Step x e x') (hok : ok x e) :
    P.ReachableBy ok initial x' := by
  obtain ⟨d, hd, hrun⟩ := h
  exact ⟨d, hd, hrun.tail hok hstep⟩

/-- What is reached under a condition is reached. -/
lemma ReachableBy.reachable (h : P.ReachableBy ok initial x) : P.Reachable initial x := by
  obtain ⟨d, hd, hrun⟩ := h
  exact ⟨d, hd, hrun.mono fun _ _ _ => trivial⟩

lemma ReachableBy.start {d : δ} (h : initial d) : P.ReachableBy ok initial (d, P.rest) :=
  ⟨d, h, .refl _⟩

end Runs

end Program

end Crash
