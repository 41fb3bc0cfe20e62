import Mathlib.Data.List.Induction
import AgentCoordinator.Library.Procedure

/-
Monitors of the calls that a procedure makes.

A monitor reads the calls of a procedure with their answers, one after the other, and keeps what it
needs to know of them. It says which answers may be expected, and which calls are allowed. A
procedure obeys a monitor when each of its calls is allowed as long as all answers were as expected;
what it returns may be related to what the monitor knows then. This is shown by going through the
procedure once (`Obeys.call`, `Obeys.bind`), and holds of every sequence of calls it makes
(`Obeys.trace`).
-/

namespace Procedure

variable {E : Interface} {ε α β μ : Type}

/-! ### Traces -/

/-- The calls that a procedure makes from somewhere on, and where they lead. -/
inductive Proc.Trace : Proc E ε α → List (Called E) → Proc E ε α → Prop
  | nil (p : Proc E ε α) : Trace p [] p
  | cons {op : E.Op} {next : E.Answer op → Proc E ε α} {answer : E.Answer op}
      {calls : List (Called E)} {q : Proc E ε α} (h : Trace (next answer) calls q) :
      Trace (.call op next) (⟨op, answer⟩ :: calls) q

/-! ### Monitors -/

/-- What is kept of the calls so far, which answers are expected, and which calls are allowed. -/
structure Monitor (E : Interface) (μ : Type) where
  step : μ → Called E → μ
  expects : μ → Called E → Prop
  allows : μ → Called E → Prop

namespace Monitor

variable (N : Monitor E μ)

/-- What is kept after some calls. -/
def after (m : μ) (calls : List (Called E)) : μ := calls.foldl N.step m

/-- Each call is in `P` with what is kept of those before it. -/
def Throughout (P : μ → Called E → Prop) (m : μ) : List (Called E) → Prop
  | [] => True
  | c :: calls => P m c ∧ Throughout P (N.step m c) calls

variable {N} {P : μ → Called E → Prop} {m : μ}

/-- Each call, with the calls before it. -/
lemma throughout_iff {calls : List (Called E)} : N.Throughout P m calls ↔
    ∀ before c behind, calls = before ++ c :: behind → P (N.after m before) c := by
  induction calls generalizing m with
  | nil => simp [Throughout]
  | cons c calls ih =>
    rw [Throughout, ih]
    constructor
    · rintro ⟨hc, hcalls⟩ before c' behind heq
      cases before with
      | nil =>
        obtain ⟨rfl, -⟩ := List.cons.inj heq
        exact hc
      | cons b before =>
        obtain ⟨rfl, hrest⟩ := List.cons.inj heq
        exact hcalls before c' behind hrest
    · intro h
      refine ⟨h [] c calls rfl, fun before c' behind heq => h (c :: before) c' behind ?_⟩
      rw [heq]
      rfl

end Monitor

/-! ### Obeying a monitor -/

/-- From a state of the monitor on, each call is allowed if the answers are as expected, and what is
returned satisfies `Q`. -/
def Proc.Obeys (N : Monitor E μ) (Q : μ → Except ε α → Prop) : Proc E ε α → μ → Prop
  | .pure a, m => Q m (.ok a)
  | .throw e, m => Q m (.error e)
  | .call op next, m => ∀ answer, N.expects m ⟨op, answer⟩ →
      N.allows m ⟨op, answer⟩ ∧ (next answer).Obeys N Q (N.step m ⟨op, answer⟩)

namespace Proc

variable {N : Monitor E μ} {Q : μ → Except ε α → Prop} {m : μ} {p : Proc E ε α}

lemma Obeys.mono {Q' : μ → Except ε α → Prop} (h : p.Obeys N Q m)
    (hQ : ∀ m r, Q m r → Q' m r) : p.Obeys N Q' m := by
  induction p generalizing m with
  | pure a => exact hQ _ _ h
  | throw e => exact hQ _ _ h
  | call op next ih =>
    intro answer hexpected
    obtain ⟨hallowed, hnext⟩ := h answer hexpected
    exact ⟨hallowed, ih answer hnext⟩

/-- Sequencing. -/
lemma Obeys.bind {R : μ → Except ε β → Prop} {f : α → Proc E ε β} (h : p.Obeys N Q m)
    (hf : ∀ m a, Q m (.ok a) → (f a).Obeys N R m)
    (herror : ∀ m e, Q m (.error e) → R m (.error e)) : (p >>= f).Obeys N R m := by
  induction p generalizing m with
  | pure a => exact hf _ _ h
  | throw e => exact herror _ _ h
  | call op next ih =>
    intro answer hexpected
    obtain ⟨hallowed, hnext⟩ := h answer hexpected
    exact ⟨hallowed, ih answer hnext⟩

/-- Every sequence of calls is allowed that was answered as expected. -/
theorem Obeys.trace {calls : List (Called E)} {q : Proc E ε α} (h : p.Obeys N Q m)
    (htrace : p.Trace calls q) (hexpected : N.Throughout N.expects m calls) :
    N.Throughout N.allows m calls ∧ q.Obeys N Q (N.after m calls) := by
  induction htrace generalizing m with
  | nil => exact ⟨trivial, h⟩
  | cons _ ih =>
    obtain ⟨hc, hcalls⟩ := hexpected
    obtain ⟨hallowed, hnext⟩ := h _ hc
    obtain ⟨hrest, hq⟩ := ih hnext hcalls
    exact ⟨⟨hallowed, hrest⟩, hq⟩

end Proc

end Procedure
