import Mathlib.Data.Nat.Notation

/-
The circuit breaker of context reranking.

While closed, the breaker admits every attempt and counts failures; at the threshold it opens and
admits none. After the open period it admits one probe, which closes it or opens it again. An attempt
carries the generation it was admitted in, and only attempts of the current one change the breaker.
-/

namespace AgentCoordinator.Breaker

/-! ### Data -/

/-- `Instant`, in nanoseconds. -/
abbrev Instant := ℕ

/-- `Unchanged`. -/
inductive Unchanged
  | skipped (reason : String)
  | failed (reason : String)
  deriving DecidableEq, Repr

/-- `BreakerMode`. -/
inductive BreakerMode
  | closed (failures : ℕ)
  | opened (openedAt : Instant)
  | halfOpen (openedAt : Instant)
  deriving DecidableEq, Repr

/-- `BreakerState`. The identity of a generation is the number of transitions before it. -/
structure BreakerState where
  generation : ℕ
  mode : BreakerMode
  deriving DecidableEq, Repr

/-- `CircuitBreaker`, without its state. -/
structure CircuitBreaker where
  failureThreshold : ℕ
  openFor : ℕ
  threshold_pos : 0 < failureThreshold
  openFor_pos : 0 < openFor

/-- `BreakerAttempt`, as long as it is not completed. -/
structure BreakerAttempt where
  generation : ℕ
  probe : Bool
  deriving DecidableEq, Repr

/-! ### Operations -/

/-- Completions that were admitted before do not count any more. -/
def BreakerState.transition (s : BreakerState) (mode : BreakerMode) : BreakerState :=
  ⟨s.generation + 1, mode⟩

/-- `CircuitBreaker::new`. -/
def BreakerState.new : BreakerState := ⟨0, .closed 0⟩

namespace CircuitBreaker

variable (b : CircuitBreaker) {α : Type}

/-- `CircuitBreaker::begin`. -/
def begin (now : Instant) (s : BreakerState) :
    Except Unchanged BreakerAttempt × BreakerState :=
  match s.mode with
  | .closed _ => (.ok ⟨s.generation, false⟩, s)
  | .opened openedAt =>
    if b.openFor ≤ now - openedAt then
      let s := s.transition (.halfOpen openedAt)
      (.ok ⟨s.generation, true⟩, s)
    else (.error (.skipped "circuit_open"), s)
  | .halfOpen _ => (.error (.skipped "circuit_open"), s)

/-- `BreakerAttempt::finish`. -/
def finish (now : Instant) (s : BreakerState) (a : BreakerAttempt)
    (result : Except Unchanged α) : BreakerState :=
  if s.generation ≠ a.generation then s
  else match s.mode, result with
    | .closed _, .ok _ => { s with mode := .closed 0 }
    | .closed failures, .error (.failed _) =>
      if b.failureThreshold ≤ failures + 1 then s.transition (.opened now)
      else { s with mode := .closed (failures + 1) }
    | .halfOpen _, .ok _ => s.transition (.closed 0)
    | .halfOpen _, .error (.failed _) => s.transition (.opened now)
    -- a busy skip sent no request and may retry as soon as capacity frees
    | .halfOpen openedAt, .error (.skipped _) => s.transition (.opened openedAt)
    | _, _ => s

end CircuitBreaker

/-- `BreakerAttempt::drop`, of an attempt that is not completed. -/
def BreakerAttempt.drop (now : Instant) (s : BreakerState) (a : BreakerAttempt) : BreakerState :=
  if a.probe = false then s
  else if s.generation = a.generation then
    match s.mode with
    | .halfOpen _ => s.transition (.opened now)
    | _ => s
  else s

/-! ### Runs -/

/-- What one caller does to the breaker, with the clock it reads. -/
inductive Event (α : Type)
  | begin (now : Instant)
  | finish (a : BreakerAttempt) (result : Except Unchanged α) (now : Instant)
  | drop (a : BreakerAttempt) (now : Instant)

def Event.now {α : Type} : Event α → Instant
  | .begin now | .finish _ _ now | .drop _ now => now

/-- The breaker, the attempts that have not ended, and the latest reading of the clock. -/
structure World where
  state : BreakerState
  attempts : List BreakerAttempt
  clock : Instant
  deriving DecidableEq, Repr

def World.start (clock : Instant) : World := ⟨.new, [], clock⟩

section Runs

variable {α : Type} (b : CircuitBreaker)

/-- The attempt that an event ends has not ended before. -/
def World.Holds (w : World) : Event α → Prop
  | .begin _ => True
  | .finish a _ _ | .drop a _ => a ∈ w.attempts

instance (w : World) (e : Event α) : Decidable (w.Holds e) := by
  cases e <;> unfold World.Holds <;> infer_instance

/-- What an event makes of the breaker and of the attempts. -/
def World.apply (w : World) : Event α → World
  | .begin now =>
    match b.begin now w.state with
    | (.ok a, s) => ⟨s, a :: w.attempts, now⟩
    | (.error _, s) => ⟨s, w.attempts, now⟩
  | .finish a result now => ⟨b.finish now w.state a result, w.attempts.erase a, now⟩
  | .drop a now => ⟨a.drop now w.state, w.attempts.erase a, now⟩

/-- One event, at a time that is not before the last one. -/
def World.step (w : World) (e : Event α) : Option World :=
  if w.clock ≤ e.now ∧ w.Holds e then some (w.apply b e) else none

/-- Some events, one after the other. -/
def World.run (w : World) : List (Event α) → Option World
  | [] => some w
  | e :: events => (w.step b e).bind fun w => w.run events

end Runs

end AgentCoordinator.Breaker
