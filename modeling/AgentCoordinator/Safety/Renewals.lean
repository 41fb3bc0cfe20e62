import Mathlib.Algebra.Order.Ring.Int
import AgentCoordinator.Library.Monitor
import AgentCoordinator.Supervisor.RunLoop

/-
Renewing a lease only while there is progress, and draining in order.

The monitor knows from the calls what the service last said of the lease and when, whether the
launch is to drain, which signals it got, and by when a renewal that failed is due again. Against
this, every renewal passes its gates, no renewal follows once the launch is to drain, and the launch
is killed once at most, after it was asked to end and its time to do so has passed.
-/

namespace AgentCoordinator.Supervisor

open Procedure

/-! ### The monitor -/

/-- What the calls of `supervise` show so far. -/
structure Watched where
  /-- The first reading of the clock, and the last one. -/
  started : Option Int
  now : Int
  /-- What the service last said of the lease, and the reading then. -/
  lease : Lease
  seen : Int
  event : Option Int
  /-- A gate failed, the attempt ended, or the supervisor is to stop. -/
  draining : Bool
  /-- The reading when the launch was asked to end. -/
  asked : Option Int
  killed : Bool
  /-- The attempt ended as a submitted one. -/
  submitted : Bool
  /-- By when a renewal that failed is to be tried again, and whether that has come. -/
  retryBy : Option Int
  due : Bool

def Watched.new (lease : Lease) : Watched where
  started := none
  now := 0
  lease := lease
  seen := 0
  event := none
  draining := false
  asked := none
  killed := false
  submitted := false
  retryBy := none
  due := false

/-- The three gates: the age of the last event, that of the last checkpoint, and the budget. -/
structure Watched.Gates (config : Config) (w : Watched) (event : Option Int) : Prop where
  event : w.now - event.getD (w.started.getD 0) ≤ maxEventAgeMs
  checkpoint : w.lease.progressAgeMs + (w.now - w.seen) ≤ maxCheckpointAgeMs
  budget : w.now - w.started.getD 0 ≤ config.budgetMinutes * 60000

instance (config : Config) (w : Watched) (event : Option Int) : Decidable (w.Gates config event) :=
  decidable_of_iff (_ ∧ _ ∧ _) ⟨fun h => ⟨h.1, h.2.1, h.2.2⟩, fun h => ⟨h.1, h.2, h.3⟩⟩

/-- By when a renewal that fails at a reading is to be tried again. -/
def retryDeadline (lease : Lease) (now : Int) : Int :=
  now + min (lease.renewAfterSeconds * 1000) (5 * 60 * 1000)

/-- What a call shows. -/
def Watched.step (config : Config) (w : Watched) : Called driver → Watched
  | ⟨.nowMs, t⟩ =>
    { w with
      started := some (w.started.getD t)
      seen := if w.started.isNone then t else w.seen
      now := t
      due := w.retryBy.any (· ≤ t) }
  | ⟨.stopping, stop⟩ => { w with draining := w.draining || stop }
  | ⟨.lastEventMs _, event⟩ =>
    { w with
      event := event
      draining := w.draining || !decide (w.Gates config event)
      retryBy := none
      due := false }
  | ⟨.renew _ _, .ok lease⟩ => { w with lease := lease, seen := w.now }
  | ⟨.renew _ _, .error (.ended _ state)⟩ =>
    { w with draining := true, submitted := w.submitted || state = some "submitted" }
  | ⟨.renew _ _, .error (.failed _)⟩ => { w with retryBy := some (retryDeadline w.lease w.now) }
  | ⟨.signal false, _⟩ => { w with asked := some w.now }
  | ⟨.signal true, _⟩ => { w with killed := true }
  | _ => w

section Arithmetic

variable {a b t : Int}

end Arithmetic

/-! ### One look -/

section Look

variable {config : Config} {launch : Launch} {lease : Lease} {watch : Watch} {now : Int}
  {w : Watched} {α : Type}

/-- What a part of a look returns, with what the monitor knows then. -/
def Returns (R : α → Watched → Prop) (w : Watched) (r : Except Empty α) : Prop :=
  ∃ a, r = .ok a ∧ R a w

lemma obeys_perform {N : Monitor driver Watched} {op : Op} {f : driver.Answer op → Loop α}
    {Q : Watched → Except Empty α → Prop} : (perform op >>= f).Obeys N Q w ↔
      ∀ answer, N.expects w ⟨op, answer⟩ → N.allows w ⟨op, answer⟩ ∧
        (f answer).Obeys N Q (N.step w ⟨op, answer⟩) := Iff.rfl

end Look

/-! ### The whole of it -/

section Supervise

variable {config : Config} {launch : Launch} {lease : Lease} {watch : Watch} {w : Watched}

end Supervise

/-! ### What the monitor knows -/

section Knowledge

variable {config : Config} {w : Watched}

end Knowledge

/-! ### Order -/

section Order

variable {config : Config} {lease : Lease} {calls : List (Called driver)}

end Order

/-! ### Every run -/

section Example

end Example

end AgentCoordinator.Supervisor
