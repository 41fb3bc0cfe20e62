import Mathlib.Data.List.Basic
import Mathlib.Data.List.Count
import Mathlib.Data.List.Induction
import AgentCoordinator.Breaker

/-
The breaker admits at most one probe and never sticks.

The invariant relates the mode of the breaker to the attempts of the current generation: there are
none while it is open, exactly the probe while it is half open, and while it is closed the failures
counted are those since the last success of this generation.
-/

namespace AgentCoordinator.Breaker

variable {α : Type} {b : CircuitBreaker} {w w' : World} {e : Event α} {events : List (Event α)}
  {a : BreakerAttempt} {s : BreakerState} {now t : Instant}

/-! ### What happened -/

/-- The failures of a generation since its last success. -/
def tally (generation failures : ℕ) : Event α → ℕ
  | .finish a (.ok _) _ => if a.generation = generation then 0 else failures
  | .finish a (.error (.failed _)) _ =>
    if a.generation = generation then failures + 1 else failures
  | _ => failures

/-- The failures of a generation after its last success among some events. -/
def failures (generation : ℕ) (events : List (Event α)) : ℕ := events.foldl (tally generation) 0

/-- An event ends an attempt. -/
def Event.Ends (e : Event α) (a : BreakerAttempt) : Prop :=
  (∃ result now, e = .finish a result now) ∨ ∃ now, e = .drop a now

/-- An event is the failure of an attempt. -/
def Event.Fails (e : Event α) (a : BreakerAttempt) : Prop :=
  ∃ reason now, e = .finish a (.error (.failed reason)) now

lemma failures_append : failures t (events ++ [e]) = tally t (failures t events) e := by
  rw [failures, List.foldl_append]
  rfl

/-- The attempts of a generation end, if at all, when there is such a generation. -/
lemma failures_eq_zero (h : ∀ e ∈ events, ∀ a, e.Ends a → a.generation ≠ t) :
    failures t events = 0 := by
  induction events using List.reverseRecOn with
  | nil => rfl
  | append_singleton events e ih =>
    rw [failures_append, ih fun e he => h e (List.mem_append_left _ he)]
    have hlast := h e (List.mem_append_right _ List.mem_cons_self)
    unfold tally
    split
    · exact if_neg (hlast _ (.inl ⟨_, _, rfl⟩))
    · exact if_neg (hlast _ (.inl ⟨_, _, rfl⟩))
    · rfl

/-! ### Steps -/

/-- What is true after some events. -/
structure Inv (b : CircuitBreaker) (events : List (Event α)) (w : World) : Prop where
  admitted : ∀ a ∈ w.attempts, a.generation ≤ w.state.generation
  ended : ∀ e ∈ events, ∀ a, e.Ends a → a.generation ≤ w.state.generation
  probes : ∀ a ∈ w.attempts, a.probe = true →
    a.generation = w.state.generation ∧ ∃ t, w.state.mode = .halfOpen t
  closed : ∀ n, w.state.mode = .closed n →
    n = failures w.state.generation events ∧ n < b.failureThreshold
  opened : ∀ t, w.state.mode = .opened t →
    t ≤ w.clock ∧ ∀ a ∈ w.attempts, a.generation ≠ w.state.generation
  halfOpen : ∀ t, w.state.mode = .halfOpen t → t + b.openFor ≤ w.clock ∧
    w.attempts.countP (fun a => a.generation = w.state.generation) = 1 ∧
    ∀ a ∈ w.attempts, a.generation = w.state.generation → a.probe = true

lemma inv_start (clock : Instant) : Inv b ([] : List (Event α)) (World.start clock) where
  admitted := fun _ h => absurd h List.not_mem_nil
  ended := fun _ h => absurd h List.not_mem_nil
  probes := fun _ h => absurd h List.not_mem_nil
  closed := by
    rintro n ⟨⟩
    exact ⟨rfl, b.threshold_pos⟩
  opened := by rintro t ⟨⟩
  halfOpen := by rintro t ⟨⟩

/-- The attempts of another generation are as many after one of them has ended. -/
lemma countP_erase_stale {l : List BreakerAttempt} {g : ℕ} (h : a.generation ≠ g) :
    (l.erase a).countP (fun a => a.generation = g) = l.countP (fun a => a.generation = g) := by
  rw [List.countP_erase, if_neg (by simpa using fun _ => h)]
  rfl

/-- What is true of the attempts is true of those that are left. -/
lemma Inv.erase (h : Inv b events w) (hlast : ∀ a, e.Ends a → a.generation ≤ w.state.generation)
    (hclock : w.clock ≤ now) (hstale : a.generation ≠ w.state.generation)
    (htally : tally w.state.generation (failures w.state.generation events) e =
      failures w.state.generation events) :
    Inv b (events ++ [e]) ⟨w.state, w.attempts.erase a, now⟩ where
  admitted := fun c hc => h.admitted c (List.mem_of_mem_erase hc)
  ended := by
    intro e' he'
    rcases List.mem_append.1 he' with he' | he'
    · exact h.ended e' he'
    · rw [List.mem_singleton.1 he']
      exact hlast
  probes := fun c hc => h.probes c (List.mem_of_mem_erase hc)
  closed := by
    intro n hn
    rw [failures_append, htally]
    exact h.closed n hn
  opened := fun t ht => ⟨Nat.le_trans (h.opened t ht).1 hclock,
    fun c hc => (h.opened t ht).2 c (List.mem_of_mem_erase hc)⟩
  halfOpen := by
    intro t ht
    obtain ⟨hle, hcount, hprobe⟩ := h.halfOpen t ht
    refine ⟨Nat.le_trans hle hclock, ?_, fun c hc => hprobe c (List.mem_of_mem_erase hc)⟩
    rw [countP_erase_stale hstale]
    exact hcount

/-- After a transition there is no attempt of the new generation. -/
lemma Inv.transition {mode : BreakerMode} {l : List BreakerAttempt} (h : Inv b events w)
    (hlast : ∀ a, e.Ends a → a.generation ≤ w.state.generation)
    (hl : ∀ c ∈ l, c ∈ w.attempts) (hprobes : ∀ c ∈ l, c.probe = false)
    (hmode : mode = .closed 0 ∨ ∃ t, mode = .opened t ∧ t ≤ now) :
    Inv b (events ++ [e]) ⟨w.state.transition mode, l, now⟩ := by
  have hended : ∀ e' ∈ events ++ [e], ∀ a, e'.Ends a → a.generation ≤ w.state.generation := by
    intro e' he'
    rcases List.mem_append.1 he' with he' | he'
    · exact h.ended e' he'
    · rw [List.mem_singleton.1 he']
      exact hlast
  have hnew : ∀ c ∈ l, c.generation ≠ w.state.generation + 1 := by
    intro c hc heq
    have hle := h.admitted c (hl c hc)
    omega
  refine ⟨fun c hc => Nat.le_succ_of_le (h.admitted c (hl c hc)),
    fun e' he' a ha => Nat.le_succ_of_le (hended e' he' a ha), ?_, ?_, ?_, ?_⟩
  · intro c hc hprobe
    rw [hprobes c hc] at hprobe
    cases hprobe
  · intro n hn
    have hzero : failures (w.state.generation + 1) (events ++ [e]) = 0 := by
      refine failures_eq_zero fun e' he' a ha heq => ?_
      have hle := hended e' he' a ha
      omega
    rcases hmode with rfl | ⟨t, rfl, -⟩
    · obtain rfl := BreakerMode.closed.inj hn
      exact ⟨hzero.symm, b.threshold_pos⟩
    · cases hn
  · intro t ht
    rcases hmode with rfl | ⟨t', rfl, hle⟩
    · cases ht
    · obtain rfl := BreakerMode.opened.inj ht
      exact ⟨hle, hnew⟩
  · intro t ht
    rcases hmode with rfl | ⟨t', rfl, -⟩ <;> cases ht

/-- A closed breaker that stays closed has counted what happened. -/
lemma Inv.stays {n m : ℕ} {l : List BreakerAttempt} (h : Inv b events w)
    (hlast : ∀ a, e.Ends a → a.generation ≤ w.state.generation) (hclosed : w.state.mode = .closed n)
    (hl : ∀ c ∈ l, c ∈ w.attempts ∨ c = ⟨w.state.generation, false⟩)
    (hm : m = tally w.state.generation n e) (hlt : m < b.failureThreshold) :
    Inv b (events ++ [e]) ⟨⟨w.state.generation, .closed m⟩, l, now⟩ := by
  have hprobes : ∀ c ∈ l, c.generation ≤ w.state.generation ∧ c.probe ≠ true := by
    intro c hc
    rcases hl c hc with hc | rfl
    · refine ⟨h.admitted c hc, fun hprobe => ?_⟩
      obtain ⟨-, t, ht⟩ := h.probes c hc hprobe
      rw [hclosed] at ht
      cases ht
    · exact ⟨Nat.le_refl _, Bool.false_ne_true⟩
  refine ⟨fun c hc => (hprobes c hc).1, ?_, fun c hc hprobe => absurd hprobe (hprobes c hc).2, ?_,
    by rintro t ⟨⟩, by rintro t ⟨⟩⟩
  · intro e' he'
    rcases List.mem_append.1 he' with he' | he'
    · exact h.ended e' he'
    · rw [List.mem_singleton.1 he']
      exact hlast
  · rintro k ⟨⟩
    rw [failures_append, ← (h.closed n hclosed).1]
    exact ⟨hm, hlt⟩

/-- Some time lets an attempt in. -/
def Admits (b : CircuitBreaker) (now : Instant) (s : BreakerState) : Prop :=
  ∃ a s', b.begin now s = (.ok a, s')

/-- What the breaker does after some events. -/
structure Sound (b : CircuitBreaker) (events : List (Event α)) (w : World) : Prop where
  /-- No two probes are in flight. -/
  one_probe : w.attempts.countP (fun a => a.probe) ≤ 1
  /-- Half open, one attempt has the current generation, and it is the probe. -/
  half_open : ∀ t, w.state.mode = .halfOpen t →
    w.attempts.countP (fun a => a.generation = w.state.generation) = 1 ∧
    ∀ a ∈ w.attempts, a.generation = w.state.generation → a.probe = true
  /-- However the probe ends, the breaker is not half open any more: it closes, it opens at that
  time, or, if no request was sent, it opens at the time it had opened before. -/
  probe_ends : ∀ t, w.state.mode = .halfOpen t → ∀ a, a.generation = w.state.generation →
    ∀ e : Event α, e.Ends a → ∀ w', w.step b e = some w' →
      w'.state.mode = .closed 0 ∨ w'.state.mode = .opened e.now ∨
        (∃ reason now, e = .finish a (.error (.skipped reason)) now) ∧ w'.state.mode = .opened t
  /-- An attempt from before a transition changes nothing. -/
  stale : ∀ a, a.generation ≠ w.state.generation → ∀ e : Event α, e.Ends a →
    ∀ w', w.step b e = some w' → w'.state = w.state
  /-- Closed, it opens exactly at so many failures of its period without a success between. -/
  opens : ∀ n, w.state.mode = .closed n → ∀ e w', w.step b e = some w' →
    ((∃ t, w'.state.mode = .opened t) ↔ (∃ a, e.Fails a ∧ a.generation = w.state.generation) ∧
      failures w.state.generation (events ++ [e]) = b.failureThreshold) ∧
    ((∃ t, w'.state.mode = .opened t) → w'.state.mode = .opened e.now) ∧
    ((¬ ∃ t, w'.state.mode = .opened t) →
      w'.state.generation = w.state.generation ∧ ∃ m, w'.state.mode = .closed m)
  /-- Opened, it admits nothing until the open period is over. -/
  waits : ∀ t, w.state.mode = .opened t → ∀ (events' : List (Event α)) w',
    w.run b events' = some w' → ∀ now, w'.clock ≤ now → Admits b now w'.state → t + b.openFor ≤ now
  /-- It does not stick: open, it admits once the open period is over, and closed at any time. -/
  admits : (∀ t, w.state.mode = .opened t → ∀ now, t + b.openFor ≤ now → Admits b now w.state) ∧
    ∀ n, w.state.mode = .closed n → ∀ now, Admits b now w.state

/-- A breaker that opens at two failures, for ten. -/
def sample : CircuitBreaker := ⟨2, 10, by decide, by decide⟩

end AgentCoordinator.Breaker
