import Mathlib.Order.MinMax
import AgentCoordinator.Clock

/-
Service time never goes backwards.

The runtime's high-water mark only rises, with one exception: a reconciliation overwrites it. So
time does not go backwards as long as no reconciliation reads a wall clock that is behind the mark
when it takes the runtime's lock. The durable time never leads the mark once the lock is free.
-/

namespace AgentCoordinator

open Guarded Transition

/-! ### What holds of the clock -/

/-- The time of a later state is no earlier. -/
structure ClockService.Forward (s s' : ClockService) : Prop where
  highWater : s.runtime.highWaterMs ≤ s'.runtime.highWaterMs
  durable : s.db.lastSafeTimeMs ≤ s'.db.lastSafeTimeMs

/-- The times returned so far never went backwards, and the durable time does not lead the
high-water mark: not the committed one, nor the one a transaction has finished to sample. -/
structure ClockService.Steady (s : ClockService) : Prop where
  returned : s.returned.Pairwise (fun later earlier => earlier ≤ later)
  durable : s.db.lastSafeTimeMs ≤ s.runtime.highWaterMs
  sampled : ∀ db, s.writer = some ⟨db, .idle⟩ → db.lastSafeTimeMs ≤ s.runtime.highWaterMs

/-- A reconciliation takes the runtime's lock while the mark is not ahead of the wall clock it
read. -/
def reconcilesAhead (s : ClockService) : ClockAction → Prop
  | .reconcilePublish _ =>
    match s.writer with
    | some ⟨_, .reconciled raw _⟩ => s.runtime.highWaterMs ≤ raw
    | _ => True
  | _ => True

instance (s : ClockService) (i : ClockAction) : Decidable (reconcilesAhead s i) := by
  unfold reconcilesAhead
  split
  · split <;> infer_instance
  · infer_instance

/-- What a transaction has read and written, against the committed time and the mark. -/
def ClockWriter.Fits (w : ClockWriter) (durable highWater : Time) : Prop :=
  durable ≤ w.db.lastSafeTimeMs ∧
    match w.call with
    | .idle | .sampling _ => w.db.lastSafeTimeMs ≤ highWater
    | .sampled _ t => w.db.lastSafeTimeMs ≤ t.safeNow
    | .reconciled raw h => h ≤ raw ∧ w.db.lastSafeTimeMs = max raw h

/-- What makes a steady clock stay so. -/
structure ClockService.Consistent (s : ClockService) : Prop where
  initialized : s.runtime.initialized = true
  returned : s.returned.Pairwise (fun later earlier => earlier ≤ later)
  last : ∀ t ∈ s.returned, t ≤ s.runtime.highWaterMs
  durable : s.db.lastSafeTimeMs ≤ s.runtime.highWaterMs
  writer : ∀ w, s.writer = some w → w.Fits s.db.lastSafeTimeMs s.runtime.highWaterMs

/-! ### Lock sections -/

section Sections

variable {r : ClockRuntime} {db db' : ClockDb} (monotonic : Bool)

/-- `now` raises the mark. -/
lemma ClockRuntime.le_now (h : r.initialized = true) (raw : Time) (instant anchor : Instant) :
    r.highWaterMs ≤ (r.now monotonic raw instant anchor).highWaterMs ∧
      (r.now monotonic raw instant anchor).initialized = true := by
  have hle : r.highWaterMs ≤ max (max r.highWaterMs (r.expected monotonic instant)) raw :=
    (le_max_left _ _).trans (le_max_left _ _)
  simp only [ClockRuntime.now, h, Bool.true_eq_false, if_false]
  split
  · exact ⟨hle, rfl⟩
  · exact ⟨hle, rfl⟩

/-- What a sample writes is the time it will return at least, and no less than what it read. -/
lemma ClockDb.sample_lastSafe (x : RuntimeReading) (incident : Id) :
    (db.sample x incident).lastSafeTimeMs = (db.judge x).safeNow ∧
      db.lastSafeTimeMs ≤ (db.judge x).safeNow := by
  have hle : db.lastSafeTimeMs ≤ (db.judge x).safeNow :=
    (le_max_left _ _).trans (le_max_right _ _)
  refine ⟨?_, hle⟩
  simp only [ClockDb.sample]
  split
  · rfl
  · split
    · rfl
    · rename_i hnot
      exact le_antisymm hle (not_lt.1 hnot)

lemma ClockDb.reconcile_ok {input : ClockReconciliationInput} {raw : Time}
    (h : db.reconcile input raw = .ok db') :
    db.lastSafeTimeMs ≤ raw ∧ db'.lastSafeTimeMs = max raw db.lastSafeTimeMs := by
  simp only [ClockDb.reconcile, validateReason, bind_eq_ok, refuseIf_eq_ok, pure_eq_ok] at h
  obtain ⟨-, -, -, -, -, -, -, hraw, rfl⟩ := h
  exact ⟨not_lt.1 hraw, rfl⟩

end Sections

/-! ### Steps -/

section Steps

variable {s s' : ClockService} {i : ClockAction} {monotonic : Bool}

lemma ClockWriter.Fits.mono {w : ClockWriter} {durable highWater highWater' : Time}
    (h : w.Fits durable highWater) (hle : highWater ≤ highWater') : w.Fits durable highWater' := by
  obtain ⟨db, call⟩ := w
  refine ⟨h.1, ?_⟩
  cases call with
  | idle | sampling => exact h.2.trans hle
  | sampled | reconciled => exact h.2

/-- A lock section that moves the transaction on, and leaves the runtime alone. -/
lemma ClockService.Consistent.write (hs : s.Consistent) {writer : Option ClockWriter}
    (hwriter : ∀ w, writer = some w → w.Fits s.db.lastSafeTimeMs s.runtime.highWaterMs) :
    ClockService.Consistent { s with writer := writer } where
  initialized := hs.initialized
  returned := hs.returned
  last := hs.last
  durable := hs.durable
  writer := hwriter

/-- A lock section that returns the mark that it leaves. -/
lemma ClockService.Consistent.advance (hs : s.Consistent) {r : ClockRuntime}
    {writer : Option ClockWriter} (hle : s.runtime.highWaterMs ≤ r.highWaterMs)
    (hinit : r.initialized = true)
    (hwriter : ∀ w, writer = some w → w.Fits s.db.lastSafeTimeMs r.highWaterMs) :
    ClockService.Consistent ⟨r, s.db, writer, r.highWaterMs :: s.returned⟩ where
  initialized := hinit
  returned := List.pairwise_cons.2 ⟨fun t ht => (hs.last t ht).trans hle, hs.returned⟩
  last t ht := by
    rcases List.mem_cons.1 ht with rfl | ht
    · exact le_rfl
    · exact (hs.last t ht).trans hle
  durable := hs.durable.trans hle
  writer := hwriter

/-- Each lock section keeps the clock consistent, and takes its time forward. -/
theorem ClockStep.consistent (hs : s.Consistent) (hok : reconcilesAhead s i)
    (h : ClockStep monotonic s i s') : s'.Consistent ∧ s.Forward s' := by
  cases i with
  | now wall instant anchor =>
    obtain rfl := Option.some.inj h
    obtain ⟨hle, hinit⟩ := ClockRuntime.le_now monotonic hs.initialized (rawNow wall) instant
      anchor
    exact ⟨hs.advance hle hinit fun w hw => (hs.writer w hw).mono hle, hle, le_rfl⟩
  | beginTx =>
    simp only [ClockStep, ClockService.step] at h
    split at h
    · obtain rfl := Option.some.inj h
      refine ⟨hs.write fun w hw => ?_, le_rfl, le_rfl⟩
      obtain rfl := Option.some.inj hw
      exact ⟨le_rfl, hs.durable⟩
    · exact absurd h (by simp)
  | sampleRead wall instant =>
    simp only [ClockStep, ClockService.step] at h
    split at h
    · rename_i db hwriter
      obtain rfl := Option.some.inj h
      refine ⟨hs.write fun w hw => ?_, le_rfl, le_rfl⟩
      obtain rfl := Option.some.inj hw
      obtain ⟨hkept, hle⟩ := hs.writer _ hwriter
      exact ⟨hkept, hle⟩
    · exact absurd h (by simp)
  | sampleStore incident =>
    simp only [ClockStep, ClockService.step] at h
    split at h
    · rename_i db x hwriter
      obtain rfl := Option.some.inj h
      refine ⟨hs.write fun w hw => ?_, le_rfl, le_rfl⟩
      obtain rfl := Option.some.inj hw
      have hsample := @ClockDb.sample_lastSafe db x incident
      obtain ⟨hwritten, hle⟩ := hsample
      exact ⟨(hs.writer _ hwriter).1.trans (hle.trans hwritten.ge), hwritten.le⟩
    · exact absurd h (by simp)
  | samplePublish instant anchor =>
    simp only [ClockStep, ClockService.step] at h
    split at h
    · rename_i db raw t hwriter
      obtain rfl := Option.some.inj h
      have hle : s.runtime.highWaterMs ≤ (s.runtime.publish monotonic raw t instant
          anchor).highWaterMs := (le_max_left _ _).trans (le_max_right _ _)
      obtain ⟨hkept, hstored⟩ := hs.writer _ hwriter
      refine ⟨hs.advance hle rfl fun w hw => ?_, hle, le_rfl⟩
      obtain rfl := Option.some.inj hw
      exact ⟨hkept, hstored.trans (le_max_left _ _)⟩
    · exact absurd h (by simp)
  | reconcileStore input wall =>
    simp only [ClockStep, ClockService.step] at h
    split at h
    · rename_i db hwriter
      split at h
      · rename_i db' hreconcile
        obtain rfl := Option.some.inj h
        obtain ⟨hraw, hwritten⟩ := ClockDb.reconcile_ok hreconcile
        refine ⟨hs.write fun w hw => ?_, le_rfl, le_rfl⟩
        obtain rfl := Option.some.inj hw
        exact ⟨(hs.writer _ hwriter).1.trans ((le_max_right _ _).trans hwritten.ge), hraw, hwritten⟩
      · obtain rfl := Option.some.inj h
        exact ⟨hs, le_rfl, le_rfl⟩
    · exact absurd h (by simp)
  | reconcilePublish instant =>
    simp only [ClockStep, ClockService.step] at h
    split at h
    · rename_i db raw high hwriter
      obtain rfl := Option.some.inj h
      -- the wall clock was not behind the mark that the reconciliation overwrites
      have hle : s.runtime.highWaterMs ≤ max raw high := by
        simp only [reconcilesAhead, hwriter] at hok
        exact hok.trans (le_max_left _ _)
      obtain ⟨hkept, -, hwritten⟩ := hs.writer _ hwriter
      refine ⟨⟨rfl, hs.returned, fun t ht => (hs.last t ht).trans hle, hs.durable.trans hle,
        fun w hw => ?_⟩, hle, le_rfl⟩
      obtain rfl := Option.some.inj hw
      exact ⟨hkept, hwritten.le⟩
    · exact absurd h (by simp)
  | commit =>
    simp only [ClockStep, ClockService.step] at h
    split at h
    · rename_i db hwriter
      obtain rfl := Option.some.inj h
      obtain ⟨hkept, hle⟩ := hs.writer _ hwriter
      exact ⟨⟨hs.initialized, hs.returned, hs.last, hle, fun w hw => absurd hw (by simp)⟩, le_rfl,
        hkept⟩
    · exact absurd h (by simp)
  | rollback =>
    obtain ⟨-, -, rfl⟩ := Option.map_eq_some_iff.1 h
    exact ⟨hs.write fun w hw => absurd hw (by simp), le_rfl, le_rfl⟩

end Steps

/-! ### Runs -/

section Runs

variable {s₀ s s' : ClockService} {monotonic : Bool}

lemma ClockService.Opened.consistent (h : s.Opened) : s.Consistent where
  initialized := h.initialized
  returned := h.returned ▸ .nil
  last t ht := by simp [h.returned] at ht
  durable := h.highWater.ge
  writer w hw := by simp [h.writer] at hw

lemma ClockService.Consistent.steady (h : s.Consistent) : s.Steady where
  returned := h.returned
  durable := h.durable
  sampled _ hw := (h.writer _ hw).2

/-- Service time never goes backwards, as long as no reconciliation does. -/
theorem service_time_forward (hs₀ : s₀.Opened) (hs : Run (ClockStep monotonic) reconcilesAhead s₀ s)
    (h : Run (ClockStep monotonic) reconcilesAhead s s') : s.Steady ∧ s.Forward s' := by
  have hconsistent : s.Consistent :=
    hs.invariant (fun _ _ _ hI hok hstep => (hstep.consistent hI hok).1) hs₀.consistent
  refine ⟨hconsistent.steady, ?_⟩
  exact Run.related (I := ClockService.Consistent) (fun _ => ⟨le_rfl, le_rfl⟩)
    (fun _ _ _ h₁ h₂ => ⟨h₁.highWater.trans h₂.highWater, h₁.durable.trans h₂.durable⟩)
    (fun _ _ _ hI hok hstep => (hstep.consistent hI hok).1)
    (fun _ _ _ hI hok hstep => (hstep.consistent hI hok).2) h hconsistent

end Runs

/-! ### Replays -/

/-- A new installation. -/
def newClock : ClockService where
  runtime := ⟨0, 0, 0, true, false⟩
  db := ⟨0, .ready, none, none, none, [], []⟩
  writer := none
  returned := []

lemma newClock_opened : newClock.Opened := ⟨rfl, rfl, rfl, rfl, rfl⟩

/-- A sample of the wall clock, in a transaction that stays open. -/
def samples (wall : Int) : List ClockAction :=
  [.beginTx, .sampleRead wall 0, .sampleStore 1, .samplePublish 0 0]

/-- The wall clock jumps back, an incident is recorded, and the clock is set right. -/
def pausedClock : List ClockAction :=
  samples 100000 ++ [.commit] ++ samples 0 ++ [.commit] ++ samples 200000

/-- An operator of the host reconciles the incident. -/
def reconciles (wall : Int) : List ClockAction :=
  [.reconcileStore ⟨1, "The host clock was set.", .hostOperator⟩ wall, .reconcilePublish 0, .commit]

theorem service_time_forward_replayed : ∃ s s',
    follow (ClockService.step true) reconcilesAhead newClock pausedClock = some s ∧
      follow (ClockService.step true) reconcilesAhead s
        (reconciles 200000 ++ [.now 300000 0 0]) = some s' ∧ s.Steady ∧ s.Forward s' := by
  obtain ⟨s, hs, hp⟩ := (Option.any_eq_true
    (fun s => (follow (ClockService.step true) reconcilesAhead s
      (reconciles 200000 ++ [.now 300000 0 0])).isSome) _).1
    (show (follow (ClockService.step true) reconcilesAhead newClock pausedClock).any _ = true by
      decide +kernel)
  obtain ⟨s', hs'⟩ := Option.isSome_iff_exists.1 hp
  exact ⟨s, s', hs, hs', service_time_forward newClock_opened (run_of_follow hs) (run_of_follow hs')⟩

/-- A caller that reads a later wall clock just before a reconciliation sees time go backwards. -/
theorem service_time_backward : ¬ ∀ (s₀ s s' : ClockService) (monotonic : Bool), s₀.Opened →
    Run (ClockStep monotonic) (fun _ _ => True) s₀ s →
      Run (ClockStep monotonic) (fun _ _ => True) s s' → s.Steady ∧ s.Forward s' := by
  intro h
  obtain ⟨s, hs, hp⟩ := (Option.any_eq_true
    (fun s => (follow (ClockService.step true) (fun _ _ => True) s (reconciles 200000)).any fun s' =>
      decide (s'.runtime.highWaterMs < s.runtime.highWaterMs)) _).1
    (show (follow (ClockService.step true) (fun _ _ => True) newClock
      (pausedClock ++ [.now 300000 0 0])).any _ = true by decide +kernel)
  obtain ⟨s', hs', hlt⟩ := (Option.any_eq_true _ _).1 hp
  exact absurd (h newClock s s' true newClock_opened (run_of_follow hs) (run_of_follow hs')).2.highWater
    (not_le.2 (of_decide_eq_true hlt))

end AgentCoordinator
