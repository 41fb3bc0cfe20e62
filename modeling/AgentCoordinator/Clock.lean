import AgentCoordinator.Library.Transition
import AgentCoordinator.Access

/-
The service clock.

Service time is kept in three places: the wall clock, a runtime in memory (an anchor from which
monotonic time elapses, and a high-water mark) under a lock of its own, and a durable row under the
writer lock of the database. `now` holds the runtime's lock; `sample_clock` and
`reconcile_clock_in_tx` run in a transaction, and take the runtime's lock in between. Here each
lock section is one step, so a run is an interleaving of concurrent callers.
-/

namespace AgentCoordinator

open Guarded Transition

/-! ### Readings -/

def i64Max : Int := 9223372036854775807

def i64Min : Int := -9223372036854775808

/-- `i64::saturating_add`. -/
def saturatingAdd (a b : Int) : Int := max i64Min (min i64Max (a + b))

/-- A reading of the monotonic clock, in nanoseconds. -/
abbrev Instant := Nat

/-- `raw_now`. -/
def rawNow (wall : Int) : Time := max wall 0

/-- `MATERIAL_CLOCK_ROLLBACK_MS`. -/
def materialClockRollbackMs : Int := 5000

/-! ### The runtime -/

/-- `ClockRuntime`. -/
structure ClockRuntime where
  highWaterMs : Time
  anchorTimeMs : Time
  anchor : Instant
  initialized : Bool
  incidentActive : Bool

/-- The milliseconds since the anchor; none under a clock that does not `use_monotonic_elapsed`. -/
def ClockRuntime.elapsed (r : ClockRuntime) (monotonic : Bool) (instant : Instant) : Int :=
  if monotonic then min (((instant - r.anchor) / 1000000 : Nat) : Int) i64Max else 0

/-- The anchor, advanced by what has elapsed since. -/
def ClockRuntime.expected (r : ClockRuntime) (monotonic : Bool) (instant : Instant) : Time :=
  saturatingAdd r.anchorTimeMs (r.elapsed monotonic instant)

def ClockRuntime.reanchor (r : ClockRuntime) (time : Time) (instant : Instant) : ClockRuntime :=
  { r with anchorTimeMs := time, anchor := instant }

/-- `AppState::now`, which returns the high-water mark that it leaves. The monotonic clock is read
for what has elapsed, and again for a new anchor. -/
def ClockRuntime.now (r : ClockRuntime) (monotonic : Bool) (raw : Time) (instant anchor : Instant) :
    ClockRuntime :=
  if r.initialized = false then
    ⟨raw, raw, anchor, true, r.incidentActive⟩
  else
    let expected := r.expected monotonic instant
    let r := { r with highWaterMs := max (max r.highWaterMs expected) raw }
    if raw > expected then r.reanchor raw anchor else r

/-- What the first lock section of `sample_clock` reads. -/
structure RuntimeReading where
  raw : Time
  runtimeHighWater : Time
  expectedRuntimeTime : Time
  runtimeInitialized : Bool

def ClockRuntime.read (r : ClockRuntime) (monotonic : Bool) (raw : Time) (instant : Instant) :
    RuntimeReading :=
  ⟨raw, r.highWaterMs, r.expected monotonic instant, r.initialized⟩

/-! ### The durable clock -/

inductive ClockStatus
  | ready
  | clockReconciliation
  deriving DecidableEq, Repr

/-- Who reconciles a clock: an administrator, or the operator of the host. -/
inductive Initiator
  | authenticatedAdmin (actor : Id)
  | hostOperator
  deriving DecidableEq, Repr

/-- A row of `clock_incidents`. -/
structure ClockIncident where
  id : Id
  observedWallTimeMs : Time
  highWaterTimeMs : Time
  detectedAt : Time
  recovered : Option (Time × String × Initiator)
  deriving DecidableEq, Repr

/-- A row of `clock_reconciliation_events`; the service itself records what it detects. -/
structure ClockEvent where
  incident : Id
  initiator : Option Initiator
  observedWallTimeMs : Time
  highWaterTimeMs : Time
  reason : String
  createdAt : Time
  deriving DecidableEq, Repr

/-- `clock_state`, and the history of its incidents. -/
structure ClockDb where
  lastSafeTimeMs : Time
  status : ClockStatus
  incident : Option Id
  observedWallTimeMs : Option Time
  detectedAt : Option Time
  incidents : List ClockIncident
  events : List ClockEvent

/-- What `sample_clock` concludes from a reading and the durable row. -/
structure SafeTime where
  safeNow : Time
  wasActive : Bool
  rollback : Bool

def ClockDb.judge (db : ClockDb) (x : RuntimeReading) : SafeTime :=
  let previousHighWater := max db.lastSafeTimeMs x.runtimeHighWater
  let wasActive := decide (db.status = .clockReconciliation)
  let expected :=
    if x.runtimeInitialized then max x.expectedRuntimeTime db.lastSafeTimeMs else db.lastSafeTimeMs
  { safeNow := max (max expected x.raw) previousHighWater
    wasActive := wasActive
    rollback := !wasActive && decide (saturatingAdd x.raw materialClockRollbackMs < expected) }

/-- What `sample_clock` writes: a new incident, or the time. The leases that an incident expires
are `Db.detectRollback`. -/
def ClockDb.sample (db : ClockDb) (x : RuntimeReading) (incident : Id) : ClockDb :=
  let t := db.judge x
  if t.rollback then
    { lastSafeTimeMs := t.safeNow
      status := .clockReconciliation
      incident := some incident
      observedWallTimeMs := some x.raw
      detectedAt := some t.safeNow
      incidents := db.incidents ++ [⟨incident, x.raw, t.safeNow, t.safeNow, none⟩]
      events := db.events ++ [⟨incident, none, x.raw, t.safeNow,
        "The wall clock moved behind the durable service-time high-water mark.", t.safeNow⟩] }
  else if t.safeNow > db.lastSafeTimeMs then
    { db with lastSafeTimeMs := t.safeNow }
  else
    db

/-- The last lock section of `sample_clock`, which returns the high-water mark that it leaves. -/
def ClockRuntime.publish (r : ClockRuntime) (monotonic : Bool) (raw : Time) (t : SafeTime)
    (instant anchor : Instant) : ClockRuntime :=
  let liveExpected := r.expected monotonic instant
  let liveHighWater := max r.highWaterMs liveExpected
  -- re-anchor only for a jump beyond what another caller may have advanced meanwhile
  let r :=
    if t.safeNow > liveHighWater then r.reanchor t.safeNow anchor
    else if raw > liveExpected ∧ raw ≥ liveHighWater then r.reanchor raw anchor
    else r
  { r with
    highWaterMs := max t.safeNow liveHighWater
    initialized := true
    incidentActive := t.wasActive || t.rollback }

/-! ### Reconciliation -/

/-- The arguments of `reconcile_clock_in_tx`. An administrator is named, the operator of the host
is not. -/
structure ClockReconciliationInput where
  incident : Id
  reason : String
  initiator : Initiator

/-- `char::is_control`. -/
def isControl (c : Char) : Bool := c.toNat < 32 || (127 ≤ c.toNat && c.toNat < 160)

/-- A reason of at most 2000 bytes, without surrounding whitespace. -/
def validateReason (reason : String) : Except AppError Unit :=
  refuseIf
    (reason.toList.head?.any isWhitespace = true ∨ reason.toList.getLast?.any isWhitespace = true ∨
      reason.toList = [] ∨ reason.utf8ByteSize > 2000 ∨
      reason.toList.any (fun c => isControl c && c != '\n' && c != '\t') = true)
    (.badRequest ("reason must contain 1 to 2000 bytes without surrounding whitespace or control " ++
      "characters other than newlines and tabs."))

/-- What `reconcile_clock_in_tx` checks and writes in its transaction. -/
def ClockDb.reconcile (db : ClockDb) (input : ClockReconciliationInput) (raw : Time) :
    Except AppError ClockDb := do
  validateReason input.reason
  refuseIf (db.status ≠ .clockReconciliation)
    (.conflict "clock_not_paused" "There is no active service-clock incident to reconcile.")
  refuseIf (db.incident ≠ some input.incident)
    (.conflict "clock_incident_changed"
      ("The active service-clock incident changed. Reload its status before reconciling it."))
  refuseIf (raw < db.lastSafeTimeMs)
    (.conflict "clock_still_untrusted"
      ("The wall clock remains behind durable service time. Correct the host clock before " ++
        "reconciling this incident."))
  let now := max raw db.lastSafeTimeMs
  return { db with
    lastSafeTimeMs := now
    status := .ready
    observedWallTimeMs := some raw
    incidents := db.incidents.map (fun i =>
      if i.id = input.incident ∧ i.recovered = none then
        { i with recovered := some (now, input.reason, input.initiator) }
      else i)
    events := db.events ++ [⟨input.incident, some input.initiator, raw, db.lastSafeTimeMs,
      input.reason, now⟩] }

/-- The lock section of `reconcile_clock_in_tx`. -/
def ClockRuntime.reconcile (now : Time) (instant : Instant) : ClockRuntime :=
  ⟨now, now, instant, true, false⟩

/-! ### Callers -/

/-- Where the transaction that holds the writer lock stands. -/
inductive ClockCall
  | idle
  /-- `sample_clock` has read the runtime. -/
  | sampling (x : RuntimeReading)
  /-- `sample_clock` has written the row. -/
  | sampled (raw : Time) (t : SafeTime)
  /-- `reconcile_clock_in_tx` has written the row. -/
  | reconciled (raw highWaterTimeMs : Time)

/-- The open transaction: the rows as it sees them. -/
structure ClockWriter where
  db : ClockDb
  call : ClockCall

/-- The clock of a running service, and the times that `now` and `sample_clock` have returned, the
latest first. -/
structure ClockService where
  runtime : ClockRuntime
  db : ClockDb
  writer : Option ClockWriter
  returned : List Time

/-- The next lock section, with the readings of the clocks in it. -/
inductive ClockAction
  | now (wall : Int) (instant anchor : Instant)
  | beginTx
  | sampleRead (wall : Int) (instant : Instant)
  | sampleStore (incident : Id)
  | samplePublish (instant anchor : Instant)
  | reconcileStore (input : ClockReconciliationInput) (wall : Int)
  | reconcilePublish (instant : Instant)
  | commit
  | rollback

/-- The state after a lock section; none if no transaction stands where it starts. -/
def ClockService.step (monotonic : Bool) (s : ClockService) : ClockAction → Option ClockService
  | .now wall instant anchor =>
    let r := s.runtime.now monotonic (rawNow wall) instant anchor
    some { s with runtime := r, returned := r.highWaterMs :: s.returned }
  | .beginTx =>
    match s.writer with
    | none => some { s with writer := some ⟨s.db, .idle⟩ }
    | some _ => none
  | .sampleRead wall instant =>
    match s.writer with
    | some ⟨db, .idle⟩ =>
      some { s with
        writer := some ⟨db, .sampling (s.runtime.read monotonic (rawNow wall) instant)⟩ }
    | _ => none
  | .sampleStore incident =>
    match s.writer with
    | some ⟨db, .sampling x⟩ =>
      some { s with writer := some ⟨db.sample x incident, .sampled x.raw (db.judge x)⟩ }
    | _ => none
  | .samplePublish instant anchor =>
    match s.writer with
    | some ⟨db, .sampled raw t⟩ =>
      let r := s.runtime.publish monotonic raw t instant anchor
      some { s with
        runtime := r
        writer := some ⟨db, .idle⟩
        returned := r.highWaterMs :: s.returned }
    | _ => none
  | .reconcileStore input wall =>
    match s.writer with
    | some ⟨db, .idle⟩ =>
      match db.reconcile input (rawNow wall) with
      | .ok db' =>
        some { s with writer := some ⟨db', .reconciled (rawNow wall) db.lastSafeTimeMs⟩ }
      | .error _ => some s
    | _ => none
  | .reconcilePublish instant =>
    match s.writer with
    | some ⟨db, .reconciled raw highWaterTimeMs⟩ =>
      some { s with
        runtime := .reconcile (max raw highWaterTimeMs) instant
        writer := some ⟨db, .idle⟩ }
    | _ => none
  | .commit =>
    match s.writer with
    | some ⟨db, .idle⟩ => some { s with db := db, writer := none }
    | _ => none
  | .rollback => s.writer.map fun _ => { s with writer := none }

/-- One lock section. -/
def ClockStep (monotonic : Bool) (s : ClockService) (i : ClockAction) (s' : ClockService) : Prop :=
  s.step monotonic i = some s'

/-- `open`: the runtime starts at the durable time. -/
structure ClockService.Opened (s : ClockService) : Prop where
  highWater : s.runtime.highWaterMs = s.db.lastSafeTimeMs
  anchorTime : s.runtime.anchorTimeMs = s.db.lastSafeTimeMs
  initialized : s.runtime.initialized = true
  writer : s.writer = none
  returned : s.returned = []

end AgentCoordinator
