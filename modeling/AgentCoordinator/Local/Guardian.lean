import AgentCoordinator.Library.Procedure
import Mathlib.Data.List.Sort

/-
The guardian of a local job.

A job lives in two files: a state file, which a save replaces as a whole, and a journal, to which a
commit appends an event before the save. `recover` reads the state and replays the events that are
newer. A guardian launches the producer once, from a durable launch intent, and reports what it
observes, one observation after the other, until the service has taken it. What the service, Git
and the operating system answer is left open.
-/

namespace AgentCoordinator.Guardian

open Procedure

/-! ### Data -/

/-- `JobIdentities`. -/
structure JobIdentities where
  jobId : String
  producerId : String
  runnerInstanceId : String
  reporterId : String
  deriving DecidableEq, Repr

/-- `CommandSpec`. -/
structure CommandSpec where
  program : String
  args : List String
  workingDirectory : String
  environment : List (String × String)
  deriving DecidableEq, Repr

/-- `SourceSnapshot`. -/
structure SourceSnapshot where
  checkout : String
  revision : String
  tree : String
  deriving DecidableEq, Repr

/-- `ProcessIdentity`. -/
structure ProcessIdentity where
  pid : Nat
  startIdentity : String
  deriving DecidableEq, Repr

/-- `InitializeJob`, but for the state file. -/
structure InitializeJob where
  identities : JobIdentities
  command : CommandSpec
  source : SourceSnapshot
  logLimitBytes : Nat
  harness : Option ProcessIdentity
  deriving DecidableEq, Repr

/-- `RenewalConfig`. -/
structure RenewalConfig where
  generation : Int
  renewAfterSeconds : Nat
  renewUntil : String
  deriving DecidableEq, Repr

/-- `ReporterRegistration`. -/
structure ReporterRegistration where
  serviceOrigin : String
  allowInsecureLoopback : Bool
  bearerToken : String
  renewal : Option RenewalConfig
  deriving DecidableEq, Repr

/-- `GuardianMode`. -/
inductive GuardianMode | run | observe
  deriving DecidableEq, Repr

/-- `JobPhase`. -/
inductive JobPhase
  | prepared | registered | launchIntent | running | succeeded | failed | notStarted | unknown
  deriving DecidableEq, Repr

/-- `JobPhase::is_terminal`. -/
def JobPhase.isTerminal : JobPhase → Bool
  | .succeeded | .failed | .notStarted => true
  | _ => false

/-- `GuardianOutcome`. -/
inductive GuardianOutcome | completed | alreadyActive | observedUnknown | nothingToObserve
  deriving DecidableEq, Repr

/-- `PendingRenewal`; its body is the generation. -/
structure PendingRenewal where
  idempotencyKey : String
  generation : Int
  deriving DecidableEq, Repr

/-- `StoredReporter`. -/
structure StoredReporter where
  serviceOrigin : String
  allowInsecureLoopback : Bool
  bearerToken : String
  renewal : Option RenewalConfig
  nextRenewMs : Option Int
  pendingRenewal : Option PendingRenewal
  reportingDisabled : Bool
  deriving DecidableEq, Repr

/-- `Observation`. -/
structure Observation where
  sequence : Nat
  producerId : String
  state : JobPhase
  pid : Option Nat
  processStartedAt : Option String
  exitCode : Option Int
  inputsUnchanged : Option Bool
  summary : String
  deriving DecidableEq, Repr

/-- `PendingObservation`. -/
structure PendingObservation where
  idempotencyKey : String
  body : Observation
  deriving DecidableEq, Repr

/-- `TerminalEvidence`. -/
structure TerminalEvidence where
  phase : JobPhase
  exitCode : Option Int
  inputsUnchanged : Bool
  summary : String
  deriving DecidableEq, Repr

/-- `JournalKind`. -/
inductive JournalKind
  | initialized
  | registered (reporter : StoredReporter) (observation : PendingObservation)
  | launchIntent
  | producerStarted (process : ProcessIdentity) (startedAtMs : Int)
      (observation : PendingObservation)
  | terminal (evidence : TerminalEvidence) (observation : PendingObservation)
  | unknown (inputsUnchanged : Option Bool) (summary : String) (observation : PendingObservation)
  deriving DecidableEq, Repr

/-- `JournalEvent`. -/
structure JournalEvent where
  revision : Nat
  atMs : Int
  event : JournalKind
  deriving DecidableEq, Repr

/-- `StoredJob`. -/
structure StoredJob where
  version : Nat
  revision : Nat
  identities : JobIdentities
  command : CommandSpec
  source : SourceSnapshot
  logLimitBytes : Nat
  harness : Option ProcessIdentity
  reporter : Option StoredReporter
  phase : JobPhase
  process : Option ProcessIdentity
  processStartedAtMs : Option Int
  exitCode : Option Int
  inputsUnchanged : Option Bool
  nextSequence : Nat
  pendingObservations : List PendingObservation
  lastRunningObservationMs : Option Int
  lastReportError : Option String
  lastLocalSummary : Option String
  deriving DecidableEq, Repr

/-- `STATE_VERSION`. -/
def stateVersion : Nat := 1

/-- `RUNNING_OBSERVATION_INTERVAL_MS`. -/
def runningObservationIntervalMs : Int := 30000

/-- `SAFETY_MARGIN_MS`. -/
def safetyMarginMs : Int := 2000

/-- `seconds_ms`. -/
def secondsMs (seconds : Nat) : Int := min (seconds * 1000) 9223372036854775807

/-- The members of a reporter's job that a launch looks at, where they have their types. -/
structure JobReply where
  id : Option String
  producerId : Option String
  runnerInstanceId : Option String
  sourceRevision : Option String
  sourceTree : Option String
  deriving DecidableEq, Repr

/-- The members of a reporter that a launch looks at. -/
structure ReporterReply where
  id : Option String
  launchAllowed : Option Bool
  leaseRemainingMs : Option Int
  deriving DecidableEq, Repr

/-- A reply to the launch-authority check: its status and what its data hold. -/
structure AuthorityReply where
  status : Nat
  data : Option (Option JobReply × Option ReporterReply)
  deriving DecidableEq, Repr

/-- `ApiResponse::is_success`. -/
def isSuccess (status : Nat) : Bool := 200 ≤ status && status < 300

/-- How a producer exited. -/
structure ExitStatus where
  success : Bool
  code : Option Int
  deriving DecidableEq, Repr

/-! ### Recovery -/

/-- `restore_observation`; `sort_by_key` is stable. -/
def StoredJob.restoreObservation (state : StoredJob) (observation : PendingObservation) :
    StoredJob :=
  let state := { state with
    nextSequence := max state.nextSequence (observation.body.sequence + 1) }
  if state.pendingObservations.any fun p => p.idempotencyKey = observation.idempotencyKey then
    state
  else
    { state with
      pendingObservations := (state.pendingObservations ++ [observation]).insertionSort
        fun a b => a.body.sequence ≤ b.body.sequence }

/-- `recover_inner`: one event. -/
def StoredJob.replay (state : StoredJob) (event : JournalEvent) : StoredJob :=
  let state := { state with revision := event.revision }
  match event.event with
  | .launchIntent => { state with phase := .launchIntent }
  | .registered reporter observation =>
    { state with phase := .registered, reporter := some reporter }.restoreObservation observation
  | .producerStarted process startedAtMs observation =>
    { state with
      phase := .running
      process := some process
      processStartedAtMs := some startedAtMs }.restoreObservation observation
  | .terminal evidence observation =>
    { state with
      phase := evidence.phase
      exitCode := evidence.exitCode
      inputsUnchanged := some evidence.inputsUnchanged
      lastLocalSummary := some evidence.summary }.restoreObservation observation
  | .unknown inputsUnchanged summary observation =>
    { state with
      phase := .unknown
      inputsUnchanged := inputsUnchanged
      lastLocalSummary := some summary }.restoreObservation observation
  | .initialized => state

/-- The events that a state has not seen. -/
def StoredJob.ahead (state : StoredJob) (events : List JournalEvent) : List JournalEvent :=
  events.filter fun event => state.revision < event.revision

/-- `recover_inner`, from what is in the files. -/
def StoredJob.recovered (state : StoredJob) (events : List JournalEvent) : StoredJob :=
  (state.ahead events).foldl StoredJob.replay state

/-! ### Operations -/

/-- What the calls do outside their own memory. -/
inductive Op
  /-- `Path::exists` of the state file, which is also false when the file cannot be inspected. -/
  | stateExists
  /-- `persist::load`. -/
  | load
  /-- `persist::events`. -/
  | events
  /-- `persist::save`. -/
  | save (state : StoredJob)
  /-- `persist::append_event`. -/
  | append (event : JournalEvent)
  | validateInitialize (input : InitializeJob)
  /-- `verify_clean_snapshot`. -/
  | verifyCleanSnapshot (source : SourceSnapshot)
  | prepareLogs (limit : Nat)
  | nowMs
  /-- `Instant::now`, in nanoseconds. -/
  | instant
  /-- `Uuid::new_v4`. -/
  | newKey
  /-- `DateTime::parse_from_rfc3339`. -/
  | parseTime (text : String)
  /-- `CoordinatorClient::new`. -/
  | newClient (origin token : String) (allowInsecureLoopback : Bool)
  /-- `GET /api/v1/reporters/{id}`. -/
  | getReporter (reporterId : String)
  /-- `POST /api/v1/reporters/{id}/observations`. -/
  | postObservation (reporterId : String) (observation : PendingObservation)
  /-- `POST /api/v1/reporters/{id}/renew`. -/
  | postRenewal (reporterId : String) (renewal : PendingRenewal)
  /-- `process::is_alive`. -/
  | isAlive (process : ProcessIdentity)
  /-- `process::capture`. -/
  | capture (pid : Nat)
  /-- `process::spawn_producer`. -/
  | spawnProducer (command : CommandSpec) (captureLogs : Bool)
  /-- `Child::try_wait`. -/
  | tryWait (pid : Nat)
  | sleep
  deriving DecidableEq, Repr

/-- The operations with their answers. -/
@[reducible] def host : Interface where
  Op := Op
  Answer
    | .stateExists => Bool
    | .load => Except String StoredJob
    | .events => Except String (List JournalEvent)
    | .nowMs => Int
    | .instant => Nat
    | .newKey => String
    | .parseTime _ => Except String Int
    | .getReporter _ => Except String AuthorityReply
    | .postObservation .. | .postRenewal .. | .spawnProducer .. => Except String Nat
    | .isAlive _ => Except String Bool
    | .capture _ => Except String (Option ProcessIdentity)
    | .tryWait _ => Except String (Option ExitStatus)
    | .sleep => Unit
    | .save _ | .append _ | .validateInitialize _ | .verifyCleanSnapshot _ | .prepareLogs _ |
      .newClient .. => Except String Unit

/-- A call, or a part of one. -/
abbrev Host := Proc host String

def load : Host StoredJob := .ask .load id

def events : Host (List JournalEvent) := .ask .events id

/-- `persist::save`. -/
def save (state : StoredJob) : Host Unit := .ask (.save state) id

/-- `persist::append_event`. -/
def append (event : JournalEvent) : Host Unit := .ask (.append event) id

/-- `Path::exists`. -/
def stateExists : Host Bool := .call .stateExists .pure

/-- `now_ms`. -/
def nowMs : Host Int := .call .nowMs .pure

/-- `Instant::now`. -/
def instant : Host Nat := .call .instant .pure

/-- `Uuid::new_v4`. -/
def newKey : Host String := .call .newKey .pure

/-- `verify_clean_snapshot`. -/
def verifyCleanSnapshot (source : SourceSnapshot) : Host Unit :=
  .ask (.verifyCleanSnapshot source) id

/-- `inputs_unchanged`. -/
def inputsUnchanged (source : SourceSnapshot) : Host Bool :=
  .call (.verifyCleanSnapshot source) fun r => .pure (match r with | .ok _ => true | .error _ => false)

/-- `CoordinatorClient::new`. -/
def newClient (reporter : StoredReporter) : Host (Except String Unit) :=
  .call (.newClient reporter.serviceOrigin reporter.bearerToken reporter.allowInsecureLoopback)
    .pure

/-- The value of an optional field, or the error of `Option::context`. -/
def context {α : Type} (value : Option α) (message : String) : Host α :=
  match value with
  | some a => return a
  | none => .throw message

/-! ### Persistence -/

/-- `recover_inner`. -/
def recoverInner : Host (StoredJob × Bool) := do
  let state ← load
  .ensure (state.version = stateVersion)
    ("unsupported local job state version " ++ toString state.version)
  let events ← events
  return (state.recovered events, (state.ahead events).isEmpty = false)

/-- `recover`. -/
def recover : Host StoredJob := do
  let (state, replayed) ← recoverInner
  if replayed then
    save state
    return state
  else return state

/-- `commit_event`. -/
def commitEvent (state : StoredJob) (event : JournalKind) : Host StoredJob := do
  let state := { state with revision := state.revision + 1 }
  let now ← nowMs
  append ⟨state.revision, now, event⟩
  save state
  return state

/-- `persist_state`. -/
def persistState (state : StoredJob) : Host StoredJob := do
  let state := { state with revision := state.revision + 1 }
  save state
  return state

/-- The observation that `enqueue_observation` makes under a new key. -/
def StoredJob.observation (state : StoredJob) (key : String) (phase : JobPhase) (pid : Option Nat)
    (exitCode : Option Int) (inputsUnchanged : Option Bool) (summary : String) :
    PendingObservation where
  idempotencyKey := key
  body := {
    sequence := state.nextSequence
    producerId := state.identities.producerId
    state := phase
    pid := pid
    processStartedAt := state.process.map ProcessIdentity.startIdentity
    exitCode := exitCode
    inputsUnchanged := inputsUnchanged
    summary := summary }

/-- A state with one more pending observation. -/
def StoredJob.enqueue (state : StoredJob) (observation : PendingObservation) : StoredJob :=
  { state with
    nextSequence := state.nextSequence + 1
    pendingObservations := state.pendingObservations ++ [observation] }

/-- `set_unknown`. -/
def setUnknown (state : StoredJob) (unchanged : Option Bool) (message : String) :
    Host StoredJob := do
  let state := { state with
    phase := .unknown
    inputsUnchanged := unchanged
    lastLocalSummary := some message }
  let observation := state.observation (← newKey) .unknown (state.process.map ProcessIdentity.pid)
    none unchanged message
  commitEvent (state.enqueue observation) (.unknown unchanged message observation)

/-- `apply_terminal`. -/
def applyTerminal (state : StoredJob) (evidence : TerminalEvidence) : Host StoredJob := do
  let state := { state with
    phase := evidence.phase
    exitCode := evidence.exitCode
    inputsUnchanged := some evidence.inputsUnchanged
    lastLocalSummary := some evidence.summary }
  let observation := state.observation (← newKey) evidence.phase
    (state.process.map ProcessIdentity.pid) evidence.exitCode (some evidence.inputsUnchanged)
    evidence.summary
  commitEvent (state.enqueue observation) (.terminal evidence observation)

/-- `maybe_enqueue_running`. -/
def maybeEnqueueRunning (state : StoredJob) : Host StoredJob := do
  let now ← nowMs
  if runningObservationIntervalMs ≤ now - state.lastRunningObservationMs.getD 0 then
    let observation := state.observation (← newKey) .running
      (state.process.map ProcessIdentity.pid) none none
      "The exact registered local producer remains observable."
    persistState { state.enqueue observation with lastRunningObservationMs := some now }
  else return state

/-! ### Reports -/

/-- A state whose reporter is changed. -/
def StoredJob.mapReporter (state : StoredJob) (f : StoredReporter → StoredReporter) : StoredJob :=
  { state with reporter := state.reporter.map f }

/-- A state with what went wrong with its last report. -/
def StoredJob.failing (state : StoredJob) (error : String) : StoredJob :=
  { state with lastReportError := some error }

/-- The loop of `flush_reports`, which ends after at most as many rounds as there are pending
observations; whether a renewal comes next. -/
def flushPending (state : StoredJob) : Nat → Host (StoredJob × Bool)
  | 0 => return (state, true)
  | n + 1 =>
    match state.pendingObservations with
    | [] => return (state, true)
    | pending :: rest => do
      match ← .call (.postObservation state.identities.reporterId pending) .pure with
      | .ok status =>
        if isSuccess status then
          let state ← persistState { state with
            pendingObservations := rest
            lastReportError := none }
          flushPending state n
        else
          let state := state.failing
            ("service rejected observation with HTTP " ++ toString status)
          if status = 401 ∨ status = 403 then
            let state ← persistState
              (state.mapReporter fun reporter => { reporter with reportingDisabled := true })
            return (state, false)
          else
            let state ← persistState state
            return (state, true)
      | .error error =>
        let state ← persistState (state.failing error)
        return (state, true)

/-- `maybe_renew`, once a renewal is pending. -/
def sendRenewal (state : StoredJob) (config : RenewalConfig) (pending : PendingRenewal)
    (now : Int) : Host StoredJob := do
  match ← .call (.postRenewal state.identities.reporterId pending) .pure with
  | .ok status =>
    if isSuccess status then
      persistState { state.mapReporter fun reporter => { reporter with
          pendingRenewal := none
          nextRenewMs := some (now + secondsMs config.renewAfterSeconds) } with
        lastReportError := none }
    else
      let state := state.failing ("service rejected renewal with HTTP " ++ toString status)
      if status = 401 ∨ status = 403 ∨ status = 409 then
        persistState (state.mapReporter fun reporter => { reporter with
          renewal := none
          pendingRenewal := none })
      else persistState state
  | .error error => persistState (state.failing error)

/-- `maybe_renew`. -/
def maybeRenew (state : StoredJob) : Host StoredJob := do
  let now ← nowMs
  match state.reporter.bind StoredReporter.renewal with
  | none => return state
  | some config =>
    let renewUntilMs ← .ask (.parseTime config.renewUntil) id
    if renewUntilMs ≤ now then
      persistState (state.mapReporter fun reporter => { reporter with
        renewal := none
        pendingRenewal := none })
    else
      match state.harness with
      | none => persistState (state.mapReporter fun reporter => { reporter with renewal := none })
      | some harness =>
        match ← .call (.isAlive harness) .pure with
        | .ok true =>
          match state.reporter.bind StoredReporter.pendingRenewal with
          | some pending => sendRenewal state config pending now
          | none =>
            if now < ((state.reporter.bind StoredReporter.nextRenewMs).getD renewUntilMs) then
              return state
            else
              let pending := ⟨← newKey, config.generation⟩
              let state ← persistState (state.mapReporter fun reporter =>
                { reporter with pendingRenewal := some pending })
              sendRenewal state config pending now
        | _ => persistState (state.mapReporter fun reporter => { reporter with
            renewal := none
            pendingRenewal := none })

/-- `flush_reports`. -/
def flushReports (state : StoredJob) : Host StoredJob :=
  match state.reporter with
  | none => return state
  | some reporter =>
    if reporter.reportingDisabled then return state
    else do
      match ← newClient reporter with
      | .error error => persistState (state.failing error)
      | .ok () =>
        let (state, goesOn) ← flushPending state state.pendingObservations.length
        if goesOn then maybeRenew state
        else return state

/-! ### The launch -/

/-- `LaunchAuthority`. -/
inductive LaunchAuthority
  | allowed (deadline : Nat)
  | denied (message : String)
  | uncertain (message : String)
  deriving DecidableEq, Repr

/-- The service speaks of exactly this job. -/
def JobReply.Names (job : JobReply) (reporter : ReporterReply) (state : StoredJob) : Prop :=
  job.id = some state.identities.jobId ∧
  job.producerId = some state.identities.producerId ∧
  job.runnerInstanceId = some state.identities.runnerInstanceId ∧
  reporter.id = some state.identities.reporterId ∧
  job.sourceRevision = some state.source.revision ∧
  job.sourceTree = some state.source.tree

instance (job : JobReply) (reporter : ReporterReply) (state : StoredJob) :
    Decidable (job.Names reporter state) := by
  unfold JobReply.Names
  infer_instance

/-- The milliseconds that are safely left. -/
def safeRemaining (remaining : Int) (started elapsed : Nat) : Int :=
  remaining - ((elapsed - started) / 1000000 : Nat) - safetyMarginMs

/-- `check_launch_authority`, from a successful reply. -/
def judgeAuthority (state : StoredJob) (reply : AuthorityReply) (started : Nat) :
    Host LaunchAuthority :=
  match reply.data with
  | none => return .uncertain "launch-authority response omitted data"
  | some (none, _) => return .uncertain "launch-authority response omitted job identity"
  | some (some _, none) => return .uncertain "launch-authority response omitted reporter identity"
  | some (some job, some reporter) =>
    if ¬ job.Names reporter state then
      return .denied
        "The service reporter is bound to different local job or source identities."
    else do
      let launchAllowed ← context reporter.launchAllowed
        "launch-authority response omitted launch_allowed"
      if launchAllowed = false then
        return .denied "The service reported that launch authority is no longer valid."
      else
        let remaining ← context reporter.leaseRemainingMs
          "launch-authority response omitted lease_remaining_ms"
        let elapsed ← instant
        if safeRemaining remaining started elapsed ≤ 0 then
          return .denied
            "The remaining task lease was too short to safely launch the producer."
        else
          let now ← instant
          return .allowed (now + (safeRemaining remaining started elapsed).toNat * 1000000)

/-- `check_launch_authority`. -/
def checkLaunchAuthority (state : StoredJob) : Host LaunchAuthority := do
  let reporter ← context state.reporter "reporter is registered"
  match ← newClient reporter with
  | .error error => return .uncertain error
  | .ok () =>
    let started ← instant
    match ← .call (.getReporter state.identities.reporterId) .pure with
    | .error error => return .uncertain error
    | .ok reply =>
      if reply.status = 401 ∨ reply.status = 403 ∨ reply.status = 404 then
        return .denied
          "The service denied launch authority before the producer was started."
      else if isSuccess reply.status = false then
        return .uncertain
          ("service launch-authority check returned HTTP " ++ toString reply.status)
      else judgeAuthority state reply started

/-- Ends a launch that was not started. -/
def notStarted (state : StoredJob) (unchanged : Bool) (summary : String) : Host StoredJob := do
  let state ← applyTerminal state ⟨.notStarted, none, unchanged, summary⟩
  flushReports state

/-- The loop of `launch_and_watch`, for at most `polls` rounds. -/
def watchProducer (pid : Nat) (state : StoredJob) : Nat → Host GuardianOutcome
  | 0 => .throw "the guardian was stopped"
  | polls + 1 => do
    let state ← flushReports state
    match ← .ask (.tryWait pid) id with
    | some status =>
      let evidence : TerminalEvidence := {
        phase := if status.success then .succeeded else .failed
        exitCode := some (status.code.getD 128)
        inputsUnchanged := ← inputsUnchanged state.source
        summary := if status.success then "The local producer exited successfully."
          else "The local producer exited unsuccessfully." }
      let state ← applyTerminal state evidence
      let _ ← flushReports state
      return .completed
    | none =>
      let state ← maybeEnqueueRunning state
      let _ ← .call .sleep .pure
      watchProducer pid state polls

/-- The rest of `launch_and_watch`, once the producer is there. -/
def recordProducer (pid : Nat) (state : StoredJob) (polls : Nat) : Host GuardianOutcome := do
  let process ← .ask (.capture pid) id
  let startedAtMs ← nowMs
  match process with
  | none => watchProducer pid state polls
  | some process =>
    let state := { state with
      phase := .running
      process := some process
      processStartedAtMs := some startedAtMs }
    let observation := state.observation (← newKey) .running (some pid) none none
      "The registered local producer is running."
    let state ← commitEvent
      { state.enqueue observation with lastRunningObservationMs := some startedAtMs }
      (.producerStarted process startedAtMs observation)
    watchProducer pid state polls

/-- The rest of `launch_and_watch`, once the launch is allowed until `deadline`. -/
def launch (state : StoredJob) (deadline polls : Nat) : Host GuardianOutcome := do
  match ← (verifyCleanSnapshot state.source).attempt with
  | .error (error : String) =>
    let _ ← notStarted state false "The committed source snapshot changed before launch."
    .throw error
  | .ok () =>
    match ← .call (.prepareLogs state.logLimitBytes) .pure with
    | .error error =>
      let _ ← notStarted state (← inputsUnchanged state.source)
        "Protected local logs could not be initialized before launch."
      .throw error
    | .ok () =>
      let state ← commitEvent { state with phase := .launchIntent } .launchIntent
      let now ← instant
      if deadline ≤ now then
        let _ ← notStarted state (← inputsUnchanged state.source)
          "Launch authority expired before the operating system spawn was attempted."
        return .completed
      else
        match ← .call (.spawnProducer state.command (state.logLimitBytes ≠ 0)) .pure with
        | .error error =>
          let _ ← notStarted state (← inputsUnchanged state.source)
            "The operating system rejected the producer launch."
          .throw error
        | .ok pid => recordProducer pid state polls

/-- `launch_and_watch`. -/
def launchAndWatch (state : StoredJob) (polls : Nat) : Host GuardianOutcome := do
  match ← checkLaunchAuthority state with
  | .allowed deadline => launch state deadline polls
  | .denied message =>
    let _ ← notStarted state (← inputsUnchanged state.source) message
    return .completed
  | .uncertain message =>
    let _ ← persistState (state.failing message)
    return .nothingToObserve

/-! ### Calls -/

/-- `observe_running`, for at most `polls` rounds. -/
def observeRunning (state : StoredJob) : Nat → Host GuardianOutcome
  | 0 => .throw "the guardian was stopped"
  | polls + 1 => do
    let state ← flushReports state
    match state.process with
    | none =>
      let state ← setUnknown state (some (← inputsUnchanged state.source))
        "The job was recorded running without a strong process identity."
      let _ ← flushReports state
      return .observedUnknown
    | some identity =>
      if ← .ask (.isAlive identity) id then
        let state ← maybeEnqueueRunning state
        let _ ← .call .sleep .pure
        observeRunning state polls
      else
        let state ← setUnknown state (some (← inputsUnchanged state.source))
          ("The exact producer process is no longer observable and no terminal exit was " ++
            "captured.")
        let _ ← flushReports state
        return .observedUnknown

/-- `run_guardian`, once it holds the lock. The guardian is stopped after `polls` rounds. -/
def runGuardian (mode : GuardianMode) (polls : Nat) : Host GuardianOutcome := do
  let state ← recover
  .ensure (state.reporter.isSome) "local job has not been successfully registered"
  let state ← flushReports state
  match mode, state.phase with
  | .run, .registered => launchAndWatch state polls
  | .run, .prepared => .throw "local job has not been successfully registered"
  | _, .launchIntent =>
    let state ← setUnknown state none
      ("A durable launch intent exists without a recorded process identity; refusing to " ++
        "relaunch.")
    let _ ← flushReports state
    return .observedUnknown
  | _, .running => observeRunning state polls
  | _, .unknown =>
    let _ ← flushReports state
    return .observedUnknown
  | .observe, .prepared | .observe, .registered => return .nothingToObserve
  | _, .succeeded | _, .failed | _, .notStarted =>
    let _ ← flushReports state
    return .completed

/-- The state that `initialize_launch_state` prepares. -/
def InitializeJob.prepared (input : InitializeJob) : StoredJob where
  version := stateVersion
  revision := 1
  identities := input.identities
  command := input.command
  source := input.source
  logLimitBytes := input.logLimitBytes
  harness := input.harness
  reporter := none
  phase := .prepared
  process := none
  processStartedAtMs := none
  exitCode := none
  inputsUnchanged := none
  nextSequence := 1
  pendingObservations := []
  lastRunningObservationMs := none
  lastReportError := none
  lastLocalSummary := none

/-- `initialize_launch_state`. -/
def initializeLaunchState (input : InitializeJob) : Host StoredJob := do
  .ask (.validateInitialize input) id
  verifyCleanSnapshot input.source
  if ← stateExists then
    let existing ← recover
    .ensure (existing.identities = input.identities ∧ existing.command = input.command ∧
      existing.source = input.source ∧ existing.logLimitBytes = input.logLimitBytes ∧
      existing.harness = input.harness)
      "local job state already exists with different launch inputs"
    return existing
  else
    let state := input.prepared
    save state
    append ⟨state.revision, ← nowMs, .initialized⟩
    return state

/-- The renewal that a registration asks for is one that can be kept up. -/
def checkRenewal (renewal : Option RenewalConfig) : Host Unit :=
  match renewal with
  | none => return ()
  | some renewal => do
    let _ ← .ask (.parseTime renewal.renewUntil) id
    .ensure (renewal.renewAfterSeconds ≠ 0)
      "renewal cadence must be positive when renewal is enabled"

/-- The reporter of a registration. -/
def ReporterRegistration.reporter (registration : ReporterRegistration) (now : Int) :
    StoredReporter where
  serviceOrigin := registration.serviceOrigin
  allowInsecureLoopback := registration.allowInsecureLoopback
  bearerToken := registration.bearerToken
  renewal := registration.renewal
  nextRenewMs := registration.renewal.map fun renewal => now + secondsMs renewal.renewAfterSeconds
  pendingRenewal := none
  reportingDisabled := false

/-- `record_registration`. -/
def recordRegistration (registration : ReporterRegistration) : Host StoredJob := do
  let state ← recover
  checkRenewal registration.renewal
  let reporter := registration.reporter (← nowMs)
  match state.reporter with
  | some existing =>
    .ensure (existing.serviceOrigin = reporter.serviceOrigin ∧
      existing.allowInsecureLoopback = reporter.allowInsecureLoopback ∧
      existing.bearerToken = reporter.bearerToken ∧ existing.renewal = reporter.renewal)
      "local job is already bound to a different reporter registration"
    return state
  | none =>
    .ensure (state.phase = .prepared)
      "reporter registration cannot be changed after launch preparation"
    let start := "acr_" ++ state.identities.reporterId ++ "."
    .ensure (start.toList.isPrefixOf reporter.bearerToken.toList ∧
      start.length < reporter.bearerToken.length)
      "reporter bearer token does not match the prepared reporter identity"
    let state := { state with
      reporter := some reporter
      phase := .registered }
    let observation := state.observation (← newKey) .registered none none none
      "Local job registration is durable; producer has not been launched."
    commitEvent (state.enqueue observation) (.registered reporter observation)

/-- `inspect_job`. -/
def inspectJob : Host StoredJob := do
  let (state, _) ← recoverInner
  return state

/-- A call, with the rounds after which a guardian is stopped. -/
inductive Request
  | initializeLaunchState (input : InitializeJob)
  | recordRegistration (registration : ReporterRegistration)
  | runGuardian (mode : GuardianMode) (polls : Nat)
  | inspectJob

/-- What a call replies. -/
inductive Reply
  | summary (state : StoredJob)
  | outcome (outcome : GuardianOutcome)

/-- The call of a request. -/
def Request.run : Request → Host Reply
  | .initializeLaunchState input => .summary <$> Guardian.initializeLaunchState input
  | .recordRegistration registration => .summary <$> Guardian.recordRegistration registration
  | .runGuardian mode polls => .outcome <$> Guardian.runGuardian mode polls
  | .inspectJob => .summary <$> Guardian.inspectJob

/-! ### Files -/

/-- What follows the last full line of the journal. A part of an event's text is not an event, but
all of it is one, also without the end of the line. -/
inductive Tail
  | none
  | torn
  | whole (event : JournalEvent)
  deriving DecidableEq, Repr

/-- The files of a job, with what has happened so far: how often the producer was spawned, which
keys were made, which observations were sent and which were taken by the service, and which
observations of a terminal outcome have reached the journal. -/
structure Files where
  state : Option StoredJob
  lines : List JournalEvent
  tail : Tail
  spawns : Nat
  keys : List String
  sent : List PendingObservation
  accepted : List PendingObservation
  outcomes : List PendingObservation
  deriving DecidableEq, Repr

/-- `persist::events`. -/
def Files.events (d : Files) : List JournalEvent :=
  match d.tail with
  | .whole event => d.lines ++ [event]
  | .none | .torn => d.lines

/-- The observation of a terminal outcome. -/
def JournalKind.outcome : JournalKind → List PendingObservation
  | .terminal _ observation => [observation]
  | _ => []

/-- The journal with one more event. -/
def Files.appended (d : Files) (event : JournalEvent) : Files :=
  { d with
    lines := d.lines ++ [event]
    tail := .none
    outcomes := d.outcomes ++ event.event.outcome }

/-- What an append that fails may leave: what was there, without its tail, with a part of the event,
with all of it but the end of the line, or with the line. -/
def Files.partlyAppended (d : Files) (event : JournalEvent) : List Files :=
  [d, { d with tail := .none }, { d with tail := .torn },
    { d with
      tail := .whole event
      outcomes := d.outcomes ++ event.event.outcome },
    d.appended event]

/-- What the service has taken when it replies to an observation. -/
def takenWith (status : Nat) (observation : PendingObservation) : List PendingObservation :=
  if isSuccess status then [observation] else []

/-- What an operation leaves. -/
def effects (d : Files) : (op : Op) → host.Answer op → List Files
  | .stateExists, exist => if exist ∧ d.state = .none then [] else [d]
  | .load, .ok state => if d.state = some state then [d] else []
  | .events, .ok events => if d.events = events then [d] else []
  | .save state, .ok () => [{ d with state := some state }]
  | .save state, .error _ => [d, { d with state := some state }]
  | .append event, .ok () => [d.appended event]
  | .append event, .error _ => d.partlyAppended event
  | .newKey, key => if key ∈ d.keys then [] else [{ d with keys := key :: d.keys }]
  | .postObservation _ observation, .ok status =>
    [{ d with
      sent := d.sent ++ [observation]
      accepted := d.accepted ++ takenWith status observation }]
  | .postObservation _ observation, .error _ => [d, { d with sent := d.sent ++ [observation] }]
  | .spawnProducer .., .ok _ => [{ d with spawns := d.spawns + 1 }]
  | _, _ => [d]

/-- The calls. -/
def machine : Machine Files host String Request Reply where
  effects := effects
  crash d := [d]
  others _ _ := False
  procedure := Request.run

end AgentCoordinator.Guardian
