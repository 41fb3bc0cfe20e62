import Mathlib.Algebra.Group.Nat.Defs
import AgentCoordinator.Library.Procedure
import AgentCoordinator.Library.Table

/-
The run loop of the supervisor.

Each poll settles the launches that an earlier poll or supervisor left recorded, lets reviewers run,
and claims and runs one task: a record of the launch is written before it is spawned and again with
its process, and it goes once the attempt is released, its cost is in the ledger and its run is
removed. What the coordinator, the operating system and the harness answer is left open, but a look
at the records, at the ledger and at a process tells what is there.
-/

namespace AgentCoordinator.Supervisor

open Procedure Tabular

/-! ### Data -/

/-- `Vendor`. -/
structure Vendor where
  harness : String
  model : String
  effort : String
  deriving DecidableEq, Repr

/-- `Suggestion`. -/
structure Suggestion where
  task : String
  revision : Nat
  title : String
  deriving DecidableEq, Repr

/-- `Launch`; its clone and run are named after its session. -/
structure Launch where
  project : String
  suggestion : Suggestion
  sessionId : String
  vendor : Vendor
  deriving DecidableEq, Repr

/-- `Lease`. -/
structure Lease where
  attempt : String
  generation : Nat
  renewAfterSeconds : Nat
  progressAgeMs : Int
  deriving DecidableEq, Repr

/-- `LaunchRecord`. -/
structure LaunchRecord where
  sessionId : String
  task : String
  attempt : String
  generation : Nat
  bootId : String
  pid : Option Nat
  startTicks : Option Nat
  released : Bool
  recordedMs : Int
  releaseFailures : Nat
  vendor : Option Vendor
  costRecorded : Bool
  project : Option String
  deriving DecidableEq, Repr

instance : Keyed LaunchRecord String := ⟨LaunchRecord.sessionId⟩

/-- `ReviewLaunch`. -/
structure ReviewLaunch where
  session : String
  project : String
  task : String
  activity : String
  attempt : String
  vendor : Vendor
  bootId : String
  recordedMs : Int
  deriving DecidableEq, Repr

instance : Keyed ReviewLaunch String := ⟨ReviewLaunch.session⟩

/-- `Review`, without the policy revisions that its claim pins. -/
structure Review where
  activity : String
  subject : String
  submission : String
  deriving DecidableEq, Repr

/-- `Role`. -/
inductive Role | implementer | reviewer
  deriving DecidableEq, Repr

/-- What a launch's events show: its figures with their handoff sentence, and whether a rate limit
ended it, with the reset time. -/
structure Digest where
  usage : String
  note : String
  exhausted : Option (Option Int)
  deriving DecidableEq, Repr

/-- A line of the cost ledger. -/
structure Row where
  atMs : Int
  role : Role
  project : String
  task : String
  session : String
  attempt : String
  vendor : Vendor
  usage : String
  deriving DecidableEq, Repr

/-- `Ended`. -/
structure Ended where
  code : Int
  drained : Option String
  submitted : Bool
  deriving DecidableEq, Repr

/-- Why a renewal failed: `AttemptEnded` with the attempt's state, or something that passes. -/
inductive RenewError
  | ended (code : String) (state : Option String)
  | failed (error : String)
  deriving DecidableEq, Repr

/-- `Outcome`. -/
inductive Outcome
  | idle
  | refused (reason : String)
  | held (reason : String)
  | launched (task : String) (exitCode : Int)
  | failed (error : String)
  deriving DecidableEq, Repr

/-- The settings that the loop reads. -/
structure Config where
  vendor : Vendor
  reviewer : Bool
  budgetMinutes : Nat
  drainSeconds : Nat
  pollSeconds : Nat
  exhaustedMinutes : Nat
  deriving DecidableEq, Repr

/-- `NO_PID_GRACE_MS`. -/
def noPidGraceMs : Int := 2 * 60 * 1000

/-- `MAX_RELEASE_TRIES`. -/
def maxReleaseTries : Nat := 5

/-- `LIVE_MS`. -/
def liveMs : Int := 50 * 60 * 1000

/-- `MAX_EVENT_AGE_MS`. -/
def maxEventAgeMs : Int := 15 * 60 * 1000

/-- `MAX_CHECKPOINT_AGE_MS`. -/
def maxCheckpointAgeMs : Int := 60 * 60 * 1000

/-- `BEAT_EVERY`, in milliseconds. -/
def beatEvery : Int := 30 * 1000

/-- `RETRY_BASE`, in milliseconds. -/
def retryBase : Int := 30 * 1000

/-- `RETRY_CAP`, in milliseconds. -/
def retryCap : Int := 5 * 60 * 1000

/-- `i64::MAX`. -/
def maxI64 : Int := 9223372036854775807

/-- `i64::saturating_add`. -/
def saturatingAdd (a b : Int) : Int := max (-maxI64 - 1) (min maxI64 (a + b))

/-- `i64::saturating_sub`. -/
def saturatingSub (a b : Int) : Int := max (-maxI64 - 1) (min maxI64 (a - b))

/-- `i64::saturating_mul`. -/
def saturatingMul (a b : Int) : Int := max (-maxI64 - 1) (min maxI64 (a * b))

/-- `millis_of`. -/
def millisOf (count : Nat) (unit : Int) : Int := saturatingMul (min count maxI64) unit

/-! ### Operations -/

/-- What the loop does outside its own memory. -/
inductive Op
  /-- `LaunchRecord::load_all`. -/
  | loadAll
  /-- `LaunchRecord::load`. -/
  | load (session : String)
  /-- `LaunchRecord::save`. -/
  | save (record : LaunchRecord)
  /-- `LaunchRecord::remove`, for which a missing file is no error. -/
  | remove (session : String)
  /-- `ReviewLaunch::load_all`. -/
  | loadReviews
  /-- `ReviewLaunch::save`. -/
  | saveReview (launch : ReviewLaunch)
  /-- `ReviewLaunch::remove`. -/
  | removeReview (session : String)
  /-- `cost::append`. -/
  | append (row : Row)
  /-- `cost::recorded`. -/
  | recorded (role : Role) (session : String)
  /-- `digest` of `Driver::events`, priced. -/
  | digest (session : String)
  /-- `health::mark_exhausted`. -/
  | markExhausted (harness : String) (untilMs : Int)
  | bootId
  /-- `start_ticks`. -/
  | startTicks (pid : Nat)
  | nowMs
  | stopping
  | pause
  /-- `Uuid::new_v4`. -/
  | newSession
  | projects
  | project
  | select (project : String)
  /-- The runs that `sweep_terminal` finds. -/
  | runs
  /-- `refusal`, `health::admit` and `Strikes::total_hold`. -/
  | admission
  /-- `health::capped`. -/
  | capped (role : Role)
  /-- `Strikes::held_tasks`. -/
  | heldTasks
  /-- `Strikes::task_hold`. -/
  | taskHold (task : String)
  /-- `next` for the implementer, with the candidates that it left out. -/
  | next (exclude : List String)
  | create (launch : Launch)
  | claim (launch : Launch)
  | register (launch : Launch) (lease : Lease)
  /-- `render_prompt`, `instructions` and `install_prompt`. -/
  | installPrompt (launch : Launch) (lease : Lease)
  | start (launch : Launch)
  | exited (session : String)
  | signal (kill : Bool)
  | lastEventMs (session : String)
  | heartbeat (task : String)
  | renew (launch : Launch) (lease : Lease)
  | attemptState (launch : Launch) (lease : Lease)
  | release (launch : Launch) (lease : Lease) (summary : String)
  | hasMarker (session marker : String)
  | discard (session : String)
  /-- `unsubmitted::submitted`. -/
  | strikesCleared (task : String)
  /-- `unsubmitted::evidence` of a launch that ran. -/
  | evidence (launch : Launch) (ended : Ended)
  | beat (iteration : Nat) (outcome : Outcome)
  | reportCosts
  /-- Whether the driver has a reviewer side. -/
  | reviewer
  /-- `next` for the reviewer, when no submission that it offers is held. -/
  | nextReview
  /-- `claim_review` in a session: the attempt and its generation. -/
  | claimReview (review : Review) (session : String)
  /-- `LiveReviewer::launch`: the launch's final output. -/
  | launchReview (launch : ReviewLaunch)
  /-- `LiveReviewer::events`, digested. -/
  | reviewEvents (session : String)
  /-- `LiveReviewer::discard`. -/
  | discardReview (session : String)
  /-- The verdict of a final output, checked and posted. -/
  | decide (review : Review) (attempt : String) (output : String)
  | releaseReview (review : Review) (attempt : String) (summary : String)
  /-- What never returns: the supervisor goes on as it is until it is stopped. -/
  | forever
  deriving DecidableEq, Repr

/-- The operations with their answers. -/
@[reducible] def driver : Interface where
  Op := Op
  Answer
    | .loadAll => List LaunchRecord
    | .load _ => Option LaunchRecord
    | .loadReviews => List ReviewLaunch
    | .recorded .. | .stopping | .hasMarker .. | .reviewer => Bool
    | .digest _ => Digest
    | .bootId | .project | .newSession => String
    | .evidence .. => String
    | .startTicks _ => Option Nat
    | .nowMs => Int
    | .projects | .runs | .heldTasks => List String
    | .admission => Except String Vendor
    | .capped _ => Except String Unit
    | .taskHold _ => Option String
    | .next _ => Except String (Option Suggestion × List String)
    | .claim _ => Except String Lease
    | .start _ => Except String (Nat × Option Nat)
    | .exited _ => Option Int
    | .lastEventMs _ => Option Int
    | .renew .. => Except RenewError Lease
    | .attemptState .. => Option String
    | .nextReview => Option Review
    | .claimReview .. => Except String String
    | .launchReview _ => Except String String
    | .reviewEvents _ => Option Digest
    | .save _ | .remove _ | .saveReview _ | .removeReview _ | .append _ | .create _ |
      .register .. | .installPrompt .. | .release .. | .discard _ | .beat .. | .decide .. |
      .releaseReview .. => Except String Unit
    | .markExhausted .. | .pause | .select _ | .signal _ | .heartbeat _ | .strikesCleared _ |
      .reportCosts | .discardReview _ | .forever => Unit

/-- A part of the loop. It does not fail: an error that it meets is a value. -/
abbrev Loop := Proc driver Empty

/-- An operation. -/
def perform (op : Op) : Loop (driver.Answer op) := .call op .pure

/-- The operator `?`. -/
def orFail {α β : Type} (r : Except String α) (f : α → Loop (Except String β)) :
    Loop (Except String β) :=
  match r with
  | .ok a => f a
  | .error error => return .error error

/-- An error with the step that met it. -/
def inContext {α : Type} (r : Except String α) (step : String) : Except String α :=
  match r with
  | .ok a => .ok a
  | .error error => .error (step ++ ": " ++ error)

/-! ### Launch records -/

/-- `LaunchRecord::new`. -/
def LaunchRecord.new (launch : Launch) (lease : Lease) (bootId : String) (now : Int) :
    LaunchRecord where
  sessionId := launch.sessionId
  task := launch.suggestion.task
  attempt := lease.attempt
  generation := lease.generation
  bootId := bootId
  pid := none
  startTicks := none
  released := false
  recordedMs := now
  releaseFailures := 0
  vendor := some launch.vendor
  costRecorded := false
  project := some launch.project

/-- The record with the process of its launch. -/
def LaunchRecord.spawned (record : LaunchRecord) (pid : Nat) (ticks : Option Nat) : LaunchRecord :=
  { record with
    pid := some pid
    startTicks := ticks }

/-- `LaunchRecord::launch`. -/
def LaunchRecord.launch (record : LaunchRecord) (config : Config) (project : String) :
    Launch where
  project := project
  suggestion := ⟨record.task, 0, ""⟩
  sessionId := record.sessionId
  vendor := record.vendor.getD config.vendor

/-- `LaunchRecord::lease`. -/
def LaunchRecord.lease (record : LaunchRecord) : Lease where
  attempt := record.attempt
  generation := record.generation
  renewAfterSeconds := 60
  progressAgeMs := 0

/-- `Driver::may_be_alive`. -/
def mayBeAlive (record : LaunchRecord) : Loop Bool := do
  let now ← perform .nowMs
  let boot ← perform .bootId
  if boot = "" ∨ record.bootId = "" then return true
  else if record.bootId ≠ boot then return false
  else
    match record.pid, record.startTicks with
    | some pid, some started => do
      let ticks ← perform (.startTicks pid)
      return ticks = some started
    | some _, none => return true
    | none, _ => return saturatingSub now record.recordedMs ≤ noPidGraceMs

/-- The record once its release was tried. -/
def LaunchRecord.tried (record : LaunchRecord) (released : Except String Unit) : LaunchRecord :=
  match released with
  | .ok () => { record with released := true }
  | .error _ => { record with
    released := false
    releaseFailures := record.releaseFailures + 1 }

/-- `record::release`. -/
def release (launch : Launch) (record : LaunchRecord) (summary : String) : Loop LaunchRecord := do
  let released ← perform (.release launch record.lease summary)
  let _ ← perform (.save (record.tried released))
  return record.tried released

/-- `mark_submitted`. -/
def markSubmitted (record : LaunchRecord) : Loop Unit := do
  let _ ← perform (.save { record with released := true })
  return ()

/-- `reset_retries`, for the records that it has read. -/
def resetEach : List LaunchRecord → Loop Unit
  | [] => return ()
  | record :: rest => do
    if 0 < record.releaseFailures then
      let _ ← perform (.save { record with releaseFailures := 0 })
      resetEach rest
    else resetEach rest

/-- `reset_retries`. -/
def resetRetries : Loop Unit := do
  resetEach (← perform .loadAll)

/-! ### Costs -/

/-- `entry`, without the figures' own fields. -/
def Launch.row (launch : Launch) (record : LaunchRecord) (usage : String) (now : Int) : Row where
  atMs := now
  role := .implementer
  project := launch.project
  task := launch.suggestion.task
  session := launch.sessionId
  attempt := record.attempt
  vendor := launch.vendor
  usage := usage

/-- A launch that a rate limit ended has its vendor marked. -/
def markIfExhausted (config : Config) (launch : Launch) (digest : Digest) (now : Int) :
    Loop Unit :=
  match digest.exhausted with
  | some reset => perform (.markExhausted launch.vendor.harness
      (reset.getD (saturatingAdd now (millisOf config.exhaustedMinutes 60000))))
  | none => return ()

/-- `cost::settle`. -/
def costSettle (config : Config) (launch : Launch) (record : LaunchRecord) : Loop String := do
  let digest ← perform (.digest launch.sessionId)
  let now ← perform .nowMs
  markIfExhausted config launch digest now
  let _ ← perform (.append (launch.row record digest.usage now))
  return digest.note

/-- `settle_cost`: the record with the cost settled, and the handoff's sentence. -/
def settleCost (config : Config) (launch : Launch) (record : LaunchRecord) :
    Loop (LaunchRecord × String) := do
  if record.costRecorded then return (record, "")
  else
    let sentence ← costSettle config launch record
    let _ ← perform (.save { record with costRecorded := true })
    return ({ record with costRecorded := true }, sentence)

/-! ### Recovery -/

/-- `RECOVERED`. -/
def recovered : String :=
  "agentc-supervisor released the attempt: its launch ended while no supervisor watched it " ++
    "(crash or restart). Read the last checkpoint before resuming."

/-- `settle`, once the attempt is released. -/
def discardRecorded (session : String) : Loop Unit := do
  match ← perform (.discard session) with
  | .ok () =>
    let _ ← perform (.remove session)
    return ()
  | .error _ => return ()

/-- `record::settle`, once the record's project is selected. -/
def settleSelected (config : Config) (record : LaunchRecord) : Loop Unit := do
  let project ← perform .project
  let launch := record.launch config project
  let (record, cost) ← settleCost config launch record
  if record.released then discardRecorded record.sessionId
  else
    let record ← release launch record (recovered ++ " " ++ cost).trimAsciiEnd.toString
    if record.released then discardRecorded record.sessionId
    else return ()

/-- `record::settle`. -/
def settle (config : Config) (record : LaunchRecord) : Loop Unit := do
  match record.project with
  | some project => perform (.select project)
  | none => pure ()
  settleSelected config record

/-- `record::recover`, for the records that it has read: those that may be alive. -/
def recoverEach (config : Config) : List LaunchRecord → Loop (List String)
  | [] => return []
  | record :: rest => do
    if ← mayBeAlive record then
      let running ← recoverEach config rest
      return record.sessionId :: running
    else if record.releaseFailures < maxReleaseTries then
      settle config record
      recoverEach config rest
    else recoverEach config rest

/-- `record::recover`. -/
def recover (config : Config) : Loop (Option String) := do
  let records ← perform .loadAll
  let running ← recoverEach config records
  if running = [] then return none
  else
    return some ("an earlier launch may still run (" ++ String.intercalate ", " running ++ ")")

/-- The marker that a launch's harness was started. -/
def startedMarker : String := ".state-started"

/-- The marker that it has exited. -/
def terminalMarker : String := ".state-terminal.json"

/-- `sweep_terminal`, for the runs that it finds. -/
def sweepEach : List String → Loop Unit
  | [] => return ()
  | session :: rest => do
    let record ← perform (.load session)
    if record.isNone then
      let terminal ← perform (.hasMarker session terminalMarker)
      if terminal then
        let _ ← perform (.discard session)
        sweepEach rest
      else sweepEach rest
    else sweepEach rest

/-- `sweep_terminal`. -/
def sweepTerminal : Loop Unit := do
  sweepEach (← perform .runs)

/-! ### Leases -/

/-- `Watch`. -/
structure Watch where
  started : Int
  seen : Int
  beatAt : Int
  renewAt : Option Int
  failures : Nat
  killAt : Option Int
  drainReason : Option String
  submitted : Bool
  deriving DecidableEq, Repr

/-- `cadence`. -/
def cadence (lease : Lease) : Int := millisOf lease.renewAfterSeconds 1000

/-- `backoff`. -/
def backoff (lease : Lease) (failures : Nat) : Int :=
  min (saturatingMul retryBase (2 ^ min (failures - 1) 16 : Nat)) (min retryCap (cadence lease))

/-- `Watch::new`. -/
def Watch.new (now : Int) (lease : Lease) : Watch where
  started := now
  seen := now
  beatAt := now
  renewAt := some (saturatingAdd now (cadence lease))
  failures := 0
  killAt := none
  drainReason := none
  submitted := false

/-- `Watch::gates` and `Gates::refusal`. -/
def Watch.refusal (watch : Watch) (lease : Lease) (event : Option Int) (budgetMinutes : Nat)
    (now : Int) : Option String :=
  let eventAge := now - event.getD watch.started
  let progressAge := lease.progressAgeMs + now - watch.seen
  let elapsed := now - watch.started
  if maxEventAgeMs < eventAge then
    some ("no harness event for " ++ toString (eventAge / 60000) ++ " min")
  else if maxCheckpointAgeMs < progressAge then
    some ("no checkpoint for " ++ toString (progressAge / 60000) ++ " min")
  else if millisOf budgetMinutes 60000 < elapsed then
    some ("the budget is spent after " ++ toString (elapsed / 60000) ++ " min")
  else none

/-- A look at whether the host supervisor stops, unless the watch drains already. -/
def Watch.lookAtStop (watch : Watch) : Loop Watch := do
  if watch.drainReason.isNone then
    let stopping ← perform .stopping
    return if stopping then { watch with drainReason := some "the host supervisor stopped" }
      else watch
  else return watch

/-- The signal that is due, if the watch drains. -/
def Watch.signal (config : Config) (watch : Watch) (now : Int) : Loop Watch := do
  match watch.drainReason, watch.killAt with
  | none, _ => return watch
  | some _, none =>
    perform (.signal false)
    return { watch with killAt := some (saturatingAdd now (millisOf config.drainSeconds 1000)) }
  | some _, some at' =>
    if at' ≤ now then
      perform (.signal true)
      return { watch with killAt := some maxI64 }
    else return watch

/-- `drain`. -/
def drain (config : Config) (watch : Watch) (now : Int) : Loop Watch := do
  let watch ← watch.lookAtStop
  watch.signal config now

/-- `lease::stop`. -/
def Watch.stop (watch : Watch) (attempt code : String) (state : Option String) : Watch :=
  { watch with
    renewAt := none
    drainReason := some (if state = some "submitted" then
      "the agent submitted attempt " ++ attempt ++ "; it is not released"
      else "attempt " ++ attempt ++ ": " ++ code)
    submitted := state = some "submitted" }

/-- `lease::renew`. -/
def renew (config : Config) (launch : Launch) (lease : Lease) (watch : Watch) (now : Int) :
    Loop (Lease × Watch) := do
  let event ← perform (.lastEventMs launch.sessionId)
  match watch.refusal lease event config.budgetMinutes now with
  | some reason => return (lease, { watch with
      renewAt := none
      drainReason := some reason })
  | none =>
    match ← perform (.renew launch lease) with
    | .ok renewed => return (renewed, { watch with
        seen := now
        failures := 0
        renewAt := some (saturatingAdd now (cadence renewed)) })
    | .error (.ended code state) => return (lease, watch.stop lease.attempt code state)
    | .error (.failed _) => return (lease, { watch with
        failures := watch.failures + 1
        renewAt := some (saturatingAdd now (backoff lease (watch.failures + 1))) })

/-- A renewal is due. -/
def Watch.Due (watch : Watch) (now : Int) : Prop :=
  watch.drainReason = none ∧ watch.renewAt.any fun at' => at' ≤ now

instance (watch : Watch) (now : Int) : Decidable (watch.Due now) := by
  unfold Watch.Due
  infer_instance

/-- The heartbeat, when it is due. -/
def Watch.beat (launch : Launch) (watch : Watch) (now : Int) : Loop Watch := do
  if watch.beatAt ≤ now then
    perform (.heartbeat launch.suggestion.task)
    return { watch with beatAt := saturatingAdd now beatEvery }
  else return watch

/-- The renewal, when it is due. -/
def renewDue (config : Config) (launch : Launch) (lease : Lease) (watch : Watch) (now : Int) :
    Loop (Lease × Watch) :=
  if watch.Due now then renew config launch lease watch now else return (lease, watch)

/-- `supervise`, from a watch and for at most `ticks` looks at the launch. -/
def superviseFrom (config : Config) (launch : Launch) (lease : Lease) (watch : Watch) :
    Nat → Loop Ended
  | 0 => do
    perform .forever
    return ⟨0, watch.drainReason, watch.submitted⟩
  | ticks + 1 => do
    match ← perform (.exited launch.sessionId) with
    | some code => return ⟨code, watch.drainReason, watch.submitted⟩
    | none =>
      let now ← perform .nowMs
      let watch ← watch.beat launch now
      let watch ← drain config watch now
      let (lease, watch) ← renewDue config launch lease watch now
      perform .pause
      superviseFrom config launch lease watch ticks

/-- `supervise`. -/
def supervise (config : Config) (launch : Launch) (lease : Lease) (ticks : Nat) : Loop Ended := do
  superviseFrom config launch lease (.new (← perform .nowMs) lease) ticks

/-! ### Work -/

/-- `submitted`. -/
def submitted (launch : Launch) (record : LaunchRecord) (result : Except String Ended) :
    Loop Bool :=
  match result with
  | .error _ => return false
  | .ok ended => do
    if ended.submitted then return true
    else
      let state ← perform (.attemptState launch record.lease)
      return state = some "submitted"

/-- `prepare_claimed`. -/
def prepareClaimed (launch : Launch) (lease : Lease) : Loop (Except String Unit) := do
  let registered ← perform (.register launch lease)
  orFail (inContext registered "register the checkout") fun _ => do
    let installed ← perform (.installPrompt launch lease)
    return inContext installed "prompt"

/-- `run_claimed`, with the record that it leaves. -/
def runClaimed (config : Config) (launch : Launch) (record : LaunchRecord) (lease : Lease)
    (ticks : Nat) : Loop (Except String Ended × LaunchRecord) := do
  match ← prepareClaimed launch lease with
  | .error error => return (.error error, record)
  | .ok () =>
    match ← perform (.start launch) with
    | .error error => return (.error ("launch: " ++ error), record)
    | .ok (pid, ticksAtStart) =>
      let record := record.spawned pid ticksAtStart
      let _ ← perform (.save record)
      let ended ← supervise config launch lease ticks
      return (.ok ended, record)

/-- `handoff`. -/
def handoff (result : Except String Ended) (cost evidence : String) : String :=
  let how := match result with
    | .ok ended => "the launch exited with code " ++ toString ended.code ++
        (match ended.drained with | some why => " after a drain (" ++ why ++ ")" | none => "")
    | .error error => "the launch failed: " ++ error
  String.ofList ((("agentc-supervisor released the attempt: " ++ how ++ ". " ++ cost ++ evidence ++
    " Read the last checkpoint before resuming.").toList).take 4000)

/-- The facts of a launch that ran, for its handoff. -/
def evidence (launch : Launch) (result : Except String Ended) : Loop String :=
  match result with
  | .error _ => return ""
  | .ok ended => perform (.evidence launch ended)

/-- The end of `work`: the attempt was submitted, or it is released. -/
def settleAttempt (launch : Launch) (record : LaunchRecord) (result : Except String Ended)
    (cost : String) : Loop Unit := do
  if ← submitted launch record result then
    markSubmitted record
    perform (.strikesCleared launch.suggestion.task)
  else
    let evidence ← evidence launch result
    let _ ← release launch record (handoff result cost evidence)
    return ()

/-- `work`, once the launch is recorded, or the record could not be written. -/
def runRecorded (config : Config) (launch : Launch) (record : LaunchRecord) (lease : Lease)
    (ticks : Nat) (saved : Except String Unit) : Loop (Except String Ended × LaunchRecord) :=
  match saved with
  | .error error => return (.error ("record the launch: " ++ error), record)
  | .ok () => runClaimed config launch record lease ticks

/-- `work`, once the task is claimed. -/
def workClaimed (config : Config) (launch : Launch) (lease : Lease) (ticks : Nat) :
    Loop (Except String Int) := do
  let bootId ← perform .bootId
  let now ← perform .nowMs
  let record := LaunchRecord.new launch lease bootId now
  let saved ← perform (.save record)
  let (result, record) ← runRecorded config launch record lease ticks saved
  let (record, cost) ← settleCost config launch record
  settleAttempt launch record result cost
  return result.map Ended.code

/-- `work`. -/
def work (config : Config) (launch : Launch) (ticks : Nat) : Loop (Except String Int) := do
  let created ← perform (.create launch)
  orFail (inContext created "create clone and run") fun _ => do
    let stopping ← perform .stopping
    if stopping then return .error "the loop is stopping; no new claims"
    else
      let claimed ← perform (.claim launch)
      orFail (inContext claimed "claim") fun lease => workClaimed config launch lease ticks

/-- Whether the run of a launch that was started has ended. -/
def terminal (session : String) : Loop Bool := do
  let started ← perform (.hasMarker session startedMarker)
  if started then perform (.hasMarker session terminalMarker) else return true

/-- `remove_finished`. -/
def removeFinished (launch : Launch) : Loop (Except String Bool) := do
  let terminal ← terminal launch.sessionId
  if terminal = false then return .ok false
  else
    let discarded ← perform (.discard launch.sessionId)
    return discarded.map fun _ => true

/-- The end of a launch whose attempt needs no release: its run and record go once it has ended. -/
def removeSettled (launch : Launch) : Loop Unit := do
  match ← removeFinished launch with
  | .ok true =>
    let _ ← perform (.remove launch.sessionId)
    return ()
  | _ => return ()

/-- The outcome of a launch. -/
def Launch.outcome (launch : Launch) (result : Except String Int) : Outcome :=
  match result with
  | .ok exitCode => .launched launch.suggestion.task exitCode
  | .error error => .failed (launch.suggestion.task ++ ": " ++ error)

/-- `finish`. -/
def finish (launch : Launch) (result : Except String Int) : Loop Outcome := do
  let record ← perform (.load launch.sessionId)
  if record.any fun record => record.released = false then return launch.outcome result
  else
    removeSettled launch
    return launch.outcome result

/-! ### Reviews -/

/-- `ReviewLaunch::may_be_waited_for`. -/
def ReviewLaunch.mayBeWaitedFor (launch : ReviewLaunch) (boot : String) (now : Int) : Prop :=
  (boot = "" ∨ launch.bootId = "" ∨ launch.bootId = boot) ∧
    saturatingSub now launch.recordedMs ≤ liveMs

instance (launch : ReviewLaunch) (boot : String) (now : Int) :
    Decidable (launch.mayBeWaitedFor boot now) := by
  unfold ReviewLaunch.mayBeWaitedFor
  infer_instance

/-- The line of `settle_review`, without the figures' own fields. -/
def ReviewLaunch.row (launch : ReviewLaunch) (usage : String) (now : Int) : Row where
  atMs := now
  role := .reviewer
  project := launch.project
  task := launch.task
  session := launch.session
  attempt := launch.attempt
  vendor := launch.vendor
  usage := usage

/-- `review_cost::settle`, with `cost::settle_review`. -/
def settleReview (launch : ReviewLaunch) (events : Option Digest) (now : Int) : Loop Bool :=
  match events with
  | none => return true
  | some digest => do
    let recorded ← perform (.recorded .reviewer launch.session)
    if recorded then return true
    else
      match ← perform (.append (launch.row digest.usage now)) with
      | .ok () => return true
      | .error _ => return false

/-- The end of a review launch whose events were read: its cost, then its run and its record. -/
def endReview (launch : ReviewLaunch) (events : Option Digest) (now : Int) : Loop Unit := do
  if ← settleReview launch events now then
    perform (.discardReview launch.session)
    let _ ← perform (.removeReview launch.session)
    return ()
  else return ()

/-- `review_cost::recover`, for the records that it has read. -/
def recoverReviewEach (boot : String) (now : Int) : List ReviewLaunch → Loop Unit
  | [] => return ()
  | launch :: rest => do
    if launch.mayBeWaitedFor boot now then recoverReviewEach boot now rest
    else
      let events ← perform (.reviewEvents launch.session)
      endReview launch events now
      recoverReviewEach boot now rest

/-- `LiveReviewer::recover`. -/
def recoverReviews : Loop Unit := do
  let boot ← perform .bootId
  let now ← perform .nowMs
  recoverReviewEach boot now (← perform .loadReviews)

/-- `run_reviewer`. -/
def runReviewer (config : Config) (review : Review) (attempt session : String) :
    Loop (Except String String) := do
  let project ← perform .project
  let bootId ← perform .bootId
  let recordedMs ← perform .nowMs
  let launch : ReviewLaunch := ⟨session, project, review.subject, review.activity, attempt,
    config.vendor, bootId, recordedMs⟩
  let saved ← perform (.saveReview launch)
  let output ← orFail (inContext saved "record the review launch") fun _ =>
    perform (.launchReview launch)
  let events ← perform (.reviewEvents session)
  let now ← perform .nowMs
  endReview launch events now
  return output

/-- `review`, with `claim_and_judge`. -/
def review (config : Config) : Loop Unit := do
  match ← perform .nextReview with
  | none => return ()
  | some review =>
    let session ← perform .newSession
    match ← perform (.claimReview review session) with
    | .error _ => return ()
    | .ok attempt =>
      let output ← runReviewer config review attempt session
      let decided ← orFail output fun output => perform (.decide review attempt output)
      match decided with
      | .ok () => return ()
      | .error error =>
        let _ ← perform (.releaseReview review attempt
          ("agentc-supervisor posted no verdict: " ++ error ++ ". The review is queued again."))
        return ()

/-- `review_hook`, once the earlier reviews are recovered. -/
def reviewCapped (config : Config) : Loop Unit := do
  match ← perform (.capped .reviewer) with
  | .error _ => return ()
  | .ok () =>
    let reviewer ← perform .reviewer
    if reviewer then review config else return ()

/-- `review_hook`. -/
def reviewHook (config : Config) : Loop Unit := do
  let reviewer ← perform .reviewer
  if reviewer then recoverReviews else pure ()
  reviewCapped config

/-! ### Polls -/

/-- The reviews of each project. -/
def reviewEach (config : Config) : List String → Loop Unit
  | [] => return ()
  | project :: rest => do
    perform (.select project)
    reviewHook config
    reviewEach config rest

/-- `iterate_reporting`, for the projects that are left: the outcome of a launch, or the first
error and the tasks that were passed over. -/
def nextEach (config : Config) (vendor : Vendor) (exclude : List String) (ticks : Nat) :
    List String → Option String → List String → Loop (Outcome ⊕ Option String × List String)
  | [], failure, skipped => return .inr (failure, skipped)
  | project :: rest, failure, skipped => do
    perform (.select project)
    match ← perform (.next exclude) with
    | .error error =>
      nextEach config vendor exclude ticks rest (failure.orElse fun _ => some ("next: " ++ error))
        skipped
    | .ok (suggestion, excluded) =>
      let skipped := skipped ++ excluded.filter fun task => task ∈ exclude ∧ task ∉ skipped
      match suggestion with
      | none => nextEach config vendor exclude ticks rest failure skipped
      | some suggestion =>
        let hold ← perform (.taskHold suggestion.task)
        if hold.isSome then
          nextEach config vendor exclude ticks rest failure (skipped ++ [suggestion.task])
        else
          let session ← perform .newSession
          let launch : Launch := ⟨project, suggestion, session, vendor⟩
          let result ← work config launch ticks
          return .inl (← finish launch result)

/-- `iterate_reporting`, from `next` on. -/
def iterateNext (config : Config) (vendor : Vendor) (projects : List String) (main : String)
    (ticks : Nat) : Loop Outcome := do
  let exclude ← perform .heldTasks
  let left ← nextEach config vendor exclude ticks (projects.drop 1 ++ projects.take 1) none []
  perform (.select main)
  match left with
  | .inl outcome => return outcome
  | .inr (some failure, _) => return .failed failure
  | .inr (none, []) => return .idle
  | .inr (none, skipped) => return .held (String.intercalate "; " skipped)

/-- `iterate_reporting`, once the poll is admitted. -/
def iterateAdmitted (config : Config) (vendor : Vendor) (projects : List String) (main : String)
    (ticks : Nat) : Loop Outcome := do
  if config.reviewer then reviewEach config projects else pure ()
  iterateNext config vendor projects main ticks

/-- `iterate_reporting`. -/
def iterate (config : Config) (ticks : Nat) : Loop Outcome := do
  let projects ← perform .projects
  let main := projects.headD ""
  perform (.select main)
  match ← recover config with
  | some reason => return .refused reason
  | none =>
    perform (.select main)
    match ← perform .admission with
    | .error reason => return .refused reason
    | .ok vendor => iterateAdmitted config vendor projects main ticks

/-- `idle`. -/
def idle : Nat → Loop Bool
  | 0 => perform .stopping
  | seconds + 1 => do
    let stopping ← perform .stopping
    if stopping then return true
    else
      perform .pause
      idle seconds

/-- The loop of `run`, for at most `polls` polls. -/
def pollFrom (config : Config) (once : Bool) (ticks iteration : Nat) : Nat → Loop Unit
  | 0 => perform .forever
  | polls + 1 => do
    let outcome ← iterate config ticks
    let _ ← perform (.beat iteration outcome)
    perform .reportCosts
    if once then return ()
    else
      let stopped ← idle (max config.pollSeconds 5)
      if stopped then return ()
      else pollFrom config once ticks (iteration + 1) polls

/-- `run`. -/
def run (config : Config) (once : Bool) (polls ticks : Nat) : Loop Unit := do
  sweepTerminal
  resetRetries
  pollFrom config once ticks 1 polls

/-- A start of the supervisor, with the polls and the looks at a launch that it gets to. -/
structure Request where
  config : Config
  once : Bool
  polls : Nat
  ticks : Nat

/-- The procedure of a start. -/
def Request.run (request : Request) : Loop Unit :=
  Supervisor.run request.config request.once request.polls request.ticks

/-! ### The host -/

/-- A running `launch-root`, with the start time that was read when it was spawned. -/
structure Process where
  session : String
  pid : Nat
  ticks : Option Nat
  deriving DecidableEq, Repr

/-- The files of the supervisor and the processes of its host, with what has happened so far: the
sessions that were made, those whose attempt was released or found submitted, the reviewer launches
that wrote events, and the launches whose record was removed. -/
structure Host where
  records : Table LaunchRecord
  reviews : Table ReviewLaunch
  ledger : List Row
  reviewEvents : List String
  boot : String
  clock : Int
  processes : List Process
  sessions : List String
  settled : List String
  wrote : List String
  removed : List (Role × String)

/-- A record written. -/
def Host.saved (d : Host) (record : LaunchRecord) : Host :=
  { d with records := d.records.put record }

/-- What was removed, with a record more if there was one. -/
def dropped {α : Type} (record : Option α) (role : Role) (session : String)
    (removed : List (Role × String)) : List (Role × String) :=
  if record.isSome then (role, session) :: removed else removed

/-- A record removed. -/
def Host.dropped (d : Host) (session : String) : Host :=
  { d with
    records := d.records.erase session
    removed := Supervisor.dropped (d.records.get? session) .implementer session d.removed }

/-- A review record written. -/
def Host.savedReview (d : Host) (launch : ReviewLaunch) : Host :=
  { d with reviews := d.reviews.put launch }

/-- A review record removed. -/
def Host.droppedReview (d : Host) (session : String) : Host :=
  { d with
    reviews := d.reviews.erase session
    removed := Supervisor.dropped (d.reviews.get? session) .reviewer session d.removed }

/-- A line more in the ledger. -/
def Host.appended (d : Host) (row : Row) : Host := { d with ledger := d.ledger ++ [row] }

/-- An attempt that is over. -/
def Host.settling (d : Host) (session : String) : Host :=
  { d with settled := session :: d.settled }

/-- A process more. -/
def Host.spawning (d : Host) (p : Process) : Host := { d with processes := p :: d.processes }

/-- A reviewer launch that has written events. -/
def Host.writing (d : Host) (session : String) : Host :=
  { d with
    reviewEvents := session :: d.reviewEvents
    wrote := session :: d.wrote }

/-- A reviewer's run removed. -/
def Host.discardedReview (d : Host) (session : String) : Host :=
  { d with reviewEvents := d.reviewEvents.filter fun s => s ≠ session }

/-- What an operation leaves. A save or a removal that fails may still have been made, and so may an
append; a clock does not go back; and a process that runs is found with its start time. -/
def effects (d : Host) : (op : Op) → driver.Answer op → List Host
  | .loadAll, records => if records.Perm d.records.rows then [d] else []
  | .load session, record => if record = d.records.get? session then [d] else []
  | .save record, .ok _ => [d.saved record]
  | .save record, .error _ => [d, d.saved record]
  | .remove session, .ok _ => [d.dropped session]
  | .remove session, .error _ => [d, d.dropped session]
  | .loadReviews, launches => if launches.Perm d.reviews.rows then [d] else []
  | .saveReview launch, .ok _ => [d.savedReview launch]
  | .saveReview launch, .error _ => [d, d.savedReview launch]
  | .removeReview session, .ok _ => [d.droppedReview session]
  | .removeReview session, .error _ => [d, d.droppedReview session]
  | .append row, .ok _ => [d.appended row]
  | .append row, .error _ => [d, d.appended row]
  | .recorded role session, found =>
    if found = d.ledger.any fun row => row.role = role ∧ row.session = session then [d] else []
  | .bootId, boot => if boot = "" ∨ boot = d.boot then [d] else []
  | .startTicks pid, ticks =>
    if ∀ p ∈ d.processes, p.pid = pid → p.ticks = none ∨ p.ticks = ticks then [d] else []
  | .nowMs, now => if d.clock ≤ now then [{ d with clock := now }] else []
  | .newSession, session =>
    if session ∈ d.sessions then [] else [{ d with sessions := session :: d.sessions }]
  | .start launch, .ok (pid, ticks) =>
    [d.spawning ⟨launch.sessionId, pid, ticks⟩]
  | .exited session, some _ =>
    if d.processes.any fun p => p.session = session then [] else [d]
  | .renew launch _, .error (.ended _ state) =>
    if state = some "submitted" then [d.settling launch.sessionId] else [d]
  | .attemptState launch _, state =>
    if state = some "submitted" then [d.settling launch.sessionId] else [d]
  | .release launch _ _, .ok _ => [d.settling launch.sessionId]
  | .launchReview launch, _ => [d, d.writing launch.session]
  | .reviewEvents session, some _ => if session ∈ d.reviewEvents then [d] else []
  | .discardReview session, _ => [d, d.discardedReview session]
  | .forever, _ => []
  | _, _ => [d]

/-- A process has ended. -/
def Ends (d d' : Host) : Prop := ∃ p ∈ d.processes, d' = { d with processes := d.processes.erase p }

/-- A host on which no supervisor has run yet. -/
structure Host.Fresh (d : Host) : Prop where
  records : d.records = .empty
  reviews : d.reviews = .empty
  ledger : d.ledger = []
  reviewEvents : d.reviewEvents = []
  processes : d.processes = []
  settled : d.settled = []
  wrote : d.wrote = []
  removed : d.removed = []

/-- The host was started again. -/
def Host.rebooted (d : Host) : Host :=
  { d with
    boot := d.boot ++ "+"
    processes := [] }

/-- The supervisor on its host. It is stopped, or crashes, or the host goes down with it. -/
def machine : Machine Host driver Empty Request Unit where
  effects := effects
  crash d := [d, d.rebooted]
  others := Ends
  procedure := Request.run

end AgentCoordinator.Supervisor
