import AgentCoordinator.Schema
import AgentCoordinator.Access
import Mathlib.Data.List.Sort
import Mathlib.Data.Prod.Lex

/-
Job observations, and what maintenance keeps of them.

A reporter sends numbered observations of its job. Each is inserted as a row, and its content
becomes the state of the job; an observation whose number is not a new one is accepted only as the
repetition of the request that made the row. Maintenance inspects old rows in batches, each row
once, and clears the summary of a running observation that says the same as both of its neighbours.
-/

namespace AgentCoordinator

open Guarded Tabular

/-! ### Observations -/

/-- `ObservationInput`. -/
structure ObservationInput where
  sequence : Int
  producer : Id
  state : JobState
  pid : Option Int
  processStartedAt : Option String
  exitCode : Option Int
  inputsUnchanged : Option Bool
  summary : String
  deriving DecidableEq, Repr

/-- `job_observations`. The request hash is a SHA-256 digest of the request; here the request
itself. -/
structure Observation where
  reporter : Id
  sequence : Int
  requestHash : ObservationInput
  producer : Id
  state : JobState
  pid : Option Int
  processStartedAt : Option String
  exitCode : Option Int
  inputsUnchanged : Option Bool
  summary : String
  observedAt : Time
  payloadCompactedAt : Option Time
  retentionCheckedAt : Option Time
  deriving DecidableEq, Repr

instance : Keyed Observation (Id × Int) := ⟨fun o => (o.reporter, o.sequence)⟩

/-- `jobs`, as an observation reads and writes them, under the one reporter each has. -/
structure ReportedJob where
  reporter : Id
  producer : Id
  state : JobState
  lastSequence : Int
  lastObservedAt : Option Time
  pid : Option Int
  processStartedAt : Option String
  exitCode : Option Int
  inputsUnchanged : Option Bool
  summary : String
  deriving DecidableEq, Repr

instance : Keyed ReportedJob Id := ⟨ReportedJob.reporter⟩

/-- The jobs and what was reported of them. -/
structure ReportDb where
  jobs : Table ReportedJob
  observations : Table Observation

/-- `validate_observation`; the values of `state` are those of its type. -/
def validateObservation (input : ObservationInput) : Except AppError Unit := do
  refuseIf (input.sequence ≤ 0 ∨ input.pid.any (· ≤ 0) = true)
    (.badRequest
      "Use a positive sequence, valid producer state, and a positive PID when present.")
  bounded input.summary "summary" 8192 false
  input.processStartedAt.forM fun value => bounded value "process_started_at" 128 true
  refuseIf (input.state = .succeeded ∧ (input.exitCode ≠ some 0 ∨ input.inputsUnchanged = none))
    (.badRequest
      "A succeeded observation requires exit_code 0 and a final input-stability result.")
  refuseIf (input.state = .failed ∧ (input.exitCode = none ∨ input.inputsUnchanged = none))
    (.badRequest "A failed observation requires an exit_code and a final input-stability result.")
  refuseIf (input.state = .notStarted ∧ (input.summary.toList.all isWhitespace = true ∨
      input.pid ≠ none ∨ input.processStartedAt ≠ none ∨ input.exitCode ≠ none))
    (.badRequest
      "not_started requires an explicit local failure summary and no process metadata.")
  refuseIf ((input.state = .registered ∨ input.state = .running ∨ input.state = .unknown) ∧
      input.exitCode ≠ none)
    (.badRequest "Only succeeded or failed observations include an exit_code.")

/-- The row of a new observation. -/
def ObservationInput.row (input : ObservationInput) (reporter : Id) (now : Time) : Observation where
  reporter := reporter
  sequence := input.sequence
  requestHash := input
  producer := input.producer
  state := input.state
  pid := input.pid
  processStartedAt := input.processStartedAt
  exitCode := input.exitCode
  inputsUnchanged := input.inputsUnchanged
  summary := input.summary
  observedAt := now
  payloadCompactedAt := none
  retentionCheckedAt := none

/-- What an observation makes of its job. -/
def ReportedJob.observed (j : ReportedJob) (input : ObservationInput) (now : Time) : ReportedJob :=
  { j with
    state := input.state
    lastSequence := input.sequence
    lastObservedAt := some now
    pid := input.pid
    processStartedAt := input.processStartedAt
    exitCode := input.exitCode
    inputsUnchanged := input.inputsUnchanged
    summary := input.summary }

/-- The row was made by the same request. -/
def ReportDb.replays (s : ReportDb) (reporter : Id) (input : ObservationInput) : Bool :=
  (s.observations.get? (reporter, input.sequence)).any (·.requestHash = input)

/-- A row of the reporter says that the producer was launched. -/
def ReportDb.launched (s : ReportDb) (reporter : Id) : Prop :=
  ∃ o ∈ s.observations, o.reporter = reporter ∧
    (o.state = .running ∨ o.pid ≠ none ∨ o.processStartedAt ≠ none)

instance (s : ReportDb) (reporter : Id) : Decidable (s.launched reporter) :=
  inferInstanceAs (Decidable (∃ o ∈ s.observations, _))

/-- What `observe` checks, once its caller is known to be the reporter: the job, and whether the
observation is the repetition of an accepted one. -/
def acceptObservation (s : ReportDb) (reporter : Id) (input : ObservationInput) :
    Except AppError (ReportedJob × Bool) := do
  validateObservation input
  let j ← okOr (s.jobs.get? reporter) .notFound
  refuseIf (j.producer ≠ input.producer)
    (.conflict "producer_mismatch" "This reporter is scoped to a different producer identity.")
  if input.sequence ≤ j.lastSequence then do
    refuseIf (s.replays reporter input = false)
      (.conflict "observation_sequence_conflict"
        "This observation sequence is stale or was already used with different data.")
    return (j, true)
  else do
    refuseIf (j.state = .succeeded ∨ j.state = .failed ∨ j.state = .notStarted)
      (.conflict "job_terminal" "A terminal producer result cannot be overwritten.")
    refuseIf (input.state = .notStarted ∧ s.launched reporter)
      (.conflict "job_already_launched"
        "not_started cannot replace evidence that the producer launched.")
    refuseIf (input.state = .registered ∧ j.lastSequence > 0)
      (.conflict "job_state_regression"
        "A producer cannot return to registered after later observations.")
    return (j, false)

/-- `observe`: a new observation is inserted, and its content becomes that of the job. -/
def observe (s : ReportDb) (now : Time) (reporter : Id) (input : ObservationInput) :
    Except AppError ReportDb := do
  let accepted ← acceptObservation s reporter input
  if accepted.2 = true then return s
  else do
    let observations ← okOr (s.observations.insert? (input.row reporter now)) .recordConflict
    return { jobs := s.jobs.put (accepted.1.observed input now), observations }

/-- A job is registered with its reporter. -/
def registerJob (s : ReportDb) (reporter producer : Id) : Except AppError ReportDb := do
  let jobs ← okOr (s.jobs.insert?
    ⟨reporter, producer, .registered, 0, none, none, none, none, none, ""⟩) .recordConflict
  return { s with jobs }

/-! ### Compaction -/

/-- Two rows say the same of their producer. -/
def Observation.Repeats (o o' : Observation) : Prop :=
  o.state = o'.state ∧ o.pid = o'.pid ∧ o.processStartedAt = o'.processStartedAt ∧
    o.exitCode = o'.exitCode ∧ o.inputsUnchanged = o'.inputsUnchanged ∧ o.summary = o'.summary

instance (o o' : Observation) : Decidable (o.Repeats o') := by
  unfold Observation.Repeats
  infer_instance

/-- The row of the reporter with the greatest sequence before that of `o`. -/
def IsPrevious (t : Table Observation) (p o : Observation) : Prop :=
  p.reporter = o.reporter ∧ p.sequence < o.sequence ∧
    ∀ q ∈ t, q.reporter = o.reporter → q.sequence < o.sequence → q.sequence ≤ p.sequence

/-- The row of the reporter with the least sequence after that of `o`. -/
def IsFollowing (t : Table Observation) (n o : Observation) : Prop :=
  n.reporter = o.reporter ∧ o.sequence < n.sequence ∧
    ∀ q ∈ t, q.reporter = o.reporter → o.sequence < q.sequence → n.sequence ≤ q.sequence

instance (t : Table Observation) (p o : Observation) : Decidable (IsPrevious t p o) := by
  have : Decidable (∀ q ∈ t, q.reporter = o.reporter → q.sequence < o.sequence →
      q.sequence ≤ p.sequence) := inferInstanceAs (Decidable (∀ q ∈ t.rows, _))
  unfold IsPrevious
  infer_instance

instance (t : Table Observation) (n o : Observation) : Decidable (IsFollowing t n o) := by
  have : Decidable (∀ q ∈ t, q.reporter = o.reporter → o.sequence < q.sequence →
      n.sequence ≤ q.sequence) := inferInstanceAs (Decidable (∀ q ∈ t.rows, _))
  unfold IsFollowing
  infer_instance

/-- A row repeats its previous and its following one. -/
def BetweenEqual (t : Table Observation) (o : Observation) : Prop :=
  (∃ p ∈ t, IsPrevious t p o ∧ p.Repeats o) ∧ ∃ n ∈ t, IsFollowing t n o ∧ n.Repeats o

instance (t : Table Observation) (o : Observation) : Decidable (BetweenEqual t o) := by
  unfold BetweenEqual
  infer_instance

/-- The summary of a candidate may be cleared. -/
def Eligible (t : Table Observation) (o : Observation) : Prop :=
  o.payloadCompactedAt = none ∧ o.state = .running ∧ o.summary ≠ "" ∧ BetweenEqual t o

instance (t : Table Observation) (o : Observation) : Decidable (Eligible t o) := by
  unfold Eligible
  infer_instance

/-- The order in which rows are inspected. -/
def Observation.retentionOrder (o : Observation) : Time ×ₗ Id ×ₗ Int :=
  toLex (o.observedAt, toLex (o.reporter, o.sequence))

/-- The rows a batch inspects: at most `limit` old ones that no batch has inspected. -/
def ReportDb.candidates (s : ReportDb) (cutoff : Time) (limit : Nat) : List Observation :=
  ((s.observations.filter fun o =>
      o.retentionCheckedAt = none ∧ o.observedAt < cutoff).insertionSort
    fun o o' => o.retentionOrder ≤ o'.retentionOrder).take limit

def Observation.compacted (now : Time) (o : Observation) : Observation :=
  { o with summary := "", payloadCompactedAt := some now }

def Observation.checked (now : Time) (o : Observation) : Observation :=
  { o with retentionCheckedAt := some now }

lemma Observation.key_compacted (now : Time) (o : Observation) :
    Keyed.key (o.compacted now) = Keyed.key o := rfl

lemma Observation.key_checked (now : Time) (o : Observation) :
    Keyed.key (o.checked now) = Keyed.key o := rfl

/-- The keys of the candidates. -/
def ReportDb.candidateKeys (s : ReportDb) (cutoff : Time) (limit : Nat) : List (Id × Int) :=
  (s.candidates cutoff limit).map Keyed.key

/-- The keys of the candidates whose summaries are cleared. -/
def ReportDb.eligibleKeys (s : ReportDb) (cutoff : Time) (limit : Nat) : List (Id × Int) :=
  ((s.candidates cutoff limit).filter fun o => decide (Eligible s.observations o)).map Keyed.key

/-- `compact_observations`. -/
def compactObservations (s : ReportDb) (cutoff now : Time) (limit : Nat) : ReportDb :=
  { s with
    observations :=
      (s.observations.modify (fun o => Keyed.key o ∈ s.eligibleKeys cutoff limit)
        (Observation.compacted now) (Observation.key_compacted now)).modify
          (fun o => Keyed.key o ∈ s.candidateKeys cutoff limit ∧ o.retentionCheckedAt = none)
          (Observation.checked now) (Observation.key_checked now) }

/-! ### Runs -/

/-- What happens to the reports. -/
inductive ReportAct
  | register (reporter producer : Id)
  | observe (now : Time) (reporter : Id) (input : ObservationInput)
  | batch (cutoff now : Time) (limit : Nat)

/-- A refused request changes nothing. -/
def ReportDb.step (s : ReportDb) : ReportAct → ReportDb
  | .register reporter producer => (registerJob s reporter producer).toOption.getD s
  | .observe now reporter input =>
    (AgentCoordinator.observe s now reporter input).toOption.getD s
  | .batch cutoff now limit => compactObservations s cutoff now limit

/-- The reports after some acts. -/
def ReportDb.after (acts : List ReportAct) : ReportDb := acts.foldl ReportDb.step ⟨.empty, .empty⟩

/-- The rows an act inspects. -/
def ReportDb.inspects (s : ReportDb) : ReportAct → List (Id × Int)
  | .batch cutoff _ limit => s.candidateKeys cutoff limit
  | _ => []

/-- The rows some acts inspect, batch by batch. -/
def ReportDb.inspections : ReportDb → List ReportAct → List (Id × Int)
  | _, [] => []
  | s, act :: acts => s.inspects act ++ (s.step act).inspections acts

end AgentCoordinator
