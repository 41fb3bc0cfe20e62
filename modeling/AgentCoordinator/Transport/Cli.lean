import AgentCoordinator.Access
import AgentCoordinator.Library.Guarded
import AgentCoordinator.Library.Outbox

/-
The mutations of the command line.

A command saves its mutation in the state of the session before it sends it. A command that wants
what is pending sends that again under its old key; any other must wait. A process holds the
session's lock from reading the state to its exit, and exits when it cannot save.
-/

namespace AgentCoordinator.Cli

open Guarded Outbox

/-- `HttpMethod`. -/
inductive HttpMethod
  | get | post | patch | delete
  deriving DecidableEq, Repr

/-- `method_name`. -/
def methodName : HttpMethod → String
  | .get => "GET"
  | .post => "POST"
  | .patch => "PATCH"
  | .delete => "DELETE"

/-- `PendingMutation`; its body is serialized. -/
structure PendingMutation where
  key : String
  method : HttpMethod
  path : String
  body : String
  includeSessionId : Bool
  deriving DecidableEq, Repr

/-- `SessionState`. -/
structure SessionState where
  localSession : String
  pending : Option PendingMutation

namespace SessionState

/-- `set_pending`. -/
def setPending (self : SessionState) (mutation : PendingMutation) : Except String SessionState :=
  match self.pending with
  | some existing =>
    if existing = mutation then return self
    else .error ("an earlier mutation is unresolved (" ++ methodName existing.method ++ " " ++
      existing.path ++ "); run `agent-coordinator retry --session " ++ self.localSession ++
      "` before another write")
  | none => return { self with pending := some mutation }

end SessionState

/-- The mutations are the same but for their keys. -/
def PendingMutation.Same (existing desired : PendingMutation) : Prop :=
  existing.method = desired.method ∧ existing.path = desired.path ∧
    existing.body = desired.body ∧ existing.includeSessionId = desired.includeSessionId

instance (existing desired : PendingMutation) : Decidable (existing.Same desired) := by
  unfold PendingMutation.Same; infer_instance

/-- `persist_and_send`: the state that it saves, before it sends what is pending there. -/
def persist (state : SessionState) (desired : PendingMutation) : Except String SessionState :=
  match state.pending with
  | some existing =>
    if existing.Same desired then return state else state.setPending desired
  | none => state.setPending desired

/-- `mutation_response_is_definitive`. -/
def mutationResponseIsDefinitive (status : Nat) : Bool :=
  !(status = 429 || (300 ≤ status && status < 400) || 500 ≤ status)

/-- `is_success`. -/
def isSuccess (status : Nat) : Bool := 200 ≤ status && status < 300

/-- `send_saved_policy`: the state after a response. -/
def sendSavedPolicy (state : SessionState) (clearSuccess : Bool) (status : Nat) : SessionState :=
  if mutationResponseIsDefinitive status && (clearSuccess || !isSuccess status) then
    { state with pending := none }
  else state

/-- What a response says about the mutation. -/
def verdict (_ : PendingMutation) (status : Nat) : Verdict :=
  if mutationResponseIsDefinitive status = false then .unsettled
  else if isSuccess status = true then .confirmed
  else .rejected

/-- The state of a session, as the journal of its mutations. -/
def journal : Journal SessionState PendingMutation where
  pending := SessionState.pending
  prepare s a s' := ∃ desired, persist s desired = .ok s' ∧ s'.pending = some a
  complete s s' := s' = { s with pending := none }
  saved _ _ := True
  exits := True

/-- The statuses that the client may get for an answer of the service, whose refusals have the
status of an error. What is between them may answer too, but not definitively. -/
def Answered {ν : Type} (out : Except AppError ν) (status : Nat) : Prop :=
  mutationResponseIsDefinitive status = false ∨
  match out with
  | .ok _ => isSuccess status = true
  | .error e => status = e.status ∧ 400 ≤ status

end AgentCoordinator.Cli
