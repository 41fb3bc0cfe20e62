import AgentCoordinator.Library.Outbox
import AgentCoordinator.Receipts

/-
The stdio adapter of the MCP endpoint, and its journal.

The adapter saves the exact parameters of a mutating tool call under the call's idempotency key
before it sends the call, and keeps the call pending until an answer settles it. A read and a
local tool leave the journal alone. A value of JSON is a string or any other text.
-/

namespace AgentCoordinator.Adapter

open Guarded Outbox

/-! ### Tool calls -/

/-- A value in the arguments of a tool call. -/
inductive Field
  | string (s : String)
  /-- A value that is no string, serialized. -/
  | other (json : String)
  deriving DecidableEq, Repr

/-- `as_str`. -/
def Field.asStr : Field → Option String
  | .string s => some s
  | .other _ => none

/-- The `arguments` of a tool call. -/
inductive Arguments
  | absent
  | object (fields : List (String × Field))
  /-- A value that is no object, serialized. -/
  | other (json : String)
  deriving DecidableEq, Repr

/-- `as_object`. -/
def Arguments.asObject : Arguments → Option (List (String × Field))
  | .object fields => some fields
  | _ => none

/-- The `params` of a `tools/call`. -/
structure ToolCall where
  name : String
  arguments : Arguments
  /-- The other fields, serialized. -/
  rest : String
  deriving DecidableEq, Repr

/-- The `idempotency_key` among the arguments. -/
def keyOf (arguments : List (String × Field)) : Option String :=
  (arguments.lookup "idempotency_key").bind Field.asStr

/-- What a mutation key may look like. -/
def validKey (key : String) : Bool :=
  16 ≤ key.utf8ByteSize && key.utf8ByteSize ≤ 128 &&
    key.toList.all fun c => c.isAlphanum || "-_.:".toList.contains c

/-- The key of a call. -/
def ToolCall.key (params : ToolCall) : Option String := params.arguments.asObject.bind keyOf

/-! ### The journal -/

/-- `State`. -/
structure State where
  version : Nat
  binding : String
  pending : Option String
  lastCompleted : Option String
  requests : String → Option ToolCall

/-- The journal of an adapter that has none yet. -/
def State.new (identity : String) : State := ⟨1, identity, none, none, fun _ => none⟩

/-- `open`, of the file that is there. -/
def openJournal (identity : String) : Option State → Except String State
  | none => return .new identity
  | some s => do
    refuseIf (s.version ≠ 1 ∨ s.binding ≠ identity)
      "journal belongs to another endpoint or credential/session identity"
    refuseIf (s.pending.any (fun key => (s.requests key).isNone) = true)
      "invalid pending journal reference"
    return s

namespace State

/-- `pending`. -/
def pendingRequest (s : State) : Option ToolCall := s.pending.bind s.requests

/-- `prepare`: what it saves before a call is sent. -/
def prepare (s : State) (params : ToolCall) : Except String State := do
  let arguments ← okOr params.arguments.asObject "tool arguments must be an object"
  let key ← okOr (keyOf arguments) "invalid mutation key"
  refuseIf (validKey key = false) "invalid mutation key"
  refuseIf (s.pending.any (· ≠ key) = true)
    ("pending mutation must be reconciled using coordinator_transport_retry before another " ++
      "write")
  refuseIf ((s.requests key).any (· ≠ params) = true)
    "mutation key cannot be reused with different arguments"
  return { s with
    requests := Function.update s.requests key (some params)
    pending := some key }

/-- `retry_request`. -/
def retryRequest (s : State) : Option ToolCall :=
  s.pendingRequest <|> s.lastCompleted.bind s.requests

/-- `complete`: what it saves once the pending call is settled. -/
def complete (s : State) : Except String State := do
  let key ← okOr s.pending "no pending mutation"
  return { s with pending := none, lastCompleted := some key }

end State

/-! ### The calls of the host -/

/-- What the adapter reads of a tool in the catalog. -/
structure Tool where
  /-- The names in `properties`, if it is an object. -/
  properties : Option (List String)
  /-- `required`, if it is an array; an entry that is no string is `none`. -/
  required : Option (List (Option String))
  /-- `additionalProperties` is `false`. -/
  closed : Bool
  readOnlyHint : Bool

def STATUS : String := "coordinator_transport_status"
def RETRY : String := "coordinator_transport_retry"

/-- The fields that a schema without further properties does not know. -/
def unknownFields (schema : Tool) (properties : List String) (fields : List (String × Field)) :
    Bool :=
  schema.closed && fields.any fun field => !properties.contains field.1

/-- Every required field is there. -/
def hasRequired (schema : Tool) (fields : List (String × Field)) : Bool :=
  schema.required.all fun required =>
    required.all fun key => key.any fun key => fields.any (·.1 = key)

/-- `argument_envelope_valid`; arguments that are absent count as an empty object. -/
def argumentEnvelopeValid (schema : Tool) (arguments : Arguments) : Bool :=
  match arguments, schema.properties with
  | .other _, _ => false
  | _, none => false
  | .absent, some properties => !unknownFields schema properties [] && hasRequired schema []
  | .object fields, some properties =>
    !unknownFields schema properties fields && hasRequired schema fields

/-- What the adapter does about a tool call. -/
inductive Handling
  | status
  | read
  /-- The call is answered with `invalid_tool_arguments`. -/
  | invalid
  /-- The journal is saved, and the call is dispatched. -/
  | mutation (params : ToolCall) (saved : State)

/-- The local tools. -/
def handleLocal (s : State) (params : ToolCall) : Except String Handling := do
  refuseIf (params.arguments.asObject.any (· ≠ []) = true) "local tools take no arguments"
  if params.name = STATUS then
    return .status
  else
    let pending ← okOr s.retryRequest "no saved mutation to retry"
    return .mutation pending (← s.prepare pending)

/-- A mutating tool. -/
def handleMutation (tool : Tool) (s : State) (params : ToolCall) : Except String Handling := do
  refuseIf (tool.properties.any (·.contains "idempotency_key") = false)
    "tool lacks a supported durable mutation contract"
  return .mutation params (← s.prepare params)

/-- The tools of the endpoint. -/
def handleRemote (tools : String → Option Tool) (s : State) (params : ToolCall) :
    Except String Handling := do
  let tool ← okOr (tools params.name) "tool not in trusted catalog"
  if argumentEnvelopeValid tool params.arguments = false then
    return .invalid
  else if tool.readOnlyHint = true then
    return .read
  else
    handleMutation tool s params

/-- `handle`, of a `tools/call`. -/
def handle (tools : String → Option Tool) (s : State) (params : ToolCall) :
    Except String Handling :=
  if params.name = STATUS ∨ params.name = RETRY then
    handleLocal s params
  else
    handleRemote tools s params

/-! ### Answers -/

/-- What the adapter reads of a tool's result. -/
structure ToolResult where
  isError : Bool
  /-- `content` is an array. -/
  content : Bool
  /-- `structuredContent.request_id` is a string. -/
  requestId : Bool
  /-- `structuredContent.error.code`. -/
  code : Option String
  deriving DecidableEq, Repr

/-- What `remote` returns. -/
inductive Response
  | error
  | result (r : ToolResult)
  deriving DecidableEq, Repr

/-- The codes of a claim that is refused after its receipt was looked up and before it writes. -/
def rejectionCodes : List String :=
  ["claim_conflict", "revision_conflict", "policy_changed", "instructions_required"]

/-- `rejected_claim`. -/
def rejectedClaim (params : ToolCall) (r : ToolResult) : Bool :=
  params.name = "coordinator_claim" && r.isError && r.requestId &&
    r.code.any rejectionCodes.contains

/-- The result for the host when the endpoint answers with a protocol error. -/
def protocolError : ToolResult := ⟨true, true, false, none⟩

/-- `dispatch`, once `remote` has returned: what the journal becomes, and the host's result. -/
def dispatch (s : State) (params : ToolCall) : Response → Except String (State × ToolResult)
  | .error => return (s, protocolError)
  | .result r =>
    if r.isError = false ∨ rejectedClaim params r = true then do
      refuseIf (r.content = false) "invalid tool result"
      return (← s.complete, r)
    else
      return (s, r)

/-- What an answer says about the call: it settles the call if `dispatch` completes it. -/
def verdict (params : ToolCall) : Response → Verdict
  | .error => .unsettled
  | .result r =>
    if r.content = false then .unsettled
    else if r.isError = false then .confirmed
    else if rejectedClaim params r = true then .rejected
    else .unsettled

/-! ### The endpoint -/

section Endpoint

variable {δ ν ρ : Type}

/-- `response_result`, of an answer that could be read. -/
def responseResult : Except AppError ν → ToolResult
  | .ok _ => ⟨false, true, true, none⟩
  | .error e => ⟨true, true, true, some e.code⟩

/-- `uncertain_output_error`: the answer could not be read, or is too long. -/
def uncertainOutputError : ToolResult := ⟨true, true, true, some "mcp_output_unavailable"⟩

/-- What the endpoint may make of the service's answer. -/
def Answered (out : Except AppError ν) (r : Response) : Prop :=
  r = .result (responseResult out) ∨ r = .result uncertainOutputError ∨ r = .error

end Endpoint

/-- The journal of the adapter. -/
def journal : Journal State ToolCall where
  pending := State.pendingRequest
  prepare s params s' := ∃ tools asked, handle tools s asked = .ok (.mutation params s')
  complete s s' := s.complete = .ok s'
  saved s params := ∃ key, params.key = some key ∧ s.requests key = some params
  exits := False

end AgentCoordinator.Adapter
