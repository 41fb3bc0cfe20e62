import Mathlib.Algebra.Group.Int.Defs
import AgentCoordinator.Library.Procedure
import AgentCoordinator.Library.Text
import AgentCoordinator.Local.PushProtocol

/-
Reporting the cost ledger to the coordinator.

A pass sends the rows of the ledger that neither `costs.reported` nor `costs.quarantined` names, in
batches of one project, and notes there which rows the coordinator stored, refused, or has no
project for. The two files are what their lines name: a line that was cut, or written behind a cut
one, names no row. JSON and SHA-256 are parameters.
-/

namespace AgentCoordinator.Report

open CandidatePush (Json)
open Procedure Text

/-! ### Data -/

/-- What comes from other crates. -/
structure Outside where
  /-- `serde_json::from_str`, without its errors. -/
  parse : List Char → Option Json
  /-- SHA-256, as hexadecimal digits. -/
  sha256 : List Char → String

/-- `Unsent`. -/
structure Unsent where
  id : String
  project : String
  row : Json

/-- `Delivery`. -/
inductive Delivery
  | stored (accepted duplicates : Nat)
  | retry (stop : Bool) (reason : String)
  | rejected (reason : String)
  | missingProject (reason : String)
  deriving DecidableEq, Repr

/-- `Summary`. -/
structure Summary where
  accepted : Nat
  duplicates : Nat
  rejected : Nat
  quarantined : Nat
  pending : Nat
  deriving DecidableEq, Repr

/-- `Flow`. -/
inductive Flow | go | skipProject | stop
  deriving DecidableEq, Repr

/-- What became of an append: whether it succeeded, and the identities that its lines now name in
the file. -/
structure Appended where
  ok : Bool
  lines : List String
  deriving DecidableEq, Repr

def BATCH : Nat := 100

/-! ### Rows -/

/-- `as_i64`. -/
def asI64 : Json → Option Int
  | .unsigned n => if n < 2 ^ 63 then some n else none
  | .number text => text.toInt?.filter fun n => -2 ^ 63 ≤ n ∧ n < 2 ^ 63
  | _ => none

/-- `as_f64`; what a document holds as a number is finite. -/
def asF64 : Json → Option Json
  | .unsigned n => some (.unsigned n)
  | .number text => some (.number text)
  | _ => none

/-- `== true`. -/
def isTrue : Json → Bool
  | .bool b => b
  | _ => false

/-- An optional text. -/
def orNull (s : Option String) : Json := (s.map Json.string).getD .null

/-- `identity`. -/
def identity (outside : Outside) (line : List Char) : String :=
  outside.sha256 (trimBy isWhitespace line)

/-- The coordinator's form of a ledger row. -/
def rowOf (id role : String) (entry : Json) : Json := .object [
  ("row_id", .string id),
  ("role", .string role),
  ("harness", .string ((entry.field "harness").asString.getD "unknown")),
  ("model", .string ((entry.field "model").asString.getD "unknown")),
  ("input_tokens", .unsigned ((entry.field "input_tokens").asU64.getD 0)),
  ("cached_input_tokens", .unsigned ((entry.field "cached_input_tokens").asU64.getD 0)),
  ("output_tokens", .unsigned ((entry.field "output_tokens").asU64.getD 0)),
  ("usd", (asF64 (entry.field "usd")).getD .null),
  ("usd_estimated", .bool (isTrue (entry.field "usd_estimated"))),
  ("canary", .bool (isTrue (entry.field "canary"))),
  ("task_id", orNull (entry.field "task").asString),
  ("session_id", orNull (entry.field "session").asString),
  ("attempt_id", orNull (entry.field "attempt").asString),
  ("occurred_at_ms", .number (toString ((asI64 (entry.field "at_ms")).getD 0)))]

/-- `convert`. -/
def convert (outside : Outside) (id : String) (line : List Char) (defaultProject : Option String) :
    Option Unsent := do
  let entry ← outside.parse line
  let role ← (entry.field "role").asString.filter fun r => r = "impl" ∨ r = "rev"
  let project ← (entry.field "project").asString.or defaultProject
  return ⟨id, project, rowOf id role entry⟩

/-! ### The files -/

/-- The lines of the ledger, and the identities that the lines of `costs.reported` and
`costs.quarantined` name. -/
structure Files where
  ledger : List (List Char)
  reported : List String
  quarantined : List String

/-- `unsent`. -/
def unsent (outside : Outside) (files : Files) (defaultProject : Option String) : List Unsent :=
  (((files.ledger.filter fun line => trimBy isWhitespace line ≠ []).map fun line =>
      (identity outside line, line)).filter fun row =>
        row.1 ∉ files.reported ∧ row.1 ∉ files.quarantined).filterMap fun row =>
          convert outside row.1 row.2 defaultProject

/-! ### The driver -/

/-- What a pass does outside its own memory. -/
inductive Op
  /-- `send`; the body holds the host and the rows. -/
  | send (project host : String) (batch : List Unsent) (key : String)
  /-- `mark_done`. -/
  | markDone (ids : List String)
  /-- `quarantine`, with the time. -/
  | quarantine (project : String) (batch : List Unsent) (kind reason : String)

/-- The operations with their answers. -/
@[reducible] def driver : Interface where
  Op := Op
  Answer
    | .send .. => Delivery
    | .markDone _ | .quarantine .. => Appended

/-- A part of a pass. -/
abbrev Pass := Proc driver Empty

def perform (op : Op) : Pass (driver.Answer op) := .call op .pure

/-- The files after a call. -/
def Files.step (files : Files) : Called driver → Files
  | ⟨.markDone _, answer⟩ => { files with reported := files.reported ++ answer.lines }
  | ⟨.quarantine .., answer⟩ => { files with quarantined := files.quarantined ++ answer.lines }
  | _ => files

/-! ### A pass -/

section Pass

variable (outside : Outside) (host : String)

/-- `batch_key`. -/
def batchKey (project : String) (ids : List String) : String :=
  "cost-" ++ String.ofList ((outside.sha256
    (project ++ "\n" ++ ",".intercalate ids).toList).toList.take 40)

/-- The request for a batch. -/
def send (project : String) (batch : List Unsent) : Pass Delivery :=
  perform (.send project host batch (batchKey outside project (batch.map Unsent.id)))

/-- What follows the answer to a batch, unless it is resent row by row. -/
def settle (project : String) (batch : List Unsent) (summary : Summary) :
    Delivery → Pass (Flow × Summary)
  | .stored accepted duplicates => do
    let _ ← perform (.markDone (batch.map Unsent.id))
    return (.go, { summary with
      accepted := summary.accepted + accepted
      duplicates := summary.duplicates + duplicates })
  | .rejected reason => do
    let _ ← perform (.quarantine project batch "rejected" reason)
    let _ ← perform (.markDone (batch.map Unsent.id))
    return (.go, { summary with rejected := summary.rejected + 1 })
  | .missingProject reason => do
    let appended ← perform (.quarantine project batch "project_not_found" reason)
    return if appended.ok then
      (.go, { summary with quarantined := summary.quarantined + batch.length })
    else (.skipProject, { summary with pending := summary.pending + batch.length })
  | .retry stop _ =>
    return (if stop then .stop else .skipProject,
      { summary with pending := summary.pending + batch.length })

/-- `deliver` for one row. -/
def deliverRow (project : String) (row : Unsent) (summary : Summary) :
    Pass (Flow × Summary) := do
  let delivery ← send outside host project [row]
  settle project [row] summary delivery

/-- The rows of a batch one by one, until one of them does not go on. -/
def deliverRows (project : String) : List Unsent → Summary → Pass (Flow × Summary)
  | [], summary => return (.go, summary)
  | row :: rows, summary => do
    match ← deliverRow outside host project row summary with
    | (.go, summary) => deliverRows project rows summary
    | (flow, summary) => return (flow, { summary with pending := summary.pending + rows.length })

/-- The batch is resent row by row. -/
def Delivery.Splits (batch : List Unsent) : Delivery → Prop
  | .rejected _ => 1 < batch.length
  | _ => False

instance (batch : List Unsent) (delivery : Delivery) : Decidable (delivery.Splits batch) := by
  unfold Delivery.Splits
  split <;> infer_instance

/-- `deliver`. -/
def deliver (project : String) (batch : List Unsent) (summary : Summary) :
    Pass (Flow × Summary) := do
  let delivery ← send outside host project batch
  if delivery.Splits batch then deliverRows outside host project batch summary
  else settle project batch summary delivery

/-- The batches of a project. -/
def flushBatches (project : String) :
    List (List Unsent) → (stopped failed : Bool) → Summary → Pass (Bool × Summary)
  | [], stopped, _, summary => return (stopped, summary)
  | batch :: batches, stopped, failed, summary =>
    if stopped || failed then
      flushBatches project batches stopped failed
        { summary with pending := summary.pending + batch.length }
    else do
      let (flow, summary) ← deliver outside host project batch summary
      flushBatches project batches (flow = .stop) (flow = .skipProject) summary

/-- `chunks`, of a list of at most so many elements. -/
def chunksWithin {α : Type} (size : Nat) : Nat → List α → List (List α)
  | 0, _ => []
  | _, [] => []
  | bound + 1, l => l.take size :: chunksWithin size bound (l.drop size)

/-- `chunks`. -/
def chunks {α : Type} (size : Nat) (l : List α) : List (List α) := chunksWithin size l.length l

/-- The projects of a pass. -/
def flushProjects (rows : List Unsent) :
    List String → (stopped : Bool) → Summary → Pass Summary
  | [], _, summary => return summary
  | project :: projects, stopped, summary => do
    let (stopped, summary) ← flushBatches outside host project
      (chunks BATCH (rows.filter fun r => r.project = project)) stopped false summary
    flushProjects rows projects stopped summary

/-- `flush`, of the rows that are unsent. -/
def flush (rows : List Unsent) : Pass Summary :=
  flushProjects outside host rows (rows.map Unsent.project).eraseDups false ⟨0, 0, 0, 0, 0⟩

end Pass

/-! ### Chunks -/

lemma flatten_chunksWithin {α : Type} {size : Nat} (hsize : 0 < size) (bound : Nat) (l : List α)
    (hl : l.length ≤ bound) : (chunksWithin size bound l).flatten = l := by
  induction bound generalizing l with
  | zero =>
    obtain rfl := List.eq_nil_of_length_eq_zero (Nat.le_zero.1 hl)
    rfl
  | succ bound ih =>
    cases l with
    | nil => rfl
    | cons a l =>
      rw [chunksWithin, List.flatten_cons, ih, List.take_append_drop]
      · simp only [List.length_drop, List.length_cons] at hl ⊢
        omega
      · exact nofun

lemma flatten_chunks {α : Type} {size : Nat} (hsize : 0 < size) (l : List α) :
    (chunks size l).flatten = l :=
  flatten_chunksWithin hsize l.length l le_rfl

end AgentCoordinator.Report
