import AgentCoordinator.Library.Transition
import AgentCoordinator.Service

/-
Mutations and their receipts.

A mutating request carries an idempotency key. `Mutation::begin` looks for the receipt of the
caller's principal, operation and key; the handler answers from a stored result, or commits its
changes together with a new receipt. Here the handlers are a parameter (`Routes`), so what is
proved holds of every mutation; `policyRoutes` is one of them. Receipts are compacted, and a
database is replaced by a snapshot of itself whose authority epoch is rotated.
-/

namespace AgentCoordinator

open Guarded Transition

/-! ### Requests and their keys -/

/-- `u8::is_ascii_graphic`. -/
def isAsciiGraphic (c : Char) : Bool := 33 ≤ c.toNat && c.toNat ≤ 126

/-- `mutation_key`: the one key of the `Idempotency-Key` headers. -/
def mutationKey : List String → Except AppError String
  | [key] => do
    refuseIf (key = "" ∨ key.utf8ByteSize > 128 ∨ key.toList.all isAsciiGraphic = false)
      (.badRequest ("Provide an Idempotency-Key of 1–128 visible ASCII characters; persist it " ++
        "before sending."))
    return key
  | _ => .error (.badRequest "Provide exactly one Idempotency-Key header.")

/-- Which variant of `begin` a route calls, and what only that variant reads. -/
inductive BeginKind
  | mutation (proof : Option String)
  | humanAdminAccountCreation
  | reporter (reporter : Id)

/-- What a fingerprint digests. The first version has no authority epoch. -/
inductive Fingerprinted
  | mutation (authorityEpoch : Option String) (input : String) (session : Option Id)
      (proof : Option String)
  | humanAdminAccountCreation (authorityEpoch : Option String) (input : String) (actor : Id)
  | reporter (authorityEpoch : Option String) (reporter : Id) (input : String)
  deriving DecidableEq

/-- What the variant signs in an authority epoch. -/
def BeginKind.fingerprinted (kind : BeginKind) (authorityEpoch input : String) (actor : Actor) :
    Fingerprinted :=
  let epoch := if authorityEpoch = "initial" then none else some authorityEpoch
  match kind with
  | .mutation proof => .mutation epoch input actor.session proof
  | .humanAdminAccountCreation => .humanAdminAccountCreation epoch input actor.id
  | .reporter id => .reporter epoch id input

/-- `ClockSample`. -/
structure ClockSample where
  now : Time
  incidentActive : Bool
  incidentDetected : Bool

/-! ### Receipts -/

/-- Principal, operation and key. -/
abbrev MutationTriple := Id × String × String

/-- A row of `mutation_receipts`. Compaction leaves `null` for its result. -/
structure Receipt (ν : Type) where
  principal : Id
  operation : String
  key : String
  fingerprint : String
  result : Option ν
  createdAt : Time
  authorityEpoch : String
  compactedAt : Option Time

def Receipt.triple {ν : Type} (r : Receipt ν) : MutationTriple := (r.principal, r.operation, r.key)

/-- `Mutation`: an open transaction with its caller, and the stored result if there is one. -/
structure Mutation (ν : Type) where
  actor : Actor
  now : Time
  replay : Option ν
  operation : String
  key : String
  fingerprint : String
  authorityEpoch : String

def Mutation.triple {ν : Type} (m : Mutation ν) : MutationTriple := (m.actor.id, m.operation, m.key)

/-- A row of `events`, as `finish_with_event_data` writes it. -/
structure MutationEvent where
  project : Option Id
  actor : Id
  kind : String
  record : Id
  data : String
  createdAt : Time
  credential : Option (CredentialClass × CredentialAccess)

/-- A database: the tables that handlers write, and what `begin` and `finish` read and write. The
triples of its effects are those whose changes it contains, in the order of their commits. -/
structure MutationDb (δ ν : Type) where
  tables : δ
  authorityEpoch : String
  receipts : List (Receipt ν)
  events : List MutationEvent
  effects : List MutationTriple

/-- What a handler does with its transaction: drop it and answer, or finish it. -/
inductive Outcome (δ ν : Type)
  | reply (data : ν)
  | finish (tables : δ) (data : ν) (eventData : String) (project : Option Id) (kind : String)
      (record : Id)

/-- The routes of the service: what each request `ρ` checks before its transaction, how it is
authenticated and admitted in it, and its handler. -/
structure Routes (δ ν ρ : Type) where
  /-- The serialized digest. -/
  digest : Fingerprinted → String
  /-- What `sample_clock` writes. -/
  clock : δ → ClockSample → δ
  operation : ρ → String
  input : ρ → String
  kind : ρ → BeginKind
  validate : ρ → Except AppError Unit
  admits : δ → ClockSample → ρ → Except AppError Actor
  handle : δ → Mutation ν → ρ → Except AppError (Outcome δ ν)

section Mutate

variable {δ ν ρ : Type}

/-- `30 * 86_400_000`. -/
def replayWindowMs : Int := 30 * 86400000

def receiptExpired : AppError :=
  .conflict "idempotency_receipt_expired"
    ("The operation was already processed, but its replay window expired. Inspect its record " ++
      "before starting a new operation.")

/-- `load_receipt`: the stored result, when it may be replayed. -/
def loadReceipt (db : MutationDb δ ν) (now : Time) (triple : MutationTriple)
    (fingerprint : String) : Except AppError (Option ν) :=
  match db.receipts.find? (fun r => r.triple = triple) with
  | none => return none
  | some r => do
    refuseIf (r.authorityEpoch ≠ db.authorityEpoch)
      (.conflict "request_from_previous_restore"
        ("This idempotency key belongs to authority from before the latest restore. Inspect " ++
          "the old result and use a new key for an intentional new operation."))
    refuseIf (r.fingerprint ≠ fingerprint)
      (.conflict "idempotency_conflict"
        ("This mutation key was already used with different input or session. Reconcile the " ++
          "original request."))
    refuseIf (r.compactedAt ≠ none) receiptExpired
    refuseIf (now - r.createdAt > replayWindowMs) receiptExpired
    return r.result

/-- `begin`, once the clock is sampled. -/
def beginMutation (R : Routes δ ν ρ) (db : MutationDb δ ν) (sample : ClockSample) (key : String)
    (req : ρ) : Except AppError (Mutation ν) := do
  let actor ← R.admits (R.clock db.tables sample) sample req
  let fingerprint :=
    R.digest ((R.kind req).fingerprinted db.authorityEpoch (R.input req) actor)
  let replay ← loadReceipt db sample.now (actor.id, R.operation req, key) fingerprint
  return ⟨actor, sample.now, replay, R.operation req, key, fingerprint, db.authorityEpoch⟩

/-- `finish_with_event_data`; the receipt's triple is a primary key. -/
def MutationDb.finish (db : MutationDb δ ν) (m : Mutation ν) (tables : δ) (data : ν)
    (eventData : String) (project : Option Id) (kind : String) (record : Id) :
    Except AppError (MutationDb δ ν) := do
  refuseIf (m.triple ∈ db.receipts.map Receipt.triple) .recordConflict
  return { db with
    tables := tables
    receipts := db.receipts ++
      [⟨m.actor.id, m.operation, m.key, m.fingerprint, some data, m.now, m.authorityEpoch, none⟩]
    events := db.events ++
      [⟨project, m.actor.id, kind, record, eventData, m.now, m.actor.attributes⟩]
    effects := db.effects ++ [m.triple] }

/-- The handler in its transaction: the database it commits, if it commits one, and its answer. -/
def runHandler (R : Routes δ ν ρ) (db : MutationDb δ ν) (sample : ClockSample) (m : Mutation ν)
    (req : ρ) : Except AppError (MutationDb δ ν × ν) := do
  match ← R.handle (R.clock db.tables sample) m req with
  | .reply data => return (db, data)
  | .finish tables data eventData project kind record =>
    return (← db.finish m tables data eventData project kind record, data)

/-- A request in its transaction: the database that it leaves, and its answer. A refusal drops the
transaction, but for an incident of the clock, which is committed before the request is refused. -/
def transact (R : Routes δ ν ρ) (db : MutationDb δ ν) (sample : ClockSample) (key : String)
    (req : ρ) : MutationDb δ ν × Except AppError ν :=
  if sample.incidentDetected then
    ({ db with tables := R.clock db.tables sample }, .error clockReconciliationError)
  else
    match beginMutation R db sample key req with
    | .error e => (db, .error e)
    | .ok m =>
      match runHandler R db sample m req with
      | .error e => (db, .error e)
      | .ok (db', data) => (db', .ok data)

/-- One request. What is wrong with it by itself is refused before there is a transaction. -/
def mutate (R : Routes δ ν ρ) (db : MutationDb δ ν) (headers : List String) (sample : ClockSample)
    (req : ρ) : MutationDb δ ν × Except AppError ν :=
  match R.validate req with
  | .error e => (db, .error e)
  | .ok () =>
    match mutationKey headers with
    | .error e => (db, .error e)
    | .ok key => transact R db sample key req

/-- `compact_receipts`, of the receipts that `limit` picks. -/
def MutationDb.compactReceipts (db : MutationDb δ ν) (cutoffAt now : Time)
    (picked : MutationTriple → Bool) : MutationDb δ ν :=
  { db with
    receipts := db.receipts.map (fun r =>
      if r.compactedAt = none ∧ r.createdAt < cutoffAt ∧ picked r.triple = true then
        { r with result := none, compactedAt := some now }
      else r) }

end Mutate

/-! ### Installations -/

/-- A service with its backups, and the triples of all commits it ever made. -/
structure Installation (δ ν : Type) where
  db : MutationDb δ ν
  snapshots : List (MutationDb δ ν)
  commits : List MutationTriple

/-- What happens to an installation. -/
inductive InstallationAction (δ ρ : Type)
  | request (headers : List String) (sample : ClockSample) (req : ρ)
  | compact (cutoffAt now : Time) (picked : MutationTriple → Bool)
  | restart
  /-- A write without an idempotency key. -/
  | write (tables : δ)
  | backup
  /-- The database becomes a snapshot, whose authority is invalidated. -/
  | restore (snapshot : Nat) (authorityEpoch : String) (tables : δ)

section Installation

variable {δ ν ρ : Type}

/-- The installation after an action; none if there is no such snapshot. -/
def Installation.step (R : Routes δ ν ρ) (x : Installation δ ν) :
    InstallationAction δ ρ → Option (Installation δ ν)
  | .request headers sample req =>
    let db := (mutate R x.db headers sample req).1
    some { x with db := db, commits := x.commits ++ db.effects.drop x.db.effects.length }
  | .compact cutoffAt now picked => some { x with db := x.db.compactReceipts cutoffAt now picked }
  | .restart => some x
  | .write tables => some { x with db := { x.db with tables := tables } }
  | .backup => some { x with snapshots := x.snapshots ++ [x.db] }
  | .restore snapshot authorityEpoch tables =>
    x.snapshots[snapshot]?.map fun db =>
      { x with db := { db with tables := tables, authorityEpoch := authorityEpoch } }

/-- One action. -/
def InstallationStep (R : Routes δ ν ρ) (x : Installation δ ν) (i : InstallationAction δ ρ)
    (x' : Installation δ ν) : Prop :=
  x.step R i = some x'

/-- An installation that has handled no mutation yet. -/
structure Installation.New (x : Installation δ ν) : Prop where
  receipts : x.db.receipts = []
  effects : x.db.effects = []
  snapshots : x.snapshots = []
  commits : x.commits = []

end Installation

/-! ### Policy updates -/

/-- A policy update and its caller. -/
structure PolicyRequest where
  auth : Auth
  project : Id
  input : PolicyInput
  /-- The input, serialized. -/
  body : String

/-- The handler of `update_policy`. The caller's permission is checked before a stored result is
returned. -/
def policyHandler (s : Db) (m : Mutation Project) (req : PolicyRequest) :
    Except AppError (Outcome Db Project) := do
  let current ← okOr (s.projects.get? req.project) .notFound
  refuseIf (current.archivedAt ≠ none)
    (.conflict "project_archived"
      "This project is archived. Restore it before changing its tasks or policy.")
  refuseIf (m.actor.kind = .agent ∧ altersPermission current req.input)
    (.humanGate "policy_permission_change"
      ("This project has not delegated this rule change. Agents cannot alter permission grants, " ++
        "review mode, recovery mode, the integration owner, the maximum attempt duration or " ++
        "relayed human answers."))
  match m.replay with
  | some data => return .reply data
  | none =>
    let s' ← updatePolicy s m.actor req.project req.input
    let p ← okOr (s'.projects.get? req.project) .notFound
    return .finish s' p "{}" (some req.project) "policy.updated" req.project

/-- Policy updates, as a route. -/
def policyRoutes (digest : Fingerprinted → String) : Routes Db Project PolicyRequest where
  digest := digest
  clock s sample :=
    if sample.incidentDetected then s.detectRollback sample.now else { s with now := sample.now }
  operation req := "PATCH /api/v1/projects/" ++ toString req.project ++ "/policy"
  input req := req.body
  kind _ := .mutation none
  validate req := validatePolicy req.input
  admits s sample req :=
    begin { s with clockIncident := sample.incidentActive } req.auth
      (.updatePolicy req.project req.input)
  handle := policyHandler

end AgentCoordinator
