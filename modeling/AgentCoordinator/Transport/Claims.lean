import AgentCoordinator.Receipts

/-
Claims as a route.

A claim that was stored is replayed with what its attempt still stands for: the stored result says
what was granted, `current_authority` whether it still holds. Everything that may refuse a claim
for the state of its task comes behind that.
-/

namespace AgentCoordinator

open Guarded Tabular

/-- `current_authority`. -/
structure CurrentAuthority where
  valid : Bool
  attempt : Attempt
  taskStatus : WorkStatus
  leaseRemainingMs : Int

/-- The result of a claim, as far as a replay reads and writes it. -/
structure ClaimData where
  /-- `claim.attempt.id`; none if nothing was eligible. -/
  attempt : Option Id
  renewAfterSeconds : Option Int
  currentAuthority : Option CurrentAuthority
  replayed : Bool

/-- A claim and its caller. -/
structure ClaimRequest where
  auth : Auth
  project : Id
  input : ClaimInput
  /-- The digest of the session's proof. -/
  proof : Option String
  /-- The input, serialized. -/
  body : String

/-- `attempt`: an attempt of the project. -/
def Db.projectAttempt (s : Db) (project id : Id) : Except AppError Attempt := do
  let a ← okOr (s.attempts.get? id) .notFound
  refuseIf (a.project ≠ project) .notFound
  return a

/-- The claim's attempt is what owns its task now. -/
def claimHolds (s : Db) (id : Id) (a : Attempt) (t : Task) : Bool :=
  a.state = .active && a.expiresAt > s.now && s.taskOwnerAuthorized t &&
    (a.mode = .recovery || (s.decisionsReady t && s.objectiveChildrenReady t)) &&
    t.currentAttempt = some id

/-- A stored claim, with what it still stands for. -/
def refreshClaim (s : Db) (project : Id) (v : ClaimData) : Except AppError ClaimData :=
  match v.attempt with
  | none => return v
  | some id => do
    let a ← s.projectAttempt project id
    let t ← s.visibleTask project a.task
    let valid := claimHolds s id a t
    let remaining := if valid then a.expiresAt - s.now else 0
    return { v with
      currentAuthority := some ⟨valid, a, s.status t, remaining⟩
      renewAfterSeconds := some (min (remaining / 3000) 60) }

/-- The result of a claim that was just handled: a granted attempt is the next one. -/
def claimData (s s' : Db) : ClaimData :=
  match s'.attempts.get? s.attempts.fresh with
  | none => ⟨none, none, none, false⟩
  | some a =>
    ⟨some s.attempts.fresh, some (max 1 (min ((a.expiresAt - s.now) / 3000) 60)), none, false⟩

/-- The event of a claim. -/
def claimKind (v : ClaimData) : String :=
  if v.attempt = none then "claim.empty" else "attempt.claimed"

/-- The handler of `claim`, with its stored result. -/
def claimHandler (s : Db) (m : Mutation ClaimData) (req : ClaimRequest) :
    Except AppError (Outcome Db ClaimData) := do
  let _ ← session m.actor
  let _ ← okOr (s.projects.get? req.project) .notFound
  match m.replay with
  | some v =>
    let v ← refreshClaim s req.project v
    return .reply { v with replayed := true }
  | none =>
    let s' ← claim s m.actor req.project req.input
    let v := claimData s s'
    return .finish s' v "{}" (some req.project) (claimKind v) (v.attempt.getD req.project)

/-- What is wrong with a claim by itself. -/
def validateClaim (input : ClaimInput) : Except AppError Unit :=
  refuseIf (input.task.isSome ≠ input.expectedTaskRevision.isSome)
    (.badRequest ("An explicit task claim requires its expected_task_revision; next-eligible " ++
      "claims omit both."))

/-- Claims, as a route. -/
def claimRoutes (digest : Fingerprinted → String) : Routes Db ClaimData ClaimRequest where
  digest := digest
  clock s sample :=
    if sample.incidentDetected then s.detectRollback sample.now else { s with now := sample.now }
  operation req := "POST /api/v1/projects/" ++ toString req.project ++ "/claims"
  input req := req.body
  kind req := .mutation req.proof
  validate req := validateClaim req.input
  admits s sample req :=
    begin { s with clockIncident := sample.incidentActive } req.auth
      (.claim req.project req.input)
  handle := claimHandler

end AgentCoordinator
