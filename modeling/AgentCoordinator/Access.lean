import AgentCoordinator.Library.Guarded
import AgentCoordinator.Schema

/-
Refusals, request text and callers.

Every handler returns either the database it commits or an `AppError`; a refused request rolls its
transaction back, so it changes nothing. A caller presents a bearer credential (with an agent
session) or a browser session, and `Auth.verify` turns what it presents into an `Actor` against
the accounts as they are at that moment.
-/

namespace AgentCoordinator

open Guarded Tabular

/-! ### Refusals -/

/-- A refused request. -/
structure AppError where
  status : Nat
  code : String
  message : String
  /-- `details.gate`, when only a human can clear the refusal. -/
  gate : Option String
  deriving DecidableEq, Repr

namespace AppError

def badRequest (message : String) : AppError := ⟨400, "invalid_request", message, none⟩

def conflict (code message : String) : AppError := ⟨409, code, message, none⟩

def forbidden (message : String) : AppError := ⟨403, "operation_not_permitted", message, none⟩

/-- A refusal that only a human can clear. -/
def humanGate (gate message : String) : AppError :=
  ⟨403, "operation_not_permitted", message, some gate⟩

/-- A refusal whose top-level code names the human-only gate. -/
def humanCoded (code message : String) : AppError := ⟨403, code, message, some code⟩

def notFound : AppError := ⟨404, "record_not_found", "The requested record was not found.", none⟩

def authRequired : AppError :=
  ⟨401, "authentication_required",
    "Sign in or configure this workstation's agent credential, then reconnect.", none⟩

/-- A violated unique index. -/
def recordConflict : AppError :=
  conflict "record_conflict" "A record with that identity already exists."

/-- A statement the schema's constraints reject otherwise. -/
def internal : AppError :=
  ⟨500, "internal_error", "The operation could not be completed.", none⟩

end AppError

/-! ### Request text -/

/-- `char::is_whitespace`: the Unicode `White_Space` property. -/
def isWhitespace (c : Char) : Bool :=
  let n := c.toNat
  (9 ≤ n && n ≤ 13) || n == 32 || n == 133 || n == 160 || n == 5760 || (8192 ≤ n && n ≤ 8202) ||
    n == 8232 || n == 8233 || n == 8239 || n == 8287 || n == 12288

/-- `u8::is_ascii_hexdigit`. -/
def isAsciiHexdigit (c : Char) : Bool :=
  ('0' ≤ c && c ≤ '9') || ('a' ≤ c && c ≤ 'f') || ('A' ≤ c && c ≤ 'F')

/-- A text of at most `max` bytes without NUL, nonempty when `required`. -/
def bounded (value name : String) (max : Nat) (required : Bool) : Except AppError Unit :=
  refuseIf
    (value.utf8ByteSize > max ∨ '\x00' ∈ value.toList ∨
      (required = true ∧ value.toList.all isWhitespace = true))
    (.badRequest (name ++ " must " ++ (if required then "be nonempty and " else "") ++
      "contain at most " ++ toString max ++ " bytes and no NUL characters."))

/-- A full Git revision identity. -/
def revision (value name : String) : Except AppError Unit :=
  refuseIf
    (¬ (value.utf8ByteSize = 40 ∨ value.utf8ByteSize = 64) ∨
      ¬ value.toList.all isAsciiHexdigit = true)
    (.badRequest (name ++ " must be a full 40–64 character hexadecimal revision identity."))

/-! ### Callers -/

/-- The authenticated caller of one request. -/
structure Actor where
  id : Id
  kind : PrincipalKind
  role : Role
  credential : Option Id
  session : Option Id
  /-- Class and access of the agent credential; `none` for browser sessions. -/
  attributes : Option (CredentialClass × CredentialAccess)
  deriving DecidableEq

/-- What a request presents: a bearer token with the session it proves, or a browser session. -/
inductive Auth
  | bearer (credential : Id) (session : Option Id)
  | browser (session : Id)

/-- The actor a request authenticates as at `now`. -/
def Auth.verify (x : External) (now : Time) : Auth → Except AppError Actor
  | .bearer credential session => do
    let c ← okOr (x.credentials.get? credential) .authRequired
    let p ← okOr (x.principals.get? c.principal) .authRequired
    refuseIf
      (c.revokedAt ≠ none ∨ c.expiresAt.any (fun e => e ≤ now) = true ∨ p.disabledAt ≠ none ∨
        p.kind ≠ .agent ∨ p.role ≠ .agent)
      .authRequired
    refuseIf
      (session.any (fun id => ¬ (x.agentSessions.get? id).any (fun r =>
        r.principal = p.id ∧ r.credential = c.id ∧ r.closedAt = none)) = true)
      .authRequired
    return ⟨p.id, p.kind, p.role, some c.id, session, some (c.class, c.access)⟩
  | .browser session => do
    let b ← okOr (x.browserSessions.get? session) .authRequired
    let p ← okOr (x.principals.get? b.principal) .authRequired
    refuseIf
      (b.revokedAt ≠ none ∨ b.expiresAt ≤ now ∨ p.disabledAt ≠ none ∨ p.kind ≠ .human)
      .authRequired
    return ⟨p.id, p.kind, p.role, none, some b.id, none⟩

/-- A verified actor's kind is the kind of its account. -/
lemma Auth.kind_of_verify {x : External} {now : Time} {auth : Auth} {actor : Actor}
    (h : auth.verify x now = .ok actor) :
    ∃ p, x.principals.get? actor.id = some p ∧ p.kind = actor.kind := by
  cases auth with
  | bearer credential session =>
    simp only [Auth.verify, bind_eq_ok, okOr_eq_ok, refuseIf_eq_ok, pure_eq_ok] at h
    obtain ⟨c, _, p, hp, -, -, -, -, rfl⟩ := h
    exact ⟨p, by rwa [← Table.key_of_get? hp] at hp, rfl⟩
  | browser session =>
    simp only [Auth.verify, bind_eq_ok, okOr_eq_ok, refuseIf_eq_ok, pure_eq_ok] at h
    obtain ⟨b, _, p, hp, -, -, rfl⟩ := h
    exact ⟨p, by rwa [← Table.key_of_get? hp] at hp, rfl⟩

/-- `is_read_only`: the credential may only inspect state and manage its own session. -/
def Actor.isReadOnly (actor : Actor) : Bool := actor.attributes.any (fun a => a.2 = .read)

/-- `is_integrator`: the credential may only call the integrator API. -/
def Actor.isIntegrator (actor : Actor) : Bool := actor.attributes.any (fun a => a.1 = .integrator)

/-- `is_supervisor`. -/
def Actor.isSupervisor (actor : Actor) : Bool :=
  actor.attributes.any (fun a => a.1 = .supervised ∨ a.2 = .read)

/-- `clock_reconciliation_error`. -/
def clockReconciliationError : AppError :=
  .conflict "clock_reconciliation_required"
    ("The service clock moved backward. Restore trustworthy time and reconcile the recorded " ++
      "incident before granting or changing authority.")

/-- `Mutation::begin` of a route that no pause allows. -/
def beginUnpaused (s : Db) (auth : Auth) : Except AppError Actor := do
  let actor ← auth.verify s.ext s.now
  refuseIf (actor.isReadOnly = true)
    (.forbidden
      "This credential is read-only; it may inspect state and manage its own session only.")
  refuseIf (actor.isIntegrator = true)
    (.forbidden "This integrator credential may only call the integrator API.")
  refuseIf (s.ext.coordinationState = .restoreReconciliation)
    (.conflict "restore_reconciliation_required"
      ("The restored service is paused. Reconcile restored authority and external effects " ++
        "before changing coordination state."))
  refuseIf (s.clockIncident = true) clockReconciliationError
  return actor

/-- The caller's session, which workflow work needs. -/
def session (actor : Actor) : Except AppError Id :=
  okOr actor.session
    (.forbidden "A current authenticated session is required for workflow work.")

/-- Refuse non-human actors with a labelled human gate named `gate`. -/
def human (actor : Actor) (gate : String) : Except AppError Unit :=
  refuseIf (actor.kind ≠ .human)
    (.humanGate gate "An authenticated human operator must perform this action.")

/-- `owner_authorized`: the account, credential and session that own an attempt still stand. -/
def Attempt.ownerAuthorized (x : External) (now : Time) (a : Attempt) : Bool :=
  (x.principals.get? a.owner).any (fun p => p.disabledAt = none) &&
    match a.credential with
    | none => (x.browserSessions.get? a.session).any
        (fun b => b.revokedAt = none ∧ b.expiresAt > now)
    | some c =>
      (x.credentials.get? c).any
        (fun cr => cr.revokedAt = none ∧ cr.expiresAt.all (fun e => e > now)) &&
      (x.agentSessions.get? a.session).any (fun ag => ag.credential = c ∧ ag.closedAt = none)

/-- Append the audit event that closes a mutation. -/
def Db.finish (s : Db) (actor : Actor) (kind : String) (record : Id) : Db :=
  { s with events := s.events ++ [⟨actor.id, kind, record, s.now⟩] }

end AgentCoordinator
