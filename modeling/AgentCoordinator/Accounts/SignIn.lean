import AgentCoordinator.Accounts.Basic

/-
Signing in, with a password or with a passkey.

A password is checked off the writer lock, since hashing is slow: the request reads the account's
hash, verifies the password against it, and looks under the lock whether the hash is still the
account's. `Checked` is a request between the two. A passkey ceremony answers a challenge that the
service issued; taking the challenge deletes it, so that it allows one attempt.
-/

namespace AgentCoordinator.Accounts

open Guarded Tabular

/-- The reply of a request that is not refused: what it commits, and what it did with secrets. -/
abbrev Answer := Except AppError (AccountDb × List Act)

/-- `SESSION_LIFETIME_MS`. -/
def sessionLifetimeMs : Int := 12 * 60 * 60 * 1000

/-! ### Browser sessions -/

/-- The session that a sign-in starts. -/
def newSession (account fresh : Id) (now : Time) : BrowserSession :=
  ⟨fresh, account, now + sessionLifetimeMs, none⟩

/-- What `issue_browser_session` keeps of the sessions: the nine that expire last of the account. -/
def boundSessions (sessions : Table BrowserSession) (account : Id) (now : Time) :
    Table BrowserSession :=
  let kept := sessions.delete fun b =>
    b.principal = account ∧ (b.expiresAt ≤ now ∨ b.revokedAt ≠ none)
  let newest := (((kept.filter fun b => b.principal = account ∧ b.revokedAt = none).insertionSort
    fun b c => c.expiresAt ≤ b.expiresAt).take 9).map (·.id)
  kept.modify (fun b => b.principal = account ∧ b.id ∉ newest) fun b =>
    { b with revokedAt := some now }

/-- `issue_browser_session`. -/
def AccountDb.issueBrowserSession (db : AccountDb) (account fresh : Id) (now : Time) :
    Except AppError AccountDb := do
  let sessions ← okOr
    ((boundSessions db.sessions account now).insert? (newSession account fresh now)) .recordConflict
  return { db with sessions := sessions }

/-- `POST /api/v1/auth/logout`. -/
def AccountDb.logout (db : AccountDb) (sample : ClockSample) (session : Id) : Answer := do
  let (b, a) ← db.begin sample session .logout
  let sessions := db.sessions.modify (fun c => c.id = b.id) fun c =>
    { c with revokedAt := some sample.now }
  return ({ db with sessions := sessions }, [.authorized (sessionSecret b) a sample.now])

/-- One's own session, or as an administrator anyone's. -/
def Account.mayRevoke (a : Account) (target : BrowserSession) : Except AppError Unit :=
  if target.principal ≠ a.id then a.admin else .ok ()

/-- `revoke_browser_session`. -/
def AccountDb.revokeBrowserSession (db : AccountDb) (sample : ClockSample) (session target : Id) :
    Answer := do
  let (b, a) ← db.begin sample session .revokeSession
  let t ← okOr (db.sessions.get? target) .notFound
  a.mayRevoke t
  let sessions := db.sessions.modify (fun c => c.id = target) fun c =>
    { c with revokedAt := some (c.revokedAt.getD sample.now) }
  return ({ db with sessions := sessions }, [.authorized (sessionSecret b) a sample.now])

/-! ### Passwords -/

/-- A request whose password was verified against a hash, before its transaction. -/
inductive Checked
  | login (account : Id) (hash : PasswordHash)
  | changePassword (session : Id) (hash : PasswordHash) (newPassword : String)
      (expectedRevision : Int)
  deriving DecidableEq

/-- `login`, until the password is verified. -/
def AccountDb.checkLogin (h : Host) (db : AccountDb) (username password : String) :
    Except AppError Checked := do
  refuseIf (username.utf8ByteSize > 100 ∨ password.utf8ByteSize > 1024) .authRequired
  let a ← okOr (db.accounts.rows.find? fun a => a.name = username ∧ a.disabledAt = none)
    .authRequired
  refuseIf (h.verifyPassword password a.passwordHash = false) .authRequired
  return .login a.id a.passwordHash

/-- `login`, from its transaction on. -/
def AccountDb.login (db : AccountDb) (sample : ClockSample) (fresh account : Id)
    (hash : PasswordHash) : Answer := do
  beginUnauthenticated sample
  let a ← okOr (db.accounts.get? account) .authRequired
  refuseIf (a.passwordHash ≠ hash ∨ a.disabledAt ≠ none) .authRequired
  let db ← db.issueBrowserSession a.id fresh sample.now
  return (db, [.authorized a.password a sample.now,
    .issued (sessionSecret (newSession a.id fresh sample.now))])

/-! ### Passkeys -/

/-- `CHALLENGE_TTL_MS`. -/
def challengeTtlMs : Int := 5 * 60 * 1000

/-- `MAX_PASSKEYS`. -/
def maxPasskeys : Nat := 10

/-- `MAX_SIGN_IN_CHALLENGES`. -/
def maxSignInChallenges : Nat := 500

/-- `MAX_UNFINISHED_REGISTRATIONS`. -/
def maxUnfinishedRegistrations : Nat := 20

/-- The client data of a ceremony, with its serialization. -/
structure ClientData where
  type : String
  challenge : Id
  origin : String
  crossOrigin : Bool
  raw : String

/-- Authenticator data: its flags, counter, and the credential that it attests. -/
structure AuthenticatorData where
  rpId : String
  userPresent : Bool
  userVerified : Bool
  attested : Bool
  counter : Nat
  credential : Option (String × String)
  raw : String

def passkeyRejected : AppError :=
  .badRequest "The passkey response was not accepted. Start again."

/-- `check_client_data` of what could be decoded: this ceremony, this challenge and this site. -/
def checkClientData (h : Host) (data : Option ClientData) (kind : String) (challenge : Id) :
    Except AppError ClientData := do
  let data ← okOr data passkeyRejected
  refuseIf
    (data.type ≠ kind ∨ data.challenge ≠ challenge ∨ data.origin ≠ h.publicOrigin ∨
      data.crossOrigin = true)
    passkeyRejected
  return data

/-- `check_authenticator_data`. -/
def checkAuthenticatorData (h : Host) (data : Option AuthenticatorData) (attested : Bool) :
    Except AppError AuthenticatorData := do
  let data ← okOr data passkeyRejected
  refuseIf
    (data.rpId ≠ h.rpId ∨ data.userPresent = false ∨ data.userVerified = false ∨
      (attested = true ∧ data.attested = false))
    passkeyRejected
  return data

/-- The challenges, of which only the `keep` newest are of the purpose. -/
def dropOldest (challenges : Table Challenge) (purpose : Purpose) (keep : Nat) : Table Challenge :=
  let old := (((challenges.filter fun c => c.purpose = purpose).insertionSort
    fun c d => d.createdAt ≤ c.createdAt).drop keep).map (·.id)
  challenges.delete fun c => c.id ∈ old

/-- A challenge as it is issued. -/
def newChallenge (fresh : Id) (purpose : Purpose) (now : Time) : Challenge :=
  ⟨fresh, purpose, now, now + challengeTtlMs⟩

/-- Room for a new challenge, and its row. -/
def AccountDb.issueChallenge (db : AccountDb) (now : Time) (fresh : Id) (purpose : Purpose)
    (keep : Nat) : Except AppError AccountDb := do
  let unexpired := db.challenges.delete fun c => c.expiresAt ≤ now
  let room := dropOldest unexpired purpose keep
  let challenges ← okOr (room.insert? (newChallenge fresh purpose now)) .recordConflict
  return { db with challenges := challenges }

/-- `registration_options`. -/
def AccountDb.registrationOptions (db : AccountDb) (sample : ClockSample) (session fresh : Id) :
    Answer := do
  beginUnauthenticated sample
  let (b, a) ← db.verify sample.now session
  refuseIf (maxPasskeys ≤ (db.passkeys.filter fun k => k.principal = a.id).length)
    (.conflict "passkey_limit"
      "This account already has the most passkeys it may hold. Remove one first.")
  let db ← db.issueChallenge sample.now fresh (.register a.id) (maxUnfinishedRegistrations - 1)
  return (db, [.authorized (sessionSecret b) a sample.now,
    .issued (newChallenge fresh (.register a.id) sample.now).secret])

/-- `sign_in_options`. -/
def AccountDb.signInOptions (db : AccountDb) (sample : ClockSample) (fresh : Id) : Answer := do
  beginUnauthenticated sample
  let db ← db.issueChallenge sample.now fresh .signIn (maxSignInChallenges - 1)
  return (db, [.issued (newChallenge fresh .signIn sample.now).secret])

/-- `take_challenge`: the row is deleted, and answered if it is of the purpose and unexpired. A
registration only takes the account's own; with another's it is refused and rolled back. -/
def AccountDb.takeChallenge (db : AccountDb) (id : Id) (purpose : Purpose) (now : Time) :
    AccountDb × Option Challenge :=
  ({ db with challenges := db.challenges.delete fun c => c.id = id ∧ c.purpose = purpose },
    (db.challenges.get? id).filter fun c => c.purpose = purpose ∧ now < c.expiresAt)

/-- `RegistrationInput`. -/
structure RegistrationInput where
  challenge : Id
  credentialId : String
  clientData : Option ClientData
  authenticatorData : Option AuthenticatorData

/-- `register_passkey`. -/
def AccountDb.registerPasskey (h : Host) (db : AccountDb) (sample : ClockSample)
    (session fresh : Id) (input : RegistrationInput) : Answer := do
  let (b, a) ← db.begin sample session .registerPasskey
  let (db, taken) := db.takeChallenge input.challenge (.register a.id) sample.now
  let c ← okOr taken (.badRequest "The passkey request expired. Start again.")
  let _ ← checkClientData h input.clientData "webauthn.create" c.id
  let data ← checkAuthenticatorData h input.authenticatorData true
  let (credentialId, publicKey) ← okOr data.credential passkeyRejected
  refuseIf (credentialId ≠ input.credentialId) passkeyRejected
  refuseIf (maxPasskeys ≤ (db.passkeys.filter fun k => k.principal = a.id).length)
    (.conflict "passkey_limit"
      "This account already has the most passkeys it may hold. Remove one first.")
  refuseIf (∃ k ∈ db.passkeys, k.credentialId = credentialId)
    (.conflict "passkey_exists" "That passkey is already registered.")
  let passkeys ← okOr
    (db.passkeys.insert? ⟨fresh, a.id, credentialId, publicKey, data.counter, sample.now⟩)
    .recordConflict
  return ({ db with passkeys := passkeys },
    [.authorized (sessionSecret b) a sample.now, .authorized c.secret a sample.now,
      .issued ⟨.passkey, fresh, some a.id, none, none⟩])

/-- `delete_passkey`: forget one of the signed-in account's passkeys. -/
def AccountDb.deletePasskey (db : AccountDb) (sample : ClockSample) (session id : Id) :
    Answer := do
  let (b, a) ← db.begin sample session .deletePasskey
  refuseIf (¬ ∃ k ∈ db.passkeys, k.id = id ∧ k.principal = a.id) .notFound
  return ({ db with passkeys := db.passkeys.delete fun k => k.id = id ∧ k.principal = a.id },
    [.authorized (sessionSecret b) a sample.now])

/-- `SignInInput`. -/
structure SignInInput where
  challenge : Id
  credentialId : String
  clientData : Option ClientData
  authenticatorData : Option AuthenticatorData
  signature : String
  userHandle : Option Id

/-- A counter that an authenticator reports must move forward; one that stays zero is accepted. -/
def counterOk (stored counter : Nat) : Bool := (stored = 0 ∧ counter = 0) ∨ stored < counter

/-- `verify_assertion`: the passkey, its enabled account and the new counter. -/
def AccountDb.verifyAssertion (h : Host) (db : AccountDb) (input : SignInInput)
    (challenge : Challenge) : Option (Passkey × Account × Nat) := do
  let client ← (checkClientData h input.clientData "webauthn.get" challenge.id).toOption
  let data ← (checkAuthenticatorData h input.authenticatorData false).toOption
  let k ← db.passkeys.rows.find? fun k => k.credentialId = input.credentialId
  let a ← (db.accounts.get? k.principal).filter fun a => a.disabledAt = none
  if counterOk k.signCount data.counter ∧ input.userHandle.all (fun id => id = a.id) ∧
      h.es256 k.publicKey data.raw client.raw input.signature then
    some (k, a, data.counter)
  else none

/-- What `sign_in` does with an assertion that it accepts. -/
def AccountDb.signedIn (db : AccountDb) (now : Time) (fresh : Id) (challenge : Challenge)
    (k : Passkey) (a : Account) (counter : Nat) : Answer := do
  let passkeys := db.passkeys.modify (fun x => x.id = k.id) fun x => { x with signCount := counter }
  let db ← ({ db with passkeys := passkeys }).issueBrowserSession a.id fresh now
  return (db, [.authorized k.secret a now, .authorized challenge.secret a now,
    .issued (sessionSecret (newSession a.id fresh now))])

/-- `sign_in`. What is not acceptable is refused once the challenge is gone. -/
def AccountDb.signIn (h : Host) (db : AccountDb) (sample : ClockSample) (fresh : Id)
    (input : SignInInput) : Answer := do
  beginUnauthenticated sample
  let (db, taken) := db.takeChallenge input.challenge .signIn sample.now
  match taken.bind fun c => (db.verifyAssertion h input c).map (c, ·) with
  | none => return (db, [])
  | some (c, k, a, counter) => db.signedIn sample.now fresh c k a counter

end AgentCoordinator.Accounts
