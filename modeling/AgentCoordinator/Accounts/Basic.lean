import AgentCoordinator.Clock
import AgentCoordinator.Receipts
import Mathlib.Data.List.Sort

/-
Human accounts and what grants access to them.

An account is reached with its password, with a passkey, with a browser session that one of the two
started, or with a mailed link: a reset link sets a new password, a verification link marks the
address verified. Passkey ceremonies answer one-time challenges. Tokens and challenges are 256
random bits, of which the database keeps a digest or the value in a row of their own; here the row's
identity stands for them. What the handlers do with these secrets is noted as `Act`s.
-/

namespace AgentCoordinator.Accounts

open Guarded Tabular

/-- What the accounts rely on from outside: the configured origin, and the libraries for password
hashes, signatures, addresses and random texts. -/
structure Host where
  publicOrigin : String
  /-- `rp_id`: the host of the public origin. -/
  rpId : String
  /-- Argon2id of a password under a salt. -/
  argon2 : String → Nat → String
  /-- Whether a signature over authenticator data and client data verifies under a public key. -/
  es256 : String → String → String → String → Bool
  /-- `lettre::Address::from_str(email).is_ok()`. -/
  address : String → Bool
  /-- `secret()`: the text of a random draw. -/
  secret : Id → String

/-! ### Rows -/

/-- An encoded password hash: its salt and its output. -/
structure PasswordHash where
  salt : Id
  output : String
  deriving DecidableEq

/-- A row of `principals` of kind `human`. -/
structure Account where
  id : Id
  name : String
  role : Role
  passwordHash : PasswordHash
  disabledAt : Option Time
  revision : Int
  email : Option String
  emailVerifiedAt : Option Time
  deriving DecidableEq

/-- A row of `password_resets` or of `email_verifications`. -/
structure MailedLink where
  id : Id
  principal : Id
  email : String
  createdAt : Time
  expiresAt : Time
  invalidatedAt : Option Time
  usedAt : Option Time
  deriving DecidableEq

/-- The link is unused, current and unexpired. -/
def MailedLink.Outstanding (now : Time) (l : MailedLink) : Prop :=
  l.usedAt = none ∧ l.invalidatedAt = none ∧ now < l.expiresAt

instance (now : Time) (l : MailedLink) : Decidable (l.Outstanding now) :=
  inferInstanceAs (Decidable (l.usedAt = none ∧ l.invalidatedAt = none ∧ now < l.expiresAt))

/-- `passkeys`. -/
structure Passkey where
  id : Id
  principal : Id
  credentialId : String
  publicKey : String
  signCount : Nat
  createdAt : Time
  deriving DecidableEq

/-- The purpose of a challenge; one for a registration has the account that registers. -/
inductive Purpose
  | register (principal : Id)
  | signIn
  deriving DecidableEq

/-- `principal_id`. -/
def Purpose.principal : Purpose → Option Id
  | .register principal => some principal
  | .signIn => none

/-- `passkey_challenges`. -/
structure Challenge where
  id : Id
  purpose : Purpose
  createdAt : Time
  expiresAt : Time
  deriving DecidableEq

instance : Keyed Account Id := ⟨(·.id)⟩
instance : Keyed MailedLink Id := ⟨(·.id)⟩
instance : Keyed Passkey Id := ⟨(·.id)⟩
instance : Keyed Challenge Id := ⟨(·.id)⟩

/-- The tables that access to human accounts rests on. -/
structure AccountDb where
  coordinationState : CoordinationState
  accounts : Table Account
  sessions : Table BrowserSession
  resets : Table MailedLink
  verifications : Table MailedLink
  passkeys : Table Passkey
  challenges : Table Challenge

/-! ### Secrets -/

inductive SecretKind
  | session
  | password
  | passkey
  | resetLink
  | verificationLink
  | challenge
  deriving DecidableEq

/-- A secret, with what it was issued for. A password is identified by the salt of its hash. -/
structure Secret where
  kind : SecretKind
  id : Id
  account : Option Id
  email : Option String
  expiresAt : Option Time
  deriving DecidableEq

def sessionSecret (b : BrowserSession) : Secret :=
  ⟨.session, b.id, some b.principal, none, some b.expiresAt⟩

def Account.password (a : Account) : Secret :=
  ⟨.password, a.passwordHash.salt, some a.id, none, none⟩

def MailedLink.reset (l : MailedLink) : Secret :=
  ⟨.resetLink, l.id, some l.principal, some l.email, some l.expiresAt⟩

def MailedLink.verification (l : MailedLink) : Secret :=
  ⟨.verificationLink, l.id, some l.principal, some l.email, some l.expiresAt⟩

def Passkey.secret (k : Passkey) : Secret := ⟨.passkey, k.id, some k.principal, none, none⟩

def Challenge.secret (c : Challenge) : Secret :=
  ⟨.challenge, c.id, c.purpose.principal, none, some c.expiresAt⟩

/-- Every secret that the database contains, used or not. -/
def AccountDb.secrets (db : AccountDb) : List Secret :=
  db.sessions.rows.map sessionSecret ++ db.accounts.rows.map Account.password ++
    db.passkeys.rows.map Passkey.secret ++ db.resets.rows.map MailedLink.reset ++
    db.verifications.rows.map MailedLink.verification ++
    db.challenges.rows.map Challenge.secret

/-- What a request does with secrets. -/
inductive Act
  | issued (x : Secret)
  /-- The secret authorized a request, with the row of the account that it acted on or for. -/
  | authorized (x : Secret) (account : Account) (now : Time)
  | passwordChanged (account : Id)
  /-- A snapshot that contains these secrets took the place of the database. -/
  | restored (contents : List Secret)
  deriving DecidableEq

/-! ### Input -/

/-- `hash_password`. -/
def Host.hashPassword (h : Host) (password : String) (salt : Id) : PasswordHash :=
  ⟨salt, h.argon2 password salt⟩

/-- `verify_password`. -/
def Host.verifyPassword (h : Host) (password : String) (hash : PasswordHash) : Bool :=
  h.argon2 password hash.salt = hash.output

def validatePassword (password : String) : Except AppError Unit :=
  refuseIf (password.utf8ByteSize < 12 ∨ 1024 < password.utf8ByteSize)
    (.badRequest "The password must contain 12 to 1024 bytes.")

/-- `str::trim`, on characters. -/
def trim (text : List Char) : List Char :=
  ((text.dropWhile isWhitespace).reverse.dropWhile isWhitespace).reverse

def validateName (name : String) : Except AppError Unit :=
  refuseIf
    (name = "" ∨ name.utf8ByteSize > 100 ∨ trim name.toList ≠ name.toList ∨
      name.toList.any isControl = true)
    (.badRequest ("name must contain 1 to 100 bytes without control characters or surrounding " ++
      "whitespace."))

def validateHumanRole (role : Role) : Except AppError Unit :=
  refuseIf (role ≠ .admin ∧ role ≠ .operator)
    (.badRequest "role must be admin or operator for a human account.")

/-- `char::is_ascii_alphanumeric`. -/
def isAsciiAlphanumeric (c : Char) : Bool :=
  ('0' ≤ c && c ≤ '9') || ('a' ≤ c && c ≤ 'z') || ('A' ≤ c && c ≤ 'Z')

/-- What `validate_email` asks of the part behind the last `@`. -/
def domainOk (domain : List Char) : Bool :=
  domain.contains '.' && domain.head? != some '.' && domain.head? != some '-' &&
    domain.getLast? != some '.' && domain.getLast? != some '-' &&
    !decide (['.', '.'] <:+: domain) &&
    domain.all (fun c => isAsciiAlphanumeric c || c == '.' || c == '-')

/-- `validate_email`: a normalized address, or a message for the person who typed it. -/
def validateEmail (h : Host) (text : String) : Except AppError String := do
  let email := trim text.toList
  let invalid := AppError.badRequest "Enter an email address such as name@example.com."
  refuseIf (email.length < 3 ∨ 254 < email.length ∨ email.any (fun c => c.toNat ≥ 128) = true)
    invalid
  refuseIf ('@' ∉ email) invalid
  let domain := (email.reverse.takeWhile (· != '@')).reverse
  let localPart := ((email.reverse.dropWhile (· != '@')).drop 1).reverse
  refuseIf
    (localPart = [] ∨ localPart.length > 64 ∨ domainOk domain = false ∨
      email.any (fun c => !isAsciiGraphic c) = true ∨ h.address (String.ofList email) = false)
    invalid
  return String.ofList email

/-- `lower(a)=lower(b)` and `eq_ignore_ascii_case`, which fold the ASCII letters only. -/
def sameAddress (a b : String) : Bool := a.toLower = b.toLower

/-! ### Callers -/

/-- `Auth::verify` of a browser session: the account it is signed in to. -/
def AccountDb.verify (db : AccountDb) (now : Time) (session : Id) :
    Except AppError (BrowserSession × Account) := do
  let b ← okOr (db.sessions.get? session) .authRequired
  let a ← okOr (db.accounts.get? b.principal) .authRequired
  refuseIf (b.revokedAt ≠ none ∨ b.expiresAt ≤ now ∨ a.disabledAt ≠ none) .authRequired
  return (b, a)

/-- The routes of browser sessions that go through `Mutation::begin`. -/
inductive Operation
  | createOperator
  | updateAccess
  | changePassword
  | setEmail
  | resendVerification
  | registerPasskey
  | deletePasskey
  | logout
  | revokeSession
  | finishRestore
  deriving DecidableEq

/-- `allowed_during_restore`. -/
def Operation.allowedDuringRestore : Operation → Bool
  | .logout | .changePassword | .createOperator | .updateAccess | .revokeSession
  | .finishRestore => true
  | .setEmail | .resendVerification | .registerPasskey | .deletePasskey => false

/-- `allowed_during_clock_reconciliation`. -/
def Operation.allowedDuringClockReconciliation : Operation → Bool
  | .logout | .revokeSession | .finishRestore => true
  | _ => false

/-- `Mutation::begin` for a browser session. -/
def AccountDb.begin (db : AccountDb) (sample : ClockSample) (session : Id) (op : Operation) :
    Except AppError (BrowserSession × Account) := do
  refuseIf (sample.incidentDetected = true) clockReconciliationError
  let caller ← db.verify sample.now session
  refuseIf
    (db.coordinationState = .restoreReconciliation ∧ op.allowedDuringRestore = false)
    (.conflict "restore_reconciliation_required"
      ("The restored service is paused. Reconcile restored authority and external effects " ++
        "before changing coordination state."))
  refuseIf (sample.incidentActive = true ∧ op.allowedDuringClockReconciliation = false)
    clockReconciliationError
  return caller

/-- The start of a transaction without a caller. -/
def beginUnauthenticated (sample : ClockSample) : Except AppError Unit :=
  refuseIf (sample.incidentDetected = true ∨ sample.incidentActive = true)
    clockReconciliationError

/-- `admin`. -/
def Account.admin (a : Account) : Except AppError Unit :=
  refuseIf (a.role ≠ .admin)
    (.forbidden "A human administrator is required for credential administration.")

/-! ### Writes -/

/-- Rewrite one account's row. -/
def AccountDb.setAccount (db : AccountDb) (id : Id) (f : Account → Account)
    (hf : ∀ a, (f a).id = a.id := by intro; exact Eq.trans rfl rfl) : AccountDb :=
  { db with accounts := db.accounts.modify (fun a => a.id = id) f hf }

/-- A new password keeps the row it is set in. -/
lemma id_newPassword (h : Host) (fresh : Id) (password : String) : ∀ a : Account,
    ({ a with
        passwordHash := h.hashPassword password fresh
        revision := a.revision + 1 } : Account).id = a.id :=
  fun _ => rfl

/-- A revoked session keeps its row. -/
lemma key_revoked (now : Time) : ∀ b : BrowserSession,
    Keyed.key ({ b with revokedAt := some (b.revokedAt.getD now) } : BrowserSession) =
      Keyed.key b :=
  fun _ => rfl

/-- Revoke every browser session of an account. -/
def AccountDb.signOut (db : AccountDb) (now : Time) (id : Id) : AccountDb :=
  { db with
    sessions := db.sessions.modify (fun b => b.principal = id)
      (fun b => { b with revokedAt := some (b.revokedAt.getD now) }) (key_revoked now) }

/-- Invalidate the unused links of an account. -/
def invalidateLinks (links : Table MailedLink) (now : Time) (id : Id) : Table MailedLink :=
  links.modify (fun l => l.principal = id ∧ l.usedAt = none ∧ l.invalidatedAt = none) fun l =>
    { l with invalidatedAt := some now }

/-- Mark a link used, and invalidate the account's other unused ones. -/
def consumeLink (links : Table MailedLink) (now : Time) (used : MailedLink) : Table MailedLink :=
  invalidateLinks
    (links.modify (fun l => l.id = used.id) fun l => { l with usedAt := some now }) now
    used.principal

end AgentCoordinator.Accounts
