import AgentCoordinator.Accounts.SignIn

/-
Mailed links: verification of an address, and password recovery.

A link carries a random token that is stored as a hash and good for one use. A newer link of its
kind invalidates the older ones of the account. What a link may do is decided in the transaction
that uses it, from its row and the account's.
-/

namespace AgentCoordinator.Accounts

open Guarded Tabular

/-- `VERIFICATION_TTL_MS`. -/
def verificationTtlMs : Int := 24 * 60 * 60 * 1000

/-- `RESET_TTL_MS`. -/
def resetTtlMs : Int := 60 * 60 * 1000

/-- `RESEND_COOLDOWN_MS`. -/
def resendCooldownMs : Int := 60 * 1000

/-- `MAX_ACCOUNTS_PER_ADDRESS`. -/
def maxAccountsPerAddress : Nat := 10

/-- A link as it is issued. -/
def newLink (fresh account : Id) (email : String) (now : Time) (ttl : Int) : MailedLink :=
  ⟨fresh, account, email, now, now + ttl, none, none⟩

/-- The newest link of the account is not a minute old. -/
def Cooling (links : Table MailedLink) (account : Id) (now : Time) : Prop :=
  ∃ l ∈ links, l.principal = account ∧ now < l.createdAt + resendCooldownMs

instance (links : Table MailedLink) (account : Id) (now : Time) :
    Decidable (Cooling links account now) :=
  inferInstanceAs
    (Decidable (∃ l ∈ links, l.principal = account ∧ now < l.createdAt + resendCooldownMs))

/-! ### Verification -/

/-- `issue_verification`. -/
def AccountDb.issueVerification (db : AccountDb) (account fresh : Id) (email : String)
    (now : Time) : Except AppError AccountDb := do
  let verifications ← okOr
    ((invalidateLinks db.verifications now account).insert?
      (newLink fresh account email now verificationTtlMs)) .recordConflict
  return { db with verifications := verifications }

/-- `usable_verification`: unused, current, unexpired, and still naming the unverified address of
an enabled account. -/
def AccountDb.usableVerification (db : AccountDb) (link : Id) (now : Time) :
    Option (MailedLink × Account) := do
  let l ← (db.verifications.get? link).filter fun l => l.Outstanding now
  let a ← (db.accounts.get? l.principal).filter fun a =>
    a.disabledAt = none ∧ a.email = some l.email ∧ a.emailVerifiedAt = none
  return (l, a)

/-- `consume_verification`. An unusable link is answered with a page, and changes nothing. -/
def AccountDb.verifyEmail (db : AccountDb) (sample : ClockSample) (link : Id) : Answer := do
  beginUnauthenticated sample
  match db.usableVerification link sample.now with
  | none => return (db, [])
  | some (l, a) =>
    let db := { db with verifications := consumeLink db.verifications sample.now l }
    let db := db.setAccount a.id fun a =>
      { a with emailVerifiedAt := some sample.now, revision := a.revision + 1 }
    return (db, [.authorized l.verification a sample.now])

/-- `set_email`. -/
def AccountDb.setEmail (h : Host) (db : AccountDb) (sample : ClockSample) (session fresh : Id)
    (expectedRevision : Int) (text : String) : Answer := do
  refuseIf (expectedRevision < 1) (.badRequest "Provide a positive expected_revision.")
  let email ← validateEmail h text
  let (b, a) ← db.begin sample session .setEmail
  refuseIf (a.revision ≠ expectedRevision)
    (.conflict "revision_conflict"
      "The account changed. Reload it before changing the email address.")
  refuseIf (a.email.any (fun e => sameAddress e email) = true)
    (.conflict "email_unchanged" "That is already the email address on this account.")
  let db := db.setAccount a.id fun a =>
    { a with email := some email, emailVerifiedAt := none, revision := a.revision + 1 }
  let db ← db.issueVerification a.id fresh email sample.now
  return (db, [.authorized (sessionSecret b) a sample.now,
    .issued (newLink fresh a.id email sample.now verificationTtlMs).verification])

/-- `resend_verification`. -/
def AccountDb.resendVerification (db : AccountDb) (sample : ClockSample) (session fresh : Id) :
    Answer := do
  let (b, a) ← db.begin sample session .resendVerification
  let email ← okOr a.email
    (.conflict "email_missing" "Set an email address before requesting verification.")
  refuseIf (a.emailVerifiedAt ≠ none)
    (.conflict "email_already_verified" "This email address is already verified.")
  refuseIf (Cooling db.verifications a.id sample.now)
    (.conflict "verification_resend_too_soon"
      ("A verification email was sent less than a minute ago. Wait a minute before requesting " ++
        "another."))
  let db ← db.issueVerification a.id fresh email sample.now
  return (db, [.authorized (sessionSecret b) a sample.now,
    .issued (newLink fresh a.id email sample.now verificationTtlMs).verification])

/-! ### Password recovery -/

/-- The accounts that `request_reset` mails a link to. -/
def AccountDb.recoverable (db : AccountDb) (email : String) : List Account :=
  ((db.accounts.filter fun a => a.disabledAt = none ∧ a.emailVerifiedAt ≠ none ∧
    a.email.any (fun e => sameAddress e email) = true).insertionSort
      fun a b => a.name ≤ b.name).take maxAccountsPerAddress

/-- One account's turn in the loop of `request_reset`: one message a minute. -/
def AccountDb.issueReset (db : AccountDb) (now : Time) (fresh : Id) (a : Account) : Answer := do
  if Cooling db.resets a.id now then return (db, [])
  else
    let email := a.email.getD ""
    let resets ← okOr
      ((invalidateLinks db.resets now a.id).insert? (newLink fresh a.id email now resetTtlMs))
      .recordConflict
    return ({ db with resets := resets }, [.issued (newLink fresh a.id email now resetTtlMs).reset])

/-- The loop of `request_reset`; each link is a new draw. -/
def AccountDb.issueResets (now : Time) : List Account → Id → AccountDb → Answer
  | [], _, db => return (db, [])
  | a :: rest, fresh, db => do
    let (db, acts) ← db.issueReset now fresh a
    let (db, more) ← issueResets now rest (fresh + 1) db
    return (db, acts ++ more)

/-- `request_reset`. The reply is the same whether or not any account matched. -/
def AccountDb.requestReset (h : Host) (db : AccountDb) (sample : ClockSample) (fresh : Id)
    (text : String) : Answer := do
  let email ← validateEmail h text
  beginUnauthenticated sample
  issueResets sample.now (db.recoverable email) fresh db

/-- `usable_reset`: unused, current, unexpired, and still naming the verified address of an
enabled account. -/
def AccountDb.usableReset (db : AccountDb) (link : Id) (now : Time) :
    Option (MailedLink × Account) := do
  let l ← (db.resets.get? link).filter fun l => l.Outstanding now
  let a ← (db.accounts.get? l.principal).filter fun a =>
    a.disabledAt = none ∧ a.email = some l.email ∧ a.emailVerifiedAt ≠ none
  return (l, a)

/-- `reset_password`. An unusable link and an unusable password are answered with a page. The link
is looked up once more before the password is hashed, which only spares the work. -/
def AccountDb.resetPassword (h : Host) (db : AccountDb) (sample : ClockSample) (fresh link : Id)
    (password confirmation : String) : Answer := do
  if password ≠ confirmation ∨ password.utf8ByteSize < 12 ∨ 1024 < password.utf8ByteSize then
    return (db, [])
  else
    beginUnauthenticated sample
    match db.usableReset link sample.now with
    | none => return (db, [])
    | some (l, a) =>
      let hash := h.hashPassword password fresh
      let db := { db with resets := consumeLink db.resets sample.now l }
      let db := db.setAccount a.id
        (fun a => { a with passwordHash := hash, revision := a.revision + 1 })
        (id_newPassword h fresh password)
      return (db.signOut sample.now a.id, [.authorized l.reset a sample.now,
        .passwordChanged a.id, .issued ⟨.password, fresh, some a.id, none, none⟩])

end AgentCoordinator.Accounts
