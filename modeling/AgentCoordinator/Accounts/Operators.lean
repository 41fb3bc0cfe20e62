import AgentCoordinator.Accounts.Links

/-
Operator accounts: creation, access, passwords, and recovery on the host.

`recover_operator_password` and `invalidate_restored_state` are not routes: the operator of the host
runs them, the second on a staged copy of a backup before it becomes reachable.
-/

namespace AgentCoordinator.Accounts

open Guarded Tabular

/-- A new account with its first password. -/
def newAccount (fresh : Id) (name : String) (role : Role) (hash : PasswordHash)
    (email : Option String) : Account :=
  ⟨fresh, name, role, hash, none, 1, email, none⟩

/-- `init_admin`, on an empty installation. -/
def AccountDb.initAdmin (h : Host) (db : AccountDb) (sample : ClockSample) (fresh : Id)
    (username password : String) : Answer := do
  validateName username
  validatePassword password
  beginUnauthenticated sample
  refuseIf (db.accounts.rows ≠ [])
    (.conflict "already_initialized"
      "Administrator initialization is only available for an empty installation.")
  let account := newAccount fresh username .admin (h.hashPassword password fresh) none
  let accounts ← okOr (db.accounts.insert? account) .recordConflict
  return ({ db with accounts := accounts }, [.issued account.password])

/-- `create_operator`. -/
def AccountDb.createOperator (h : Host) (db : AccountDb) (sample : ClockSample)
    (session fresh : Id) (name : String) (role : Role) (text password : String) : Answer := do
  validateName name
  validateHumanRole role
  validatePassword password
  let email ← validateEmail h text
  let (b, a) ← db.begin sample session .createOperator
  a.admin
  refuseIf (∃ x ∈ db.accounts, x.name = name)
    (.conflict "operator_name_conflict" "An account already uses that name.")
  let account := newAccount fresh name role (h.hashPassword password fresh) (some email)
  let accounts ← okOr (db.accounts.insert? account) .recordConflict
  let db ← ({ db with accounts := accounts }).issueVerification account.id fresh email sample.now
  return (db, [.authorized (sessionSecret b) a sample.now, .issued account.password,
    .issued (newLink fresh account.id email sample.now verificationTtlMs).verification])

/-- `update_operator_access`. -/
def AccountDb.updateOperatorAccess (db : AccountDb) (sample : ClockSample) (session id : Id)
    (expectedRevision : Int) (role : Role) (enabled : Bool) : Answer := do
  validateHumanRole role
  refuseIf (expectedRevision < 1)
    (.badRequest "Provide a valid operator ID and positive expected_revision.")
  let (b, a) ← db.begin sample session .updateAccess
  a.admin
  let current ← okOr (db.accounts.get? id) .notFound
  refuseIf (current.revision ≠ expectedRevision)
    (.conflict "revision_conflict"
      "The operator account changed. Reload it before changing access.")
  refuseIf
    ((current.role = .admin ∧ current.disabledAt = none ∧ (role ≠ .admin ∨ enabled = false)) ∧
      (db.accounts.filter fun x => x.role = .admin ∧ x.disabledAt = none).length ≤ 1)
    (.conflict "last_active_admin"
      ("Create or enable another administrator before removing this administrator's access."))
  let acts := [.authorized (sessionSecret b) a sample.now]
  if current.role ≠ role ∨ decide (current.disabledAt = none) ≠ enabled then
    let db := db.setAccount id fun x =>
      { x with
        role := role
        disabledAt := if enabled then none else some sample.now
        revision := x.revision + 1 }
    return (db.signOut sample.now id, acts)
  else
    return (db, acts)

/-! ### Passwords -/

/-- `change_password`, until the current password is verified. -/
def AccountDb.checkPasswordChange (h : Host) (db : AccountDb) (sample : ClockSample)
    (session : Id) (currentPassword newPassword : String) (expectedRevision : Int) :
    Except AppError (Checked × List Act) := do
  let (b, a) ← db.verify sample.now session
  validatePassword currentPassword
  validatePassword newPassword
  refuseIf (currentPassword = newPassword ∨ expectedRevision < 1)
    (.badRequest "Choose a different password and provide a positive expected_revision.")
  refuseIf (h.verifyPassword currentPassword a.passwordHash = false) .authRequired
  return (.changePassword session a.passwordHash newPassword expectedRevision,
    [.authorized (sessionSecret b) a sample.now])

/-- `change_password`, from its transaction on. -/
def AccountDb.changePassword (h : Host) (db : AccountDb) (sample : ClockSample)
    (session fresh : Id) (original : PasswordHash) (newPassword : String)
    (expectedRevision : Int) : Answer := do
  let (b, a) ← db.begin sample session .changePassword
  refuseIf (a.revision ≠ expectedRevision)
    (.conflict "revision_conflict"
      "The account changed. Sign in again before changing the password.")
  refuseIf (a.passwordHash ≠ original) .authRequired
  let hash := h.hashPassword newPassword fresh
  let db := db.setAccount a.id
    (fun a => { a with passwordHash := hash, revision := a.revision + 1 })
    (id_newPassword h fresh newPassword)
  return (db.signOut sample.now a.id, [.authorized (sessionSecret b) a sample.now,
    .authorized a.password a sample.now, .passwordChanged a.id,
    .issued ⟨.password, fresh, some a.id, none, none⟩])

/-- `recover_operator_password`: replaces the password, enables the named human account, and
revokes all browser sessions. -/
def AccountDb.recoverOperatorPassword (h : Host) (db : AccountDb) (sample : ClockSample)
    (fresh : Id) (username newPassword : String) : Answer := do
  validateName username
  validatePassword newPassword
  beginUnauthenticated sample
  let a ← okOr (db.accounts.rows.find? fun a => a.name = username) .notFound
  let hash := h.hashPassword newPassword fresh
  let db := db.setAccount a.id fun a =>
    { a with passwordHash := hash, disabledAt := none, revision := a.revision + 1 }
  return (db.signOut sample.now a.id,
    [.passwordChanged a.id, .issued ⟨.password, fresh, some a.id, none, none⟩])

/-! ### Restoring a backup -/

/-- `invalidate_restored_state` on the accounts of a snapshot. -/
def AccountDb.invalidateRestoredState (h : Host) (snapshot : AccountDb) (now : Time)
    (fresh : Id) : AccountDb × List Act :=
  let disabledPassword := h.hashPassword (h.secret fresh) fresh
  ({ snapshot with
      coordinationState := .restoreReconciliation
      sessions := snapshot.sessions.modify (fun _ => True)
        (fun b => { b with revokedAt := some (b.revokedAt.getD now) }) (key_revoked now)
      accounts := snapshot.accounts.modify (fun _ => True) fun a =>
        { a with
          passwordHash := disabledPassword
          disabledAt := some (a.disabledAt.getD now)
          revision := a.revision + 1 } },
    .restored snapshot.secrets ::
      snapshot.accounts.rows.map fun a => .issued ⟨.password, fresh, some a.id, none, none⟩)

/-- `finish_restore`, by an administrator. -/
def AccountDb.finishRestore (db : AccountDb) (sample : ClockSample) (session : Id) : Answer := do
  let (b, a) ← db.begin sample session .finishRestore
  a.admin
  refuseIf (db.coordinationState ≠ .restoreReconciliation)
    (.conflict "restore_changed"
      "Reload the active restore reconciliation before recording evidence.")
  return ({ db with coordinationState := .ready }, [.authorized (sessionSecret b) a sample.now])

end AgentCoordinator.Accounts
