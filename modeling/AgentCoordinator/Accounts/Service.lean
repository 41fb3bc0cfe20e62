import AgentCoordinator.Library.Transition
import AgentCoordinator.Accounts.Operators

/-
An installation, its backups, and its restores.

Clients send requests in any order, and every transaction sees the service time that the clock
samples, which does not go back. A request that checks a password does so before its transaction, so
others may come in between. A backup is a copy of the database at any time; the host's operator may
replace the installation by a backup, whose state is invalidated first. Random draws are never drawn
twice: identities and salts come from one counter, which a restore does not reset.
-/

namespace AgentCoordinator.Accounts

open Guarded Tabular

/-- A request that is served in one transaction. -/
inductive Request
  | initAdmin (username password : String)
  | createOperator (session : Id) (name : String) (role : Role) (email password : String)
  | updateAccess (session id : Id) (expectedRevision : Int) (role : Role) (enabled : Bool)
  | logout (session : Id)
  | revokeBrowserSession (session target : Id)
  | registrationOptions (session : Id)
  | registerPasskey (session : Id) (input : RegistrationInput)
  | deletePasskey (session id : Id)
  | signInOptions
  | signIn (input : SignInInput)
  | setEmail (session : Id) (expectedRevision : Int) (email : String)
  | resendVerification (session : Id)
  | verifyEmail (link : Id)
  | requestReset (email : String)
  | resetPassword (link : Id) (password confirmation : String)
  | recoverOperatorPassword (username newPassword : String)
  | finishRestore (session : Id)
  /-- Any other request of a signed-in person, which writes none of these tables. -/
  | other (session : Id)

/-- A request that only needs a caller. -/
def AccountDb.authenticated (db : AccountDb) (sample : ClockSample) (session : Id) : Answer := do
  let (b, a) ← db.verify sample.now session
  return (db, [.authorized (sessionSecret b) a sample.now])

def AccountDb.handle (h : Host) (db : AccountDb) (sample : ClockSample) (fresh : Id) :
    Request → Answer
  | .initAdmin username password => db.initAdmin h sample fresh username password
  | .createOperator session name role email password =>
    db.createOperator h sample session fresh name role email password
  | .updateAccess session id revision role enabled =>
    db.updateOperatorAccess sample session id revision role enabled
  | .logout session => db.logout sample session
  | .revokeBrowserSession session target => db.revokeBrowserSession sample session target
  | .registrationOptions session => db.registrationOptions sample session fresh
  | .registerPasskey session input => db.registerPasskey h sample session fresh input
  | .deletePasskey session id => db.deletePasskey sample session id
  | .signInOptions => db.signInOptions sample fresh
  | .signIn input => db.signIn h sample fresh input
  | .setEmail session revision email => db.setEmail h sample session fresh revision email
  | .resendVerification session => db.resendVerification sample session fresh
  | .verifyEmail link => db.verifyEmail sample link
  | .requestReset email => db.requestReset h sample fresh email
  | .resetPassword link password confirmation =>
    db.resetPassword h sample fresh link password confirmation
  | .recoverOperatorPassword username password =>
    db.recoverOperatorPassword h sample fresh username password
  | .finishRestore session => db.finishRestore sample session
  | .other session => db.authenticated sample session

/-- The transaction of a request whose password was checked. -/
def AccountDb.resume (h : Host) (db : AccountDb) (sample : ClockSample) (fresh : Id) :
    Checked → Answer
  | .login account hash => db.login sample fresh account hash
  | .changePassword session hash password revision =>
    db.changePassword h sample session fresh hash password revision

/-- An installation with its backups, and what was ever done with its secrets. -/
structure Service where
  db : AccountDb
  now : Time
  /-- Requests between the check of a password and their transaction. -/
  checked : List Checked
  snapshots : List AccountDb
  /-- How many random draws there were. -/
  drawn : Id
  log : List Act

/-- What may happen next. -/
inductive Action
  | request (sample : ClockSample) (r : Request)
  | checkLogin (username password : String)
  | checkPasswordChange (sample : ClockSample) (session : Id)
      (currentPassword newPassword : String) (expectedRevision : Int)
  | resume (sample : ClockSample) (c : Checked)
  | backup
  | restore (now : Time) (snapshot : Nat)

/-- Commit an answer; a refused request is rolled back. -/
def Service.commit (w : Service) (now : Time) : Answer → Service
  | .ok (db, acts) =>
    { w with
      db := db
      now := now
      drawn := w.drawn + maxAccountsPerAddress
      log := w.log ++ acts }
  | .error _ => { w with now := now }

/-- The installation that a snapshot becomes. -/
def Service.restore (h : Host) (w : Service) (now : Time) (snapshot : AccountDb) : Service :=
  let (db, acts) := snapshot.invalidateRestoredState h now w.drawn
  { w with db := db, now := now, checked := [], drawn := w.drawn + 1, log := w.log ++ acts }

/-- One step; none when service time would go back, or what is named does not exist. -/
def Service.step (h : Host) (w : Service) : Action → Option Service
  | .request sample r =>
    if w.now ≤ sample.now then
      some (w.commit sample.now (w.db.handle h sample w.drawn r))
    else none
  | .checkLogin username password =>
    (w.db.checkLogin h username password).toOption.map fun c => { w with checked := c :: w.checked }
  | .checkPasswordChange sample session current new revision =>
    if w.now ≤ sample.now then
      (w.db.checkPasswordChange h sample session current new revision).toOption.map
        fun (c, acts) =>
          { w with now := sample.now, checked := c :: w.checked, log := w.log ++ acts }
    else none
  | .resume sample c =>
    if w.now ≤ sample.now ∧ c ∈ w.checked then
      some (({ w with checked := w.checked.erase c }).commit sample.now
        (w.db.resume h sample w.drawn c))
    else none
  | .backup => some { w with snapshots := w.snapshots ++ [w.db] }
  | .restore now i => (w.snapshots[i]?).map (w.restore h now)

def AccountDb.empty : AccountDb := ⟨.ready, .empty, .empty, .empty, .empty, .empty, .empty⟩

/-- An installation before its first account. -/
def Service.initial (now : Time) : Service := ⟨.empty, now, [], [], 0, []⟩

/-- A run of an installation whose steps satisfy `ok`. -/
def Service.Runs (h : Host) (ok : Service → Action → Prop) (w w' : Service) : Prop :=
  Transition.Run (fun w a w' => w.step h a = some w') ok w w'

end AgentCoordinator.Accounts
