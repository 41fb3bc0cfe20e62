import Mathlib.Data.List.Sort
import Mathlib.Data.String.Basic
import Mathlib.Logic.Function.Basic
import AgentCoordinator.Library.Team

/-
The state of a supervised launch, and its retention.

A run is a directory of its role. Beside what the launch leaves there it has a lock, which is held
from before the preparation to the exit of the harness, the files that say how far the launch came,
and the subtree `state/`. `prepare` takes the lock of a fresh run, prunes the state of runs of the
role that ended some time ago, and lays out the state of its own. Supervisors share the runs; each
call of one can fail, and each can crash between two calls. Whatever is written is ASCII, so bytes
are characters here.
-/

namespace AgentCoordinator.RunState

open Procedure

/-! ### Data -/

def KEEP_TERMINAL : Nat := 5

def CARGO_CONFIG_SEED : List Char := "[net]\ngit-fetch-with-cli = false\n".toList

/-- `Role`. -/
inductive Role | implementer | reviewer
  deriving DecidableEq, Repr

/-- `Role::slug`. -/
def Role.slug : Role → List Char
  | .implementer => ['i', 'm', 'p', 'l']
  | .reviewer => ['r', 'e', 'v']

/-- `config.state_dir.join(role.slug()).join("runs").join(name)`. -/
structure RunPath where
  role : Role
  name : String
  deriving DecidableEq, Repr

/-- A session id, as `Uuid::to_string` spells it. -/
structure SessionId where
  text : List Char
  length_text : text.length = 36

/-- `Terminal`. -/
structure Terminal where
  role : List Char
  sessionId : List Char
  finishedUnixNanos : Nat
  deriving DecidableEq, Repr

/-- `serde_json::to_vec` and `serde_json::from_slice` for `Terminal`. No object is read from a part
of its text. -/
structure Format where
  toVec : Terminal → List Char
  fromSlice : List Char → Option Terminal
  fromSlice_toVec : ∀ t, fromSlice (toVec t) = some t
  fromSlice_part : ∀ t s, s <+: toVec t → s ≠ toVec t → fromSlice s = none

/-- `PREPARED`, `STARTED`, `TERMINAL`, and `state/cargo/config.toml`. -/
inductive File | prepared | started | terminal | config
  deriving DecidableEq, Repr

/-- `StatePaths`, with the two directories of Cargo. -/
inductive Place | root | home | cargo | coordinator | registry | git
  deriving DecidableEq, Repr

/-- `StatePaths::directories`. -/
def directories : List Place := [.root, .home, .cargo, .coordinator, .registry, .git]

/-- What is at a path, without following it; a directory has a mode. -/
inductive Kind | missing | directory (mode : Nat) | other
  deriving DecidableEq, Repr

/-- A run on disk, and who holds its lock. -/
structure RunDir (ι : Type) where
  made : Bool
  lockFile : Bool
  holder : Option ι
  file : File → Option (List Char)
  place : Place → Kind

/-- The runs. For each supervisor, also what they were at the end of its last listing, which no call
reads. -/
structure Disk (ι : Type) where
  run : RunPath → RunDir ι
  listed : ι → RunPath → RunDir ι

inductive Error
  | io
  | said (text : String)
  deriving DecidableEq, Repr

/-! ### Calls -/

/-- The answer of `symlink_metadata`, when only existence matters. -/
inductive Inspected | missing | found | failed
  deriving DecidableEq, Repr

/-- The answer of `symlink_metadata` for `state/`. -/
inductive Root | missing | directory | other | failed
  deriving DecidableEq, Repr

/-- The answer of `try_lock`. -/
inductive Locking | locked | wouldBlock | failed
  deriving DecidableEq, Repr

/-- The answer of `read_dir`. -/
inductive Listing
  | missing
  | failed
  | entries (names : List String)
  deriving DecidableEq, Repr

/-- Points of a supervisor's code that are no calls: its listing of the runs is over; `prepare`
returns its guard. -/
inductive Mark | listed | ready
  deriving DecidableEq, Repr

/-- What a supervisor does outside its own memory. -/
inductive Op
  /-- `managed_paths`. -/
  | managedPaths
  /-- `read_regular` of the configured seed. -/
  | readSeed
  | createDirAll (run : RunPath)
  /-- `symlink_metadata(run)?.is_dir()`. -/
  | isDir (run : RunPath)
  | inspectLock (run : RunPath)
  /-- `regular_file` of the lock. -/
  | regularLock (run : RunPath)
  | openLock (run : RunPath) (create : Bool)
  | tryLock (run : RunPath)
  /-- The lock's file is closed. -/
  | unlock (run : RunPath)
  | inspect (run : RunPath) (file : File)
  /-- `read_regular`. -/
  | read (run : RunPath) (file : File)
  /-- `create_new`. -/
  | create (run : RunPath) (file : File)
  /-- One byte of `write_all`. -/
  | append (run : RunPath) (file : File) (byte : Char)
  /-- `sync_all` of a file and of its parent. -/
  | sync (run : RunPath) (file : File)
  /-- `read_dir`. -/
  | listRuns (role : Role)
  /-- `entry.file_type()?.is_dir()`. -/
  | fileType (run : RunPath)
  | canonicalize (run : RunPath)
  | inspectState (run : RunPath)
  | checkPrivateDir (run : RunPath) (place : Place)
  | privateDir (run : RunPath) (place : Place)
  /-- `remove_dir_all` of `state/`. -/
  | removeState (run : RunPath)
  /-- `SystemTime::now().duration_since(UNIX_EPOCH)`. -/
  | now
  | mark (mark : Mark)
  deriving DecidableEq, Repr

abbrev Op.Answer : Op → Type
  | .managedPaths | .createDirAll _ | .regularLock _ | .openLock _ _ | .create _ _ | .append _ _ _
  | .sync _ _ | .canonicalize _ | .checkPrivateDir _ _ | .privateDir _ _ | .removeState _ => Bool
  | .readSeed | .read _ _ => Option (List Char)
  | .isDir _ | .fileType _ => Option Bool
  | .inspectLock _ | .inspect _ _ => Inspected
  | .tryLock _ => Locking
  | .listRuns _ => Listing
  | .inspectState _ => Root
  | .now => Option Nat
  | .unlock _ | .mark _ => Unit

abbrev calls : Interface := ⟨Op, Op.Answer⟩

/-- The code of a supervisor. -/
abbrev Code := Proc calls Error

/-- A call that must succeed. -/
def require (e : Error) (ok : Bool) : Except Error Unit := if ok then .ok () else .error e

/-- A call whose answer is needed. -/
def given {α : Type} (answer : Option α) : Except Error α :=
  match answer with
  | some a => .ok a
  | none => .error .io

/-! ### Files and locks -/

/-- The first `match` of `open_lock`: whether there is a lock file. -/
def lockFound (create : Bool) : Inspected → Except Error Bool
  | .found => .ok true
  | .missing => if create then .ok false else .error .io
  | .failed => .error .io

def checkLock (run : RunPath) (found : Bool) : Code Unit :=
  if found then .ask (.regularLock run) (require .io) else .pure ()

/-- `open_lock`. -/
def openLock (run : RunPath) (create : Bool) : Code Unit := do
  let found ← .ask (.inspectLock run) (lockFound create)
  checkLock run found
  .ask (.openLock run create) (require .io)

/-- `write_all`. -/
def writeAll (run : RunPath) (file : File) : List Char → Code Unit
  | [] => pure ()
  | byte :: contents => do
    .ask (.append run file byte) (require .io)
    writeAll run file contents

/-- `write_new`. -/
def writeNew (run : RunPath) (file : File) (contents : List Char) : Code Unit := do
  .ask (.create run file) (require .io)
  writeAll run file contents
  .ask (.sync run file) (require .io)

/-! ### Retention -/

/-- The end of `terminal_record`. -/
def checkRecord (role : Role) (record : Terminal) (started : Option (List Char)) :
    Option Terminal :=
  if record.role = role.slug ∧ some record.sessionId = started then some record else none

/-- `terminal_record`, when the bytes of `TERMINAL` were read. -/
def recordOf (F : Format) (run : RunPath) (role : Role) (bytes : Option (List Char)) :
    Code (Option Terminal) :=
  match bytes.bind F.fromSlice with
  | none => pure none
  | some record => .call (.read run .started) fun started => pure (checkRecord role record started)

/-- `terminal_record`. -/
def terminalRecord (F : Format) (run : RunPath) (role : Role) : Code (Option Terminal) :=
  .call (.read run .terminal) (recordOf F run role)

/-- A run that retention may prune, by the end of its launch and its path. -/
structure Candidate where
  finished : Nat
  name : String
  deriving DecidableEq, Repr

/-- The order of candidates: by the end, then by the path. -/
def Candidate.Before (a b : Candidate) : Prop :=
  a.finished < b.finished ∨ a.finished = b.finished ∧ a.name < b.name

instance (a b : Candidate) : Decidable (a.Before b) :=
  inferInstanceAs (Decidable (_ ∨ _ ∧ _))

/-- `sort_unstable_by` with the arguments exchanged. -/
def latestFirst (candidates : List Candidate) : List Candidate :=
  candidates.insertionSort fun a b => ¬ a.Before b

/-- A directory among the entries. -/
def candidateIn (F : Format) (run current : RunPath) (role : Role) : Code (Option Candidate) := do
  .ask (.canonicalize run) (require .io)
  if run = current then pure none else do
    let record ← terminalRecord F run role
    return record.map fun record => ⟨record.finishedUnixNanos, run.name⟩

/-- An entry of the listing. -/
def candidateOf (F : Format) (role : Role) (current : RunPath) (name : String) :
    Code (Option Candidate) := do
  let isDir ← .ask (.fileType ⟨role, name⟩) given
  if isDir then candidateIn F ⟨role, name⟩ current role else pure none

/-- The first loop of `prune_terminal`. -/
def candidatesOf (F : Format) (role : Role) (current : RunPath) :
    List String → Code (List Candidate)
  | [] => pure []
  | name :: names => do
    let candidate ← candidateOf F role current name
    let candidates ← candidatesOf F role current names
    return candidate.toList ++ candidates

/-- The `match` on `symlink_metadata(&state)`. -/
def pruneState (run : RunPath) : Root → Code Unit
  | .directory => .ask (.removeState run) (require (.said "prune terminal run state"))
  | .other | .missing => pure ()
  | .failed => .throw (.said "inspect terminal run state")

/-- What is done with a candidate whose lock is held. -/
def pruneHeld (F : Format) (run : RunPath) (role : Role) (completed : Nat) : Code Unit := do
  let record ← terminalRecord F run role
  if record.any fun r => r.finishedUnixNanos = completed then
    .call (.inspectState run) (pruneState run)
  else pure ()

/-- A candidate whose lock was tried. -/
def pruneLocked (F : Format) (run : RunPath) (role : Role) (completed : Nat) : Locking → Code Unit
  | .wouldBlock => pure ()
  | .failed => .throw (.said "lock retained run")
  | .locked => do
    let pruned ← (pruneHeld F run role completed).attempt
    .call (.unlock run) fun _ => .lift pruned

/-- A candidate whose lock was opened. -/
def pruneOpened (F : Format) (run : RunPath) (role : Role) (completed : Nat) :
    Except Error Unit → Code Unit
  | .error _ => pure ()
  | .ok _ => .call (.tryLock run) (pruneLocked F run role completed)

/-- The second loop of `prune_terminal`. -/
def pruneEach (F : Format) (role : Role) : List Candidate → Code Unit
  | [] => pure ()
  | c :: candidates => do
    let opened ← (openLock ⟨role, c.name⟩ false).attempt
    pruneOpened F ⟨role, c.name⟩ role c.finished opened
    pruneEach F role candidates

/-- `prune_terminal`, when the runs are listed. -/
def pruneListed (F : Format) (role : Role) (current : RunPath) : Listing → Code Unit
  | .missing => pure ()
  | .failed => .throw (.said "list runs for state retention")
  | .entries names => do
    .ask (.canonicalize current) (require .io)
    let candidates ← candidatesOf F role current names
    .call (.mark .listed) fun _ =>
      pruneEach F role ((latestFirst candidates).drop KEEP_TERMINAL)

/-- `prune_terminal`. -/
def pruneTerminal (F : Format) (role : Role) (current : RunPath) : Code Unit :=
  .call (.listRuns role) (pruneListed F role current)

/-! ### Preparation -/

/-- `check_private_dir` for each directory. -/
def checkDirs (run : RunPath) : List Place → Code Unit
  | [] => pure ()
  | p :: places => do
    .ask (.checkPrivateDir run p) (require .io)
    checkDirs run places

/-- `private_dir` for each directory. -/
def makeDirs (run : RunPath) : List Place → Code Unit
  | [] => pure ()
  | p :: places => do
    .ask (.privateDir run p) (require .io)
    makeDirs run places

/-- A prepared run is used as it is. -/
def reuseLayout (run : RunPath) (seed : List Char) : Code Unit := do
  let prepared ← .ask (.read run .prepared) given
  .ensure (prepared = run.role.slug) (.said "prepared run role differs")
  checkDirs run directories
  let config ← .ask (.read run .config) given
  .ensure (config = seed)
    (.said "per-launch Cargo config differs from the protected seed")

/-- The layout of a run that was not prepared. -/
def freshLayout (run : RunPath) (seed : List Char) (root : Root) : Code Unit := do
  .ensure (root = .missing)
    (.said "unrecognized or partially prepared state; use a fresh run directory")
  makeDirs run directories
  writeNew run .config seed
  writeNew run .prepared run.role.slug

/-- `prepare_layout`, when it is known whether the run was prepared. -/
def layoutOf (run : RunPath) (seed : List Char) (prepared : Inspected) : Code Unit :=
  if prepared = .found then reuseLayout run seed
  else .call (.inspectState run) (freshLayout run seed)

/-- `prepare_layout`. -/
def prepareLayout (run : RunPath) (seed : List Char) : Code Unit :=
  .call (.inspect run .prepared) (layoutOf run seed)

/-- The check of a marker in `prepare`. -/
def unused : Inspected → Except Error Unit
  | .missing => .ok ()
  | _ => .error (.said "run has already started or terminated; use a fresh run directory")

/-- What `prepare` does while it holds the lock. -/
def prepareHeld (F : Format) (run : RunPath) (seed : List Char) : Code Unit := do
  .ask (.inspect run .started) unused
  .ask (.inspect run .terminal) unused
  pruneTerminal F run.role run
  prepareLayout run seed

/-- The end of `prepare`: a failure closes the lock. -/
def keepGuard (run : RunPath) : Except Error Unit → Code Unit
  | .ok _ => pure ()
  | .error e => .call (.unlock run) fun _ => .throw e

/-- `prepare`, when the lock was tried. -/
def prepareLocked (F : Format) (run : RunPath) (seed : List Char) : Locking → Code Unit
  | .wouldBlock | .failed => .throw (.said "run state is already in use")
  | .locked => do
    let prepared ← (prepareHeld F run seed).attempt
    keepGuard run prepared

/-- `cargo_seed`. -/
def cargoSeed : Code (List Char) := do
  let seed ← .ask .readSeed fun bytes =>
    bytes.elim (.error (.said "read required Cargo config seed")) .ok
  .ensure (seed = CARGO_CONFIG_SEED)
    (.said "Cargo config seed differs from the required baseline")
  return seed

/-- `RunState::prepare`. -/
def prepare (F : Format) (run : RunPath) : Code Unit := do
  .ask .managedPaths (require .io)
  let seed ← cargoSeed
  .ask (.createDirAll run) (require .io)
  let isDir ← .ask (.isDir run) given
  .ensure isDir (.said "run must not be a symlink")
  openLock run true
  .call (.tryLock run) (prepareLocked F run seed)

/-! ### Sessions -/

/-- `RunState::started`. -/
def started (run : RunPath) (id : SessionId) : Code Unit := writeNew run .started id.text

/-- `RunState::terminal`. -/
def terminal (F : Format) (run : RunPath) (id : SessionId) : Code Unit := do
  let now ← .ask .now given
  writeNew run .terminal (F.toVec ⟨run.role.slug, id.text, now⟩)

/-- What a supervisor may call on a guard, with any launch. -/
inductive Command
  | started (id : SessionId)
  | terminal (id : SessionId)

def Command.code (F : Format) (run : RunPath) : Command → Code Unit
  | .started id => RunState.started run id
  | .terminal id => RunState.terminal F run id

/-- The commands one after the other, whatever became of those before. -/
def obey (F : Format) (run : RunPath) : List Command → Code Unit
  | [] => pure ()
  | c :: commands => do
    let _ ← ((c.code F run).attempt : Code (Except Error Unit))
    obey F run commands

/-- What a supervisor does with a run. -/
structure Session where
  run : RunPath
  commands : List Command

/-- A supervisor prepares its run, calls what it likes on the guard, and drops it. -/
def Session.code (F : Format) (s : Session) : Code Unit := do
  prepare F s.run
  .call (.mark .ready) fun _ => do
    obey F s.run s.commands
    .call (.unlock s.run) fun _ => pure ()

/-! ### Effects -/

section Effects

variable {ι : Type}

namespace RunDir

/-- What is in a file. -/
def write (x : RunDir ι) (file : File) (contents : List Char) : RunDir ι :=
  { x with file := Function.update x.file file (some contents) }

/-- A file or a directory of the state is lost. -/
def loseConfig (x : RunDir ι) : RunDir ι := { x with file := Function.update x.file .config none }

def lose (x : RunDir ι) (place : Place) : RunDir ι :=
  { x with place := Function.update x.place place .missing }

/-- What a removal of the state may leave when it fails or is cut. -/
def remnants (x : RunDir ι) : List (RunDir ι) :=
  directories.foldr (fun p xs => xs ++ xs.map (·.lose p)) [x, x.loseConfig]

/-- The state is gone. -/
def cleared (x : RunDir ι) : RunDir ι := { x.loseConfig with place := fun _ => .missing }

/-- `private_dir`, when it succeeds. -/
def makePrivate (x : RunDir ι) (place : Place) : List (RunDir ι) :=
  match x.place place with
  | .missing => [{ x with place := Function.update x.place place (.directory 0o700) }]
  | .directory mode => if mode = 0o700 then [x] else []
  | .other => []

/-- A crash of a supervisor releases its locks. -/
def release [DecidableEq ι] (x : RunDir ι) (i : ι) : RunDir ι :=
  if x.holder = some i then { x with holder := none } else x

end RunDir

namespace Disk

def set (d : Disk ι) (run : RunPath) (x : RunDir ι) : Disk ι :=
  { d with run := Function.update d.run run x }

variable [DecidableEq ι]

def crash (d : Disk ι) (i : ι) : Disk ι := { d with run := fun r => (d.run r).release i }

/-- The listing of a supervisor is over. -/
def list (d : Disk ι) (i : ι) : Disk ι := { d with listed := Function.update d.listed i d.run }

end Disk

variable [DecidableEq ι]

/-- What the calls of supervisor `i` may answer, and what they leave. Any call may fail. -/
def effects (i : ι) (d : Disk ι) : (op : Op) → op.Answer → List (Disk ι)
  | .managedPaths, _ | .readSeed, _ | .isDir _, _ | .regularLock _, _ | .sync _ _, _
  | .fileType _, _ | .canonicalize _, _ | .now, _ => [d]
  | .createDirAll r, ok => if ok then [d.set r { d.run r with made := true }] else [d]
  | .inspectLock r, answer => match answer with
    | .missing => if (d.run r).lockFile then [] else [d]
    | .found => if (d.run r).lockFile then [d] else []
    | .failed => [d]
  | .openLock r create, ok =>
    if ok then
      if create ∨ (d.run r).lockFile then [d.set r { d.run r with lockFile := true }] else []
    else [d]
  | .tryLock r, answer => match answer with
    | .locked =>
      if (d.run r).holder = none then [d.set r { d.run r with holder := some i }] else []
    | .wouldBlock => if (d.run r).holder = none then [] else [d]
    | .failed => [d]
  | .unlock r, _ => [d.set r ((d.run r).release i)]
  | .inspect r file, answer => match answer with
    | .missing => if (d.run r).file file = none then [d] else []
    | .found => if (d.run r).file file = none then [] else [d]
    | .failed => [d]
  | .read r file, answer => match answer with
    | some contents => if (d.run r).file file = some contents then [d] else []
    | none => [d]
  | .create r file, ok =>
    if ok then
      if (d.run r).file file = none then [d.set r ((d.run r).write file [])] else []
    else [d]
  | .append r file byte, ok =>
    if ok then
      match (d.run r).file file with
      | some contents => [d.set r ((d.run r).write file (contents ++ [byte]))]
      | none => [d]
    else [d]
  | .listRuns _, answer => match answer with
    | .missing | .failed => [d]
    -- entries may come and go while they are read, but none is read twice
    | .entries names => if names.Nodup then [d] else []
  | .inspectState r, answer => match answer, (d.run r).place .root with
    | .missing, .missing | .directory, .directory _ | .other, .other | .failed, _ => [d]
    | _, _ => []
  | .checkPrivateDir r p, ok =>
    if ok then if (d.run r).place p = .directory 0o700 then [d] else [] else [d]
  | .privateDir r p, ok =>
    if ok then ((d.run r).makePrivate p).map (d.set r)
    else d :: ((d.run r).makePrivate p).map (d.set r)
  | .removeState r, ok =>
    if ok then [d.set r (d.run r).cleared] else (d.run r).remnants.map (d.set r)
  | .mark .listed, _ => [d.list i]
  | .mark .ready, _ => [d]

/-- What harnesses do to the runs: they write in `state/`. -/
structure Harness (d d' : Disk ι) : Prop where
  listed : d'.listed = d.listed
  made : ∀ r, (d'.run r).made = (d.run r).made
  lockFile : ∀ r, (d'.run r).lockFile = (d.run r).lockFile
  holder : ∀ r, (d'.run r).holder = (d.run r).holder
  file : ∀ r file, file ≠ .config → (d'.run r).file file = (d.run r).file file

end Effects

end AgentCoordinator.RunState
