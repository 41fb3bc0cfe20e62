import AgentCoordinator.Library.Transition
import AgentCoordinator.Access

/-
Artifacts and their store.

An artifact is an external link, or an upload whose bytes are kept in a blob file named by its
storage key. The row and the file change at different moments: an upload streams into a staging
file, publishes that as the blob, and only then commits its row; a deletion commits first and
removes the blob afterwards; a cleanup pass removes the blobs of rows that are no longer available,
and blobs that no row names. Each of these is a `Process`, whose steps interleave with those of all
others; it holds the lock file of its storage key while it touches the files of that key.
-/

namespace AgentCoordinator

open Guarded Tabular

namespace Artifacts

/-- `MAX_ARTIFACT_BYTES`. -/
def maxArtifactBytes : Int := 16 * 1024 * 1024

/-- `DEFAULT_RETENTION_DAYS`. -/
def defaultRetentionDays : Int := 90

/-- `MAX_RETENTION_DAYS`. -/
def maxRetentionDays : Int := 3650

/-- `RESERVATION_LIFETIME_MS`. -/
def reservationLifetimeMs : Int := 60 * 60 * 1000

/-! ### Rows and files -/

/-- The content of a file. -/
abbrev Bytes := List UInt8

/-- `artifacts.kind`. -/
inductive ArtifactKind | externalLink | upload
  deriving DecidableEq, Repr

/-- `artifacts.state`. -/
inductive ArtifactState | reserved | finalized | deleted
  deriving DecidableEq, Repr

/-- `artifacts`. -/
structure Artifact where
  id : Id
  project : Id
  kind : ArtifactKind
  task : Option Id
  job : Option Id
  displayName : String
  mediaType : String
  sizeBytes : Option Int
  sha256 : Option String
  externalUrl : Option String
  storageKey : Option Id
  state : ArtifactState
  createdBy : Id
  createdAt : Time
  reservationExpiresAt : Option Time
  finalizedAt : Option Time
  retentionUntil : Option Time
  pinned : Bool
  deletedAt : Option Time
  deletedBy : Option Id
  deletionReason : Option String

/-- A file under a storage key: a blob, or the staging file of an upload. -/
structure File where
  key : Id
  content : Bytes
  deriving DecidableEq

/-- The lock file of a storage key, with the process that created it. -/
structure LockFile where
  key : Id
  holder : Id
  deriving DecidableEq

instance : Keyed Artifact Id := ⟨Artifact.id⟩
instance : Keyed File Id := ⟨File.key⟩
instance : Keyed LockFile Id := ⟨LockFile.key⟩

/-- What the service computes with other crates: the SHA-256 digest of a content, in hexadecimal,
and whether a text parses as an HTTPS URL with a host and without credentials. -/
structure Crates where
  sha256 : Bytes → String
  httpsUrl : String → Bool

/-! ### Processes -/

/-- `ArtifactRetentionInput` and `ArtifactDeleteInput`: a change of one artifact. -/
inductive Change
  | retention (pinned : Bool) (retentionDays : Option Int)
  | delete (reason : String)

/-- How far an upload has come. -/
inductive UploadStage
  /-- The row has been read. -/
  | opened
  /-- The lock is held, and these bytes are in the staging file. -/
  | receiving (received : Bytes)
  /-- The staging file has the reserved size and digest. -/
  | staged (content : Bytes)
  /-- The blob has. -/
  | published (content : Bytes)
  deriving DecidableEq

/-- How far a change has come. -/
inductive ChangeStage
  | opened
  | locked
  /-- The deletion is committed, and its files are to be removed. -/
  | removing
  deriving DecidableEq

/-- Which files a cleanup pass looks for. -/
inductive Sweep
  /-- Those of the rows that were unavailable at this time. -/
  | expired (now : Time)
  /-- Those that no row names. -/
  | orphans

/-- How far a cleanup pass has come with its next key. -/
inductive SweepStage
  | between
  | locked (key : Id)
  | removing (key : Id)
  deriving DecidableEq

/-- A request, or a cleanup pass, in progress. -/
inductive Process
  | upload (auth : Auth) (project artifact key : Id) (size : Int) (digest : String)
      (stage : UploadStage)
  | change (auth : Auth) (project artifact : Id) (change : Change) (key : Option Id)
      (stage : ChangeStage)
  | sweep (why : Sweep) (keys : List Id) (stage : SweepStage)

/-- The storage key whose lock the process holds. -/
def Process.holds : Process → Option Id
  | .upload _ _ _ _ _ _ .opened => none
  | .upload _ _ _ key _ _ _ => some key
  | .change _ _ _ _ _ .opened => none
  | .change _ _ _ _ key _ => key
  | .sweep _ _ .between => none
  | .sweep _ _ (.locked key) => some key
  | .sweep _ _ (.removing key) => some key

/-- A process under its identity. -/
structure Running where
  id : Id
  process : Process

instance : Keyed Running Id := ⟨Running.id⟩

/-- The database, the artifact table and the store's files, with the processes at work. -/
structure Store where
  db : Db
  artifacts : Table Artifact
  /-- `artifact_quota_bytes` of the configuration. -/
  quota : Int
  blobs : Table File
  parts : Table File
  locks : Table LockFile
  processes : Table Running
  /-- Artifacts for whose deletion there is a receipt. -/
  deletions : List Id

/-! ### Availability -/

/-- The artifact counts against the quota while it is an upload: reserved and not expired, or
finalized and retained. -/
def Artifact.Live (a : Artifact) (now : Time) : Prop :=
  (a.state = .reserved ∧ a.reservationExpiresAt.any (fun t => now < t) = true) ∨
    (a.state = .finalized ∧ (a.pinned = true ∨ a.retentionUntil.any (fun t => now < t) = true))

instance (a : Artifact) (now : Time) : Decidable (a.Live now) := by
  unfold Artifact.Live; infer_instance

/-- What the cleanup of an upload's files asks of its row. -/
def Artifact.Unavailable (a : Artifact) (now : Time) : Prop :=
  a.state = .deleted ∨
    (a.state = .reserved ∧ a.reservationExpiresAt.any (fun t => t ≤ now) = true) ∨
    (a.state = .finalized ∧ a.pinned = false ∧ a.retentionUntil.any (fun t => t ≤ now) = true)

instance (a : Artifact) (now : Time) : Decidable (a.Unavailable now) := by
  unfold Artifact.Unavailable; infer_instance

/-- What `availability` answers. -/
inductive Availability | deleted | pending | expired | unavailable | available
  deriving DecidableEq, Repr

/-- `availability`. -/
def Store.availability (S : Store) (a : Artifact) : Availability :=
  if a.state = .deleted then .deleted
  else if a.state = .reserved then
    if a.reservationExpiresAt.any (fun t => t ≤ S.db.now) then .expired else .pending
  else if a.pinned = false ∧ a.retentionUntil.any (fun t => t ≤ S.db.now) = true then .expired
  else if a.kind = .upload then
    match a.storageKey with
    | none => .unavailable
    | some key => if (S.blobs.get? key).isNone then .unavailable else .available
  else .available

/-- `COALESCE(sum(size_bytes),0)` over the live uploads. -/
def Store.usedBytes (S : Store) : Int :=
  S.artifacts.sum fun a =>
    if a.kind = .upload ∧ a.Live S.db.now then a.sizeBytes.getD 0 else 0

/-! ### Validation -/

/-- `char::is_control`. -/
def isControl (c : Char) : Bool := c.toNat < 32 || (127 ≤ c.toNat && c.toNat < 160)

/-- `bounded`, of names and media types. -/
def bounded (value name : String) (max : Nat) (required : Bool) : Except AppError Unit :=
  refuseIf
    (value.utf8ByteSize > max ∨ (required = true ∧ value.toList.all isWhitespace = true) ∨
      '\x00' ∈ value.toList ∨ value.toList.any isControl = true)
    (.badRequest (name ++ " must " ++ (if required then "be nonempty and " else "") ++
      "contain at most " ++ toString max ++ " bytes and no control characters."))

/-- A byte of a MIME token. -/
def isTokenChar (c : Char) : Bool := c.isAlphanum || c ∈ "!#$&^_.+-".toList

/-- `validate_media_type`. -/
def validateMediaType (value : String) : Except AppError Unit := do
  bounded value "media_type" 127 true
  let kind := value.toList.takeWhile (· ≠ '/')
  let subtype := (value.toList.dropWhile (· ≠ '/')).drop 1
  refuseIf ('/' ∉ value.toList)
    (.badRequest "media_type must be a MIME type such as text/plain.")
  refuseIf (kind = [] ∨ subtype = [] ∨ (kind ++ subtype).all isTokenChar = false)
    (.badRequest "media_type must be a MIME type without parameters or control characters.")

/-- `validate_sha256`. -/
def validateSha256 (value : String) : Except AppError Unit :=
  refuseIf
    (value.utf8ByteSize ≠ 64 ∨
      value.toList.all (fun c => c.isDigit || ('a' ≤ c && c ≤ 'f')) = false)
    (.badRequest "sha256 must be 64 lowercase hexadecimal characters.")

/-- `validate_size`. -/
def validateSize (value : Int) : Except AppError Unit :=
  refuseIf (¬ (0 ≤ value ∧ value ≤ maxArtifactBytes))
    ⟨413, "artifact_too_large", "Uploaded artifacts are limited to 16 MiB.", none⟩

/-- `retention_until`. -/
def retentionUntil (now : Time) (pinned : Bool) (days : Option Int) :
    Except AppError (Option Time) :=
  if pinned = true then do
    refuseIf (days.isSome = true)
      (.badRequest "retention_days must be omitted when pinned is true.")
    return none
  else do
    let days := days.getD defaultRetentionDays
    refuseIf (¬ (1 ≤ days ∧ days ≤ maxRetentionDays))
      (.badRequest "retention_days must be between 1 and 3650.")
    return some (now + days * 86400000)

/-- `validate_link_url`. -/
def validateLinkUrl (crates : Crates) (value : String) : Except AppError Unit := do
  bounded value "external_url" 4096 true
  refuseIf (crates.httpsUrl value = false)
    (.badRequest "external_url must be an HTTPS URL without embedded credentials.")

/-- `validate_associations`. -/
def validateAssociations (s : Db) (project : Id) (task job : Option Id) : Except AppError Unit := do
  refuseIf (task.any (fun id => ¬ (s.tasks.get? id).any (fun t => t.project = project)) = true)
    (.conflict "artifact_reference_invalid" "The referenced task does not exist in this project.")
  match job with
  | none => return
  | some id => do
    let j ← okOr ((s.ext.jobs.get? id).filter (fun j => j.project = project))
      (.conflict "artifact_reference_invalid"
        "The referenced job does not exist in this project.")
    refuseIf (task.any (fun t => t ≠ j.task) = true)
      (.conflict "artifact_reference_invalid" "The referenced job belongs to a different task.")

/-- `artifact_row`. -/
def Store.artifactRow (S : Store) (project artifact : Id) : Except AppError Artifact :=
  okOr ((S.artifacts.get? artifact).filter (fun a => a.project = project)) .notFound

/-! ### Links and reservations -/

/-- `ArtifactLinkInput`. -/
structure ArtifactLinkInput where
  displayName : String
  mediaType : String
  externalUrl : String
  task : Option Id
  job : Option Id
  sizeBytes : Option Int
  sha256 : Option String
  pinned : Bool
  retentionDays : Option Int

/-- `create_link`. -/
def createLink (crates : Crates) (S : Store) (auth : Auth) (project : Id)
    (input : ArtifactLinkInput) : Except AppError Store := do
  bounded input.displayName "display_name" 255 true
  validateMediaType input.mediaType
  validateLinkUrl crates input.externalUrl
  refuseIf (input.sizeBytes.any (fun n => n < 0) = true)
    (.badRequest "size_bytes cannot be negative.")
  input.sha256.forM validateSha256
  let actor ← beginUnpaused S.db auth
  let _ ← okOr (S.db.projects.get? project) .notFound
  validateAssociations S.db project input.task input.job
  let retention ← retentionUntil S.db.now input.pinned input.retentionDays
  return { S with
    db := S.db.finish actor "artifact.linked" S.artifacts.fresh
    artifacts := S.artifacts.create fun id =>
      { id := id
        project := project
        kind := .externalLink
        task := input.task
        job := input.job
        displayName := input.displayName
        mediaType := input.mediaType
        sizeBytes := input.sizeBytes
        sha256 := input.sha256
        externalUrl := some input.externalUrl
        storageKey := none
        state := .finalized
        createdBy := actor.id
        createdAt := S.db.now
        reservationExpiresAt := none
        finalizedAt := some S.db.now
        retentionUntil := retention
        pinned := input.pinned
        deletedAt := none
        deletedBy := none
        deletionReason := none } }

/-- `ArtifactUploadInput`. -/
structure ArtifactUploadInput where
  filename : String
  mediaType : String
  task : Option Id
  job : Option Id
  sizeBytes : Int
  sha256 : String
  pinned : Bool
  retentionDays : Option Int

/-- The row of a new reservation. -/
def reservation (actor : Actor) (project : Id) (input : ArtifactUploadInput) (now : Time)
    (retention : Option Time) (key id : Id) : Artifact where
  id := id
  project := project
  kind := .upload
  task := input.task
  job := input.job
  displayName := input.filename
  mediaType := input.mediaType
  sizeBytes := some input.sizeBytes
  sha256 := some input.sha256
  externalUrl := none
  storageKey := some key
  state := .reserved
  createdBy := actor.id
  createdAt := now
  reservationExpiresAt := some (now + reservationLifetimeMs)
  finalizedAt := none
  retentionUntil := retention
  pinned := input.pinned
  deletedAt := none
  deletedBy := none
  deletionReason := none

/-- `reserve_upload`, after its cleanup pass, under the new storage key. -/
def reserveUpload (S : Store) (auth : Auth) (project : Id) (input : ArtifactUploadInput)
    (key : Id) : Except AppError Store := do
  bounded input.filename "filename" 255 true
  validateMediaType input.mediaType
  validateSize input.sizeBytes
  validateSha256 input.sha256
  let actor ← beginUnpaused S.db auth
  let _ ← okOr (S.db.projects.get? project) .notFound
  validateAssociations S.db project input.task input.job
  refuseIf (S.usedBytes + input.sizeBytes > S.quota)
    ⟨507, "artifact_quota_exceeded",
      ("The configured live artifact quota would be exceeded. Delete or expire retained uploads " ++
        "before retrying."), none⟩
  let retention ← retentionUntil S.db.now input.pinned input.retentionDays
  return { S with
    db := S.db.finish actor "artifact.upload_reserved" S.artifacts.fresh
    artifacts := S.artifacts.create
      (reservation actor project input S.db.now retention key) }

/-! ### The transactions of uploads and changes -/

/-- What `upload` checks before it takes the lock; the answer is the row it read. -/
def openUpload (S : Store) (auth : Auth) (project artifact : Id) (contentLength : Option Int) :
    Except AppError Artifact := do
  let actor ← auth.verify S.db.ext S.db.now
  refuseIf (S.db.clockIncident = true) clockReconciliationError
  let a ← S.artifactRow project artifact
  refuseIf (a.kind ≠ .upload)
    (.conflict "artifact_has_no_upload" "External-link artifacts do not accept uploaded content.")
  refuseIf (a.createdBy ≠ actor.id)
    (.forbidden "Only the principal that reserved this upload may provide its content.")
  refuseIf
    (S.availability a = .expired ∨ S.availability a = .deleted ∨ S.availability a = .unavailable ∨
      (a.state = .reserved ∧ a.reservationExpiresAt.all (fun t => t ≤ S.db.now) = true))
    ⟨410, "artifact_unavailable", "The upload reservation was deleted or expired.", none⟩
  refuseIf (contentLength.any (fun n => n ≠ a.sizeBytes.getD (-1)) = true)
    (.conflict "artifact_size_mismatch"
      "Content-Length does not match the reserved artifact size.")
  return a

/-- The transaction that finalizes an upload of these bytes. -/
def finalizeUpload (crates : Crates) (S : Store) (auth : Auth) (project artifact : Id)
    (content : Bytes) : Except AppError Store := do
  let actor ← beginUnpaused S.db auth
  let a ← S.artifactRow project artifact
  refuseIf (a.createdBy ≠ actor.id)
    (.forbidden "Only the principal that reserved this upload may finalize it.")
  refuseIf
    (a.state ≠ .reserved ∨ a.reservationExpiresAt.all (fun t => t ≤ S.db.now) = true ∨
      a.sizeBytes ≠ some (content.length : Int) ∨ a.sha256 ≠ some (crates.sha256 content))
    (.conflict "artifact_reservation_changed"
      "The upload reservation is no longer live or no longer matches these bytes.")
  return { S with
    db := S.db.finish actor "artifact.upload_finalized" artifact
    artifacts := S.artifacts.modify (fun a => a.id = artifact ∧ a.state = .reserved)
      (fun a => { a with
        state := .finalized
        finalizedAt := some S.db.now
        reservationExpiresAt := none }) }

/-- `authorize_change`. -/
def authorizeChange (actor : Actor) (a : Artifact) : Except AppError Unit :=
  refuseIf (actor.kind ≠ .human ∧ a.createdBy ≠ actor.id)
    (.forbidden
      "Only the artifact author or a human operator may change retention or delete it.")

/-- The transaction of `update_retention`. -/
def updateRetention (S : Store) (auth : Auth) (project artifact : Id) (pinned : Bool)
    (retentionDays : Option Int) : Except AppError Store := do
  let actor ← beginUnpaused S.db auth
  let a ← S.artifactRow project artifact
  authorizeChange actor a
  refuseIf (a.state = .deleted)
    ⟨410, "artifact_deleted", "Deleted artifact metadata cannot be retained again.", none⟩
  let until_ ← retentionUntil S.db.now pinned retentionDays
  return { S with
    db := S.db.finish actor "artifact.retention_updated" artifact
    artifacts := S.artifacts.modify (fun a => a.id = artifact)
      (fun a => { a with pinned := pinned, retentionUntil := until_ }) }

/-- The transaction of `delete_artifact`. -/
def deleteArtifact (S : Store) (auth : Auth) (project artifact : Id) (reason : String) :
    Except AppError Store := do
  bounded reason "reason" 4096 true
  let actor ← beginUnpaused S.db auth
  let a ← S.artifactRow project artifact
  authorizeChange actor a
  refuseIf (a.state = .deleted)
    (.conflict "artifact_already_deleted"
      "This artifact already has a retained deletion tombstone.")
  return { S with
    db := S.db.finish actor "artifact.deleted" artifact
    deletions := artifact :: S.deletions
    artifacts := S.artifacts.modify (fun a => a.id = artifact)
      (fun a => { a with
        state := .deleted
        deletedAt := some S.db.now
        deletedBy := some actor.id
        deletionReason := some reason }) }

/-! ### Steps of the processes -/

/-- Put a process in its next stage. -/
def Store.advance (S : Store) (id : Id) (process : Process) : Store :=
  { S with processes := S.processes.put ⟨id, process⟩ }

/-- The process ends, and its lock is dropped. -/
def Store.drop (S : Store) (r : Running) : Store :=
  { S with
    locks := r.process.holds.elim S.locks S.locks.erase
    processes := S.processes.erase r.id }

/-- Remove the blob and the staging file of a key, unless a backup keeps the store as it is. -/
def Store.removeFiles (S : Store) (key : Id) (backup : Bool) : Store :=
  if backup = true then S
  else { S with blobs := S.blobs.erase key, parts := S.parts.erase key }

/-- `acquire_upload_lock`: the process takes the lock of its next key, or finds it taken. -/
def Store.acquire (S : Store) (r : Running) : Option Store :=
  match r.process with
  | .upload auth project artifact key size digest .opened =>
    if (S.locks.get? key).isSome then some (S.drop r)
    else some { S with
      locks := S.locks.put ⟨key, r.id⟩
      parts := S.parts.put ⟨key, []⟩
      processes := S.processes.put
        ⟨r.id, .upload auth project artifact key size digest (.receiving [])⟩ }
  | .change auth project artifact change none .opened =>
    some (S.advance r.id (.change auth project artifact change none .locked))
  | .change auth project artifact change (some key) .opened =>
    if (S.locks.get? key).isSome then some (S.drop r)
    else some { S with
      locks := S.locks.put ⟨key, r.id⟩
      processes := S.processes.put
        ⟨r.id, .change auth project artifact change (some key) .locked⟩ }
  | .sweep _ [] .between => some (S.drop r)
  | .sweep why (key :: keys) .between =>
    if (S.locks.get? key).isSome then some (S.advance r.id (.sweep why keys .between))
    else some { S with
      locks := S.locks.put ⟨key, r.id⟩
      processes := S.processes.put ⟨r.id, .sweep why keys (.locked key)⟩ }
  | _ => none

/-- One frame of an upload's body reaches the staging file, unless there is too much of it. -/
def Store.receive (S : Store) (r : Running) (data : Bytes) : Option Store :=
  match r.process with
  | .upload auth project artifact key size digest (.receiving received) =>
    if size < (received ++ data).length ∨ maxArtifactBytes < (received ++ data).length then
      some ({ S with parts := S.parts.erase key }.drop r)
    else some { S with
      parts := S.parts.put ⟨key, received ++ data⟩
      processes := S.processes.put
        ⟨r.id, .upload auth project artifact key size digest (.receiving (received ++ data))⟩ }
  | _ => none

/-- The body is complete: its size and digest must be the reserved ones. -/
def Store.verify (S : Store) (crates : Crates) (r : Running) : Option Store :=
  match r.process with
  | .upload auth project artifact key size digest (.receiving received) =>
    if (received.length : Int) ≠ size ∨ crates.sha256 received ≠ digest then
      some ({ S with parts := S.parts.erase key }.drop r)
    else some (S.advance r.id (.upload auth project artifact key size digest (.staged received)))
  | _ => none

/-- The staging file becomes the blob, unless there is one; that one must be the same content. -/
def Store.publish (S : Store) (crates : Crates) (r : Running) : Option Store :=
  match r.process with
  | .upload auth project artifact key size digest (.staged content) =>
    match S.blobs.get? key with
    | some blob =>
      if blob.content.length ≠ content.length ∨
          crates.sha256 blob.content ≠ crates.sha256 content then
        some ({ S with parts := S.parts.erase key }.drop r)
      else some { S with
        parts := S.parts.erase key
        processes := S.processes.put
          ⟨r.id, .upload auth project artifact key size digest (.published content)⟩ }
    | none => (S.parts.get? key).map fun part =>
      { S with
        blobs := S.blobs.put part
        parts := S.parts.erase key
        processes := S.processes.put
          ⟨r.id, .upload auth project artifact key size digest (.published content)⟩ }
  | _ => none

/-- A cleanup pass goes on to its next key. -/
def Store.leave (S : Store) (id : Id) (why : Sweep) (keys : List Id) (key : Id) : Store :=
  { S with
    locks := S.locks.erase key
    processes := S.processes.put ⟨id, .sweep why keys .between⟩ }

/-- The transaction of a process that holds its lock; an answer from a receipt changes nothing,
but a repeated deletion removes the files once more. -/
def Store.commit (S : Store) (crates : Crates) (r : Running) (replayed : Bool) : Option Store :=
  match r.process with
  | .upload auth project artifact _ _ _ (.published content) =>
    if replayed = true then some (S.drop r)
    else match finalizeUpload crates S auth project artifact content with
      | .ok S' => some (S'.drop r)
      | .error _ => some (S.drop r)
  | .change auth project artifact (.retention pinned days) _ .locked =>
    if replayed = true then some (S.drop r)
    else match updateRetention S auth project artifact pinned days with
      | .ok S' => some (S'.drop r)
      | .error _ => some (S.drop r)
  | .change auth project artifact (.delete reason) key .locked =>
    if replayed = true then
      if artifact ∈ S.deletions then
        some (S.advance r.id (.change auth project artifact (.delete reason) key .removing))
      else none
    else match deleteArtifact S auth project artifact reason with
      | .ok S' =>
        some (S'.advance r.id (.change auth project artifact (.delete reason) key .removing))
      | .error _ => some (S.drop r)
  | .sweep (.expired now) keys (.locked key) =>
    if ∃ a ∈ S.artifacts, a.storageKey = some key ∧ a.Unavailable now then
      some (S.advance r.id (.sweep (.expired now) keys (.removing key)))
    else some (S.leave r.id (.expired now) keys key)
  | .sweep .orphans keys (.locked key) =>
    if ∃ a ∈ S.artifacts, a.storageKey = some key then some (S.leave r.id .orphans keys key)
    else some (S.advance r.id (.sweep .orphans keys (.removing key)))
  | _ => none

/-- `cleanup_artifact_files`. -/
def Store.remove (S : Store) (r : Running) (backup : Bool) : Option Store :=
  match r.process with
  | .change _ _ _ _ none .removing => some (S.drop r)
  | .change _ _ _ _ (some key) .removing => some ((S.removeFiles key backup).drop r)
  | .sweep why keys (.removing key) =>
    some ((S.removeFiles key backup).leave r.id why keys key)
  | _ => none

/-! ### Steps of the store -/

/-- What happens to the store. -/
inductive StoreAction
  /-- The rest of the service, and the passing of time. -/
  | environment (db : Db)
  | raiseQuota (quota : Int)
  | createLink (auth : Auth) (project : Id) (input : ArtifactLinkInput)
  | reserveUpload (auth : Auth) (project : Id) (input : ArtifactUploadInput) (key : Id)
  | openUpload (auth : Auth) (project artifact : Id) (contentLength : Option Int)
  | openChange (auth : Auth) (project artifact : Id) (change : Change)
  | openSweep (keys : List Id)
  | openOrphans (keys : List Id)
  | acquire (id : Id)
  | receive (id : Id) (data : Bytes)
  | verify (id : Id)
  | publish (id : Id)
  | commit (id : Id) (replayed : Bool)
  | remove (id : Id) (backup : Bool)
  /-- The request fails, or its connection is lost. -/
  | abandon (id : Id)
  /-- The server stops; its lock files stay. -/
  | restart
  /-- A lock and a staging file nobody works under any more are removed as stale. -/
  | removeStale (key : Id)

/-- A key drawn at random: nothing in the store has it. -/
def Store.Unused (S : Store) (key : Id) : Prop :=
  (∀ a ∈ S.artifacts, a.storageKey ≠ some key) ∧ S.blobs.get? key = none ∧
    S.parts.get? key = none ∧ S.locks.get? key = none

instance (S : Store) (key : Id) : Decidable (S.Unused key) := by
  unfold Store.Unused; infer_instance

/-- One step. A refused request, and a step that is not enabled, has no next state. -/
def Store.step (S : Store) (crates : Crates) : StoreAction → Option Store
  | .environment db =>
    if S.db.now ≤ db.now ∧ (∀ p ∈ S.db.projects, (db.projects.get? p.id).isSome = true) then
      some { S with db := db }
    else none
  | .raiseQuota quota => if S.quota ≤ quota then some { S with quota := quota } else none
  | .createLink auth project input => (Artifacts.createLink crates S auth project input).toOption
  | .reserveUpload auth project input key =>
    if S.Unused key then (Artifacts.reserveUpload S auth project input key).toOption else none
  | .openUpload auth project artifact contentLength =>
    match Artifacts.openUpload S auth project artifact contentLength with
    | .ok a => a.storageKey.map fun key => { S with
        processes := S.processes.create fun id =>
          ⟨id, .upload auth project artifact key (a.sizeBytes.getD (-1)) (a.sha256.getD "")
            .opened⟩ }
    | .error _ => none
  | .openChange auth project artifact change =>
    match S.artifactRow project artifact with
    | .ok a => some { S with
        processes := S.processes.create fun id =>
          ⟨id, .change auth project artifact change a.storageKey .opened⟩ }
    | .error _ => none
  | .openSweep keys =>
    if keys.length ≤ 100 ∧ (∀ key ∈ keys, ∃ a ∈ S.artifacts, a.kind = .upload ∧
        a.storageKey = some key ∧ a.Unavailable S.db.now) then
      some { S with
        processes := S.processes.create fun id =>
          ⟨id, .sweep (.expired S.db.now) keys .between⟩ }
    else none
  | .openOrphans keys =>
    if keys.length ≤ 100 ∧ (∀ key ∈ keys, (S.blobs.get? key).isSome = true) then
      some { S with
        processes := S.processes.create fun id => ⟨id, .sweep .orphans keys .between⟩ }
    else none
  | .acquire id => (S.processes.get? id).bind S.acquire
  | .receive id data => (S.processes.get? id).bind fun r => S.receive r data
  | .verify id => (S.processes.get? id).bind (S.verify crates)
  | .publish id => (S.processes.get? id).bind (S.publish crates)
  | .commit id replayed => (S.processes.get? id).bind fun r => S.commit crates r replayed
  | .remove id backup => (S.processes.get? id).bind fun r => S.remove r backup
  | .abandon id => (S.processes.get? id).map S.drop
  | .restart => some { S with processes := .empty }
  | .removeStale key =>
    if ∀ r ∈ S.processes, r.process.holds ≠ some key then
      some { S with locks := S.locks.erase key, parts := S.parts.erase key }
    else none

/-! ### Reading -/

end Artifacts

end AgentCoordinator
