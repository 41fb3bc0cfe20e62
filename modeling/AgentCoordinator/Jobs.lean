import AgentCoordinator.Library.Allocation
import AgentCoordinator.Library.Transition
import AgentCoordinator.Retention
import AgentCoordinator.Service

/-
Shared resources, and the producers that work with them.

An attempt reserves units of resources that all projects share, and registers each process it
launches, a producer, against its reservation. The process reports through a reporter of its own,
which may outlive the session that registered it: its observations become the state of the job,
and for a while its renewals extend the lease of the attempt. A reservation is given back once its
producers have ended, or once an operator has accounted for them.
-/

namespace AgentCoordinator

open Guarded Tabular Transition

namespace Jobs

/-- `REPORTER_LIFETIME_MS`. -/
def reporterLifetimeMs : Time := 7 * 86400000

/-! ### Rows -/

/-- `resources`. -/
structure Resource where
  id : Id
  key : String
  capacity : Int
  description : String
  createdBy : Id
  createdAt : Time

/-- `reservation_items`, of one reservation. -/
structure ReservationItem where
  resource : Id
  units : Int
  deriving DecidableEq, Repr

/-- `reservations.state`. -/
inductive ReservationState | held | released | resolved
  deriving DecidableEq, Repr

/-- `reservations`, with their items. -/
structure Reservation where
  id : Id
  project : Id
  attempt : Id
  generation : Int
  state : ReservationState
  items : List ReservationItem
  createdBy : Id
  createdAt : Time
  releasedAt : Option Time
  releasedBy : Option Id
  releaseReason : Option String
  resolvedAt : Option Time
  resolvedBy : Option Id
  resolutionReason : Option String
  resolutionEvidence : Option String

/-- `jobs`: the columns that registering and reconciling a job write. Those that an observation
writes are in the `ReportedJob` of the one reporter the job has. -/
structure Registration where
  id : Id
  producer : Id
  reporter : Id
  project : Id
  task : Id
  attempt : Id
  generation : Int
  runnerInstance : Id
  workstation : String
  label : String
  sourceRevision : String
  sourceTree : String
  checkIdentity : Option String
  checkVersion : Option String
  checkEnvironment : Option String
  reservation : Id
  createdAt : Time
  reconciledAt : Option Time
  reconciledBy : Option Id
  reconciliationReason : Option String
  reconciliationEvidence : Option String

/-- `reporters`. The service stores the SHA-256 digest of the proof; here the proof itself. -/
structure Reporter where
  id : Id
  job : Id
  principal : Id
  credential : Id
  session : Id
  proof : String
  expiresAt : Time
  renewUntil : Time
  createdAt : Time

instance : Keyed Resource Id := ⟨Resource.id⟩
instance : Keyed Reservation Id := ⟨Reservation.id⟩
instance : Keyed Registration Id := ⟨Registration.id⟩
instance : Keyed Reporter Id := ⟨Reporter.id⟩

/-- The units of a resource that a reservation is for. -/
def Reservation.units (v : Reservation) (resource : Id) : Int :=
  Allocation.asked ReservationItem.resource ReservationItem.units v.items resource

/-- A producer that is still at work or in doubt. -/
def Open (state : JobState) : Prop := state ∉ [JobState.succeeded, .failed, .notStarted]

instance : DecidablePred Open := fun _ => inferInstanceAs (Decidable (¬ _))

/-! ### The tables together -/

/-- The service with the tables of `jobs.rs`, which are the only authority on jobs and held
reservations. -/
structure JobService where
  service : Db
  resources : Table Resource
  reservations : Table Reservation
  registrations : Table Registration
  reporters : Table Reporter
  reports : ReportDb
  /-- `checkouts.workstation_id`, by attempt. -/
  checkoutWorkstations : List (Id × String)
  /-- `agent_sessions.workstation_id`. -/
  sessionWorkstations : List (Id × String)

namespace JobService

variable (J : JobService)

/-- `jobs.state`. -/
def stateOf (j : Registration) : JobState :=
  ((J.reports.jobs.get? j.reporter).map (·.state)).getD .registered

/-- The row of a job, as the rest of the service reads it. -/
def jobRow (j : Registration) : Job where
  id := j.id
  project := j.project
  task := j.task
  attempt := j.attempt
  state := J.stateOf j
  exitCode := (J.reports.jobs.get? j.reporter).bind (·.exitCode)
  inputsUnchanged := (J.reports.jobs.get? j.reporter).bind (·.inputsUnchanged)
  reconciledAt := j.reconciledAt
  sourceRevision := j.sourceRevision
  sourceTree := j.sourceTree
  checkIdentity := j.checkIdentity
  checkVersion := j.checkVersion
  checkEnvironment := j.checkEnvironment

/-- The database as the handlers read it. -/
def db : Db :=
  { J.service with
    ext := { J.service.ext with
      jobs := J.registrations.mapRows J.jobRow fun _ => rfl
      heldReservations := (J.reservations.filter (fun v => v.state = .held)).map (·.attempt) } }

/-- The job is not terminal, and no operator has accounted for it. -/
def Unfinished (j : Registration) : Prop := Open (J.stateOf j) ∧ j.reconciledAt = none

instance : DecidablePred J.Unfinished := fun _ => inferInstanceAs (Decidable (_ ∧ _))

/-- `held_units`: the units of a resource in held reservations. -/
def heldUnits (resource : Id) : Int :=
  J.reservations.sum fun v => if v.state = .held then v.units resource else 0

/-- Append the audit event that closes a mutation. -/
def finish (actor : Actor) (kind : String) (record : Id) : JobService :=
  { J with service := J.service.finish actor kind record }

end JobService

/-! ### Requests -/

/-- `ResourceInput`. -/
structure ResourceInput where
  key : String
  capacity : Int
  description : String

/-- `ResourceUpdate`. -/
structure ResourceUpdate where
  key : Option String
  capacity : Option Int
  description : Option String

/-- `ReservationInput`. -/
structure ReservationInput where
  generation : Int
  items : List ReservationItem

/-- `ReleaseReservationInput`. -/
structure ReleaseReservationInput where
  generation : Int
  reason : String

/-- `ResolveReservationInput`. -/
structure ResolveReservationInput where
  reason : String
  evidence : String

/-- `JobInput`. -/
structure JobInput where
  generation : Int
  job : Id
  producer : Id
  runnerInstance : Id
  workstation : String
  label : String
  sourceRevision : String
  sourceTree : String
  checkIdentity : Option String
  checkVersion : Option String
  checkEnvironment : Option String
  reservation : Id
  reporter : Id
  reporterProof : String
  renewForSeconds : Int

/-- The mutating requests of callers. -/
inductive JobRequest
  | createResource (input : ResourceInput)
  | updateResource (resource : Id) (input : ResourceUpdate)
  | deleteResource (resource : Id)
  | createReservation (project attempt : Id) (input : ReservationInput)
  | releaseReservation (project reservation : Id) (input : ReleaseReservationInput)
  | resolveReservation (project reservation : Id) (input : ResolveReservationInput)
  | registerJob (project attempt : Id) (input : JobInput)

/-- `allowed_during_restore`, of these operations. -/
def JobRequest.allowedDuringRestore : JobRequest → Bool
  | .resolveReservation .. => true
  | _ => false

/-- `allowed_during_clock_reconciliation`, of these operations. -/
def JobRequest.allowedDuringClockReconciliation : JobRequest → Bool
  | .releaseReservation .. | .resolveReservation .. => true
  | _ => false

/-- The requests of a reporter. -/
inductive ReporterRequest
  | observe (input : ObservationInput)
  | renew (generation : Int)

/-- `allowed_during_clock_reconciliation`, of these operations; a restore allows none of them. -/
def ReporterRequest.allowedDuringClockReconciliation : ReporterRequest → Bool
  | .observe .. => true
  | .renew .. => false

/-- `authority`: refuse what a pause does not allow. -/
def authority (s : Db) (duringRestore duringClock : Bool) : Except AppError Unit := do
  refuseIf (s.ext.coordinationState = .restoreReconciliation ∧ duringRestore = false)
    (.conflict "restore_reconciliation_required"
      ("The restored service is paused. Reconcile restored authority and external effects " ++
        "before changing coordination state."))
  refuseIf (s.clockIncident = true ∧ duringClock = false) clockReconciliationError

/-- `Mutation::begin`. -/
def JobRequest.begin (J : JobService) (auth : Auth) (req : JobRequest) : Except AppError Actor := do
  let actor ← auth.verify J.db.ext J.db.now
  refuseIf (actor.isReadOnly = true)
    (.forbidden
      "This credential is read-only; it may inspect state and manage its own session only.")
  refuseIf (actor.isIntegrator = true)
    (.forbidden "This integrator credential may only call the integrator API.")
  authority J.db req.allowedDuringRestore req.allowedDuringClockReconciliation
  return actor

/-! ### Validation -/

/-- A byte of a canonical resource name. -/
def isResourceChar (c : Char) : Bool :=
  ('a' ≤ c && c ≤ 'z') || ('0' ≤ c && c ≤ '9') || c ∈ "-_.:/".toList

/-- `resource_key`. A text of these bytes has no whitespace around it. -/
def resourceKey (value : String) : Except AppError Unit := do
  bounded value "key" 255 true
  refuseIf (value.toList.all isResourceChar = false)
    (.badRequest ("key must be a canonical lowercase resource name using letters, digits, -, _, " ++
      "., :, or /."))

/-- The bounds of a resource's capacity. -/
def capacityInRange (capacity : Int) : Except AppError Unit :=
  refuseIf (¬ (1 ≤ capacity ∧ capacity ≤ 1000))
    (.badRequest "capacity must be between 1 and 1000.")

/-- What `create_resource` checks first. -/
def ResourceInput.validate (input : ResourceInput) : Except AppError Unit := do
  resourceKey input.key
  bounded input.description "description" 4096 false
  capacityInRange input.capacity

/-- What `update_resource` checks first. -/
def ResourceUpdate.validate (input : ResourceUpdate) : Except AppError Unit := do
  refuseIf (input.key = none ∧ input.capacity = none ∧ input.description = none)
    (.badRequest "Provide at least one of key, capacity, or description.")
  input.key.forM resourceKey
  input.description.forM fun description => bounded description "description" 4096 false
  input.capacity.forM capacityInRange

/-- The loop of `create_reservation` over its items, after the resources in `seen`. -/
def validateItems : List ReservationItem → List Id → Except AppError Unit
  | [], _ => return
  | item :: items, seen => do
    refuseIf (¬ (1 ≤ item.units ∧ item.units ≤ 1000) ∨ item.resource ∈ seen)
      (.badRequest "Reservation resources must be distinct and request 1–1000 units.")
    validateItems items (item.resource :: seen)

/-- What `create_reservation` checks first. -/
def ReservationInput.validate (input : ReservationInput) : Except AppError Unit := do
  refuseIf (input.items = [] ∨ input.items.length > 100)
    (.badRequest "Provide 1–100 reservation items.")
  validateItems input.items []

/-- A character of a workstation identity. -/
def isWorkstationChar (c : Char) : Bool := c.isAlphanum || c ∈ "-_.".toList

/-- A full Git object identity of a check job. -/
def gitObject (value : String) : Except AppError Unit :=
  refuseIf
    (¬ (value.utf8ByteSize = 40 ∨ value.utf8ByteSize = 64) ∨
      ¬ value.toList.all isAsciiHexdigit = true)
    (.badRequest "Check jobs require full Git commit and tree object IDs.")

/-- The check a job runs, if it runs one. -/
def JobInput.validateCheck (input : JobInput) : Except AppError Unit :=
  match input.checkIdentity, input.checkVersion, input.checkEnvironment with
  | some identity, some version, some environment => do
    bounded identity "check_identity" 255 true
    bounded version "check_version" 255 true
    bounded environment "check_environment" 255 true
    gitObject input.sourceRevision
    gitObject input.sourceTree
  | none, none, none => pure ()
  | _, _, _ => .error
    (.badRequest "Provide check_identity, check_version, and check_environment together.")

/-- What `register_job` checks first. -/
def JobInput.validate (input : JobInput) : Except AppError Unit := do
  refuseIf (input.workstation = "" ∨ input.workstation.utf8ByteSize > 128 ∨
      input.workstation.toList.all isWorkstationChar = false)
    (.badRequest "Use the workstation identity registered with this harness session.")
  bounded input.label "label" 255 true
  bounded input.sourceRevision "source_revision" 255 true
  bounded input.sourceTree "source_tree" 255 true
  input.validateCheck
  refuseIf (input.reporterProof.toList.length % 2 = 1 ∨
      input.reporterProof.toList.all isAsciiHexdigit = false)
    (.badRequest "reporter_proof must encode 32 random bytes as hex.")
  refuseIf (input.reporterProof.toList.length ≠ 64 ∨
      ¬ (0 ≤ input.renewForSeconds ∧ input.renewForSeconds ≤ 3600))
    (.badRequest
      "Use a 32-byte hexadecimal reporter_proof and renew_for_seconds between 0 and 3600.")

/-- What a handler checks before its transaction begins. -/
def JobRequest.validate : JobRequest → Except AppError Unit
  | .createResource input => input.validate
  | .updateResource _ input => input.validate
  | .deleteResource _ => pure ()
  | .createReservation _ _ input => input.validate
  | .releaseReservation _ _ input => bounded input.reason "reason" 8192 true
  | .resolveReservation _ _ input => do
    bounded input.reason "reason" 8192 true
    bounded input.evidence "evidence" 32768 true
  | .registerJob _ _ input => input.validate

/-! ### Resources -/

/-- Refuse callers that are not human. -/
def humanOnly (actor : Actor) (gate message : String) : Except AppError Unit :=
  refuseIf (actor.kind ≠ .human) (.humanGate gate message)

/-- The row of a new resource. -/
def ResourceInput.row (input : ResourceInput) (actor : Actor) (now : Time) (id : Id) :
    Resource where
  id := id
  key := input.key
  capacity := input.capacity
  description := input.description
  createdBy := actor.id
  createdAt := now

/-- `create_resource`. -/
def createResource (J : JobService) (actor : Actor) (input : ResourceInput) :
    Except AppError JobService := do
  humanOnly actor "resource_create" "A human operator creates globally shared resources."
  refuseIf (∃ r ∈ J.resources, r.key = input.key)
    (.conflict "resource_exists" "A resource already uses this canonical key.")
  return { J with resources := J.resources.create (input.row actor J.db.now) }.finish
    actor "resource.created" J.resources.fresh

/-- What `update_resource` makes of a resource. -/
def ResourceUpdate.apply (input : ResourceUpdate) (r : Resource) : Resource :=
  { r with
    key := input.key.getD r.key
    capacity := input.capacity.getD r.capacity
    description := input.description.getD r.description }

/-- `update_resource`. -/
def updateResource (J : JobService) (actor : Actor) (resource : Id) (input : ResourceUpdate) :
    Except AppError JobService := do
  humanOnly actor "resource_update" "A human operator updates globally shared resources."
  let _ ← okOr (J.resources.get? resource) .notFound
  refuseIf (input.capacity.any (fun capacity => capacity < J.heldUnits resource) = true)
    (.conflict "resource_capacity_below_holds"
      "Capacity cannot be lower than the units currently held by reservations.")
  refuseIf (∃ r ∈ J.resources, some r.key = input.key ∧ r.id ≠ resource)
    (.conflict "resource_exists" "A resource already uses this canonical key.")
  return { J with
    resources := J.resources.modify (fun r => r.id = resource) input.apply fun _ => rfl }.finish
      actor "resource.updated" resource

/-- `delete_resource`. -/
def deleteResource (J : JobService) (actor : Actor) (resource : Id) :
    Except AppError JobService := do
  humanOnly actor "resource_delete" "A human operator deletes globally shared resources."
  let _ ← okOr (J.resources.get? resource) .notFound
  refuseIf (∃ v ∈ J.reservations, ∃ i ∈ v.items, i.resource = resource)
    (.conflict "resource_in_use"
      "Reservation history references this resource, so it cannot be deleted.")
  return { J with resources := J.resources.erase resource }.finish
    actor "resource.deleted" resource

/-! ### Reservations -/

/-- `guard_activity_work`: work on the task may go on. -/
def guardActivityWork (s : Db) (project task : Id) : Except AppError Unit := do
  ensureDecisionsResolved s project task
  match s.workflowActivities.rows.find? (fun wa =>
      wa.project = project ∧ wa.activityTask = task) with
  | none => return
  | some wa => do
    ensureDecisionsResolved s project wa.subjectTask
    let ctx ← activityContext s project wa.id
    refuseIf
      (wa.state ≠ .active ∨ ctx.pinsCurrent = false ∨
        ((s.tasks.get? task).bind s.attemptOf).all (fun a => a.expiresAt ≤ s.now) = true)
      (.conflict "workflow_authority_lost"
        "The activity candidate, policy, or lease is no longer current.")
    refuseIf ((s.integrationResults.get? wa.id).isSome = true)
      (.conflict "integration_result_recorded"
        "This activity already has an immutable integration result.")

/-- An item of a reservation fits in what its resource has left. -/
def JobService.ensureAvailable (J : JobService) (item : ReservationItem) :
    Except AppError Unit := do
  let r ← okOr (J.resources.get? item.resource) .notFound
  refuseIf (J.heldUnits item.resource + item.units > r.capacity)
    (.conflict "resource_unavailable"
      "The complete resource set is not currently available.")

/-- The row of a new reservation. -/
def ReservationInput.row (input : ReservationInput) (actor : Actor) (project attempt : Id)
    (now : Time) (id : Id) : Reservation where
  id := id
  project := project
  attempt := attempt
  generation := input.generation
  state := .held
  items := input.items
  createdBy := actor.id
  createdAt := now
  releasedAt := none
  releasedBy := none
  releaseReason := none
  resolvedAt := none
  resolvedBy := none
  resolutionReason := none
  resolutionEvidence := none

/-- `create_reservation`. -/
def createReservation (J : JobService) (actor : Actor) (project attempt : Id)
    (input : ReservationInput) : Except AppError JobService := do
  let a ← owned J.db actor project attempt input.generation
  guardActivityWork J.db project a.task
  refuseIf (a.mode ≠ .work)
    (.conflict "recovery_unresolved"
      "Resolve recovery inspection before reserving resources.")
  refuseIf (∃ v ∈ J.reservations, v.attempt = attempt ∧ v.state = .held)
    (.conflict "reservation_exists" "This attempt already has a held reservation.")
  input.items.forM J.ensureAvailable
  return { J with
    reservations := J.reservations.create (input.row actor project attempt J.db.now) }.finish
      actor "reservation.created" J.reservations.fresh

/-- The rows `release_reservation` reads: the reservation, its attempt, and that attempt's task. -/
def JobService.reservationTask (J : JobService) (project reservation : Id) :
    Except AppError (Reservation × Task) := do
  let v ← okOr ((J.reservations.get? reservation).filter (fun v => v.project = project)) .notFound
  let a ← okOr (J.db.attempts.get? v.attempt) .notFound
  let t ← okOr (J.db.tasks.get? a.task) .notFound
  return (v, t)

/-- What releasing makes of a reservation. -/
def Reservation.release (now : Time) (actor : Id) (reason : String) (v : Reservation) :
    Reservation :=
  { v with
    state := .released
    releasedAt := some now
    releasedBy := some actor
    releaseReason := some reason }

/-- `release_reservation`. -/
def releaseReservation (J : JobService) (actor : Actor) (project reservation : Id)
    (input : ReleaseReservationInput) : Except AppError JobService := do
  let (v, t) ← J.reservationTask project reservation
  let id ← okOr t.currentAttempt
    (.conflict "lease_expired" "Claim recovery before releasing this reservation.")
  let current ← owned J.db actor project id input.generation
  refuseIf (current.id ≠ v.attempt ∧ (current.mode ≠ .recovery ∨ current.task ≠ t.id))
    (.forbidden "Only the current owner of this task may release its reservation.")
  refuseIf (v.state ≠ .held)
    (.conflict "reservation_not_held" "This reservation is no longer held.")
  refuseIf (∃ j ∈ J.registrations, j.reservation = reservation ∧ J.Unfinished j)
    (.conflict "jobs_still_running"
      ("Inspect every attached producer and record a terminal result before releasing this " ++
        "resource set."))
  return { J with
    reservations := J.reservations.modify (fun v => v.id = reservation)
      (Reservation.release J.db.now actor.id input.reason) fun _ => rfl }.finish
        actor "reservation.released" reservation

/-- What resolving makes of a reservation. -/
def Reservation.resolve (now : Time) (actor : Id) (input : ResolveReservationInput)
    (v : Reservation) : Reservation :=
  { v with
    state := .resolved
    resolvedAt := some now
    resolvedBy := some actor
    resolutionReason := some input.reason
    resolutionEvidence := some input.evidence }

/-- What resolving its reservation makes of a job in doubt. -/
def Registration.reconcile (now : Time) (actor : Id) (input : ResolveReservationInput)
    (j : Registration) : Registration :=
  { j with
    reconciledAt := some now
    reconciledBy := some actor
    reconciliationReason := some input.reason
    reconciliationEvidence := some input.evidence }

/-- `resolve_reservation`. -/
def resolveReservation (J : JobService) (actor : Actor) (project reservation : Id)
    (input : ResolveReservationInput) : Except AppError JobService := do
  humanOnly actor "reservation_resolve"
    "A human operator must resolve uncertain physical resources."
  let v ← okOr ((J.reservations.get? reservation).filter (fun v => v.project = project)) .notFound
  refuseIf (v.state ≠ .held)
    (.conflict "reservation_not_held" "This reservation is no longer held.")
  return { J with
    registrations := J.registrations.modify
      (fun j => j.reservation = reservation ∧ J.Unfinished j)
      (Registration.reconcile J.db.now actor.id input) fun _ => rfl
    reservations := J.reservations.modify (fun v => v.id = reservation)
      (Reservation.resolve J.db.now actor.id input) fun _ => rfl }.finish
        actor "reservation.resolved" reservation

/-! ### Producers -/

/-- The row of a new job. -/
def JobInput.registration (input : JobInput) (project task attempt : Id) (now : Time) :
    Registration where
  id := input.job
  producer := input.producer
  reporter := input.reporter
  project := project
  task := task
  attempt := attempt
  generation := input.generation
  runnerInstance := input.runnerInstance
  workstation := input.workstation
  label := input.label
  sourceRevision := input.sourceRevision
  sourceTree := input.sourceTree
  checkIdentity := input.checkIdentity
  checkVersion := input.checkVersion
  checkEnvironment := input.checkEnvironment
  reservation := input.reservation
  createdAt := now
  reconciledAt := none
  reconciledBy := none
  reconciliationReason := none
  reconciliationEvidence := none

/-- The row of its reporter. -/
def JobInput.reporterRow (input : JobInput) (actor : Actor) (credential session : Id)
    (now : Time) : Reporter where
  id := input.reporter
  job := input.job
  principal := actor.id
  credential := credential
  session := session
  proof := input.reporterProof
  expiresAt := now + reporterLifetimeMs
  renewUntil := now + input.renewForSeconds * 1000
  createdAt := now

/-- The checkout and the session of the attempt are on the workstation the input names. -/
def JobService.ensureWorkstation (J : JobService) (attempt session : Id) (workstation : String) :
    Except AppError Unit := do
  let checkout ← okOr (J.checkoutWorkstations.lookup attempt)
    (.conflict "checkout_required"
      "Register the clean checkout before registering a producer.")
  let own ← okOr (J.sessionWorkstations.lookup session) .internal
  refuseIf (checkout ≠ workstation ∨ own ≠ workstation)
    (.forbidden "The producer and checkout must use this session's registered workstation.")

/-- `register_job`. -/
def registerJob (J : JobService) (actor : Actor) (project attempt : Id) (input : JobInput) :
    Except AppError JobService := do
  let a ← owned J.db actor project attempt input.generation
  guardActivityWork J.db project a.task
  refuseIf (a.mode ≠ .work ∨ actor.kind ≠ .agent)
    (.forbidden "A live agent work attempt is required to register a producer.")
  J.ensureWorkstation attempt a.session input.workstation
  refuseIf (¬ (J.reservations.get? input.reservation).any (fun v => v.project = project ∧
      v.attempt = attempt ∧ v.generation = input.generation ∧ v.state = .held) = true)
    (.conflict "reservation_required"
      "Register the producer against this attempt's held resource set.")
  refuseIf ((∃ j ∈ J.registrations, j.id = input.job ∨ j.producer = input.producer) ∨
      (J.reporters.get? input.reporter).isSome = true)
    (.conflict "producer_registered"
      ("A job, producer, or reporter already uses this identity. Inspect it; do not " ++
        "relaunch."))
  let credential ← okOr a.credential
    (.forbidden "Reporter credentials require an agent parent.")
  let registrations ← okOr
    (J.registrations.insert? (input.registration project a.task attempt J.db.now))
    .recordConflict
  let reports ← AgentCoordinator.registerJob J.reports input.reporter input.producer
  let reporters ← okOr
    (J.reporters.insert? (input.reporterRow actor credential a.session J.db.now))
    .recordConflict
  return { J with registrations, reports, reporters }.finish actor "job.registered" input.job

/-- The handler of a request. -/
def JobRequest.handle (J : JobService) (actor : Actor) : JobRequest → Except AppError JobService
  | .createResource input => Jobs.createResource J actor input
  | .updateResource resource input => Jobs.updateResource J actor resource input
  | .deleteResource resource => Jobs.deleteResource J actor resource
  | .createReservation project attempt input =>
    Jobs.createReservation J actor project attempt input
  | .releaseReservation project reservation input =>
    Jobs.releaseReservation J actor project reservation input
  | .resolveReservation project reservation input =>
    Jobs.resolveReservation J actor project reservation input
  | .registerJob project attempt input => Jobs.registerJob J actor project attempt input

/-- One request in its transaction. -/
def JobRequest.serve (J : JobService) (auth : Auth) (req : JobRequest) :
    Except AppError JobService := do
  req.validate
  let actor ← req.begin J auth
  req.handle J actor

/-! ### Reporters -/

/-- `ReporterAuth`: the identity and the proof a reporter presents. -/
structure ReporterAuth where
  id : Id
  proof : String

/-- `ReporterAuth::verify`. -/
def ReporterAuth.verify (J : JobService) (auth : ReporterAuth) : Except AppError Actor := do
  let r ← okOr (J.reporters.get? auth.id) .authRequired
  let c ← okOr (J.db.ext.credentials.get? r.credential) .authRequired
  let p ← okOr (J.db.ext.principals.get? r.principal) .authRequired
  refuseIf
    (c.principal ≠ r.principal ∨ r.expiresAt ≤ J.db.now ∨ c.revokedAt ≠ none ∨
      c.expiresAt.any (fun e => e ≤ J.db.now) = true ∨ p.disabledAt ≠ none ∨
      p.kind ≠ .agent ∨ p.role ≠ .agent)
    .authRequired
  refuseIf (r.proof ≠ auth.proof) .authRequired
  return ⟨p.id, p.kind, p.role, some c.id, some r.session, none⟩

/-- The rows `reporter_job` joins. -/
structure ReporterJob where
  reporter : Reporter
  job : Registration
  attempt : Attempt

/-- `reporter_job`. -/
def JobService.reporterJob (J : JobService) (reporter : Id) : Except AppError ReporterJob := do
  let r ← okOr (J.reporters.get? reporter) .notFound
  let j ← okOr (J.registrations.get? r.job) .notFound
  let a ← okOr (J.db.attempts.get? j.attempt) .notFound
  return ⟨r, j, a⟩

/-- The attempt, the task, the reservation and the session a reporter acts for all stand, and are
those it was registered under. -/
def JobService.Stands (J : JobService) (x : ReporterJob) : Prop :=
  x.attempt.project = x.job.project ∧ x.attempt.generation = x.job.generation ∧
    x.attempt.state = .active ∧ J.db.now < x.attempt.expiresAt ∧ x.attempt.mode = .work ∧
    x.attempt.owner = x.reporter.principal ∧
    x.attempt.credential = some x.reporter.credential ∧
    x.attempt.session = x.reporter.session ∧
    (J.db.tasks.get? x.attempt.task).any (fun t =>
      t.currentAttempt = some x.attempt.id ∧ t.generation = x.attempt.generation) = true ∧
    (J.reservations.get? x.job.reservation).any (fun v =>
      v.attempt = x.attempt.id ∧ v.state = .held) = true ∧
    (J.db.ext.agentSessions.get? x.attempt.session).any (fun s =>
      some s.credential = x.attempt.credential ∧ s.closedAt = none) = true

instance (J : JobService) (x : ReporterJob) : Decidable (J.Stands x) := by
  unfold JobService.Stands; infer_instance

/-- `reporter_can_renew`. -/
def JobService.reporterCanRenew (J : JobService) (x : ReporterJob) : Prop :=
  J.db.now < x.reporter.renewUntil ∧ J.Stands x ∧ J.Unfinished x.job

instance (J : JobService) (x : ReporterJob) : Decidable (J.reporterCanRenew x) := by
  unfold JobService.reporterCanRenew; infer_instance

/-- `reporter_can_launch`. -/
def JobService.reporterCanLaunch (J : JobService) (x : ReporterJob) : Prop :=
  (guardActivityWork J.db x.job.project x.job.task).toOption.isSome = true ∧
    J.stateOf x.job = .registered ∧ J.Stands x

instance (J : JobService) (x : ReporterJob) : Decidable (J.reporterCanLaunch x) := by
  unfold JobService.reporterCanLaunch; infer_instance

/-- The event an observation is recorded under. -/
def observedEvent (replayed : Bool) : String :=
  if replayed = true then "job.observation_replayed" else "job.observed"

/-- `observe`. -/
def observe (J : JobService) (actor : Actor) (reporter : Id) (input : ObservationInput) :
    Except AppError JobService := do
  let x ← J.reporterJob reporter
  let accepted ← acceptObservation J.reports reporter input
  let reports ← AgentCoordinator.observe J.reports J.db.now reporter input
  return { J with reports }.finish actor (observedEvent accepted.2) x.job.id

/-- `reporter_renewal_expired`. -/
def reporterRenewalExpired : AppError :=
  .conflict "reporter_renewal_expired"
    ("This reporter cannot renew task ownership. Continue observations without extending the " ++
      "lease.")

/-- `reporter_renew`. -/
def renew (J : JobService) (actor : Actor) (reporter : Id) (generation : Int) :
    Except AppError JobService := do
  let x ← J.reporterJob reporter
  refuseIf (x.job.generation ≠ generation ∨ x.reporter.renewUntil ≤ J.db.now)
    reporterRenewalExpired
  refuseIf (¬ J.reporterCanRenew x) reporterRenewalExpired
  let current ← owned J.db actor x.job.project x.job.attempt generation
  let proj ← okOr (J.db.projects.get? x.job.project) .notFound
  let extension ← cappedRenewal
    (min (J.db.now + proj.leaseSeconds * 1000) x.reporter.renewUntil) proj.maxAttemptSeconds
    current
  let expires := max current.expiresAt extension
  return { J with
    service := { J.service with
      attempts := J.service.attempts.modify (fun a => a.id = x.job.attempt)
        (fun a => { a with expiresAt := expires, lastHeartbeatAt := J.db.now }) } }.finish
          actor "attempt.reporter_renewed" x.job.attempt

/-- The handler of a reporter's request. -/
def ReporterRequest.handle (J : JobService) (actor : Actor) (reporter : Id) :
    ReporterRequest → Except AppError JobService
  | .observe input => Jobs.observe J actor reporter input
  | .renew generation => Jobs.renew J actor reporter generation

/-- One request of a reporter in its transaction, by `require_reporter` under its own identity. -/
def ReporterRequest.serve (J : JobService) (auth : ReporterAuth) (req : ReporterRequest) :
    Except AppError JobService := do
  let actor ← auth.verify J
  authority J.db false req.allowedDuringClockReconciliation
  req.handle J actor auth.id

/-! ### The rest of the service -/

/-- A clock rollback, and a restore, end the authority of every reporter. -/
def Reporter.expire (now : Time) (r : Reporter) : Reporter :=
  { r with expiresAt := min r.expiresAt now, renewUntil := min r.renewUntil now }

/-- The tables after the service went to `s`; a clock rollback reaches the reporters as well. -/
def JobService.afterStep (J : JobService) (i : Action) (s : Db) : JobService :=
  match i with
  | .clockRollback now =>
    { J with service := s, reporters := J.reporters.modify (fun _ => True) (Reporter.expire now) }
  | _ => { J with service := s }

/-- Activating a restored backup: all that was live when it was taken is closed. -/
def restoreAuthority (s : Db) (now : Time) : Db :=
  { s with
    now := now
    attempts := s.attempts.modify (fun a => a.state = .active) (fun a => { a with
      state := .expired
      endedAt := a.endedAt <|> some now
      outcome := a.outcome <|> some "Authority expired by database restore." })
    integrationAuthorizations := s.integrationAuthorizations.modify (fun _ => True)
      (fun r => { r with invalidatedAt := r.invalidatedAt <|> some now })
    ext := { s.ext with
      coordinationState := .restoreReconciliation
      credentials := s.ext.credentials.modify (fun _ => True)
        (fun c => { c with revokedAt := c.revokedAt <|> some now })
      browserSessions := s.ext.browserSessions.modify (fun _ => True)
        (fun b => { b with revokedAt := b.revokedAt <|> some now })
      agentSessions := s.ext.agentSessions.modify (fun _ => True)
        (fun a => { a with closedAt := a.closedAt <|> some now })
      principals := s.ext.principals.modify (fun p => p.kind = .human)
        (fun p => { p with disabledAt := p.disabledAt <|> some now }) } }

/-- A job that had not ended when the backup was taken. -/
def forget (p : ReportedJob) : ReportedJob := { p with state := .unknown }

/-- What producers did since the backup is unknown. -/
def restoreReports (s : ReportDb) : ReportDb :=
  { s with
    jobs := s.jobs.modify (fun p => p.state = .registered ∨ p.state = .running) forget
      fun _ => rfl }

/-- The part of a restore that concerns these tables. -/
def JobService.restore (J : JobService) (now : Time) : JobService :=
  { J with
    service := restoreAuthority J.service now
    reporters := J.reporters.modify (fun _ => True) (Reporter.expire now)
    reports := restoreReports J.reports }

/-! ### Steps -/

/-- What happens in one step. -/
inductive JobAction
  | request (auth : Auth) (req : JobRequest)
  | report (auth : ReporterAuth) (req : ReporterRequest)
  | service (i : Action)
  | workstations
  | compact (cutoff : Time) (limit : Nat)
  | restore (now : Time)

/-- One step. A refused request changes nothing, and no other part of the service writes jobs or
reservations. -/
inductive JobStep : JobService → JobAction → JobService → Prop
  | accepted {J J' : JobService} {auth : Auth} {req : JobRequest} (h : req.serve J auth = .ok J') :
      JobStep J (.request auth req) J'
  | refused {J : JobService} {auth : Auth} {req : JobRequest} {e : AppError}
      (h : req.serve J auth = .error e) : JobStep J (.request auth req) J
  | reported {J J' : JobService} {auth : ReporterAuth} {req : ReporterRequest}
      (h : req.serve J auth = .ok J') : JobStep J (.report auth req) J'
  | unreported {J : JobService} {auth : ReporterAuth} {req : ReporterRequest} {e : AppError}
      (h : req.serve J auth = .error e) : JobStep J (.report auth req) J
  | service {J : JobService} {i : Action} {s : Db} (h : Step J.db i s)
      (jobs : s.ext.jobs = J.db.ext.jobs)
      (held : s.ext.heldReservations = J.db.ext.heldReservations) :
      JobStep J (.service i) (J.afterStep i s)
  | workstations {J : JobService} {checkouts sessions : List (Id × String)} :
      JobStep J .workstations
        { J with checkoutWorkstations := checkouts, sessionWorkstations := sessions }
  | compact {J : JobService} {cutoff : Time} {limit : Nat} :
      JobStep J (.compact cutoff limit)
        { J with reports := compactObservations J.reports cutoff J.db.now limit }
  | restore {J : JobService} {now : Time} (h : J.db.now ≤ now) :
      JobStep J (.restore now) (J.restore now)

/-- A service that has granted no work, and whose producers have yet to be registered. -/
structure JobService.Initial (J : JobService) : Prop where
  service : AgentCoordinator.Initial J.db
  resources : J.resources = .empty
  reservations : J.reservations = .empty
  registrations : J.registrations = .empty
  reporters : J.reporters = .empty
  reports : J.reports = ⟨.empty, .empty⟩

/-- The state is reachable by steps that satisfy `ok`. -/
def JobService.Reachable (ok : JobService → JobAction → Prop) (J : JobService) : Prop :=
  ∃ J₀, JobService.Initial J₀ ∧ Run JobStep ok J₀ J

/-- Every step is allowed. -/
def anyJobStep (_ : JobService) (_ : JobAction) : Prop := True

end Jobs

end AgentCoordinator
