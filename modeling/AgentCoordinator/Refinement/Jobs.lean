import AgentCoordinator.Jobs
import AgentCoordinator.Safety.Compaction
import AgentCoordinator.Scenario

/-
What one step does to resources, reservations and producers.

Each handler is inverted once: `JobStep.effect` lists the ten ways in which a step can change the
tables, with the guards under which it does. Everything said about runs of these tables is proved
from this list.
-/

namespace AgentCoordinator

open Guarded Tabular Transition

namespace Jobs

/-- The items of a reservation: each asks for something, and no two for the same resource. -/
structure WellFormed (items : List ReservationItem) : Prop where
  distinct : (items.map ReservationItem.resource).Nodup
  positive : ∀ i ∈ items, 1 ≤ i.units

/-- An update of a resource that was let through. -/
structure ResourceUpdate.Admissible (J : JobService) (resource : Id) (input : ResourceUpdate) :
    Prop where
  capacity : ∀ c, input.capacity = some c → J.heldUnits resource ≤ c
  key : ∀ k, input.key = some k → ∀ r ∈ J.resources, r.id ≠ resource → r.key ≠ k

/-- A new reservation that was let through. -/
structure ReservationInput.Admissible (J : JobService) (attempt : Id)
    (items : List ReservationItem) : Prop where
  wellFormed : WellFormed items
  free : ∀ v ∈ J.reservations, v.attempt = attempt → v.state ≠ .held
  fits : ∀ i ∈ items, ∃ r ∈ J.resources, r.id = i.resource ∧
    J.heldUnits i.resource + i.units ≤ r.capacity

/-- What a new observation was checked for. -/
structure NewObservation (s : ReportDb) (reporter : Id) (input : ObservationInput)
    (j : ReportedJob) : Prop where
  valid : validateObservation input = .ok ()
  job : s.jobs.get? reporter = some j
  producer : j.producer = input.producer
  later : j.lastSequence < input.sequence
  notEnded : Open j.state
  unlaunched : input.state = .notStarted → ¬ s.launched reporter
  first : input.state = .registered → j.lastSequence ≤ 0

/-- What one step can do to the tables. -/
inductive Effect (J : JobService) : JobService → Prop
  /-- Resources, reservations and jobs stay as they are. -/
  | idle {s : Db} {reporters : Table Reporter} {checkouts sessions : List (Id × String)} :
      Effect J { J with
        service := s
        reporters := reporters
        checkoutWorkstations := checkouts
        sessionWorkstations := sessions }
  | created {s : Db} {actor : Actor} {now : Time} {input : ResourceInput}
      (capacity : 1 ≤ input.capacity) (key : ∀ r ∈ J.resources, r.key ≠ input.key) :
      Effect J { J with
        service := s
        resources := J.resources.create (input.row actor now) }
  | updated {s : Db} {resource : Id} {input : ResourceUpdate}
      (admissible : input.Admissible J resource) :
      Effect J { J with
        service := s
        resources := J.resources.modify (fun r => r.id = resource) input.apply fun _ => rfl }
  | deleted {s : Db} {resource : Id}
      (unused : ∀ v ∈ J.reservations, ∀ i ∈ v.items, i.resource ≠ resource) :
      Effect J { J with service := s, resources := J.resources.erase resource }
  | reserved {s : Db} {actor : Actor} {project attempt : Id} {now : Time}
      {input : ReservationInput}
      (admissible : ReservationInput.Admissible J attempt input.items) :
      Effect J { J with
        service := s
        reservations := J.reservations.create (input.row actor project attempt now) }
  | released {s : Db} {reservation actor : Id} {now : Time} {reason : String} {v : Reservation}
      (row : J.reservations.get? reservation = some v) (held : v.state = .held)
      (quiet : ∀ j ∈ J.registrations, j.reservation = reservation → ¬ J.Unfinished j) :
      Effect J { J with
        service := s
        reservations := J.reservations.modify (fun v => v.id = reservation)
          (Reservation.release now actor reason) fun _ => rfl }
  | resolved {s : Db} {reservation actor : Id} {now : Time} {input : ResolveReservationInput}
      {v : Reservation} (row : J.reservations.get? reservation = some v) (held : v.state = .held) :
      Effect J { J with
        service := s
        registrations := J.registrations.modify
          (fun j => j.reservation = reservation ∧ J.Unfinished j)
          (Registration.reconcile now actor input) fun _ => rfl
        reservations := J.reservations.modify (fun v => v.id = reservation)
          (Reservation.resolve now actor input) fun _ => rfl }
  | registered {s : Db} {registrations : Table Registration} {reports : ReportDb}
      {reporters : Table Reporter} {j : Registration} {v : Reservation}
      (job : J.registrations.insert? j = some registrations)
      (producer : ∀ j' ∈ J.registrations, j'.producer ≠ j.producer)
      (report : AgentCoordinator.registerJob J.reports j.reporter j.producer = .ok reports)
      (unreconciled : j.reconciledAt = none)
      (reservation : J.reservations.get? j.reservation = some v) (held : v.state = .held)
      (attempt : v.attempt = j.attempt) :
      Effect J { J with
        service := s
        registrations := registrations
        reports := reports
        reporters := reporters }
  | observed {s : Db} {observations : Table Observation} {reporter : Id} {now : Time}
      {input : ObservationInput} {p : ReportedJob}
      (checked : NewObservation J.reports reporter input p)
      (inserted : J.reports.observations.insert? (input.row reporter now) = some observations) :
      Effect J { J with
        service := s
        reports := { jobs := J.reports.jobs.put (p.observed input now), observations } }
  | compacted {cutoff now : Time} {limit : Nat} :
      Effect J { J with reports := compactObservations J.reports cutoff now limit }
  | restored {now : Time} : Effect J (J.restore now)

/-! ### The handlers -/

section Handlers

variable {J J' : JobService} {actor : Actor}

lemma createResource_effect {input : ResourceInput} (hvalid : input.validate = .ok ())
    (h : createResource J actor input = .ok J') : Effect J J' := by
  simp only [createResource, bind_eq_ok, refuseIf_eq_ok, pure_eq_ok] at h
  obtain ⟨-, -, -, hkey, rfl⟩ := h
  simp only [ResourceInput.validate, capacityInRange, bind_eq_ok, refuseIf_eq_ok,
    not_not] at hvalid
  obtain ⟨-, -, -, -, hcapacity, -⟩ := hvalid
  exact .created hcapacity fun r hr heq => hkey ⟨r, hr, heq⟩

lemma updateResource_effect {resource : Id} {input : ResourceUpdate}
    (h : updateResource J actor resource input = .ok J') : Effect J J' := by
  simp only [updateResource, bind_eq_ok, okOr_eq_ok, refuseIf_eq_ok, pure_eq_ok] at h
  obtain ⟨-, -, -, -, -, hcapacity, -, hkey, rfl⟩ := h
  refine .updated ⟨fun c hc => ?_, fun k hk r hr hne heq => hkey ⟨r, hr, by rw [hk, heq], hne⟩⟩
  rw [hc] at hcapacity
  simpa using hcapacity

lemma deleteResource_effect {resource : Id} (h : deleteResource J actor resource = .ok J') :
    Effect J J' := by
  simp only [deleteResource, bind_eq_ok, okOr_eq_ok, refuseIf_eq_ok, pure_eq_ok] at h
  obtain ⟨-, -, -, -, -, hunused, rfl⟩ := h
  exact .deleted fun v hv i hi heq => hunused ⟨v, hv, i, hi, heq⟩

/-- The loop over the items lets through distinct resources only. -/
lemma validateItems_ok {items : List ReservationItem} {seen : List Id}
    (h : validateItems items seen = .ok ()) :
    WellFormed items ∧ ∀ i ∈ items, i.resource ∉ seen := by
  induction items generalizing seen with
  | nil => exact ⟨⟨List.nodup_nil, nofun⟩, nofun⟩
  | cons item items ih =>
    simp only [validateItems, bind_eq_ok, refuseIf_eq_ok, not_or, not_not] at h
    obtain ⟨-, ⟨⟨hunits, -⟩, hnew⟩, hrest⟩ := h
    obtain ⟨⟨hdistinct, hpositive⟩, hunseen⟩ := ih hrest
    refine ⟨⟨?_, ?_⟩, ?_⟩
    · rw [List.map_cons, List.nodup_cons]
      refine ⟨fun hmem => ?_, hdistinct⟩
      obtain ⟨i, hi, heq⟩ := List.mem_map.1 hmem
      exact hunseen i hi (heq ▸ List.mem_cons_self)
    · intro i hi
      rcases List.mem_cons.1 hi with rfl | hi
      · exact hunits
      · exact hpositive i hi
    · intro i hi
      rcases List.mem_cons.1 hi with rfl | hi
      · exact hnew
      · exact fun hmem => hunseen i hi (List.mem_cons_of_mem _ hmem)

lemma ensureAvailable_ok {items : List ReservationItem}
    (h : items.forM J.ensureAvailable = .ok ()) :
    ∀ i ∈ items, ∃ r ∈ J.resources, r.id = i.resource ∧
      J.heldUnits i.resource + i.units ≤ r.capacity := by
  induction items with
  | nil => nofun
  | cons item items ih =>
    change (J.ensureAvailable item >>= fun _ => items.forM J.ensureAvailable) = .ok () at h
    rw [bind_eq_ok] at h
    obtain ⟨_, hitem, hrest⟩ := h
    simp only [JobService.ensureAvailable, bind_eq_ok, okOr_eq_ok, refuseIf_eq_ok] at hitem
    obtain ⟨r, hr, hfits⟩ := hitem
    intro i hi
    rcases List.mem_cons.1 hi with rfl | hi
    · exact ⟨r, Table.mem_of_get? hr, Table.key_of_get? hr, not_lt.1 hfits⟩
    · exact ih hrest i hi

lemma createReservation_effect {project attempt : Id} {input : ReservationInput}
    (hvalid : input.validate = .ok ())
    (h : createReservation J actor project attempt input = .ok J') : Effect J J' := by
  simp only [createReservation, bind_eq_ok, refuseIf_eq_ok, pure_eq_ok] at h
  obtain ⟨-, -, -, -, -, -, -, hfree, _, hfits, rfl⟩ := h
  simp only [ReservationInput.validate, bind_eq_ok, refuseIf_eq_ok] at hvalid
  obtain ⟨-, -, hitems⟩ := hvalid
  exact .reserved ⟨(validateItems_ok hitems).1, fun v hv ha hs => hfree ⟨v, hv, ha, hs⟩,
    ensureAvailable_ok hfits⟩

lemma releaseReservation_effect {project reservation : Id} {input : ReleaseReservationInput}
    (h : releaseReservation J actor project reservation input = .ok J') : Effect J J' := by
  simp only [releaseReservation, bind_eq_ok, okOr_eq_ok, refuseIf_eq_ok, pure_eq_ok,
    not_not] at h
  obtain ⟨⟨v, t⟩, hrows, id, -, a, -, -, -, -, hheld, -, hquiet, rfl⟩ := h
  simp only [JobService.reservationTask, bind_eq_ok, okOr_eq_ok, pure_eq_ok, Prod.mk.injEq] at hrows
  obtain ⟨w, hw, -, -, -, -, rfl, -⟩ := hrows
  exact .released (Option.filter_eq_some_iff.1 hw).1 hheld
    fun j hj hat hopen => hquiet ⟨j, hj, hat, hopen⟩

lemma resolveReservation_effect {project reservation : Id} {input : ResolveReservationInput}
    (h : resolveReservation J actor project reservation input = .ok J') : Effect J J' := by
  simp only [resolveReservation, bind_eq_ok, okOr_eq_ok, refuseIf_eq_ok, pure_eq_ok,
    not_not] at h
  obtain ⟨-, -, v, hv, -, hheld, rfl⟩ := h
  exact .resolved (Option.filter_eq_some_iff.1 hv).1 hheld

lemma registerJob_effect {project attempt : Id} {input : JobInput}
    (h : registerJob J actor project attempt input = .ok J') : Effect J J' := by
  simp only [registerJob, bind_eq_ok, okOr_eq_ok, refuseIf_eq_ok, pure_eq_ok, not_not] at h
  obtain ⟨a, -, -, -, -, -, -, -, -, hheld, -, hfree, -, -, registrations, hjob, reports, hreports,
    reporters, -, rfl⟩ := h
  obtain ⟨v, hv, hrow⟩ := (Option.any_eq_true _ _).1 hheld
  simp only [decide_eq_true_eq] at hrow
  obtain ⟨-, hattempt, -, hstate⟩ := hrow
  refine .registered hjob (fun j hj heq => hfree (.inl ⟨j, hj, .inr heq⟩)) hreports rfl hv hstate
    hattempt

/-- What an accepted observation was checked for, if it is a new one. -/
lemma observe_ok {s s' : ReportDb} {now : Time} {reporter : Id} {input : ObservationInput}
    (h : AgentCoordinator.observe s now reporter input = .ok s') :
    s' = s ∨ ∃ p observations, NewObservation s reporter input p ∧
      s.observations.insert? (input.row reporter now) = some observations ∧
      s' = { jobs := s.jobs.put (p.observed input now), observations } := by
  simp only [AgentCoordinator.observe, bind_eq_ok] at h
  obtain ⟨⟨p, replayed⟩, haccept, hwrite⟩ := h
  simp only [acceptObservation, bind_eq_ok, okOr_eq_ok, refuseIf_eq_ok, not_not] at haccept
  obtain ⟨_, hvalid, j, hj, -, hproducer, hrest⟩ := haccept
  split_ifs at hrest with hle
  · simp only [bind_eq_ok, refuseIf_eq_ok, pure_eq_ok, Prod.mk.injEq] at hrest
    obtain ⟨-, -, rfl, rfl⟩ := hrest
    exact .inl (pure_eq_ok.1 hwrite).symm
  · simp only [bind_eq_ok, refuseIf_eq_ok, pure_eq_ok, Prod.mk.injEq] at hrest
    obtain ⟨-, hended, -, hlaunched, -, hfirst, rfl, rfl⟩ := hrest
    simp only [Bool.false_eq_true, if_false, bind_eq_ok, okOr_eq_ok, pure_eq_ok] at hwrite
    obtain ⟨observations, hinsert, rfl⟩ := hwrite
    refine .inr ⟨j, observations, ⟨hvalid, hj, hproducer, not_le.1 hle, ?_, ?_, ?_⟩, hinsert, rfl⟩
    · simpa [Open] using hended
    · exact fun hstate hl => hlaunched ⟨hstate, hl⟩
    · exact fun hstate => not_lt.1 fun hlt => hfirst ⟨hstate, hlt⟩

lemma observe_effect {reporter : Id} {input : ObservationInput}
    (h : observe J actor reporter input = .ok J') : Effect J J' := by
  simp only [observe, bind_eq_ok, pure_eq_ok] at h
  obtain ⟨x, -, accepted, -, reports, hreports, rfl⟩ := h
  rcases observe_ok hreports with rfl | ⟨p, observations, hchecked, hinsert, rfl⟩
  · exact .idle
  · exact .observed hchecked hinsert

lemma renew_effect {reporter : Id} {generation : Int}
    (h : renew J actor reporter generation = .ok J') : Effect J J' := by
  simp only [renew, bind_eq_ok, pure_eq_ok] at h
  obtain ⟨x, -, -, -, -, -, a, -, proj, -, extension, -, rfl⟩ := h
  exact .idle

end Handlers

/-- What one step can do to the tables. -/
theorem JobStep.effect {J J' : JobService} {i : JobAction} (h : JobStep J i J') :
    Effect J J' := by
  cases h with
  | @accepted _ auth req h =>
    simp only [JobRequest.serve, bind_eq_ok] at h
    obtain ⟨_, hvalid, actor, -, hhandle⟩ := h
    cases req with
    | createResource input => exact createResource_effect hvalid hhandle
    | updateResource resource input => exact updateResource_effect hhandle
    | deleteResource resource => exact deleteResource_effect hhandle
    | createReservation project attempt input => exact createReservation_effect hvalid hhandle
    | releaseReservation project reservation input => exact releaseReservation_effect hhandle
    | resolveReservation project reservation input => exact resolveReservation_effect hhandle
    | registerJob project attempt input => exact registerJob_effect hhandle
  | refused h => exact .idle
  | @reported _ auth req h =>
    simp only [ReporterRequest.serve, bind_eq_ok] at h
    obtain ⟨actor, -, -, -, hhandle⟩ := h
    cases req with
    | observe input => exact observe_effect hhandle
    | renew generation => exact renew_effect hhandle
  | unreported h => exact .idle
  | @service i s h jobs held => cases i <;> exact .idle
  | workstations => exact .idle
  | compact => exact .compacted
  | restore h => exact .restored

/-- What holds initially and is kept by every effect holds in every reachable state. -/
theorem JobService.Reachable.invariant {ok : JobService → JobAction → Prop} {I : JobService → Prop}
    (hinit : ∀ J, JobService.Initial J → I J) (hstep : ∀ J J', I J → Effect J J' → I J')
    {J : JobService} (h : J.Reachable ok) : I J := by
  obtain ⟨J₀, h₀, hrun⟩ := h
  exact hrun.invariant (fun J i J' hI _ hs => hstep J J' hI hs.effect) (hinit J₀ h₀)

/-! ### Which jobs are unfinished -/

section Unfinished

variable {J J' : JobService}

/-- The state of a job after an observation. -/
lemma stateOf_observed {reporter : Id} {p : ReportedJob} (input : ObservationInput) (now : Time)
    (observations : Table Observation) (hp : J.reports.jobs.get? reporter = some p)
    (j : Registration) :
    { J with reports := ⟨J.reports.jobs.put (p.observed input now), observations⟩ }.stateOf j
      = if j.reporter = reporter then input.state else J.stateOf j := by
  have hkey : Keyed.key (p.observed input now) = reporter := by
    change p.reporter = reporter
    exact Table.key_of_get? hp
  simp only [JobService.stateOf, Table.get?_put, hkey]
  by_cases hj : j.reporter = reporter
  · rw [if_pos hj, if_pos hj]
    rfl
  · rw [if_neg hj, if_neg hj]

/-- A reporter without a job yet stands for a job that is registered. -/
lemma stateOf_registered {reporter producer : Id} {reports : ReportDb}
    (h : AgentCoordinator.registerJob J.reports reporter producer = .ok reports)
    (j : Registration) : { J with reports }.stateOf j = J.stateOf j := by
  simp only [AgentCoordinator.registerJob, bind_eq_ok, okOr_eq_ok, pure_eq_ok] at h
  obtain ⟨jobs, hinsert, rfl⟩ := h
  obtain ⟨hfree, hget⟩ := Table.insert?_eq_some hinsert
  simp only [JobService.stateOf, hget]
  split_ifs with hkey
  · have hj : j.reporter = reporter := hkey
    change J.reports.jobs.get? reporter = none at hfree
    rw [hj, hfree]
    rfl
  · rfl

lemma get?_restoreReports {s : ReportDb} (k : Id) :
    (restoreReports s).jobs.get? k = (s.jobs.get? k).map fun p =>
      if p.state = .registered ∨ p.state = .running then forget p else p :=
  Table.get?_modify s.jobs _ forget (fun _ => rfl) k

lemma stateOf_restore (now : Time) (j : Registration) :
    Open ((J.restore now).stateOf j) ↔ Open (J.stateOf j) := by
  simp only [JobService.stateOf, JobService.restore, get?_restoreReports, Option.map_map]
  cases J.reports.jobs.get? j.reporter with
  | none => exact Iff.rfl
  | some p =>
    simp only [Option.map_some, Option.getD_some, Function.comp_apply]
    split_ifs with hp
    · rcases hp with hp | hp <;> simp [hp, Open, forget]
    · exact Iff.rfl

/-- An unfinished job was unfinished before, or was just registered under a held reservation. -/
lemma Effect.unfinished (h : Effect J J') {j : Registration} (hj : j ∈ J'.registrations)
    (hopen : J'.Unfinished j) :
    (j ∈ J.registrations ∧ J.Unfinished j) ∨
      ∃ v ∈ J.reservations, v ∈ J'.reservations ∧ v.id = j.reservation ∧ v.attempt = j.attempt ∧
        v.state = .held := by
  cases h with
  | idle | created | updated | deleted | reserved | released | compacted => exact .inl ⟨hj, hopen⟩
  | @resolved s reservation actor now input v row held =>
    have hmem : j ∈ J.registrations.modify (fun j => j.reservation = reservation ∧ J.Unfinished j)
        (Registration.reconcile now actor input) fun _ => rfl := hj
    obtain ⟨j₀, hj₀, rfl⟩ := Table.mem_modify.1 hmem
    split_ifs at hopen ⊢ with hp
    · exact absurd hopen.2 nofun
    · exact .inl ⟨hj₀, hopen⟩
  | @registered s registrations reports reporters j₁ v hjob _ hreport _ hv hheld hattempt =>
    have hmem : j ∈ J.registrations ∨ j = j₁ := by
      have hrows : j ∈ registrations.rows := hj
      rwa [Table.rows_of_insert? hjob, List.mem_append, List.mem_singleton] at hrows
    rcases hmem with hmem | rfl
    · exact .inl ⟨hmem, stateOf_registered hreport j ▸ hopen.1, hopen.2⟩
    · exact .inr ⟨v, Table.mem_of_get? hv, Table.mem_of_get? hv, Table.key_of_get? hv, hattempt,
        hheld⟩
  | @observed s observations reporter now input p hchecked hinsert =>
    refine .inl ⟨hj, ?_, hopen.2⟩
    have hstate := hopen.1
    have hobserved := stateOf_observed input now observations hchecked.job j
    by_cases hr : j.reporter = reporter
    · have hold : J.stateOf j = p.state := by
        simp only [JobService.stateOf, hr, hchecked.job, Option.map_some, Option.getD_some]
      exact hold ▸ hchecked.notEnded
    · rw [if_neg hr] at hobserved
      exact hobserved ▸ hstate
  | restored => exact .inl ⟨hj, (stateOf_restore _ j).1 hopen.1, hopen.2⟩

end Unfinished

/-! ### Replaying -/

deriving instance DecidableEq for Job

/-- A request that is let through, or a while in which nothing happens. -/
inductive JobHappening
  | request (auth : Auth) (req : JobRequest)
  | report (auth : ReporterAuth) (req : ReporterRequest)
  | service (auth : Auth) (req : Request)
  | wait (milliseconds : Nat)

/-- What happens, as an action. -/
def JobHappening.action : JobHappening → JobAction
  | .request auth req => .request auth req
  | .report auth req => .report auth req
  | .service auth req => .service (.request auth req)
  | .wait _ => .service .environment

/-- The tables after one happening. -/
def JobService.happen (J : JobService) : JobHappening → Option JobService
  | .request auth req => (req.serve J auth).toOption
  | .report auth req => (req.serve J auth).toOption
  | .service auth req =>
    ((AgentCoordinator.serve J.db auth req).toOption.filter fun s =>
      s.ext.jobs.rows = J.db.ext.jobs.rows ∧
        s.ext.heldReservations = J.db.ext.heldReservations).map fun s => { J with service := s }
  | .wait ms => some { J with service := { J.db with now := J.db.now + ms } }

/-- The tables after a list of happenings. -/
def JobService.replay (J : JobService) : List JobHappening → Option JobService
  | [] => some J
  | h :: rest => (J.happen h).bind fun J => J.replay rest

lemma JobService.happen_step {J J' : JobService} {h : JobHappening} (hs : J.happen h = some J') :
    JobStep J h.action J' := by
  cases h with
  | request auth req => exact .accepted (toOption_eq_some.1 hs)
  | report auth req => exact .reported (toOption_eq_some.1 hs)
  | service auth req =>
    simp only [JobService.happen, Option.map_eq_some_iff, Option.filter_eq_some_iff,
      decide_eq_true_eq] at hs
    obtain ⟨s, ⟨hserve, hrows, hheld⟩, rfl⟩ := hs
    have hjobs : s.ext.jobs = J.db.ext.jobs := by
      cases hx : s.ext.jobs with
      | mk rows nodup => simp only [hx] at hrows; subst hrows; rfl
    exact .service (.accepted (toOption_eq_some.1 hserve)) hjobs hheld
  | wait ms =>
    obtain rfl := Option.some.inj hs
    exact .service (.environment (environment_wait J.db ms)) rfl rfl

/-- A replay of happenings that are allowed is a run. -/
lemma JobService.replay_run {ok : JobService → JobAction → Prop} {J J' : JobService}
    {l : List JobHappening} (hok : ∀ h ∈ l, ∀ J, ok J h.action) (h : J.replay l = some J') :
    Run JobStep ok J J' := by
  induction l generalizing J with
  | nil =>
    obtain rfl := Option.some.inj h
    exact .refl J
  | cons x rest ih =>
    simp only [JobService.replay, Option.bind_eq_some_iff] at h
    obtain ⟨J₁, hJ₁, hrest⟩ := h
    have hone : Run JobStep ok J J₁ := .single (hok x List.mem_cons_self J) (J.happen_step hJ₁)
    exact hone.trans (ih (fun y hy => hok y (List.mem_cons_of_mem x hy)) hrest)

/-! ### A workstation -/

namespace Workshop

open Scenario

/-- A service whose first agent works at a desk with its checkout. -/
def empty : JobService where
  service := Scenario.service .agent
  resources := .empty
  reservations := .empty
  registrations := .empty
  reporters := .empty
  reports := ⟨.empty, .empty⟩
  checkoutWorkstations := [(1, "desk")]
  sessionWorkstations := [(2, "desk")]

def proof : String := "aaaaaaaaaaaaaaaaaaaaaaaaaaaaaaaaaaaaaaaaaaaaaaaaaaaaaaaaaaaaaaaa"

/-- A build under the first reservation, which may extend the lease for some seconds. -/
def build (renewForSeconds : Int) : JobInput where
  generation := 1
  job := 1
  producer := 1
  runnerInstance := 1
  workstation := "desk"
  label := "build"
  sourceRevision := base
  sourceTree := base
  checkIdentity := none
  checkVersion := none
  checkEnvironment := none
  reservation := 1
  reporter := 1
  reporterProof := proof
  renewForSeconds := renewForSeconds

/-- The agent claims a task, reserves all of a resource and launches its build. -/
def launches : List JobHappening :=
  [.service (agent 2) (.claim 1 ⟨.work, some 1, some 1, 1, instructionVersion⟩),
    .request operator (.createResource ⟨"gpu", 2, ""⟩),
    .request (agent 2) (.createReservation 1 1 ⟨1, [⟨1, 2⟩]⟩),
    .request (agent 2) (.registerJob 1 1 (build 1200))]

lemma empty_initial : JobService.Initial empty where
  service :=
    { service_initial .agent with }
  resources := rfl
  reservations := rfl
  registrations := rfl
  reporters := rfl
  reports := rfl

lemma reachable_of_replay {J : JobService} {l : List JobHappening} (h : empty.replay l = some J) :
    J.Reachable anyJobStep :=
  ⟨empty, empty_initial, JobService.replay_run (fun _ _ _ => trivial) h⟩

end Workshop

end Jobs

end AgentCoordinator
