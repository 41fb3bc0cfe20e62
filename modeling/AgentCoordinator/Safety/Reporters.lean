import AgentCoordinator.Refinement.Jobs
import AgentCoordinator.Refinement.Leases
import AgentCoordinator.Safety.Ownership

/-
Reporters extend leases without owning anything.

A reporter outlives the session that registered its job, and it may extend the lease of the job's
attempt for a while. It does so as the owner would: only while the attempt is valid. So ownership
stays with one session at a time whatever reporters do, and once a session falls silent its lease
ends by the last moment that it granted to one of its reporters.
-/

namespace AgentCoordinator

open Guarded Tabular Maps Transition Fencing

/-! ### The database under jobs -/

/-- What one step of the service with its jobs does to the database: a step of the service, or a
write of attempts that ends or extends them. -/
inductive Db.Happens (s : Db) : Db → Prop
  | step {s' : Db} {i : Action} (h : Step s i s') (spares : sparesOwners s i) : Happens s s'
  | attempts {t : Table Attempt} (h : Related (SameAttempt s.now) s.attempts.get? t.get?) :
      Happens s { s with attempts := t }

/-- What every step of the service keeps. -/
structure Db.Kept (s : Db) : Prop where
  coherent : Board.Coherent s.board
  sound : s.Sound
  quiet : s.PausedQuiet

section Happens

variable {s s' : Db}

lemma Db.Kept.happens (h : s.Kept) (hs : s.Happens s') : s'.Kept := by
  cases hs with
  | step hstep hspares =>
    exact ⟨hstep.coherent h.coherent,
      Ledger.Sound.steps h.sound (hstep.steps h.sound h.coherent hspares),
      hstep.pausedQuiet h.sound h.coherent hspares h.quiet⟩
  | attempts hsame =>
    refine ⟨h.coherent, h.sound.settles (.of_attempts hsame), fun hpaused id a' ha' => ?_⟩
    obtain ⟨a, ha, hsame'⟩ := hsame.old id a' ha'
    exact fun hactive => h.quiet hpaused id a ha (hsame'.active hactive)

lemma Db.Kept.happened (h : s.Kept) (hs : Relation.ReflTransGen Db.Happens s s') : s'.Kept := by
  induction hs with
  | refl => exact h
  | tail _ hone ih => exact ih.happens hone

/-- An attempt that is not valid does not become valid. -/
lemma Db.Happens.invalid (h : s.Kept) (hs : s.Happens s') {id : Id}
    (hexists : s.attempts.get? id ≠ none) (hinvalid : ¬ s.Valid id) :
    s'.attempts.get? id ≠ none ∧ ¬ s'.Valid id := by
  cases hs with
  | step hstep hspares =>
    exact hstep.invalid h.sound h.coherent h.quiet hspares hexists hinvalid
  | @attempts t hsame =>
    refine ⟨fun hnone => hexists (hsame.eq_none.1 hnone), ?_⟩
    rintro ⟨a', task, ha', hactive, hexp, htask, hcurrent⟩
    obtain ⟨a, ha, hsame'⟩ := hsame.old id a' ha'
    refine hinvalid ⟨a, task, ha, hsame'.active hactive, ?_, hsame'.task ▸ htask, hcurrent⟩
    rcases hsame'.expires with heq | hlt
    · exact heq ▸ hexp
    · exact hlt

lemma Db.happened_invalid (h : s.Kept) (hs : Relation.ReflTransGen Db.Happens s s') {id : Id}
    (hexists : s.attempts.get? id ≠ none) (hinvalid : ¬ s.Valid id) :
    s'.attempts.get? id ≠ none ∧ ¬ s'.Valid id := by
  induction hs with
  | refl => exact ⟨hexists, hinvalid⟩
  | tail hrun hone ih => exact hone.invalid (h.happened hrun) ih.1 ih.2

end Happens

namespace Jobs

/-- A reconciliation by an agent spares the owner of the integration. -/
def ownersSpared (J : JobService) : JobAction → Prop
  | .service i => sparesOwners J.db i
  | _ => True

section Steps

variable {J J' : JobService} {actor : Actor} {i : JobAction}

/-- What the handlers of jobs write is no concern of the coordination service. -/
lemma environment_of_service {events : List Event}
    (h : J'.service = { J.service with events := events }) : Environment J.db J'.db where
  now := by simp only [JobService.db, h]; exact le_rfl
  clockIncident := by simp only [JobService.db, h]
  attempts := by simp only [JobService.db, h]
  submissions := by simp only [JobService.db, h]
  workflowSubjects := by simp only [JobService.db, h]
  workflowActivities := by simp only [JobService.db, h]
  reviewDecisions := by simp only [JobService.db, h]
  integrationHolds := by simp only [JobService.db, h]
  publicationIntents := by simp only [JobService.db, h]
  integrationResults := by simp only [JobService.db, h]
  publicationReconciliations := by simp only [JobService.db, h]
  projects id p hp := by simp only [JobService.db, h]; exact ⟨p, hp, rfl⟩
  tasks id t ht := by
    simp only [JobService.db, h]
    exact ⟨t, ht, rfl, rfl, rfl, fun _ => ⟨rfl, rfl⟩⟩
  newTasks id t' hnone ht' := by
    simp only [JobService.db, h] at ht'
    exact absurd (hnone.symm.trans ht') (by simp)
  principals id p hp := by simp only [JobService.db, h]; exact ⟨p, hp, rfl⟩
  reverts id ws _ _ mode := by simp only [JobService.db, h]; rfl

/-- The handlers of jobs append an event. -/
lemma JobRequest.handle_service {req : JobRequest} (h : req.handle J actor = .ok J') :
    ∃ kind record, J'.service = J.service.finish actor kind record := by
  cases req with
  | createResource =>
    simp only [JobRequest.handle, Jobs.createResource, bind_eq_ok, pure_eq_ok] at h
    obtain ⟨-, -, -, -, rfl⟩ := h
    exact ⟨_, _, rfl⟩
  | updateResource =>
    simp only [JobRequest.handle, Jobs.updateResource, bind_eq_ok, pure_eq_ok] at h
    obtain ⟨-, -, -, -, -, -, -, -, rfl⟩ := h
    exact ⟨_, _, rfl⟩
  | deleteResource =>
    simp only [JobRequest.handle, Jobs.deleteResource, bind_eq_ok, pure_eq_ok] at h
    obtain ⟨-, -, -, -, -, -, rfl⟩ := h
    exact ⟨_, _, rfl⟩
  | createReservation =>
    simp only [JobRequest.handle, Jobs.createReservation, bind_eq_ok, pure_eq_ok] at h
    obtain ⟨-, -, -, -, -, -, -, -, -, -, rfl⟩ := h
    exact ⟨_, _, rfl⟩
  | releaseReservation =>
    simp only [JobRequest.handle, Jobs.releaseReservation, bind_eq_ok, pure_eq_ok] at h
    obtain ⟨-, -, -, -, -, -, -, -, -, -, -, -, -, rfl⟩ := h
    exact ⟨_, _, rfl⟩
  | resolveReservation =>
    simp only [JobRequest.handle, Jobs.resolveReservation, bind_eq_ok, pure_eq_ok] at h
    obtain ⟨-, -, -, -, -, -, rfl⟩ := h
    exact ⟨_, _, rfl⟩
  | registerJob =>
    simp only [JobRequest.handle, Jobs.registerJob, bind_eq_ok, pure_eq_ok] at h
    obtain ⟨-, -, -, -, -, -, -, -, -, -, -, -, -, -, -, -, -, -, -, -, rfl⟩ := h
    exact ⟨_, _, rfl⟩

/-- What `renew` does: it extends the lease of a valid attempt of the reporter's own session. -/
lemma renew_ok {reporter : Id} {generation : Int} (h : renew J actor reporter generation = .ok J') :
    ∃ r j a expires, J.reporters.get? reporter = some r ∧ J.registrations.get? r.job = some j ∧
      J.db.Owns actor j.project j.attempt a ∧ expires ≤ max a.expiresAt r.renewUntil ∧
      a.expiresAt ≤ expires ∧
      J' = { J with
        service := { J.service with
          attempts := J.service.attempts.modify (fun a => a.id = j.attempt)
            (fun a => { a with expiresAt := expires, lastHeartbeatAt := J.db.now }) } }.finish
              actor "attempt.reporter_renewed" j.attempt := by
  simp only [renew, JobService.reporterJob, cappedRenewal, bind_eq_ok, okOr_eq_ok, refuseIf_eq_ok,
    pure_eq_ok] at h
  obtain ⟨x, ⟨r, hr, j, hj, a₀, -, rfl⟩, -, -, -, -, a, hown, proj, -, extension, ⟨-, -, hext⟩,
    rfl⟩ := h
  refine ⟨r, j, a, _, hr, hj, owned_ok hown, ?_, le_max_left _ _, rfl⟩
  rw [← hext]
  exact max_le_max le_rfl ((min_le_left _ _).trans (min_le_right _ _))

/-- The handlers of reporters' requests. -/
lemma ReporterRequest.handle_happened {req : ReporterRequest} {reporter : Id}
    (h : req.handle J actor reporter = .ok J') :
    Relation.ReflTransGen Db.Happens J.db J'.db := by
  cases req with
  | observe input =>
    simp only [ReporterRequest.handle, Jobs.observe, bind_eq_ok, pure_eq_ok] at h
    obtain ⟨x, -, accepted, -, reports, -, rfl⟩ := h
    exact .single (.step (.environment (environment_of_service rfl)) trivial)
  | renew generation =>
    obtain ⟨r, j, a, expires, -, -, hown, -, -, rfl⟩ := renew_ok h
    have hsame : Related (SameAttempt J.db.now) J.db.attempts.get?
        (J.db.attempts.modify (fun a => a.id = j.attempt)
          (fun a => { a with expiresAt := expires, lastHeartbeatAt := J.db.now })).get? :=
      Table.related_modify .refl fun a' ha' hid => by
        obtain rfl := Table.eq_of_get? hown.attempt ha' hid
        exact ⟨rfl, rfl, ⟨rfl, rfl, rfl⟩, fun h => h, .inr hown.unexpired⟩
    -- the lease is extended, then the event is recorded
    refine (Relation.ReflTransGen.single (.attempts hsame)).tail
      (.step (i := .environment) (.environment ?_) trivial)
    exact environment_of_service (J := { J with
      service := { J.service with
        attempts := J.service.attempts.modify (fun a => a.id = j.attempt)
          (fun a => { a with expiresAt := expires, lastHeartbeatAt := J.db.now }) } }) rfl

/-- A step of the service leaves jobs and reservations as they are. -/
lemma db_afterStep {s : Db} {i : Action} (jobs : s.ext.jobs = J.db.ext.jobs)
    (held : s.ext.heldReservations = J.db.ext.heldReservations) : (J.afterStep i s).db = s := by
  have hdb : (J.afterStep i s).db
      = { s with ext := { s.ext with
          jobs := J.db.ext.jobs, heldReservations := J.db.ext.heldReservations } } := by
    cases i <;> rfl
  rw [hdb, ← jobs, ← held]

/-- A restore ends every attempt, and for the rest it is like any other thing that happens. -/
lemma restore_happened {now : Time} (hnow : J.db.now ≤ now) :
    Relation.ReflTransGen Db.Happens J.db (J.restore now).db := by
  have hsame : Related (SameAttempt J.db.now) J.db.attempts.get?
      (J.restore now).db.attempts.get? := by
    simp only [JobService.restore, JobService.db, restoreAuthority]
    exact Table.related_modify .refl fun _ _ _ =>
      ⟨rfl, rfl, ⟨rfl, rfl, rfl⟩, fun ha => absurd ha (by simp), .inl rfl⟩
  refine (Relation.ReflTransGen.single (.attempts hsame)).tail
    (.step (i := .environment) (.environment ?_) trivial)
  exact
    { now := hnow
      clockIncident := rfl
      attempts := rfl
      submissions := rfl
      workflowSubjects := rfl
      workflowActivities := rfl
      reviewDecisions := rfl
      integrationHolds := rfl
      publicationIntents := rfl
      integrationResults := rfl
      publicationReconciliations := rfl
      projects := fun id p hp => ⟨p, hp, rfl⟩
      tasks := fun id t ht => ⟨t, ht, rfl, rfl, rfl, fun _ => ⟨rfl, rfl⟩⟩
      newTasks := fun id t' hnone ht' => absurd (hnone.symm.trans ht') (by simp)
      principals := fun id p hp => by
        simp only [JobService.restore, JobService.db, restoreAuthority, Table.get?_modify]
        refine ⟨_, congrArg (Option.map _) hp, ?_⟩
        beta_reduce
        split_ifs <;> rfl
      reverts := fun id ws _ _ mode => rfl }

/-- What a step does to the database. -/
theorem JobStep.happened (h : JobStep J i J') (hspared : ownersSpared J i) :
    Relation.ReflTransGen Db.Happens J.db J'.db := by
  cases h with
  | accepted h =>
    simp only [JobRequest.serve, bind_eq_ok] at h
    obtain ⟨-, -, actor, -, hhandle⟩ := h
    obtain ⟨kind, record, hservice⟩ := JobRequest.handle_service hhandle
    exact .single (.step (.environment (environment_of_service hservice)) trivial)
  | refused => exact .refl
  | reported h =>
    simp only [ReporterRequest.serve, bind_eq_ok] at h
    obtain ⟨actor, -, -, -, hhandle⟩ := h
    exact ReporterRequest.handle_happened hhandle
  | unreported => exact .refl
  | service h jobs held =>
    rw [db_afterStep jobs held]
    exact .single (.step h hspared)
  | workstations => exact .refl
  | compact => exact .single (.step (.environment (environment_of_service rfl)) trivial)
  | restore hnow => exact restore_happened hnow

/-- What every step keeps, in every reachable state. -/
lemma JobService.Reachable.kept (h : J.Reachable ownersSpared) : J.db.Kept := by
  obtain ⟨J₀, h₀, hrun⟩ := h
  refine hrun.invariant (I := fun J => J.db.Kept)
    (fun J i J' hJ hok hstep => hJ.happened (hstep.happened hok)) ⟨?_, ?_, ?_⟩
  · exact h₀.service.coherent
  · exact h₀.service.sound
  · intro _ id a ha
    simp [h₀.service.attempts] at ha

/-! ### Which reporters there are -/

/-- The same reporter, whose authority may have been cut short. -/
structure Reporter.Narrowed (r r' : Reporter) : Prop where
  job : r'.job = r.job
  createdAt : r'.createdAt = r.createdAt
  renewUntil : r'.renewUntil ≤ r.renewUntil

lemma Reporter.Narrowed.refl (r : Reporter) : r.Narrowed r := ⟨rfl, rfl, le_rfl⟩

/-- No reporter is new, and the jobs are still those of the same attempts. -/
structure SameReporters (J J' : JobService) : Prop where
  reporters : ∀ r' ∈ J'.reporters, ∃ r ∈ J.reporters, r.Narrowed r'
  registrations : ∀ j' ∈ J'.registrations, ∃ j ∈ J.registrations,
    j.id = j'.id ∧ j.attempt = j'.attempt

lemma SameReporters.of_eq (hreporters : J'.reporters = J.reporters)
    (hregistrations : J'.registrations = J.registrations) : SameReporters J J' where
  reporters r hr := ⟨r, hreporters ▸ hr, .refl r⟩
  registrations j hj := ⟨j, hregistrations ▸ hj, rfl, rfl⟩

lemma SameReporters.expire {now : Time} (hreporters : J'.reporters
      = J.reporters.modify (fun _ => True) (Reporter.expire now))
    (hregistrations : J'.registrations = J.registrations) : SameReporters J J' where
  reporters r' hr' := by
    rw [hreporters] at hr'
    obtain ⟨r, hr, rfl⟩ := Table.mem_modify.1 hr'
    exact ⟨r, hr, rfl, rfl, min_le_left _ _⟩
  registrations j hj := ⟨j, hregistrations ▸ hj, rfl, rfl⟩

/-- A new reporter, for a new job of an attempt that the caller owns. -/
structure NewReporter (J : JobService) (actor : Actor) (J' : JobService) : Prop where
  row : ∃ r j a, J.reporters.insert? r = some J'.reporters ∧
    J.registrations.insert? j = some J'.registrations ∧ r.job = j.id ∧
    J.db.attempts.get? j.attempt = some a ∧ some a.session = actor.session ∧
    r.renewUntil ≤ r.createdAt + 3600000

lemma registerJob_reporters {project attempt : Id} {input : JobInput}
    (hvalid : input.validate = .ok ()) (h : registerJob J actor project attempt input = .ok J') :
    NewReporter J actor J' := by
  simp only [JobInput.validate, bind_eq_ok, refuseIf_eq_ok, not_or, not_not] at hvalid
  obtain ⟨-, -, -, -, -, -, -, -, -, -, -, -, -, hrenew⟩ := hvalid
  simp only [registerJob, bind_eq_ok, okOr_eq_ok, refuseIf_eq_ok, pure_eq_ok] at h
  obtain ⟨a, hown, -, -, -, -, -, -, -, -, -, -, credential, -, registrations, hjob, reports, -,
    reporters, hreporter, rfl⟩ := h
  have hown := owned_ok hown
  refine ⟨_, _, a, hreporter, hjob, rfl, hown.attempt, hown.owner.2.1, ?_⟩
  have hwindow : input.renewForSeconds * 1000 ≤ 3600000 := by omega
  exact Int.add_le_add_left hwindow J.db.now

/-- The reporters after a step. -/
lemma JobStep.reporters (h : JobStep J i J') :
    SameReporters J J' ∨ ∃ auth req, i = .request auth req ∧
      ∃ actor, auth.verify J.db.ext J.db.now = .ok actor ∧ NewReporter J actor J' := by
  cases h with
  | @accepted _ auth req h =>
    simp only [JobRequest.serve, bind_eq_ok] at h
    obtain ⟨_, hvalid, actor, hbegin, hhandle⟩ := h
    cases req with
    | registerJob project attempt input =>
      simp only [JobRequest.begin, bind_eq_ok, pure_eq_ok] at hbegin
      obtain ⟨actor', hverify, -, -, -, -, -, -, rfl⟩ := hbegin
      exact .inr ⟨auth, _, rfl, actor', hverify, registerJob_reporters hvalid hhandle⟩
    | resolveReservation project reservation input =>
      simp only [JobRequest.handle, Jobs.resolveReservation, bind_eq_ok, pure_eq_ok] at hhandle
      obtain ⟨-, -, -, -, -, -, rfl⟩ := hhandle
      refine .inl ⟨fun r hr => ⟨r, hr, .refl r⟩, fun j' hj' => ?_⟩
      have hmem : j' ∈ J.registrations.modify
          (fun j => j.reservation = reservation ∧ J.Unfinished j)
          (Registration.reconcile J.db.now actor.id input) fun _ => rfl := hj'
      obtain ⟨j, hj, rfl⟩ := Table.mem_modify.1 hmem
      exact ⟨j, hj, by split_ifs <;> rfl, by split_ifs <;> rfl⟩
    | createResource =>
      simp only [JobRequest.handle, Jobs.createResource, bind_eq_ok, pure_eq_ok] at hhandle
      obtain ⟨-, -, -, -, rfl⟩ := hhandle
      exact .inl (.of_eq rfl rfl)
    | updateResource =>
      simp only [JobRequest.handle, Jobs.updateResource, bind_eq_ok, pure_eq_ok] at hhandle
      obtain ⟨-, -, -, -, -, -, -, -, rfl⟩ := hhandle
      exact .inl (.of_eq rfl rfl)
    | deleteResource =>
      simp only [JobRequest.handle, Jobs.deleteResource, bind_eq_ok, pure_eq_ok] at hhandle
      obtain ⟨-, -, -, -, -, -, rfl⟩ := hhandle
      exact .inl (.of_eq rfl rfl)
    | createReservation =>
      simp only [JobRequest.handle, Jobs.createReservation, bind_eq_ok, pure_eq_ok] at hhandle
      obtain ⟨-, -, -, -, -, -, -, -, -, -, rfl⟩ := hhandle
      exact .inl (.of_eq rfl rfl)
    | releaseReservation =>
      simp only [JobRequest.handle, Jobs.releaseReservation, bind_eq_ok, pure_eq_ok] at hhandle
      obtain ⟨-, -, -, -, -, -, -, -, -, -, -, -, -, rfl⟩ := hhandle
      exact .inl (.of_eq rfl rfl)
  | refused => exact .inl (.of_eq rfl rfl)
  | @reported _ auth req h =>
    simp only [ReporterRequest.serve, bind_eq_ok] at h
    obtain ⟨actor, -, -, -, hhandle⟩ := h
    cases req with
    | observe input =>
      simp only [ReporterRequest.handle, Jobs.observe, bind_eq_ok, pure_eq_ok] at hhandle
      obtain ⟨x, -, accepted, -, reports, -, rfl⟩ := hhandle
      exact .inl (.of_eq rfl rfl)
    | renew generation =>
      obtain ⟨r, j, a, expires, -, -, -, -, -, rfl⟩ := renew_ok hhandle
      exact .inl (.of_eq rfl rfl)
  | unreported => exact .inl (.of_eq rfl rfl)
  | @service i s h jobs held =>
    cases i with
    | clockRollback now => exact .inl (.expire rfl rfl)
    | _ => exact .inl (.of_eq rfl rfl)
  | workstations => exact .inl (.of_eq rfl rfl)
  | compact => exact .inl (.of_eq rfl rfl)
  | restore => exact .inl (.expire rfl rfl)

/-! ### A session that has fallen silent -/

/-- The session asks for nothing itself. -/
def silent (session : Id) (J : JobService) : JobAction → Prop
  | .request auth _ =>
    ∀ actor, auth.verify J.db.ext J.db.now = .ok actor → actor.session ≠ some session
  | .service i => silentStep session J.db i
  | _ => True

/-- The lease of the session's attempt, and whatever its reporters may make of it, ends by the
deadline. -/
structure Covered (deadline : Time) (id session : Id) (J : JobService) : Prop where
  lease : ∃ expires ≤ deadline, J.db.leases id = some (expires, session)
  reporters : ∀ r ∈ J.reporters, ∀ j ∈ J.registrations, r.job = j.id → j.attempt = id →
    r.renewUntil ≤ deadline

variable {deadline : Time} {id session : Id}

/-- Without new reporters the window of reporters stays. -/
lemma SameReporters.window (h : SameReporters J J') (hc : Covered deadline id session J) :
    ∀ r ∈ J'.reporters, ∀ j ∈ J'.registrations, r.job = j.id → j.attempt = id →
      r.renewUntil ≤ deadline := by
  intro r' hr' j' hj' hjob hattempt
  obtain ⟨r, hr, hnarrowed⟩ := h.reporters r' hr'
  obtain ⟨j, hj, hid, hat⟩ := h.registrations j' hj'
  exact hnarrowed.renewUntil.trans (hc.reporters r hr j hj
    (hnarrowed.job.symm.trans (hjob.trans hid.symm)) (hat.trans hattempt))

/-- A reporter that another session registers is for another attempt. -/
lemma NewReporter.window (h : NewReporter J actor J') (hother : actor.session ≠ some session)
    (hc : Covered deadline id session J) :
    ∀ r ∈ J'.reporters, ∀ j ∈ J'.registrations, r.job = j.id → j.attempt = id →
      r.renewUntil ≤ deadline := by
  obtain ⟨r₁, j₁, a, hr₁, hj₁, hjob₁, ha, hsession, -⟩ := h.row
  obtain ⟨hfree, hget⟩ := Table.insert?_eq_some hj₁
  have hnew : j₁.attempt ≠ id := by
    rintro rfl
    obtain ⟨expires, -, hlease⟩ := hc.lease
    obtain ⟨a', ha', hl⟩ := Table.project_eq_some.1 hlease
    obtain rfl := Option.some.inj (ha.symm.trans ha')
    exact hother (hsession.symm.trans (congrArg (fun l => some (Prod.snd l)) hl))
  intro r hr j hj hjob hattempt
  have hj' : j ∈ J.registrations ∨ j = j₁ := by
    have hrows : j ∈ J'.registrations.rows := hj
    rwa [Table.rows_of_insert? hj₁, List.mem_append, List.mem_singleton] at hrows
  have hr' : r ∈ J.reporters ∨ r = r₁ := by
    have hrows : r ∈ J'.reporters.rows := hr
    rwa [Table.rows_of_insert? hr₁, List.mem_append, List.mem_singleton] at hrows
  rcases hj' with hj' | rfl
  · rcases hr' with hr' | rfl
    · exact hc.reporters r hr' j hj' hjob hattempt
    · -- the job of the new reporter did not exist
      have hkey := Table.get?_of_mem hj'
      have hsame := congrArg J.registrations.get? (hjob₁.symm.trans hjob)
      exact absurd (hsame.trans hkey ▸ hfree) nofun
  · exact absurd hattempt hnew

/-- A step in which the session is silent keeps the lease within the deadline. -/
lemma JobStep.lease (h : JobStep J i J') (hsilent : silent session J i)
    (hc : Covered deadline id session J) :
    ∃ expires ≤ deadline, J'.db.leases id = some (expires, session) := by
  obtain ⟨expires, hle, hl⟩ := hc.lease
  cases h with
  | accepted h =>
    simp only [JobRequest.serve, bind_eq_ok] at h
    obtain ⟨-, -, actor, -, hhandle⟩ := h
    obtain ⟨kind, record, hservice⟩ := JobRequest.handle_service hhandle
    refine ⟨expires, hle, ?_⟩
    have hsame : J'.db.leases = J.db.leases := by
      simp only [Db.leases, JobService.db, hservice, Db.finish]
    rw [hsame, hl]
  | refused => exact ⟨expires, hle, hl⟩
  | @reported _ auth req h =>
    simp only [ReporterRequest.serve, bind_eq_ok] at h
    obtain ⟨actor, -, -, -, hhandle⟩ := h
    cases req with
    | observe input =>
      simp only [ReporterRequest.handle, Jobs.observe, bind_eq_ok, pure_eq_ok] at hhandle
      obtain ⟨x, -, accepted, -, reports, -, rfl⟩ := hhandle
      exact ⟨expires, hle, hl⟩
    | renew generation =>
      obtain ⟨r, j, a, extended, hr, hj, hown, hextended, -, rfl⟩ := renew_ok hhandle
      obtain ⟨a', ha', hlease⟩ := Table.project_eq_some.1 hl
      by_cases hk : j.attempt = id
      · rw [← hk, hown.attempt] at ha'
        obtain rfl := Option.some.inj ha'
        have hexpires : a.expiresAt = expires := congrArg Prod.fst hlease
        have hwindow := hc.reporters r (Table.mem_of_get? hr) j (Table.mem_of_get? hj)
          (Table.key_of_get? hj).symm hk
        refine ⟨extended, hextended.trans (max_le (hexpires ▸ hle) hwindow), ?_⟩
        refine Table.project_eq_some.2
          ⟨{ a with expiresAt := extended, lastHeartbeatAt := J.db.now }, ?_,
            congrArg (fun l => (extended, Prod.snd l)) hlease⟩
        simp only [JobService.db, JobService.finish, Db.finish, Table.get?_modify]
        rw [← hk, show J.service.attempts.get? j.attempt = some a from hown.attempt,
          Option.map_some, if_pos (show a.id = j.attempt from Table.key_of_get? hown.attempt)]
      · refine ⟨expires, hle, Table.project_eq_some.2 ⟨a', ?_, hlease⟩⟩
        simp only [JobService.db, JobService.finish, Db.finish, Table.get?_modify]
        have hid : a'.id = id := Table.key_of_get? ha'
        rw [show J.service.attempts.get? id = some a' from ha', Option.map_some,
          if_neg fun heq => hk (heq.symm.trans hid)]
  | unreported => exact ⟨expires, hle, hl⟩
  | @service i s h jobs held =>
    rw [db_afterStep jobs held]
    exact ⟨expires, hle, h.leases hl hsilent⟩
  | workstations => exact ⟨expires, hle, hl⟩
  | compact => exact ⟨expires, hle, hl⟩
  | @restore now =>
    have hsame : (J.restore now).db.leases = J.db.leases := by
      simp only [Db.leases, JobService.restore, JobService.db, restoreAuthority]
      exact Table.project_modify_of_same fun _ _ _ => rfl
    exact ⟨expires, hle, (congrFun hsame id).trans hl⟩

lemma Covered.step (hc : Covered deadline id session J) (h : JobStep J i J')
    (hsilent : silent session J i) : Covered deadline id session J' where
  lease := h.lease hsilent hc
  reporters := by
    rcases h.reporters with hsame | ⟨auth, req, rfl, actor, hverify, hnew⟩
    · exact hsame.window hc
    · exact hnew.window (hsilent actor hverify) hc

end Steps

/-! ### Ownership beside reporters -/

/-- A reporter may extend leases for an hour after it was registered, at most. -/
lemma JobService.Reachable.renewUntil {J : JobService} {ok : JobService → JobAction → Prop}
    (h : J.Reachable ok) : ∀ r ∈ J.reporters, r.renewUntil ≤ r.createdAt + 3600000 := by
  obtain ⟨J₀, h₀, hrun⟩ := h
  refine hrun.invariant
    (I := fun J => ∀ r ∈ J.reporters, r.renewUntil ≤ r.createdAt + 3600000) ?_ ?_
  · intro J i J' hJ _ hstep r' hr'
    rcases hstep.reporters with hsame | ⟨_, _, _, _, _, hnew⟩
    · obtain ⟨r, hr, hnarrowed⟩ := hsame.reporters r' hr'
      exact hnarrowed.createdAt ▸ hnarrowed.renewUntil.trans (hJ r hr)
    · obtain ⟨r, -, -, hr, -, -, -, -, hwindow⟩ := hnew.row
      have hrows : r' ∈ J'.reporters.rows := hr'
      rw [Table.rows_of_insert? hr, List.mem_append, List.mem_singleton] at hrows
      rcases hrows with hold | rfl
      · exact hJ r' hold
      · exact hwindow
  · rw [h₀.reporters]
    exact fun r hr => absurd hr (Table.not_mem_empty r)

/-- With reporters renewing leases, a task still has a single live owner, and who has lost
ownership never gets it back. A reporter renews for an hour at most; and once the session of an
attempt falls silent, the attempt is valid only until its lease ends and its reporters may no
longer renew, whatever everybody else asks for. -/
theorem leases_end {J : JobService} (h : J.Reachable ownersSpared) :
    J.db.SingleOwner ∧
    (∀ r ∈ J.reporters, r.renewUntil ≤ r.createdAt + 3600000) ∧
    (∀ J', Run JobStep ownersSpared J J' → ∀ id, J.db.attempts.get? id ≠ none →
      ¬ J.db.Valid id → ∀ actor task, ¬ J'.db.Passes actor task id) ∧
    ∀ id a deadline, J.db.attempts.get? id = some a → a.expiresAt ≤ deadline →
      (∀ r ∈ J.reporters, ∀ j ∈ J.registrations, r.job = j.id → j.attempt = id →
        r.renewUntil ≤ deadline) →
      ∀ J', Run JobStep (silent a.session) J J' → J'.db.Valid id → J'.db.now < deadline := by
  refine ⟨h.kept.sound.singleOwner, h.renewUntil,
    fun J' hrun id hexists hinvalid actor task hp => ?_,
    fun id a deadline ha hle hwindow J' hrun hvalid => ?_⟩
  · have hall : J'.db.Kept ∧ J'.db.attempts.get? id ≠ none ∧ ¬ J'.db.Valid id := by
      refine hrun.invariant (I := fun J => J.db.Kept ∧ J.db.attempts.get? id ≠ none ∧
        ¬ J.db.Valid id) (fun J i J' hJ hok hstep => ?_) ⟨h.kept, hexists, hinvalid⟩
      have hhappened := hstep.happened hok
      exact ⟨hJ.1.happened hhappened, Db.happened_invalid hJ.1 hhappened hJ.2.1 hJ.2.2⟩
    exact hall.2.2 (hp.valid hall.1.sound)
  · have hcovered : Covered deadline id a.session J' := by
      refine hrun.invariant (I := Covered deadline id a.session)
        (fun J i J' hJ hok hstep => ?_) ⟨⟨a.expiresAt, hle, Table.project_of_get? ha⟩, hwindow⟩
      exact hJ.step hstep hok
    obtain ⟨expires, hend, hl⟩ := hcovered.lease
    obtain ⟨a', -, ha', -, hexp, -⟩ := hvalid
    rw [Db.leases, Table.project_of_get? ha'] at hl
    have hexpires : a'.expiresAt = expires := congrArg Prod.fst (Option.some.inj hl)
    exact hexp.trans_le (hexpires ▸ hend)

/-- The session falls silent once its build is launched. The build's reporter keeps the attempt
valid for longer than the lease it had, but not past the window it was registered with. -/
theorem leases_end_build :
    ∃ J J' : JobService, J.db.attempts.get? 1 ≠ none ∧ Run JobStep (silent 2) J J' ∧
      (J'.db.attempts.get? 1).any (fun a => 601000 < J'.db.now ∧ J'.db.now < a.expiresAt) = true ∧
      ∀ J', Run JobStep (silent 2) J J' → J'.db.Valid 1 → J'.db.now < 1201000 := by
  obtain ⟨J, hJ, hp⟩ := exists_of_any
    (show (Workshop.empty.replay Workshop.launches).any (fun J =>
        (J.db.attempts.get? 1).any (fun a => a.expiresAt ≤ 1201000 ∧ a.session = 2) ∧
        (∀ r ∈ J.reporters, ∀ j ∈ J.registrations, r.job = j.id → j.attempt = 1 →
          r.renewUntil ≤ 1201000) ∧
        (J.replay [.wait 500000, .report ⟨1, Workshop.proof⟩ (.renew 1), .wait 200000]).any
          (fun J' => (J'.db.attempts.get? 1).any
            fun a => 601000 < J'.db.now ∧ J'.db.now < a.expiresAt)) = true by
      decide +kernel)
  obtain ⟨hlease, hwindow, hlater⟩ := of_decide_eq_true hp
  obtain ⟨a, ha, hbound⟩ := (Option.any_eq_true _ _).1 hlease
  obtain ⟨hexpires, hsession⟩ := of_decide_eq_true hbound
  obtain ⟨J', hJ', hvalid⟩ := (Option.any_eq_true _ _).1 hlater
  have hreachable : J.Reachable ownersSpared := by
    refine ⟨_, Workshop.empty_initial, JobService.replay_run (fun h hh J => ?_) hJ⟩
    simp only [Workshop.launches, List.mem_cons, List.not_mem_nil, or_false] at hh
    rcases hh with rfl | rfl | rfl | rfl <;> trivial
  refine ⟨J, J', by rw [ha]; nofun, JobService.replay_run (fun h hh J => ?_) hJ', hvalid,
    hsession ▸ (leases_end hreachable).2.2.2 1 a 1201000 ha hexpires hwindow⟩
  simp only [List.mem_cons, List.not_mem_nil, or_false] at hh
  rcases hh with rfl | rfl | rfl <;> trivial

end Jobs

end AgentCoordinator
