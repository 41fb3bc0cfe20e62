import AgentCoordinator.Refinement.Service
import AgentCoordinator.Scenario

/-
A single live owner.

In every run in which an agent's reconciliation ends the attempt that still owns the integration,
an active attempt is the current one of its task, under the task's generation, and no other
attempt of the task is active. So at most one caller passes the ownership checks of a task, and an
attempt that is no longer valid never becomes valid again: while the clock is in doubt no attempt
is active, and time goes back only then.
-/

namespace AgentCoordinator

open Guarded Tabular Transition Fencing Scenario

/-! ### Valid attempts -/

/-- The attempt is active, unexpired and its task's current one. -/
def Db.Valid (s : Db) (id : Id) : Prop :=
  ∃ a t, s.attempts.get? id = some a ∧ a.state = .active ∧ s.now < a.expiresAt ∧
    s.tasks.get? a.task = some t ∧ t.currentAttempt = some id

/-- The caller passes an ownership check of the task with the attempt: `owned`, `owned_subject` or
`owned_activity`. -/
inductive Db.Passes (s : Db) (actor : Actor) : (task attempt : Id) → Prop
  | owned {project id : Id} {generation : Int} {a : Attempt}
      (h : owned s actor project id generation = .ok a) : Passes s actor a.task id
  | ownedSubject {project attempt : Id} {generation : Int} {subject : OwnedSubject}
      (h : ownedSubject s actor project attempt generation = .ok subject) :
      Passes s actor subject.task.id attempt
  | ownedActivity {project id : Id} {generation : Int} {kind : ActivityKind}
      {ctx : ActivityContext} {t : Task} {attempt : Id}
      (h : ownedActivity s actor project id generation kind = .ok ctx)
      (task : s.tasks.get? ctx.activity.activityTask = some t)
      (current : t.currentAttempt = some attempt) : Passes s actor ctx.activity.activityTask attempt

section Passes

variable {s : Db} {actor actor' : Actor} {task id id' : Id}

/-- Who passes an ownership check presents the session and credential of the task's current
attempt, which is active and unexpired. -/
lemma Db.Passes.current (h : s.Passes actor task id) :
    ∃ a t, s.attempts.get? id = some a ∧ a.state = .active ∧ s.now < a.expiresAt ∧
      s.tasks.get? task = some t ∧ t.currentAttempt = some id ∧
      a.owner = actor.id ∧ some a.session = actor.session ∧ a.credential = actor.credential := by
  cases h with
  | owned h =>
    have hown := owned_ok h
    obtain ⟨t, ht, -, hcur, -⟩ := hown.task
    exact ⟨_, t, hown.attempt, hown.active, hown.unexpired, ht, hcur, hown.owner⟩
  | ownedSubject h =>
    have hown := ownedSubject_ok h
    obtain ⟨a, ha, -, hactive, hexp, howner⟩ := hown.owner
    exact ⟨a, _, ha, hactive, hexp, hown.task, hown.current, howner⟩
  | ownedActivity h ht hcur =>
    obtain ⟨t', a, ht', hcur', ha, hactive, hexp, howner⟩ := (ownedActivity_ok h).1.owner
    obtain rfl := Option.some.inj (ht.symm.trans ht')
    obtain rfl := Option.some.inj (hcur.symm.trans hcur')
    exact ⟨a, _, ha, hactive, hexp, ht, hcur, howner⟩

/-- Only a valid attempt passes. -/
lemma Db.Passes.valid (hs : s.Sound) (h : s.Passes actor task id) : s.Valid id := by
  obtain ⟨a, t, ha, hactive, hexp, ht, hcur, -⟩ := h.current
  obtain ⟨t', ht', hcur', -⟩ := hs.current ha hactive
  exact ⟨a, t', ha, hactive, hexp, ht', hcur'⟩

/-- At most one attempt, session and credential pass for a task. -/
lemma Db.Passes.unique (h : s.Passes actor task id) (h' : s.Passes actor' task id') :
    id = id' ∧ actor.id = actor'.id ∧ actor.session = actor'.session ∧
      actor.credential = actor'.credential := by
  obtain ⟨a, t, ha, -, -, ht, hcur, hid, hsession, hcredential⟩ := h.current
  obtain ⟨a', t', ha', -, -, ht', hcur', hid', hsession', hcredential'⟩ := h'.current
  obtain rfl := Option.some.inj (ht.symm.trans ht')
  obtain rfl := Option.some.inj (hcur.symm.trans hcur')
  obtain rfl := Option.some.inj (ha.symm.trans ha')
  exact ⟨rfl, hid.symm.trans hid', hsession.symm.trans hsession',
    hcredential.symm.trans hcredential'⟩

end Passes

/-! ### While the clock is in doubt -/

section Paused

variable {s s' : Db} {i : Action}

/-- No attempt is active while a clock incident is unresolved. -/
def Db.PausedQuiet (s : Db) : Prop :=
  s.clockIncident = true → ∀ id a, s.attempts.get? id = some a → a.state ≠ .active

/-- A request that is allowed during a clock incident grants nothing. -/
lemma Request.handle_settles {actor : Actor} {req : Request} (hs : s.Sound)
    (hspares : req.SparesOwners s)
    (hallowed : req.allowedDuringClockReconciliation = true)
    (h : req.handle s actor = .ok s') : s.Settles s' := by
  cases req with
  | checkpoint => exact checkpoint_settles h
  | release => exact release_settles hs h
  | releaseActivity => exact releaseActivity_settles hs h
  | integrationResult => exact integrationResult_settles hs h
  | reconcilePublication => exact reconcilePublication_settles hs h
  | agentReconcilePublication => exact agentReconcilePublication_settles hspares h
  | _ => simp [Request.allowedDuringClockReconciliation] at hallowed

lemma begin_allowed {auth : Auth} {req : Request} {actor : Actor} (h : begin s auth req = .ok actor)
    (hpaused : s.clockIncident = true) : req.allowedDuringClockReconciliation = true := by
  simp only [begin, bind_eq_ok, refuseIf_eq_ok, pure_eq_ok] at h
  obtain ⟨-, -, -, -, -, -, -, -, -, hpause, -⟩ := h
  by_contra hnot
  exact hpause ⟨hpaused, by simpa using hnot⟩

lemma Step.pausedQuiet (hs : s.Sound) (hb : Board.Coherent s.board) (hspares : sparesOwners s i)
    (hq : s.PausedQuiet) (h : Step s i s') : s'.PausedQuiet := by
  intro hpaused id a' ha'
  cases h with
  | accepted hserve =>
    obtain ⟨actor, hbegin, -, hhandle⟩ := serve_ok hserve
    have htransfers := Request.handle_transfers hs hb hspares hhandle
    have hclock := congrArg Prod.snd htransfers.clock
    have hpaused' : s.clockIncident = true := hclock.symm.trans hpaused
    have hsettles := Request.handle_settles hs hspares (begin_allowed hbegin hpaused') hhandle
    obtain ⟨a, ha, hsame⟩ := hsettles.attempts.old id a' ha'
    exact fun hactive => hq hpaused' id a ha (hsame.active hactive)
  | refused => exact hq hpaused id a' ha'
  | environment henv =>
    rw [henv.clockIncident] at hpaused
    rw [henv.attempts] at ha'
    exact hq hpaused id a' ha'
  | clockRollback =>
    simp only [Db.detectRollback, Table.get?_modify] at ha'
    obtain ⟨a, -, rfl⟩ := Option.map_eq_some_iff.1 ha'
    split
    · simp
    · assumption
  | clockReconciled => exact absurd hpaused (by simp [Db.reconcileClock])
  | invalidateDecision => exact hq hpaused id a' ha'

end Paused

/-! ### Reachable states -/

section Reachable

variable {s s' : Db} {i : Action}

lemma Reachable.pausedQuiet (h : Reachable sparesOwners s) : s.PausedQuiet := by
  have hall : Reachable sparesOwners s ∧ s.PausedQuiet := by
    obtain ⟨s₀, h₀, hrun⟩ := h
    refine Run.invariant (I := fun x => Reachable sparesOwners x ∧ x.PausedQuiet)
      (fun x i x' hx hok hstep => ⟨hx.1.step hok hstep, ?_⟩) hrun ⟨⟨s₀, h₀, .refl s₀⟩, ?_⟩
    · exact hstep.pausedQuiet (hx.1.sound fun _ _ h => h) hx.1.coherent hok hx.2
    · intro _ id a ha
      simp [h₀.attempts] at ha
  exact hall.2

/-- An attempt that is not valid does not become valid again. -/
lemma Step.invalid (hs : s.Sound) (hb : Board.Coherent s.board) (hq : s.PausedQuiet)
    (hspares : sparesOwners s i) (h : Step s i s') {id : Id} (hexists : s.attempts.get? id ≠ none)
    (hinvalid : ¬ s.Valid id) : s'.attempts.get? id ≠ none ∧ ¬ s'.Valid id := by
  obtain ⟨a, ha⟩ := Option.ne_none_iff_exists'.1 hexists
  -- an active attempt is current, so only its expiry can make it invalid
  have hlapsed : a.state = .active → a.expiresAt ≤ s.now := by
    intro hactive
    by_contra hexp
    obtain ⟨t, ht, hcur, -⟩ := hs.current ha hactive
    exact hinvalid ⟨a, t, ha, hactive, not_le.1 hexp, ht, hcur⟩
  -- and its lease is not extended once it has run out
  have hgoes : ∀ a', s'.attempts.get? id = some a' → SameAttempt s.now a a' → s.now ≤ s'.now →
      s'.attempts.get? id ≠ none ∧ ¬ s'.Valid id := by
    intro a' ha' hsame hnow
    refine ⟨by rw [ha']; simp, ?_⟩
    rintro ⟨a₁, t, ha₁, hactive, hexp, -⟩
    obtain rfl := Option.some.inj (ha'.symm.trans ha₁)
    have hle := hlapsed (hsame.active hactive)
    rcases hsame.expires with heq | hlt
    · rw [heq] at hexp
      exact absurd (lt_of_le_of_lt hnow hexp) (not_lt.2 hle)
    · exact absurd hlt (not_lt.2 hle)
  cases h with
  | accepted hserve =>
    obtain ⟨actor, -, -, hhandle⟩ := serve_ok hserve
    have htransfers := Request.handle_transfers hs hb hspares hhandle
    obtain ⟨a', ha', hsame⟩ := htransfers.attempt ha
    exact hgoes a' ha' hsame (le_of_eq (congrArg Prod.fst htransfers.clock).symm)
  | refused => exact ⟨hexists, hinvalid⟩
  | environment henv =>
    exact hgoes a (by rw [henv.attempts]; exact ha) (.refl a) henv.now
  | @clockRollback now =>
    have hquiet : (s.detectRollback now).PausedQuiet :=
      Step.pausedQuiet hs hb hspares hq .clockRollback
    refine ⟨by simp [Db.detectRollback, ha], ?_⟩
    rintro ⟨a', t, ha', hactive, -⟩
    exact hquiet rfl id a' ha' hactive
  | clockReconciled hpaused =>
    refine ⟨hexists, ?_⟩
    rintro ⟨a', t, ha', hactive, -⟩
    exact hq hpaused id a' ha' hactive
  | invalidateDecision => exact ⟨hexists, hinvalid⟩

/-- What a single live owner of every task means. -/
structure Db.SingleOwner (s : Db) : Prop where
  current : ∀ id a, s.attempts.get? id = some a → a.state = .active →
    ∃ t, s.tasks.get? a.task = some t ∧ t.currentAttempt = some id ∧ a.generation = t.generation
  earlier : ∀ id a id' a', s.attempts.get? id = some a → a.state = .active →
    s.attempts.get? id' = some a' → a'.task = a.task → id' ≠ id →
      a'.generation < a.generation ∧ a'.state ≠ .active
  passes : ∀ actor actor' task id id', s.Passes actor task id → s.Passes actor' task id' →
    id = id' ∧ actor.session = actor'.session ∧ actor.credential = actor'.credential

lemma Db.Sound.singleOwner (hs : s.Sound) : s.SingleOwner where
  current _ _ ha hactive := hs.current ha hactive
  earlier id a id' a' ha hactive ha' htask hne := by
    have hl : s.ledger.leases id = some ⟨a.task, a.generation, decide (a.state = .active)⟩ :=
      Table.project_of_get? ha
    have hl' : s.ledger.leases id' = some ⟨a'.task, a'.generation, decide (a'.state = .active)⟩ :=
      Table.project_of_get? ha'
    refine ⟨Ledger.Sound.earlier hs hl (by simpa using hactive) hl' htask hne, fun hactive' => ?_⟩
    exact hne (Ledger.Sound.unique hs hl' hl htask (by simpa using hactive')
      (by simpa using hactive))
  passes _ _ _ _ _ h h' := ⟨(h.unique h').1, (h.unique h').2.2⟩

/-- Every task has a single live owner, and who has lost ownership never passes again. -/
theorem single_owner (hs : Reachable sparesOwners s) : s.SingleOwner ∧
    ∀ s', Run AgentCoordinator.Step sparesOwners s s' → ∀ id, s.attempts.get? id ≠ none →
      ¬ s.Valid id → ∀ actor task, ¬ s'.Passes actor task id := by
  refine ⟨(hs.sound fun _ _ h => h).singleOwner, fun s' hrun id hexists hinvalid actor task hp => ?_⟩
  have hall : Reachable sparesOwners s' ∧ s'.attempts.get? id ≠ none ∧ ¬ s'.Valid id := by
    refine Run.invariant (I := fun x => Reachable sparesOwners x ∧ x.attempts.get? id ≠ none ∧
      ¬ x.Valid id) (fun x i x' hx hok hstep => ⟨hx.1.step hok hstep, ?_⟩) hrun
      ⟨hs, hexists, hinvalid⟩
    exact hstep.invalid (hx.1.sound fun _ _ h => h) hx.1.coherent hx.1.pausedQuiet hok hx.2.1 hx.2.2
  exact hall.2.2 (hp.valid (hall.1.sound fun _ _ h => h))

end Reachable

/-! ### Replays -/

set_option maxRecDepth 20000 in
theorem single_owner_replayed : ∃ s s', replay sparesOwners (service .agent)
      [claims 2 1, .wait 600000] = some s ∧
    replay sparesOwners s [claims 4 2] = some s' ∧ s.SingleOwner ∧
      ∀ actor task, ¬ s'.Passes actor task 1 := by
  obtain ⟨s, hs, hp⟩ := exists_of_any
    (o := replay sparesOwners (service .agent) [claims 2 1, .wait 600000])
    (p := fun s => (replay sparesOwners s [claims 4 2]).isSome &&
      (s.attempts.get? 1).any (fun a => a.expiresAt ≤ s.now)) (by decide +kernel)
  rw [Bool.and_eq_true, Option.isSome_iff_exists, Option.any_eq_true] at hp
  obtain ⟨⟨s', hs'⟩, a, ha, hexp⟩ := hp
  have howner := single_owner (replay_reachable (service_initial _) hs)
  refine ⟨s, s', hs, hs', howner.1, howner.2 s' (replay_run hs') 1 (by rw [ha]; simp) ?_⟩
  rintro ⟨a', t, ha', -, hlt, -⟩
  obtain rfl := Option.some.inj (ha.symm.trans ha')
  exact absurd hlt (not_lt.2 (of_decide_eq_true hexp))

/-- An integration is taken over after its lease has run out, and then the publication of the first
owner is reconciled by that owner. -/
def takenOver : List Happening :=
  [claims 2 1, submitsCode 2 1, takes (agent 3) 1 1 1, decides (agent 3) 1 .approved,
    takes (agent 2) 2 1 1, intends 2 2 1, .wait 600000, takes (agent 4) 2 1 1]

set_option maxRecDepth 20000 in
/-- After a reconciliation by an agent, the attempt that took the integration over is still active,
but no longer current. -/
theorem several_owners : ¬ ∀ s : Db, Reachable anyStep s → s.SingleOwner := by
  intro h
  obtain ⟨s, hs, hp⟩ := exists_of_any
    (o := replay anyStep (service .agent) (takenOver ++ [reportsUnpublished 2 2 3 1 601000]))
    (p := fun s => (s.attempts.get? 4).any (fun a => a.state = .active &&
      (s.tasks.get? a.task).any (fun t => t.currentAttempt = none))) (by decide +kernel)
  obtain ⟨a, ha, hactive⟩ := (Option.any_eq_true _ _).1 hp
  rw [Bool.and_eq_true, Option.any_eq_true] at hactive
  obtain ⟨hactive, t, ht, hnone⟩ := hactive
  obtain ⟨t', ht', hcurrent, -⟩ := (h s (replay_reachable (service_initial _) hs)).current 4 a ha
    (of_decide_eq_true hactive)
  obtain rfl := Option.some.inj (ht.symm.trans ht')
  rw [of_decide_eq_true hnone] at hcurrent
  exact absurd hcurrent (by simp)

end AgentCoordinator
