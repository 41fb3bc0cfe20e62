import Mathlib.Data.Int.Order.Basic
import AgentCoordinator.Library.Fencing
import AgentCoordinator.Library.Projection
import AgentCoordinator.Writes

/-
The database seen as a ledger of ownership.

A task is a lock: its current attempt holds it, and its generation is the token of the latest
grant. An attempt is a lease on its task. Every write of the handlers other than a grant settles
the ledger: attempts end, and a task loses its current attempt once none of its attempts is
active.
-/

namespace AgentCoordinator

open Guarded Tabular Maps Fencing

/-- Generations are ordered as integers are. -/
instance generationOrder : PartialOrder Int := Int.instLinearOrder.toPartialOrder

/-- Who owns which task. -/
def Db.ledger (s : Db) : Ledger Id Id Int where
  locks := s.tasks.project fun t => ⟨t.currentAttempt, t.generation⟩
  leases := s.attempts.project fun a => ⟨a.task, a.generation, decide (a.state = .active)⟩

/-- The same attempt at or after `now`. It may have ended, and its lease is extended only while it
has not run out. -/
structure SameAttempt (now : Time) (a a' : Attempt) : Prop where
  task : a'.task = a.task
  generation : a'.generation = a.generation
  owner : a'.owner = a.owner ∧ a'.session = a.session ∧ a'.credential = a.credential
  active : a'.state = .active → a.state = .active
  expires : a'.expiresAt = a.expiresAt ∨ now < a.expiresAt

lemma SameAttempt.refl {now : Time} (a : Attempt) : SameAttempt now a a :=
  ⟨rfl, rfl, ⟨rfl, rfl, rfl⟩, id, .inl rfl⟩

lemma SameAttempt.trans {now : Time} {a a' a'' : Attempt} (h : SameAttempt now a a')
    (h' : SameAttempt now a' a'') : SameAttempt now a a'' where
  task := h'.task.trans h.task
  generation := h'.generation.trans h.generation
  owner := ⟨h'.owner.1.trans h.owner.1, h'.owner.2.1.trans h.owner.2.1,
    h'.owner.2.2.trans h.owner.2.2⟩
  active := fun ha => h.active (h'.active ha)
  expires := by
    rcases h.expires with heq | hlt
    · exact h'.expires.imp (fun h => h.trans heq) fun h => heq ▸ h
    · exact .inr hlt

/-- No attempt of the task is active. -/
def Db.Quiet (s : Db) (task : Id) : Prop :=
  ∀ id a, s.attempts.get? id = some a → a.task = task → a.state ≠ .active

/-- The clock, as a transaction reads it. -/
def Db.clock (s : Db) : Time × Bool := (s.now, s.clockIncident)

/-- Attempts end, tasks without an active attempt lose their current one, new tasks appear. -/
structure Db.Settles (s s' : Db) : Prop where
  clock : s'.clock = s.clock
  attempts : Related (SameAttempt s.now) s.attempts.get? s'.attempts.get?
  tasks : ∀ k t, s.tasks.get? k = some t → ∃ t', s'.tasks.get? k = some t' ∧
    t'.generation = t.generation ∧
    (t'.currentAttempt = t.currentAttempt ∨ (t'.currentAttempt = none ∧ s'.Quiet k))
  newTasks : ∀ k t', s.tasks.get? k = none → s'.tasks.get? k = some t' → t'.currentAttempt = none

/-- An ended attempt does not become active by settling. -/
lemma Db.Quiet.settles {s s' : Db} {task : Id} (h : s.Quiet task) (hs : s.Settles s') :
    s'.Quiet task := by
  intro id a' ha' htask hactive
  obtain ⟨a, ha, hsame⟩ := hs.attempts.old id a' ha'
  exact h id a ha (hsame.task ▸ htask) (hsame.active hactive)

namespace Db.Settles

variable {s s' s'' : Db}

lemma now (h : s.Settles s') : s'.now = s.now := congrArg Prod.fst h.clock

lemma clockIncident (h : s.Settles s') : s'.clockIncident = s.clockIncident :=
  congrArg Prod.snd h.clock

lemma trans (h : s.Settles s') (h' : s'.Settles s'') : s.Settles s'' where
  clock := h'.clock.trans h.clock
  attempts := by
    have h₂ := h'.attempts
    rw [h.now] at h₂
    exact h.attempts.trans (fun _ _ _ => SameAttempt.trans) h₂
  tasks k t ht := by
    obtain ⟨t', ht', hgen, hcase⟩ := h.tasks k t ht
    obtain ⟨t'', ht'', hgen', hcase'⟩ := h'.tasks k t' ht'
    refine ⟨t'', ht'', hgen'.trans hgen, ?_⟩
    rcases hcase' with hsame | hnone
    · rcases hcase with hsame' | ⟨hnone, hquiet⟩
      · exact .inl (hsame.trans hsame')
      · exact .inr ⟨hsame.trans hnone, hquiet.settles h'⟩
    · exact .inr hnone
  newTasks k t'' hnone ht'' := by
    cases ht' : s'.tasks.get? k with
    | none => exact h'.newTasks k t'' ht' ht''
    | some t' =>
      obtain ⟨t₂, ht₂, -, hsame | hnone'⟩ := h'.tasks k t' ht'
      · rw [ht₂] at ht''
        obtain rfl := Option.some.inj ht''
        exact hsame.trans (h.newTasks k t' hnone ht')
      · rw [ht₂] at ht''
        obtain rfl := Option.some.inj ht''
        exact hnone'.1

/-- A write that touches neither tasks nor attempts. -/
lemma of_eq (clock : s'.clock = s.clock) (attempts : s'.attempts = s.attempts)
    (tasks : s'.tasks = s.tasks) : s.Settles s' where
  clock := clock
  attempts := by
    rw [attempts]
    exact .refl SameAttempt.refl _
  tasks k t ht := ⟨t, by rw [tasks]; exact ht, rfl, .inl rfl⟩
  newTasks k t' hnone ht' := by
    rw [tasks, hnone] at ht'
    exact absurd ht' (by simp)

lemma refl (s : Db) : s.Settles s := of_eq rfl rfl rfl

/-- A write of attempts that ends or extends them. -/
lemma of_attempts {A : Table Attempt} (h : Related (SameAttempt s.now) s.attempts.get? A.get?) :
    s.Settles { s with attempts := A } where
  clock := rfl
  attempts := h
  tasks k t ht := ⟨t, ht, rfl, .inl rfl⟩
  newTasks k t' hnone ht' := by
    rw [show s.tasks.get? k = some t' from ht'] at hnone
    exact absurd hnone (by simp)

/-- A write of tasks that keeps their current attempts, or frees quiet tasks. -/
lemma of_tasks {T : Table Task}
    (h : Related (fun t t' => t'.generation = t.generation ∧
      (t'.currentAttempt = t.currentAttempt ∨ (t'.currentAttempt = none ∧ s.Quiet t.id)))
      s.tasks.get? T.get?) : s.Settles { s with tasks := T } where
  clock := rfl
  attempts := .refl SameAttempt.refl _
  tasks k t ht := by
    obtain ⟨t', ht', hR⟩ := h.new k t ht
    rw [show t.id = k from Table.key_of_get? ht] at hR
    exact ⟨t', ht', hR⟩
  newTasks k t' hnone ht' := by
    rw [h.eq_none.2 hnone] at ht'
    exact absurd ht' (by simp)

/-- The ledger settles with the database. -/
theorem ledger (h : s.Settles s') : s.ledger.Settles s'.ledger where
  old k l hl := by
    obtain ⟨t, ht, rfl⟩ := Table.project_eq_some.1 hl
    obtain ⟨t', ht', hgen, hcase⟩ := h.tasks k t ht
    refine ⟨_, Table.project_of_get? ht', hgen, hcase.imp_right (And.imp_right ?_)⟩
    intro hquiet g l' hl' hr
    obtain ⟨a, ha, rfl⟩ := Table.project_eq_some.1 hl'
    simpa using hquiet g a ha hr
  new k l' hnone hl' := by
    obtain ⟨t', ht', rfl⟩ := Table.project_eq_some.1 hl'
    exact h.newTasks k t' (Table.project_eq_none.1 hnone) ht'
  leases := by
    have hsame : ∀ a a', SameAttempt s.now a a' →
        SameLease (⟨a.task, a.generation, decide (a.state = .active)⟩ : Lease Id Int)
          ⟨a'.task, a'.generation, decide (a'.state = .active)⟩ := fun a a' hs =>
      ⟨hs.task, hs.generation, fun ha => by simpa using hs.active (by simpa using ha)⟩
    constructor
    · intro g l' hl'
      obtain ⟨a', ha', rfl⟩ := Table.project_eq_some.1 hl'
      obtain ⟨a, ha, hs⟩ := h.attempts.old g a' ha'
      exact ⟨_, Table.project_of_get? ha, hsame a a' hs⟩
    · intro g l hl
      obtain ⟨a, ha, rfl⟩ := Table.project_eq_some.1 hl
      obtain ⟨a', ha', hs⟩ := h.attempts.new g a ha
      exact ⟨_, Table.project_of_get? ha', hsame a a' hs⟩

end Db.Settles

/-! ### Shared writes -/

namespace Db.Settles

variable {s s' : Db}

lemma setAttempts {A : Table Attempt} (h : s.Settles s')
    (hA : Related (SameAttempt s'.now) s'.attempts.get? A.get?) :
    s.Settles { s' with attempts := A } := h.trans (.of_attempts hA)

lemma setTasks {T : Table Task} (h : s.Settles s')
    (hT : Related (fun t t' => t'.generation = t.generation ∧
      (t'.currentAttempt = t.currentAttempt ∨ (t'.currentAttempt = none ∧ s'.Quiet t.id)))
      s'.tasks.get? T.get?) : s.Settles { s' with tasks := T } := h.trans (.of_tasks hT)

/-- A write of tasks that keeps their current attempts. -/
lemma keepTasks {T : Table Task} (h : s.Settles s')
    (hT : Related (fun t t' => t'.generation = t.generation ∧
      t'.currentAttempt = t.currentAttempt) s'.tasks.get? T.get?) :
    s.Settles { s' with tasks := T } :=
  h.setTasks ⟨fun k t' ht' => (hT.old k t' ht').imp fun _ h => ⟨h.1, h.2.1, .inl h.2.2⟩,
    fun k t ht => (hT.new k t ht).imp fun _ h => ⟨h.1, h.2.1, .inl h.2.2⟩⟩

lemma endAttempts {p : Attempt → Prop} [DecidablePred p] {state : AttemptState}
    {outcome : String} (h : s.Settles s') (hstate : state ≠ .active) :
    s.Settles (s'.endAttempts p state outcome) :=
  h.setAttempts (Table.related_modify .refl fun _ _ _ =>
    ⟨rfl, rfl, ⟨rfl, rfl, rfl⟩, fun ha => absurd ha hstate, .inl rfl⟩)

lemma finish {actor : Actor} {kind : String} {record : Id} (h : s.Settles s') :
    s.Settles (s'.finish actor kind record) := h.trans (.of_eq rfl rfl rfl)

lemma readyDependents {task : Id} (h : s.Settles s') : s.Settles (s'.readyDependents task) :=
  h.keepTasks (Table.related_modify (fun _ => ⟨rfl, rfl⟩) fun _ _ _ => ⟨rfl, rfl⟩)

lemma addCheckpoint {attempt : Id} {revision : Option String} (h : s.Settles s') :
    s.Settles (s'.addCheckpoint attempt revision) := by
  have hsave : s.Settles
      { s' with checkpoints := s'.checkpoints ++ [⟨attempt, revision, s'.now⟩] } :=
    h.trans (.of_eq rfl rfl rfl)
  exact hsave.setAttempts
    (Table.related_modify .refl fun _ _ _ => ⟨rfl, rfl, ⟨rfl, rfl, rfl⟩, fun ha => ha, .inl rfl⟩)

lemma cancelTasksOf {p : WorkflowActivity → Prop} [DecidablePred p] (h : s.Settles s') :
    s.Settles (s'.cancelTasksOf p) :=
  h.keepTasks (Table.related_modify (fun _ => ⟨rfl, rfl⟩) fun _ _ _ => ⟨rfl, rfl⟩)

lemma cancelActivities {p : WorkflowActivity → Prop} [DecidablePred p] {actor : Id}
    {why : CancelReason} (h : s.Settles s') : s.Settles (s'.cancelActivities p actor why) :=
  h.trans (.of_eq rfl rfl rfl)

lemma releaseHolds {p : Id → Prop} [DecidablePred p] {actor : Id} {reason : String}
    (h : s.Settles s') : s.Settles (s'.releaseHolds p actor reason) :=
  h.trans (.of_eq rfl rfl rfl)

lemma createActivity {project subjectTask submission : Id} {title : String}
    {kind : ActivityKind} {slot : Nat} (h : s.Settles s') :
    s.Settles (s'.createActivity project subjectTask title submission kind slot) :=
  h.trans
    { clock := rfl
      attempts := .refl SameAttempt.refl _
      tasks := fun k t ht => by
        refine ⟨t, ?_, rfl, .inl rfl⟩
        simp only [Db.createActivity, Table.get?_create, if_neg (Table.ne_fresh ht)]
        exact ht
      newTasks := fun k t' hnone ht' => by
        simp only [Db.createActivity, Table.get?_create] at ht'
        by_cases hk : k = s'.tasks.fresh
        · rw [if_pos hk] at ht'
          obtain rfl := Option.some.inj ht'
          rfl
        · rw [if_neg hk, hnone] at ht'
          exact absurd ht' (by simp) }

end Db.Settles

section Quiet

variable {s : Db}

/-- Ending every active attempt of a task leaves it quiet. -/
lemma quiet_endAttempts {p : Attempt → Prop} [DecidablePred p] {state : AttemptState}
    {outcome : String} {task : Id} (hstate : state ≠ .active)
    (h : ∀ id a, s.attempts.get? id = some a → a.task = task → a.state = .active → p a) :
    (s.endAttempts p state outcome).Quiet task := by
  intro id a' ha' htask hactive
  simp only [Db.endAttempts, Table.get?_modify] at ha'
  obtain ⟨a, ha, rfl⟩ := Option.map_eq_some_iff.1 ha'
  by_cases hp : p a
  · rw [if_pos hp] at hactive
    exact hstate hactive
  · rw [if_neg hp] at htask hactive
    exact hp (h id a ha htask hactive)

end Quiet

/-! ### Sound ownership -/

/-- Ownership is sound: an active attempt is its task's current one under the task's generation,
and every other attempt of the task has a smaller one. -/
abbrev Db.Sound (s : Db) : Prop := s.ledger.Sound

namespace Db.Sound

variable {s s' : Db}

lemma settles (h : s.Sound) (hs : s.Settles s') : s'.Sound := Ledger.Sound.settles h hs.ledger

/-- An active attempt is the current one of its task. -/
theorem current (h : s.Sound) {id : Id} {a : Attempt} (ha : s.attempts.get? id = some a)
    (hactive : a.state = .active) : ∃ t, s.tasks.get? a.task = some t ∧
      t.currentAttempt = some id ∧ a.generation = t.generation := by
  have hl : s.ledger.leases id = some ⟨a.task, a.generation, decide (a.state = .active)⟩ :=
    Table.project_of_get? ha
  obtain ⟨k, hk, -⟩ := h.lock id _ hl
  obtain ⟨hholder, htoken⟩ := h.active id _ k hl (by simpa using hactive) hk
  obtain ⟨t, ht, rfl⟩ := Table.project_eq_some.1 hk
  exact ⟨t, ht, hholder, htoken⟩

/-- The current attempt of a task is an attempt of that task. -/
lemma attempt_of_current (h : s.Sound) {k id : Id} {t : Task} (ht : s.tasks.get? k = some t)
    (hcurrent : t.currentAttempt = some id) :
    ∃ a, s.attempts.get? id = some a ∧ a.task = k := by
  obtain ⟨l, hl, hr⟩ := h.held k ⟨t.currentAttempt, t.generation⟩ id
    (Table.project_of_get? ht) hcurrent
  obtain ⟨a, ha, rfl⟩ := Table.project_eq_some.1 hl
  exact ⟨a, ha, hr⟩

/-- A task without a current attempt has no active one. -/
lemma quiet_of_unowned (h : s.Sound) {k : Id} {t : Task} (ht : s.tasks.get? k = some t)
    (hnone : t.currentAttempt = none) : s.Quiet k := by
  intro id a ha htask hactive
  obtain ⟨t', ht', hcurrent, -⟩ := h.current ha hactive
  rw [htask, ht] at ht'
  obtain rfl := Option.some.inj ht'
  rw [hnone] at hcurrent
  exact absurd hcurrent (by simp)

/-- Once its current attempt has ended, a task is quiet. -/
lemma quiet_of_current (h : s.Sound) {k id : Id} {t : Task} (ht : s.tasks.get? k = some t)
    (hcurrent : t.currentAttempt = some id) {p : Attempt → Prop} [DecidablePred p]
    {state : AttemptState} {outcome : String} (hstate : state ≠ .active)
    (hp : ∀ a, s.attempts.get? id = some a → a.state = .active → p a) :
    (s.endAttempts p state outcome).Quiet k := by
  refine quiet_endAttempts hstate fun id' a ha htask hactive => ?_
  obtain ⟨t', ht', hcurrent', -⟩ := h.current ha hactive
  rw [htask, ht] at ht'
  obtain rfl := Option.some.inj ht'
  obtain rfl := Option.some.inj (hcurrent.symm.trans hcurrent')
  exact hp a ha hactive

end Db.Sound

/-! ### Grants -/

/-- A grant on a quiet task, under a larger generation, between two settlements. -/
structure Db.Grants (s s' : Db) : Prop where
  grant : ∃ s₁ s₂ g t, s.Settles s₁ ∧ s₁.tasks.get? g.task = some t ∧ t.generation < g.generation ∧
    s₁.grantAttempt g = .ok s₂ ∧ s₂.Settles s'

/-- What a request does to ownership. -/
inductive Db.Transfers : Db → Db → Prop
  | settles {s s' : Db} (h : s.Settles s') : Transfers s s'
  | grants {s s' : Db} (h : s.Grants s') : Transfers s s'

lemma Db.Transfers.clock {s s' : Db} (h : s.Transfers s') : s'.clock = s.clock := by
  cases h with
  | settles h => exact h.clock
  | grants h =>
    obtain ⟨s₁, s₂, g, t, h₁, -, -, hgrant, h₂⟩ := h.grant
    simp only [Db.grantAttempt, bind_eq_ok, refuseIf_eq_ok, pure_eq_ok] at hgrant
    obtain ⟨-, -, rfl⟩ := hgrant
    exact h₂.clock.trans h₁.clock

/-- An attempt goes on as the same attempt. -/
lemma Db.Transfers.attempt {s s' : Db} (h : s.Transfers s') {id : Id} {a : Attempt}
    (ha : s.attempts.get? id = some a) :
    ∃ a', s'.attempts.get? id = some a' ∧ SameAttempt s.now a a' := by
  cases h with
  | settles h => exact h.attempts.new id a ha
  | grants h =>
    obtain ⟨s₁, s₂, g, t, h₁, -, -, hgrant, h₂⟩ := h.grant
    simp only [Db.grantAttempt, bind_eq_ok, refuseIf_eq_ok, pure_eq_ok] at hgrant
    obtain ⟨-, -, rfl⟩ := hgrant
    obtain ⟨a₁, ha₁, hsame⟩ := h₁.attempts.new id a ha
    have ha₂ : (s₁.attempts.create (g.attempt s₁.now)).get? id = some a₁ := by
      rw [Table.get?_create, if_neg (Table.ne_fresh ha₁)]
      exact ha₁
    obtain ⟨a', ha', hsame'⟩ := h₂.attempts.new id a₁ ha₂
    refine ⟨a', ha', hsame.trans ?_⟩
    rwa [show ({ s₁ with attempts := _, tasks := _ } : Db).now = s.now from h₁.now] at hsame'

lemma ledger_grantAttempt {s s' : Db} {g : Grant} {t : Task} (ht : s.tasks.get? g.task = some t)
    (hlt : t.generation < g.generation) (h : s.grantAttempt g = .ok s') :
    Ledger.Grants s.ledger s'.ledger := by
  simp only [Db.grantAttempt, bind_eq_ok, refuseIf_eq_ok, pure_eq_ok] at h
  obtain ⟨-, hfree, rfl⟩ := h
  refine ⟨g.task, s.attempts.fresh, _, g.generation, Table.project_of_get? ht, hlt,
    Table.project_fresh _, ?_, ?_, ?_⟩
  · intro id l hl hr
    obtain ⟨a, ha, rfl⟩ := Table.project_eq_some.1 hl
    simpa using fun hactive => hfree ⟨a, Table.mem_of_get? ha, hr, .inl hactive⟩
  · funext k
    simp only [Db.ledger, Table.project, Table.get?_modify]
    by_cases hk : k = g.task
    · subst hk
      have hid : t.id = g.task := Table.key_of_get? ht
      rw [Function.update_self, ht]
      simp [hid]
    · rw [Function.update_of_ne hk]
      cases hget : s.tasks.get? k with
      | none => simp [Table.project, hget]
      | some t' =>
        have hid : t'.id = k := Table.key_of_get? hget
        simp [Table.project, hget, hid, hk]
  · exact Table.project_create _ _ fun _ => rfl

theorem Db.Transfers.steps {s s' : Db} (h : s.Transfers s') :
    Ledger.Steps s.ledger s'.ledger := by
  cases h with
  | settles h => exact .single (.settle h.ledger)
  | grants h =>
    obtain ⟨s₁, s₂, g, t, h₁, ht, hlt, hgrant, h₂⟩ := h.grant
    exact ((Relation.ReflTransGen.single (.settle h₁.ledger)).tail
      (.grant (ledger_grantAttempt ht hlt hgrant))).tail (.settle h₂.ledger)

end AgentCoordinator
