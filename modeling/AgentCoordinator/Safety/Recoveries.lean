import AgentCoordinator.Refinement.Service
import AgentCoordinator.Scenario

/-
The evidence of a recovery.

A checkpoint may record the revision of the work in progress. A recovery looks for it in the
latest checkpoint of the attempt just before it, and nowhere else. `Tracked` follows one task and
the revision that stands recorded for it: what its owners recorded last, until they release,
submit or restart. The recovery of the task asks for that revision exactly when the attempt just
before it recorded it (`recovery_exact`); a recovery that was itself left unresolved, or resumed
and left again, stands between the record and the next recovery.
-/

namespace AgentCoordinator

open Guarded Tabular Transition Fencing

/-! ### Chains of attempts -/

/-- The same attempt later: it may have ended, or have resolved its recovery. -/
structure LaterAttempt (a a' : Attempt) : Prop where
  task : a'.task = a.task
  project : a'.project = a.project
  generation : a'.generation = a.generation
  mode : a'.mode = a.mode ∨ a'.mode = .work
  state : a'.state = a.state ∨ a.state = .active

lemma LaterAttempt.refl (a : Attempt) : LaterAttempt a a := ⟨rfl, rfl, rfl, .inl rfl, .inl rfl⟩

lemma LaterAttempt.trans {a a' a'' : Attempt} (h : LaterAttempt a a') (h' : LaterAttempt a' a'') :
    LaterAttempt a a'' where
  task := h'.task.trans h.task
  project := h'.project.trans h.project
  generation := h'.generation.trans h.generation
  mode := by
    rcases h'.mode with heq | hwork
    · rw [heq]
      exact h.mode
    · exact .inr hwork
  state := by
    rcases h'.state with heq | hactive
    · rw [heq]
      exact h.state
    · rcases h.state with heq | hactive'
      · exact .inr (heq ▸ hactive)
      · exact .inr hactive'

/-- The same attempt later, which has not ended unless it expired. -/
def Steady (a a' : Attempt) : Prop :=
  LaterAttempt a a' ∧ (a'.state = a.state ∨ a'.state = .expired)

lemma Steady.refl (a : Attempt) : Steady a a := ⟨.refl a, .inl rfl⟩

lemma Steady.trans {a a' a'' : Attempt} (h : Steady a a') (h' : Steady a' a'') : Steady a a'' := by
  refine ⟨h.1.trans h'.1, ?_⟩
  rcases h'.2 with heq | hexpired
  · rw [heq]
    exact h.2
  · exact .inr hexpired

/-- Attempt `b` is the one just before `a` of the same task. -/
structure Db.Precedes (s : Db) (b a : Attempt) : Prop where
  mem : s.attempts.get? b.id = some b
  project : b.project = a.project
  task : b.task = a.task
  earlier : b.generation < a.generation
  latest : ∀ b' ∈ s.attempts, b'.project = a.project → b'.task = a.task →
    b'.generation < a.generation → b'.generation ≤ b.generation

/-- No two attempts of the task have the same generation. -/
def Db.Distinct (s : Db) (k : Id) : Prop :=
  ∀ id a id' a', s.attempts.get? id = some a → s.attempts.get? id' = some a' →
    a.task = k → a'.task = k → a.generation = a'.generation → id = id'

/-- The attempts of a task in the order of their generations: the task's current attempt is the
last, and a recovery took over from an expired one. -/
structure Db.Chain (s : Db) (k : Id) : Prop where
  bounded : ∀ id a, s.attempts.get? id = some a → a.task = k →
    ∃ t, s.tasks.get? k = some t ∧ a.project = t.project ∧ a.generation ≤ t.generation
  distinct : s.Distinct k
  holder : ∀ t c, s.tasks.get? k = some t → t.currentAttempt = some c →
    ∃ a, s.attempts.get? c = some a ∧ a.task = k ∧ a.generation = t.generation ∧
      (a.state = .active ∨ a.state = .expired)
  superseded : ∀ t c a b, s.tasks.get? k = some t → t.currentAttempt = some c →
    s.attempts.get? c = some a → a.mode = .recovery → s.Precedes b a → b.state = .expired

/-- The current attempt of the task is still what it was, or has expired. -/
def Db.HolderKept (s s' : Db) (k : Id) (t : Task) : Prop :=
  ∀ c a a', t.currentAttempt = some c → s.attempts.get? c = some a → a.task = k →
    s'.attempts.get? c = some a' → a'.state = a.state ∨ a'.state = .expired

/-- A change that grants no attempt of the task: its attempts may end, and it may lose its current
one; where that expires the task keeps it. -/
structure Db.Apart (s s' : Db) (k : Id) : Prop where
  attempts : ∀ id a', s'.attempts.get? id = some a' → a'.task = k →
    ∃ a, s.attempts.get? id = some a ∧ LaterAttempt a a'
  kept : ∀ id a, s.attempts.get? id = some a → a.task = k →
    ∃ a', s'.attempts.get? id = some a' ∧ LaterAttempt a a'
  task : ∀ t, s.tasks.get? k = some t → ∃ t', s'.tasks.get? k = some t' ∧
    t'.project = t.project ∧ t'.generation = t.generation ∧
    (t'.currentAttempt = none ∨ (t'.currentAttempt = t.currentAttempt ∧ s.HolderKept s' k t))
  created : s.tasks.get? k = none → ∀ t', s'.tasks.get? k = some t' → t'.currentAttempt = none

section Chains

variable {s s' : Db} {k : Id}

/-- Looking back over a change, an attempt that precedes another already did. -/
lemma Db.Apart.precedes (h : s.Apart s' k) {a a' b' : Attempt} (ha : LaterAttempt a a')
    (htask : a'.task = k) (hb : s'.Precedes b' a') :
    ∃ b, s.Precedes b a ∧ LaterAttempt b b' ∧ b.id = b'.id := by
  obtain ⟨b, hb₀, hlater⟩ := h.attempts _ b' hb.mem (hb.task.trans htask)
  have hid : b.id = b'.id := Table.key_of_get? hb₀
  refine ⟨b, ⟨hid ▸ hb₀, ?_, ?_, ?_, ?_⟩, hlater, hid⟩
  · rw [← hlater.project, ← ha.project, hb.project]
  · rw [← hlater.task, ← ha.task, hb.task]
  · rw [← hlater.generation, ← ha.generation]
    exact hb.earlier
  · intro c hc hproject hctask hgeneration
    have hk : c.task = k := by rw [hctask, ← ha.task, htask]
    obtain ⟨c', hc', hclater⟩ := h.kept _ c (Table.get?_of_mem hc) hk
    have hle := hb.latest c' (Table.mem_of_get? hc')
      (by rw [hclater.project, hproject, ha.project]) (by rw [hclater.task, hctask, ha.task])
      (by rw [hclater.generation, ha.generation]; exact hgeneration)
    rwa [hclater.generation, hlater.generation] at hle

/-- Such a change keeps the chain of the task. -/
lemma Db.Chain.apart (hc : s.Chain k) (h : s.Apart s' k) : s'.Chain k := by
  have hback : ∀ t', s'.tasks.get? k = some t' → t'.currentAttempt ≠ none →
      ∃ t, s.tasks.get? k = some t ∧ t'.generation = t.generation ∧
        t'.currentAttempt = t.currentAttempt ∧ s.HolderKept s' k t := by
    intro t' ht' hcurrent
    cases ht : s.tasks.get? k with
    | none => exact absurd (h.created ht t' ht') hcurrent
    | some t =>
      obtain ⟨t₁, ht₁, -, hgeneration, hnone | ⟨hsame, hkept⟩⟩ := h.task t ht
      · obtain rfl := Option.some.inj (ht'.symm.trans ht₁)
        exact absurd hnone hcurrent
      · obtain rfl := Option.some.inj (ht'.symm.trans ht₁)
        exact ⟨t, rfl, hgeneration, hsame, hkept⟩
  constructor
  · intro id a' ha' htask
    obtain ⟨a, ha, hlater⟩ := h.attempts id a' ha' htask
    obtain ⟨t, ht, hproject, hle⟩ := hc.bounded id a ha (hlater.task.symm.trans htask)
    obtain ⟨t', ht', hproject', hgeneration, -⟩ := h.task t ht
    exact ⟨t', ht', by rw [hlater.project, hproject, hproject'],
      by rw [hlater.generation, hgeneration]; exact hle⟩
  · intro id a' id₁ a₁' ha' ha₁' htask htask₁ hgeneration
    obtain ⟨a, ha, hlater⟩ := h.attempts id a' ha' htask
    obtain ⟨a₁, ha₁, hlater₁⟩ := h.attempts id₁ a₁' ha₁' htask₁
    rw [hlater.generation, hlater₁.generation] at hgeneration
    exact hc.distinct id a id₁ a₁ ha ha₁ (hlater.task.symm.trans htask)
      (hlater₁.task.symm.trans htask₁) hgeneration
  · intro t' c ht' hcurrent
    obtain ⟨t, ht, hgeneration, hsame, hkept⟩ := hback t' ht' (by rw [hcurrent]; simp)
    rw [hcurrent] at hsame
    obtain ⟨a, ha, htask, hage, hstate⟩ := hc.holder t c ht hsame.symm
    obtain ⟨a', ha', hlater⟩ := h.kept c a ha htask
    refine ⟨a', ha', hlater.task.trans htask, by rw [hlater.generation, hage, hgeneration], ?_⟩
    rcases hkept c a a' hsame.symm ha htask ha' with heq | hexpired
    · rwa [heq]
    · exact .inr hexpired
  · intro t' c a' b' ht' hcurrent ha' hmode hb
    obtain ⟨t, ht, -, hsame, -⟩ := hback t' ht' (by rw [hcurrent]; simp)
    rw [hcurrent] at hsame
    obtain ⟨a₀, ha₀, htask₀, -⟩ := hc.holder t c ht hsame.symm
    obtain ⟨a₁, ha₁, hlater⟩ := h.kept c a₀ ha₀ htask₀
    obtain rfl := Option.some.inj (ha'.symm.trans ha₁)
    obtain ⟨b, hb₀, hblater, -⟩ := h.precedes hlater (hlater.task.trans htask₀) hb
    have hrecovery : a₀.mode = .recovery := by
      rcases hlater.mode with heq | hwork
      · rw [← heq, hmode]
      · rw [hmode] at hwork
        exact absurd hwork (by simp)
    have hexpired := hc.superseded t c a₀ b ht hsame.symm ha₀ hrecovery hb₀
    rcases hblater.state with heq | hactive
    · rw [heq, hexpired]
    · rw [hexpired] at hactive
      exact absurd hactive (by simp)

end Chains

/-! ### The predecessor -/

section Predecessor

variable {s : Db} {k : Id} {a b : Attempt}

lemma precedes_of_predecessor (h : s.predecessor a = some b) : s.Precedes b a := by
  unfold Db.predecessor at h
  set l := s.attempts.filter (fun b => b.project = a.project ∧ b.task = a.task ∧
    b.generation < a.generation) with hl
  have hmem : ∀ c, c ∈ l.insertionSort (fun c c' => c'.generation ≤ c.generation) ↔
      c ∈ s.attempts ∧ c.project = a.project ∧ c.task = a.task ∧ c.generation < a.generation := by
    intro c
    rw [List.mem_insertionSort, hl, Table.mem_filter]
  have hsorted : (l.insertionSort (fun c c' => c'.generation ≤ c.generation)).Pairwise
      (fun c c' => c'.generation ≤ c.generation) := by
    have : Std.Total (fun c c' : Attempt => c'.generation ≤ c.generation) :=
      ⟨fun c c' => le_total c'.generation c.generation⟩
    have : IsTrans Attempt (fun c c' => c'.generation ≤ c.generation) :=
      ⟨fun _ _ _ hle hle' => hle'.trans hle⟩
    exact List.pairwise_insertionSort _ _
  obtain ⟨rest, hrest⟩ := List.head?_eq_some_iff.1 h
  rw [hrest] at hmem hsorted
  obtain ⟨hb, hproject, htask, hearlier⟩ := (hmem b).1 List.mem_cons_self
  refine ⟨Table.get?_of_mem hb, hproject, htask, hearlier, fun c hc hcproject hctask hcearlier => ?_⟩
  rcases List.mem_cons.1 ((hmem c).2 ⟨hc, hcproject, hctask, hcearlier⟩) with rfl | hin
  · exact le_rfl
  · exact (List.pairwise_cons.1 hsorted).1 c hin

/-- Two attempts just before the same one are the same. -/
lemma Db.Precedes.unique (hc : s.Distinct k) (htask : a.task = k) {b' : Attempt}
    (h : s.Precedes b a) (h' : s.Precedes b' a) : b = b' := by
  have hle := h'.latest b (Table.mem_of_get? h.mem) h.project h.task h.earlier
  have hle' := h.latest b' (Table.mem_of_get? h'.mem) h'.project h'.task h'.earlier
  have hid := hc _ b _ b' h.mem h'.mem (h.task.trans htask) (h'.task.trans htask)
    (le_antisymm hle hle')
  have hmem := h.mem
  rw [hid, h'.mem] at hmem
  exact (Option.some.inj hmem).symm

lemma Db.Precedes.congr {s' : Db} (h : s.Precedes b a) (attempts : s'.attempts = s.attempts) :
    s'.Precedes b a :=
  ⟨attempts ▸ h.mem, h.project, h.task, h.earlier, attempts ▸ h.latest⟩

lemma predecessor_of_precedes (hc : s.Chain k) (htask : a.task = k) (h : s.Precedes b a) :
    s.predecessor a = some b := by
  cases hp : s.predecessor a with
  | some b' =>
    rw [(precedes_of_predecessor hp).unique hc.distinct htask h]
  | none =>
    unfold Db.predecessor at hp
    have hempty := List.head?_eq_none_iff.1 hp
    have hmem : b ∈ (s.attempts.filter (fun b => b.project = a.project ∧ b.task = a.task ∧
        b.generation < a.generation)).insertionSort
          (fun c c' => c'.generation ≤ c.generation) := by
      rw [List.mem_insertionSort, Table.mem_filter]
      exact ⟨Table.mem_of_get? h.mem, h.project, h.task, h.earlier⟩
    rw [hempty] at hmem
    exact absurd hmem List.not_mem_nil

end Predecessor

/-! ### Tracking a task -/

/-- The attempt is one of the task. -/
def Db.worksOn (s : Db) (id k : Id) : Prop := (s.attempts.get? id).any (fun a => a.task = k) = true

instance (s : Db) (id k : Id) : Decidable (s.worksOn id k) := by
  unfold Db.worksOn; infer_instance

/-- The requests on the attempts of ordinary tasks. -/
def Request.onAttempts : Request → Bool
  | .claim .. | .renew .. | .checkpoint .. | .release .. | .recoveryResolution .. | .submit .. => true
  | _ => false

/-- The revision that stands recorded for task `k` after a request: the one of the latest
checkpoint, until the work is released, submitted or started again. -/
def Request.recorded (k : Id) (s : Db) (w : Option String) : Request → Option String
  | .checkpoint _ id input => if s.worksOn id k then input.revision else w
  | .release _ id _ => if s.worksOn id k then none else w
  | .submit _ id _ => if s.worksOn id k then none else w
  | .recoveryResolution _ id input =>
    if s.worksOn id k ∧ input.disposition = .restart then none else w
  | _ => w

/-- What every other request and the passing of time may do, as far as an ordinary task is
concerned: no attempt of it is granted or writes a checkpoint. -/
structure Db.Elsewhere (s s' : Db) (k : Id) : Prop where
  apart : s.Apart s' k
  checkpoints : ∀ id, s.worksOn id k → s'.latestRevision id = s.latestRevision id

/-- What happens in one step of a tracked task. -/
inductive TrackedAction
  | request (auth : Auth) (req : Request)
  | elsewhere

/-- One step of the database with the revision that stands recorded for task `k`. -/
inductive Tracked (k : Id) : Db × Option String → TrackedAction → Db × Option String → Prop
  | request {s s' : Db} {w : Option String} {auth : Auth} {req : Request}
      (hreq : req.onAttempts = true) (h : serve s auth req = .ok s') :
      Tracked k (s, w) (.request auth req) (s', req.recorded k s w)
  | elsewhere {s s' : Db} {w : Option String} (h : s.Elsewhere s' k) :
      Tracked k (s, w) .elsewhere (s', w)

/-- The revision the latest checkpoint of the task's current attempt recorded. -/
def Db.holderRecorded (s : Db) (k : Id) : Option String :=
  ((s.tasks.get? k).bind (·.currentAttempt)).bind s.latestRevision

/-- The task a claim chooses. -/
def Db.chosen (s : Db) (auth : Auth) (project : Id) (input : ClaimInput) : Option Id :=
  (begin s auth (.claim project input)).toOption.bind fun actor =>
    (chooseTask s actor project input).toOption.join.map (·.id)

/-- The attempt is a recovery of the task that is not resolved yet. -/
def Db.recoversIn (s : Db) (id k : Id) : Bool :=
  (s.attempts.get? id).any (fun a => a.task = k ∧ a.mode = .recovery)

/-- The steps that keep the record next to the recovery that needs it. A recovery takes over only
from the attempt that recorded the revision, and it records no other revision before it is
resolved. -/
def keepsRecord (k : Id) : Db × Option String → TrackedAction → Prop
  | (s, w), .request auth (.claim project input) =>
    input.mode = .recovery → s.chosen auth project input = some k →
      w = none ∨ s.holderRecorded k = w
  | (s, w), .request _ (.checkpoint _ id input) =>
    s.recoversIn id k = true → input.revision = none ∨ input.revision = w
  | _, _ => True

instance (k : Id) (p : Db × Option String) (i : TrackedAction) :
    Decidable (keepsRecord k p i) := by
  unfold keepsRecord; split <;> infer_instance

/-- The states a tracked task reaches, from a service that granted no work yet, by steps that
satisfy `ok`. -/
def TrackedReachable (k : Id) (ok : Db × Option String → TrackedAction → Prop) (s : Db)
    (w : Option String) : Prop :=
  ∃ s₀, Initial s₀ ∧ Run (Tracked k) ok (s₀, none) (s, w)

/-! ### Checkpoints -/

section Checkpoints

variable {s s' : Db} {k id : Id}

lemma latestRevision_addCheckpoint {revision : Option String} {x : Id} (hx : x ≠ id) :
    (s.addCheckpoint id revision).latestRevision x = s.latestRevision x := by
  unfold Db.latestRevision Db.addCheckpoint
  rw [List.filter_append, List.filter_cons_of_neg (by simpa using Ne.symm hx), List.filter_nil,
    List.append_nil]

lemma latestRevision_congr {x : Id} (h : s'.checkpoints = s.checkpoints) :
    s'.latestRevision x = s.latestRevision x := by
  unfold Db.latestRevision
  rw [h]

end Checkpoints

/-! ### Requests that grant nothing -/

section Apart

variable {s s' : Db} {k id : Id} {actor : Actor} {project : Id}

namespace Db.Apart

variable {s'' : Db}

lemma trans (h : s.Apart s' k) (h' : s'.Apart s'' k) : s.Apart s'' k where
  attempts x a'' ha'' htask := by
    obtain ⟨a', ha', hlater'⟩ := h'.attempts x a'' ha'' htask
    obtain ⟨a, ha, hlater⟩ := h.attempts x a' ha' (hlater'.task.symm.trans htask)
    exact ⟨a, ha, hlater.trans hlater'⟩
  kept x a ha htask := by
    obtain ⟨a', ha', hlater⟩ := h.kept x a ha htask
    obtain ⟨a'', ha'', hlater'⟩ := h'.kept x a' ha' (hlater.task.trans htask)
    exact ⟨a'', ha'', hlater.trans hlater'⟩
  task t ht := by
    obtain ⟨t', ht', hproject, hgeneration, hcase⟩ := h.task t ht
    obtain ⟨t'', ht'', hproject', hgeneration', hcase'⟩ := h'.task t' ht'
    refine ⟨t'', ht'', hproject'.trans hproject, hgeneration'.trans hgeneration, ?_⟩
    rcases hcase' with hnone | ⟨hsame', hkept'⟩
    · exact .inl hnone
    · rcases hcase with hnone | ⟨hsame, hkept⟩
      · exact .inl (hsame'.trans hnone)
      · refine .inr ⟨hsame'.trans hsame, fun c a a'' hholds ha htask ha'' => ?_⟩
        obtain ⟨a', ha', hlater⟩ := h.kept c a ha htask
        rcases hkept' c a' a'' (hsame.trans hholds) ha' (hlater.task.trans htask) ha'' with
          heq | hexpired
        · rw [heq]
          exact hkept c a a' hholds ha htask ha'
        · exact .inr hexpired
  created hnone t'' ht'' := by
    cases ht' : s'.tasks.get? k with
    | none => exact h'.created ht' t'' ht''
    | some t' =>
      obtain ⟨t₁, ht₁, -, -, hcase⟩ := h'.task t' ht'
      obtain rfl := Option.some.inj (ht''.symm.trans ht₁)
      rcases hcase with hnone' | ⟨hsame, -⟩
      · exact hnone'
      · exact hsame.trans (h.created hnone t' ht')

/-- A write that touches neither tasks nor attempts. -/
lemma of_eq (attempts : s'.attempts = s.attempts) (tasks : s'.tasks = s.tasks) : s.Apart s' k where
  attempts x a ha _ := ⟨a, attempts ▸ ha, .refl a⟩
  kept x a ha _ := ⟨a, attempts ▸ ha, .refl a⟩
  task t ht := by
    refine ⟨t, tasks ▸ ht, rfl, rfl, .inr ⟨rfl, fun c a a' _ ha _ ha' => .inl ?_⟩⟩
    rw [attempts, ha] at ha'
    rw [Option.some.inj ha']
  created hnone t' ht' := by
    rw [tasks, hnone] at ht'
    exact absurd ht' (by simp)

lemma refl (s : Db) : s.Apart s k := of_eq rfl rfl

lemma finish {actor : Actor} {kind : String} {record : Id} (h : s.Apart s' k) :
    s.Apart (s'.finish actor kind record) k := h.trans (of_eq rfl rfl)

/-- A write of attempts in which none ends except by expiry. -/
lemma setAttempts {A : Table Attempt} (h : s.Apart s' k)
    (hA : Maps.Related Steady s'.attempts.get? A.get?) : s.Apart { s' with attempts := A } k := by
  refine h.trans ⟨fun x a' ha' _ => ?_, fun x a ha _ => ?_, fun t ht => ?_, fun hnone t' ht' => ?_⟩
  · obtain ⟨a, ha, hlater, -⟩ := hA.old x a' ha'
    exact ⟨a, ha, hlater⟩
  · obtain ⟨a', ha', hlater, -⟩ := hA.new x a ha
    exact ⟨a', ha', hlater⟩
  · refine ⟨t, ht, rfl, rfl, .inr ⟨rfl, fun c a a' _ ha _ ha' => ?_⟩⟩
    obtain ⟨a₁, ha₁, -, hstate⟩ := hA.new c a ha
    obtain rfl := Option.some.inj (ha'.symm.trans ha₁)
    exact hstate
  · rw [show s'.tasks.get? k = some t' from ht'] at hnone
    exact absurd hnone (by simp)

lemma addCheckpoint {revision : Option String} (h : s.Apart s' k) :
    s.Apart (s'.addCheckpoint id revision) k := by
  have hsave : s.Apart { s' with checkpoints := s'.checkpoints ++ [⟨id, revision, s'.now⟩] } k :=
    h.trans (of_eq rfl rfl)
  exact hsave.setAttempts (Table.related_modify Steady.refl fun _ _ _ =>
    ⟨⟨rfl, rfl, rfl, .inl rfl, .inl rfl⟩, .inl rfl⟩)

/-- A write of tasks that keeps their project, generation and current attempt. -/
lemma setTasks {T : Table Task} (h : s.Apart s' k)
    (hT : Maps.Related (fun t t' => t'.project = t.project ∧ t'.generation = t.generation ∧
      t'.currentAttempt = t.currentAttempt) s'.tasks.get? T.get?) :
    s.Apart { s' with tasks := T } k := by
  refine h.trans ⟨fun x a ha _ => ⟨a, ha, .refl a⟩, fun x a ha _ => ⟨a, ha, .refl a⟩,
    fun t ht => ?_, fun hnone t' ht' => ?_⟩
  · obtain ⟨t', ht', hproject, hgeneration, hcurrent⟩ := hT.new k t ht
    refine ⟨t', ht', hproject, hgeneration, .inr ⟨hcurrent, fun c a a' _ ha _ ha' => .inl ?_⟩⟩
    rw [Option.some.inj (ha'.symm.trans ha)]
  · exact absurd (ht'.symm.trans (hT.eq_none.2 hnone)) (by simp)

/-- A new task has no attempt. -/
lemma createActivity {subjectTask submission project : Id} {title : String}
    {kind : ActivityKind} {slot : Nat} (h : s.Apart s' k) :
    s.Apart (s'.createActivity project subjectTask title submission kind slot) k := by
  refine h.trans ⟨fun x a ha _ => ⟨a, ha, .refl a⟩, fun x a ha _ => ⟨a, ha, .refl a⟩,
    fun t ht => ?_, fun hnone t' ht' => ?_⟩
  · refine ⟨t, ?_, rfl, rfl, .inr ⟨rfl, fun c a a' _ ha _ ha' => .inl ?_⟩⟩
    · simp only [Db.createActivity, Table.get?_create, if_neg (Table.ne_fresh ht)]
      exact ht
    · rw [Option.some.inj (ha'.symm.trans ha)]
  · simp only [Db.createActivity, Table.get?_create] at ht'
    by_cases hk : k = s'.tasks.fresh
    · rw [if_pos hk] at ht'
      obtain rfl := Option.some.inj ht'
      rfl
    · rw [if_neg hk, hnone] at ht'
      exact absurd ht' (by simp)

/-- The owner's attempt ends, and its task loses it. -/
lemma endOwned {a : Attempt} {own : Id} {g : Attempt → Attempt} {f : Task → Task}
    (hg : ∀ b, Keyed.key (g b) = Keyed.key b) (hf : ∀ t, Keyed.key (f t) = Keyed.key t)
    (ha : s.attempts.get? id = some a) (hown : a.task = own) (hlater : LaterAttempt a (g a))
    (hfields : ∀ t, (f t).project = t.project ∧ (f t).generation = t.generation ∧
      (f t).currentAttempt = none)
    (attempts : s'.attempts = s.attempts.modify (fun b => b.id = id) g hg)
    (tasks : s'.tasks = s.tasks.modify (fun t => t.id = own) f hf) : s.Apart s' k := by
  have hA : Maps.Related (fun b b' => LaterAttempt b b' ∧ (b.id ≠ id → b' = b))
      s.attempts.get? s'.attempts.get? := by
    rw [attempts]
    refine Table.related_modify (fun b => ⟨.refl b, fun _ => rfl⟩) fun b hb hid => ?_
    obtain rfl := Table.eq_of_get? ha hb hid
    exact ⟨hlater, fun hne => absurd hid hne⟩
  refine ⟨fun x b' hb' _ => ?_, fun x b hb _ => ?_, fun t ht => ?_, fun hnone t' ht' => ?_⟩
  · obtain ⟨b, hb, hb₁, -⟩ := hA.old x b' hb'
    exact ⟨b, hb, hb₁⟩
  · obtain ⟨b', hb', hb₁, -⟩ := hA.new x b hb
    exact ⟨b', hb', hb₁⟩
  · have hid : t.id = k := Table.key_of_get? ht
    have ht' := Table.get?_modify s.tasks (fun t => t.id = own) f hf k
    rw [← tasks, ht, Option.map_some] at ht'
    by_cases hk : t.id = own
    · rw [if_pos hk] at ht'
      exact ⟨_, ht', (hfields t).1, (hfields t).2.1, .inl (hfields t).2.2⟩
    · rw [if_neg hk] at ht'
      refine ⟨_, ht', rfl, rfl, .inr ⟨rfl, fun c b b' _ hb htask hb' => .inl ?_⟩⟩
      obtain ⟨b₁, hb₁, -, hsame⟩ := hA.new c b hb
      obtain rfl := Option.some.inj (hb'.symm.trans hb₁)
      -- the attempt that ends is one of another task
      rw [hsame fun hbid => hk ?_]
      rw [show b.id = c from Table.key_of_get? hb] at hbid
      rw [hbid, ha] at hb
      obtain rfl := Option.some.inj hb
      rw [hid, ← htask, hown]
  · have hmodify := Table.get?_modify s.tasks (fun t => t.id = own) f hf k
    rw [← tasks, hnone] at hmodify
    exact absurd (ht'.symm.trans hmodify) (by simp)

end Db.Apart

lemma renew_apart {generation : Int} (h : renew s actor project id generation = .ok s') :
    s.Apart s' k := by
  obtain ⟨a, expires, -, rfl⟩ := renew_ok h
  exact .finish (.setAttempts (.refl s) (Table.related_modify Steady.refl fun a _ _ =>
    ⟨⟨rfl, rfl, rfl, .inl rfl, .inl rfl⟩, .inl rfl⟩))

lemma checkpoint_apart {input : CheckpointInput}
    (h : checkpoint s actor project id input = .ok s') : s.Apart s' k := by
  obtain ⟨a, contributors, -, rfl⟩ := checkpoint_ok h
  exact .finish (.addCheckpoint (.of_eq rfl rfl))

lemma recoveryResolution_apart {input : RecoveryInput}
    (h : recoveryResolution s actor project id input = .ok s') : s.Apart s' k := by
  rw [recoveryResolution_ok h]
  exact .finish (.setAttempts (.addCheckpoint (.refl s)) (Table.related_modify Steady.refl
    fun a _ _ => ⟨⟨rfl, rfl, rfl, .inr rfl, .inl rfl⟩, .inl rfl⟩))

lemma release_apart {input : ReleaseInput} (h : release s actor project id input = .ok s') :
    s.Apart s' k := by
  obtain ⟨a, t, s₁, hown, -, -, rfl, rfl⟩ := release_ok h
  have hsaved : s.Apart (s.addCheckpoint id none) k := .addCheckpoint (.refl s)
  have hattempt : (s.addCheckpoint id none).attempts.get? id =
      some { a with lastProgressAt := s.now } := by
    have hid : a.id = id := Table.key_of_get? hown.attempt
    simp [Db.addCheckpoint, hown.attempt, hid]
  refine .finish (hsaved.trans (.endOwned ?_ ?_ hattempt rfl ?_ ?_ rfl rfl))
  · exact fun _ => rfl
  · exact fun _ => rfl
  · exact ⟨rfl, rfl, rfl, .inl rfl, .inr hown.active⟩
  · exact fun _ => ⟨rfl, rfl, rfl⟩

lemma createActivities_apart {subjectTask submission : Id} {title : String}
    {kinds : List ActivityKind} (h : s.Apart s' k) :
    s.Apart (s'.createActivities project subjectTask title submission kinds) k := by
  unfold Db.createActivities
  induction kinds generalizing s' with
  | nil => exact h
  | cons kind kinds ih => exact ih h.createActivity

lemma keepsOwner_refl (t : Task) : t.project = t.project ∧ t.generation = t.generation ∧
    t.currentAttempt = t.currentAttempt := ⟨rfl, rfl, rfl⟩

lemma createIntegration_apart {subject : OwnedSubject} {submission : Id} {pending : Bool}
    (h : s.Apart s' k) : s.Apart (s'.createIntegration subject submission pending) k := by
  unfold Db.createIntegration
  split
  · exact .setTasks h.createActivity (Table.related_modify keepsOwner_refl fun t _ _ =>
      keepsOwner_refl t)
  · exact h.createActivity

lemma completeTask_apart {task : Id} (h : s.Apart s' k) : s.Apart (s'.completeTask task) k :=
  .setTasks (.setTasks h (Table.related_modify keepsOwner_refl fun t _ _ => keepsOwner_refl t))
    (Table.related_modify keepsOwner_refl fun t _ _ => keepsOwner_refl t)

lemma submit_apart {input : SubmissionInput} (h : submit s actor project id input = .ok s') :
    s.Apart s' k := by
  obtain ⟨subject, canonical, roster, ownerSession, s₀, hown, -, -, hs₀, -, -, rfl⟩ := submit_ok h
  have hstart : s.Apart s₀ k ∧ s₀.attempts = s.attempts := by
    rw [hs₀]
    cases s.previousSubmission project subject.task.id with
    | none => exact ⟨.refl s, rfl⟩
    | some ws => exact ⟨.of_eq rfl rfl, rfl⟩
  obtain ⟨hstart, hattempts⟩ := hstart
  obtain ⟨a, ha, htask, hactive, -⟩ := hown.owner
  rw [← hattempts] at ha
  have henter : s.Apart (s₀.enterWorkflow actor ownerSession id subject input canonical roster
      (s₀.reviewModeFloor subject.task.id subject.project.reviewMode)) k := by
    refine hstart.trans (.endOwned ?_ ?_ ha htask ?_ ?_ rfl rfl)
    · exact fun _ => rfl
    · exact fun _ => rfl
    · exact ⟨rfl, rfl, rfl, .inl rfl, .inr hactive⟩
    · exact fun _ => ⟨rfl, rfl, rfl⟩
  refine .finish ?_
  split
  · refine createIntegration_apart (createActivities_apart henter)
  · split
    · exact completeTask_apart (createActivities_apart henter)
    · exact createActivities_apart henter

end Apart

/-! ### Claims -/

section Claims

variable {s s' : Db} {k : Id} {actor : Actor} {project : Id} {input : ClaimInput}

/-- What `claim` does to attempts: nothing, or a grant on the chosen task. -/
lemma claim_cases (h : claim s actor project input = .ok s') :
    s' = s.finish actor "claim.empty" project ∨
      ∃ t proj ownerSession s₀ s₁, chooseTask s actor project input = .ok (some t) ∧
        ensureClaimable s actor project input t = .ok () ∧
        s₀ = s.endAttempts (fun a => some a.id = t.currentAttempt ∧ a.state = .active) .expired
          "Ownership expired or was revoked; recovery began." ∧
        s₀.grantAttempt (claimGrant s₀ actor project ownerSession proj input.mode t) = .ok s₁ ∧
        s' = (s₁.recordContributor t.id actor.id ownerSession).finish actor "attempt.claimed"
          t.id := by
  simp only [claim, bind_eq_ok, refuseIf_eq_ok, okOr_eq_ok] at h
  obtain ⟨-, -, ownerSession, -, proj, -, -, -, -, -, -, -, -, -, chosen, hchosen, h⟩ := h
  cases chosen with
  | none =>
    simp only [pure_eq_ok] at h
    exact .inl h.symm
  | some t =>
    simp only [claimTask, bind_eq_ok, pure_eq_ok] at h
    obtain ⟨_, hguard, s₁, hgrant, rfl⟩ := h
    exact .inr ⟨t, proj, ownerSession, _, s₁, hchosen, hguard, rfl, hgrant, rfl⟩

/-- A recovery is claimed on a task with a current attempt. -/
lemma holds_of_recovery {t : Task} (h : ensureClaimable s actor project input t = .ok ())
    (hmode : input.mode = .recovery) : t.currentAttempt ≠ none := by
  simp only [ensureClaimable, bind_eq_ok, refuseIf_eq_ok, ne_eq, not_not] at h
  obtain ⟨-, -, -, -, -, -, -, -, -, -, -, -, hstatus⟩ := h
  rw [hmode, if_neg (by simp)] at hstatus
  intro hnone
  unfold Db.status at hstatus
  simp only [hnone, ne_eq, not_true, if_false] at hstatus
  split at hstatus
  · simp at hstatus
  · split at hstatus
    · simp at hstatus
    · cases hphase : (s.workflowSubjects.get? t.id).map WorkflowSubject.phase with
      | none =>
        rw [hphase] at hstatus
        split_ifs at hstatus
      | some phase =>
        rw [hphase] at hstatus
        cases phase with
        | review => simp at hstatus
        | integration => simp at hstatus
        | revisionNeeded => split_ifs at hstatus
        | done => split_ifs at hstatus

/-- Ending the current attempt of a task by expiry. -/
lemma expire_apart {p : Attempt → Prop} [DecidablePred p] {outcome : String}
    (hp : ∀ a, p a → a.state = .active) : s.Apart (s.endAttempts p .expired outcome) k :=
  .setAttempts (.refl s) (Table.related_modify Steady.refl fun a _ ha =>
    ⟨⟨rfl, rfl, rfl, .inl rfl, .inr (hp a ha)⟩, .inr rfl⟩)

/-- A grant on another task. -/
lemma grant_apart {g : Grant} (h : s.grantAttempt g = .ok s') (hk : g.task ≠ k) :
    s.Apart s' k := by
  obtain ⟨-, rfl⟩ := grantAttempt_ok h
  refine ⟨fun x a' ha' htask => ?_, fun x a ha _ => ⟨a, ?_, .refl a⟩, fun t ht => ?_,
    fun hnone t' ht' => ?_⟩
  · simp only [Table.get?_create] at ha'
    split_ifs at ha' with hx
    · obtain rfl := Option.some.inj ha'
      exact absurd htask hk
    · exact ⟨a', ha', .refl a'⟩
  · simp only [Table.get?_create, if_neg (Table.ne_fresh ha)]
    exact ha
  · have hid : t.id = k := Table.key_of_get? ht
    refine ⟨t, ?_, rfl, rfl, .inr ⟨rfl, fun c a a' _ ha _ ha' => .inl ?_⟩⟩
    · simp [ht, hid, Ne.symm hk]
    · simp only [Table.get?_create, if_neg (Table.ne_fresh ha)] at ha'
      rw [Option.some.inj (ha'.symm.trans ha)]
  · simp [hnone] at ht'

/-- A grant under the next generation extends the chain, and the attempt just before it is the one
that was current. -/
lemma Db.Chain.grant {g : Grant} {t : Task} (hc : s.Chain k) (h : s.grantAttempt g = .ok s')
    (ht : s.tasks.get? k = some t) (htask : g.task = k) (hproject : g.project = t.project)
    (hgeneration : g.generation = t.generation + 1)
    (hmode : g.mode = .recovery → t.currentAttempt ≠ none) :
    s'.Chain k ∧ ∀ c b, t.currentAttempt = some c → s.attempts.get? c = some b →
      s'.Precedes b (g.attempt s.now s.attempts.fresh) := by
  obtain ⟨hquiet, rfl⟩ := grantAttempt_ok h
  have hid : t.id = k := Table.key_of_get? ht
  have hattempt : ∀ x a, (s.attempts.create (g.attempt s.now)).get? x = some a →
      (x = s.attempts.fresh ∧ a = g.attempt s.now s.attempts.fresh) ∨
        s.attempts.get? x = some a := by
    intro x a ha
    rw [Table.get?_create] at ha
    split_ifs at ha with hx
    · exact .inl ⟨hx, (Option.some.inj ha).symm⟩
    · exact .inr ha
  have hget : (s.tasks.modify (fun t => t.id = g.task) (fun t =>
      { t with currentAttempt := some s.attempts.fresh, generation := g.generation })).get? k
        = some { t with currentAttempt := some s.attempts.fresh, generation := g.generation } := by
    rw [Table.get?_modify, ht, Option.map_some, if_pos (hid.trans htask.symm)]
  have hprecedes : ∀ c b, t.currentAttempt = some c → s.attempts.get? c = some b →
      Db.Precedes { s with
        attempts := s.attempts.create (g.attempt s.now)
        tasks := s.tasks.modify (fun t => t.id = g.task) (fun t =>
          { t with currentAttempt := some s.attempts.fresh, generation := g.generation }) }
        b (g.attempt s.now s.attempts.fresh) := by
    intro c b hcurrent hb
    obtain ⟨b', hb', hbtask, hbgeneration, -⟩ := hc.holder t c ht hcurrent
    obtain rfl := Option.some.inj (hb.symm.trans hb')
    obtain ⟨t₁, ht₁, hbproject, -⟩ := hc.bounded c b hb hbtask
    obtain rfl := Option.some.inj (ht.symm.trans ht₁)
    have hbid : b.id = c := Table.key_of_get? hb
    refine ⟨?_, hbproject.trans hproject.symm, hbtask.trans htask.symm, ?_, ?_⟩
    · change (s.attempts.create (g.attempt s.now)).get? b.id = some b
      rw [hbid, Table.get?_create, if_neg (Table.ne_fresh hb)]
      exact hb
    · change b.generation < g.generation
      omega
    · intro b' hb' _ hbtask' hlt
      change b'.task = g.task at hbtask'
      have hmem : b' ∈ s.attempts.create (g.attempt s.now) := hb'
      rcases Table.mem_create.1 hmem with hold | rfl
      · obtain ⟨t₂, ht₂, -, hle⟩ := hc.bounded _ b' (Table.get?_of_mem hold)
          (hbtask'.trans htask)
        obtain rfl := Option.some.inj (ht.symm.trans ht₂)
        omega
      · exact absurd hlt (lt_irrefl _)
  have hdistinct : Db.Distinct { s with
      attempts := s.attempts.create (g.attempt s.now)
      tasks := s.tasks.modify (fun t => t.id = g.task) (fun t =>
        { t with currentAttempt := some s.attempts.fresh, generation := g.generation }) } k := by
    intro x a x' a' ha ha' hatask hatask' heq
    have hfresh : ∀ y b, s.attempts.get? y = some b → b.task = k →
        b.generation ≠ g.generation := by
      intro y b hb hbtask
      obtain ⟨t₁, ht₁, -, hle⟩ := hc.bounded y b hb hbtask
      obtain rfl := Option.some.inj (ht.symm.trans ht₁)
      omega
    rcases hattempt x a ha with ⟨rfl, rfl⟩ | hold
    · rcases hattempt x' a' ha' with ⟨rfl, rfl⟩ | hold'
      · rfl
      · exact absurd heq.symm (hfresh x' a' hold' hatask')
    · rcases hattempt x' a' ha' with ⟨rfl, rfl⟩ | hold'
      · exact absurd heq (hfresh x a hold hatask)
      · exact hc.distinct x a x' a' hold hold' hatask hatask' heq
  refine ⟨⟨?_, hdistinct, ?_, ?_⟩, hprecedes⟩
  · intro x a ha hatask
    refine ⟨_, hget, ?_⟩
    rcases hattempt x a ha with ⟨-, rfl⟩ | hold
    · exact ⟨hproject, le_rfl⟩
    · obtain ⟨t₁, ht₁, haproject, hle⟩ := hc.bounded x a hold hatask
      obtain rfl := Option.some.inj (ht.symm.trans ht₁)
      refine ⟨haproject, ?_⟩
      change a.generation ≤ g.generation
      omega
  · intro t' c ht' hcurrent
    obtain rfl := Option.some.inj (ht'.symm.trans hget)
    obtain rfl := Option.some.inj hcurrent
    refine ⟨g.attempt s.now s.attempts.fresh, ?_, htask, rfl, .inl rfl⟩
    change (s.attempts.create (g.attempt s.now)).get? s.attempts.fresh = _
    rw [Table.get?_create, if_pos rfl]
  · intro t' c a b ht' hcurrent ha hamode hb
    obtain rfl := Option.some.inj (ht'.symm.trans hget)
    obtain rfl := Option.some.inj hcurrent
    obtain ⟨-, rfl⟩ | hold := hattempt _ a ha
    · obtain ⟨c, hholds⟩ := Option.ne_none_iff_exists'.1 (hmode hamode)
      obtain ⟨b', hb', hbtask, -, hstate⟩ := hc.holder t c ht hholds
      obtain rfl := hb.unique hdistinct htask (hprecedes c b' hholds hb')
      -- the unique index lets no attempt of the task be active
      exact hstate.resolve_left (hquiet b (Table.mem_of_get? hb') (hbtask.trans htask.symm)).1
    · exact absurd rfl (Table.ne_fresh hold)

/-- A grant becomes the current attempt of its task. -/
lemma grant_current {g : Grant} {t : Task} (h : s.grantAttempt g = .ok s')
    (ht : s.tasks.get? k = some t) (htask : g.task = k) :
    s'.tasks.get? k
        = some { t with currentAttempt := some s.attempts.fresh, generation := g.generation } ∧
      s'.attempts.get? s.attempts.fresh = some (g.attempt s.now s.attempts.fresh) := by
  obtain ⟨-, rfl⟩ := grantAttempt_ok h
  have hid : t.id = k := Table.key_of_get? ht
  constructor
  · simp [ht, hid, htask]
  · simp

/-- What `claim` does to the task: nothing, or a grant under its next generation. -/
lemma claim_chain (hc : s.Chain k) (h : claim s actor project input = .ok s') :
    s'.checkpoints = s.checkpoints ∧ (s.Apart s' k ∨
      ∃ t a, chooseTask s actor project input = .ok (some t) ∧ t.id = k ∧ s'.Chain k ∧
        s'.tasks.get? k = some { t with currentAttempt := some a.id, generation := a.generation } ∧
        s'.attempts.get? a.id = some a ∧ a.mode = input.mode ∧
        ∀ c, t.currentAttempt = some c → ∃ b, s'.Precedes b a ∧ b.id = c) := by
  obtain rfl | ⟨t, proj, ownerSession, s₀, s₁, hchosen, hguard, hs₀, hgrant, rfl⟩ := claim_cases h
  · exact ⟨rfl, .inl (.of_eq rfl rfl)⟩
  · have hexpire : s.Apart s₀ k := by
      rw [hs₀]
      exact expire_apart fun a ha => ha.2
    have hcheckpoints : s₁.checkpoints = s.checkpoints := by
      obtain ⟨-, rfl⟩ := grantAttempt_ok hgrant
      rw [hs₀]
      rfl
    refine ⟨hcheckpoints, ?_⟩
    by_cases hk : t.id = k
    · refine .inr ?_
      have hc₀ := hc.apart hexpire
      obtain ⟨ht, hproject⟩ := chooseTask_ok hchosen
      have ht₀ : s₀.tasks.get? k = some t := by
        rw [hs₀, ← hk]
        exact ht
      obtain ⟨hc₁, hprecedes⟩ := hc₀.grant hgrant ht₀ hk hproject.symm rfl
        (holds_of_recovery hguard)
      obtain ⟨htask, hattempt⟩ := grant_current hgrant ht₀ hk
      refine ⟨t, (claimGrant s₀ actor project ownerSession proj input.mode t).attempt s₀.now
        s₀.attempts.fresh, hchosen, hk, hc₁.apart (.of_eq rfl rfl), htask, hattempt, rfl,
        fun c hcurrent => ?_⟩
      obtain ⟨b, hb, -⟩ := hc₀.holder t c ht₀ hcurrent
      exact ⟨b, (hprecedes c b hcurrent hb).congr rfl, Table.key_of_get? hb⟩
    · refine .inl (.finish (hexpire.trans ((grant_apart hgrant hk).trans ?_)))
      exact .of_eq rfl rfl

end Claims

/-! ### Recoveries in progress -/

/-- The attempt is the current one of the task, and a recovery that is not resolved. -/
structure Db.Recovering (s : Db) (k : Id) (a : Attempt) : Prop where
  mem : s.attempts.get? a.id = some a
  task : a.task = k
  mode : a.mode = .recovery
  current : ∃ t, s.tasks.get? k = some t ∧ t.currentAttempt = some a.id

/-- The attempt just before an unresolved recovery of the task recorded the revision in its latest
checkpoint. -/
def Db.RecordedNext (s : Db) (k : Id) (x : String) : Prop :=
  ∀ a, s.Recovering k a → ∃ b, s.Precedes b a ∧ s.latestRevision b.id = some x

section Recovering

variable {s s' : Db} {k id : Id} {a b : Attempt} {x : String}

/-- Looking forward over a change that grants nothing, an attempt still precedes another. -/
lemma Db.Apart.precedes_forward (h : s.Apart s' k) {a' : Attempt} (ha : LaterAttempt a a')
    (htask : a.task = k) (hb : s.Precedes b a) : ∃ b', s'.Precedes b' a' ∧ b'.id = b.id := by
  obtain ⟨b', hb', hlater⟩ := h.kept _ b hb.mem (hb.task.trans htask)
  have hid : b'.id = b.id := Table.key_of_get? hb'
  refine ⟨b', ⟨hid ▸ hb', ?_, ?_, ?_, ?_⟩, hid⟩
  · rw [hlater.project, ha.project, hb.project]
  · rw [hlater.task, ha.task, hb.task]
  · rw [hlater.generation, ha.generation]
    exact hb.earlier
  · intro c' hc' hproject hctask hgeneration
    obtain ⟨c, hc, hclater⟩ := h.attempts _ c' (Table.get?_of_mem hc')
      (by rw [hctask, ha.task, htask])
    rw [hclater.generation, hlater.generation]
    refine hb.latest c (Table.mem_of_get? hc) ?_ ?_ ?_
    · rw [← hclater.project, hproject, ha.project]
    · rw [← hclater.task, hctask, ha.task]
    · rw [← hclater.generation, ← ha.generation]
      exact hgeneration

/-- An unresolved recovery was one before a change that grants nothing. -/
lemma Db.Apart.recovering (h : s.Apart s' k) {a' : Attempt} (ha' : s'.Recovering k a') :
    ∃ a, s.Recovering k a ∧ LaterAttempt a a' := by
  obtain ⟨a, ha, hlater⟩ := h.attempts _ a' ha'.mem ha'.task
  have hid : a.id = a'.id := Table.key_of_get? ha
  obtain ⟨t', ht', hcurrent⟩ := ha'.current
  refine ⟨a, ⟨hid ▸ ha, hlater.task.symm.trans ha'.task, ?_, ?_⟩, hlater⟩
  · rcases hlater.mode with heq | hwork
    · rw [← heq, ha'.mode]
    · rw [ha'.mode] at hwork
      exact absurd hwork (by simp)
  · cases ht : s.tasks.get? k with
    | none =>
      rw [h.created ht t' ht'] at hcurrent
      exact absurd hcurrent (by simp)
    | some t =>
      obtain ⟨t₁, ht₁, -, -, hcase⟩ := h.task t ht
      obtain rfl := Option.some.inj (ht'.symm.trans ht₁)
      rcases hcase with hnone | ⟨hsame, -⟩
      · rw [hnone] at hcurrent
        exact absurd hcurrent (by simp)
      · exact ⟨t, rfl, by rw [← hsame, hcurrent, hid]⟩

/-- A change that grants nothing, and writes no checkpoint of the attempt just before, keeps the
record next to the recovery. -/
lemma Db.RecordedNext.apart (hnext : s.RecordedNext k x) (h : s.Apart s' k)
    (hrevision : ∀ a b, s.Recovering k a → s.Precedes b a →
      s'.latestRevision b.id = s.latestRevision b.id) : s'.RecordedNext k x := by
  intro a' ha'
  obtain ⟨a, ha, hlater⟩ := h.recovering ha'
  obtain ⟨b, hb, hrecorded⟩ := hnext a ha
  obtain ⟨b', hb', hid⟩ := h.precedes_forward hlater ha.task hb
  exact ⟨b', hb', by rw [hid, hrevision a b ha hb, hrecorded]⟩

/-- Who owns an attempt of the task owns the recovery that is in progress. -/
lemma Db.Recovering.id_of_owned {actor : Actor} {project : Id} {a₁ : Attempt}
    (ha : s.Recovering k a) (hown : s.Owns actor project id a₁) (htask : a₁.task = k) :
    a.id = id := by
  obtain ⟨t, ht, hcurrent⟩ := ha.current
  obtain ⟨t₁, ht₁, -, hcurrent₁, -⟩ := hown.task
  rw [htask, ht] at ht₁
  obtain rfl := Option.some.inj ht₁
  rw [hcurrent] at hcurrent₁
  exact Option.some.inj hcurrent₁

/-- The attempt just before an unresolved recovery is nobody's to write to. -/
lemma Db.Precedes.ne_owned {actor : Actor} {project : Id} {a₁ : Attempt} (hb : s.Precedes b a)
    (ha : s.Recovering k a) (hown : s.Owns actor project id a₁) : b.id ≠ id := by
  intro hid
  have hmem := hb.mem
  rw [hid, hown.attempt] at hmem
  obtain rfl := Option.some.inj hmem
  have hget := ha.mem
  rw [ha.id_of_owned hown (hb.task.trans ha.task), hown.attempt] at hget
  obtain rfl := Option.some.inj hget
  exact absurd hb.earlier (lt_irrefl _)

/-- The ownership, decision and quiescence checks of `recovery_resolution`, on a readable
summary. -/
structure Db.Cleared (s : Db) (actor : Actor) (project : Id) (a : Attempt)
    (input : RecoveryInput) : Prop where
  summary : bounded input.summary "summary" 8192 true = .ok ()
  owned : owned s actor project a.id input.generation = .ok a
  outside : guardReleaseOrRecovery s project a.task = .ok ()
  decisions : ensureDecisionsResolved s project a.task = .ok ()
  quiescent : ensureAttemptQuiescent s project a.task = .ok ()

/-- A resolution of a recovery is accepted when the checks pass and the evidence is there. -/
lemma recoveryResolution_iff {actor : Actor} {project : Id} {input : RecoveryInput}
    (ha : s.attempts.get? a.id = some a) (hmode : a.mode = .recovery) :
    (∃ s', recoveryResolution s actor project a.id input = .ok s') ↔
      s.Cleared actor project a input ∧
        validateRevision input.fetchedRevision "fetched_revision" = .ok () ∧
          ∃ e, establish s a input = .ok e := by
  constructor
  · rintro ⟨s', h⟩
    simp only [recoveryResolution, bind_eq_ok, pure_eq_ok] at h
    obtain ⟨_, hsummary, _, hfetched, a', hown, _, houtside, _, hdecisions, _, -, _, hquiescent,
      e, he, -⟩ := h
    obtain rfl := Option.some.inj (ha.symm.trans (owned_ok hown).attempt)
    exact ⟨⟨hsummary, hown, houtside, hdecisions, hquiescent⟩, hfetched, e, he⟩
  · rintro ⟨hcleared, hfetched, e, he⟩
    simp only [recoveryResolution, bind_eq_ok, pure_eq_ok, refuseIf_eq_ok]
    exact ⟨_, (), hcleared.summary, (), hfetched, a, hcleared.owned, (), hcleared.outside, (),
      hcleared.decisions, (), not_not.2 hmode, (), hcleared.quiescent, e, he, rfl⟩

end Recovering

/-! ### Runs -/

section Runs

variable {k : Id}

/-- A request keeps the chain of the task. -/
lemma serve_chain {s s' : Db} {auth : Auth} {req : Request} (hreq : req.onAttempts = true)
    (hc : s.Chain k) (h : serve s auth req = .ok s') : s'.Chain k := by
  obtain ⟨actor, -, -, hhandle⟩ := serve_ok h
  cases req with
  | claim project input =>
    obtain ⟨-, hapart | ⟨t, a, -, -, hchain, -⟩⟩ := claim_chain hc hhandle
    · exact hc.apart hapart
    · exact hchain
  | renew => exact hc.apart (renew_apart hhandle)
  | checkpoint => exact hc.apart (checkpoint_apart hhandle)
  | release => exact hc.apart (release_apart hhandle)
  | recoveryResolution => exact hc.apart (recoveryResolution_apart hhandle)
  | submit => exact hc.apart (submit_apart hhandle)
  | _ => exact absurd hreq (by simp [Request.onAttempts])

lemma validateRevision_name {value : Option String} {name name' : String}
    (h : validateRevision value name = .ok ()) : validateRevision value name' = .ok () := by
  simp only [validateRevision, refuseIf_eq_ok] at h ⊢
  exact h

/-- The revision that stands recorded is a full commit SHA. -/
lemma recorded_valid {s s' : Db} {w : Option String} {auth : Auth} {req : Request}
    (hw : validateRevision w "fetched_revision" = .ok ()) (h : serve s auth req = .ok s') :
    validateRevision (req.recorded k s w) "fetched_revision" = .ok () := by
  have hnone : validateRevision none "fetched_revision" = .ok () := rfl
  obtain ⟨actor, -, -, hhandle⟩ := serve_ok h
  cases req with
  | checkpoint project id input =>
    simp only [Request.handle, checkpoint, bind_eq_ok] at hhandle
    obtain ⟨-, -, -, -, -, -, -, -, -, -, _, hrevision, -⟩ := hhandle
    simp only [Request.recorded]
    split
    · exact validateRevision_name hrevision
    · exact hw
  | release project id input =>
    simp only [Request.recorded]
    split
    · exact hnone
    · exact hw
  | submit project id input =>
    simp only [Request.recorded]
    split
    · exact hnone
    · exact hw
  | recoveryResolution project id input =>
    simp only [Request.recorded]
    split
    · exact hnone
    · exact hw
  | _ => exact hw

/-- What holds of the task and its record in every state reached. -/
structure Follows (k : Id) (p : Db × Option String) : Prop where
  chain : p.1.Chain k
  valid : validateRevision p.2 "fetched_revision" = .ok ()

lemma Tracked.follows {p p' : Db × Option String} {i : TrackedAction} (hp : Follows k p)
    (h : Tracked k p i p') : Follows k p' := by
  cases h with
  | request hreq h => exact ⟨serve_chain hreq hp.chain h, recorded_valid hp.valid h⟩
  | elsewhere h => exact ⟨hp.chain.apart h.apart, hp.valid⟩

lemma Initial.follows {s : Db} (h : Initial s) : Follows k (s, none) := by
  have hempty : ∀ id, s.attempts.get? id = none := by
    intro id
    rw [h.attempts]
    rfl
  refine ⟨⟨?_, ?_, ?_, ?_⟩, rfl⟩
  · intro id a ha
    rw [hempty] at ha
    exact absurd ha (by simp)
  · intro id a id' a' ha
    rw [hempty] at ha
    exact absurd ha (by simp)
  · intro t c ht hcurrent
    rw [h.tasks k t ht] at hcurrent
    exact absurd hcurrent (by simp)
  · intro t c a b ht hcurrent
    rw [h.tasks k t ht] at hcurrent
    exact absurd hcurrent (by simp)

lemma TrackedReachable.follows {ok : Db × Option String → TrackedAction → Prop} {s : Db}
    {w : Option String} (h : TrackedReachable k ok s w) : Follows k (s, w) := by
  obtain ⟨s₀, hinit, hrun⟩ := h
  exact hrun.invariant (fun _ _ _ hp _ hstep => hstep.follows hp) hinit.follows

/-- The record is next to the recovery that needs it. -/
def KeptNext (k : Id) (p : Db × Option String) : Prop := ∀ x, p.2 = some x → p.1.RecordedNext k x

section Keep

variable {s s' : Db} {id : Id} {actor : Actor} {project : Id} {w : Option String}

/-- A claim of the task's recovery finds the record at the attempt it takes over from. -/
lemma claim_keeps {auth : Auth} {input : ClaimInput} (hc : s.Chain k) (hkept : KeptNext k (s, w))
    (hbegin : begin s auth (.claim project input) = .ok actor)
    (hok : keepsRecord k (s, w) (.request auth (.claim project input)))
    (h : claim s actor project input = .ok s') : KeptNext k (s', w) := by
  intro x hw
  obtain ⟨hcheckpoints, hapart | ⟨t, a, hchosen, hk, hchain, ht', ha', hmode, hprecedes⟩⟩ :=
    claim_chain hc h
  · exact (hkept x hw).apart hapart fun _ _ _ _ => latestRevision_congr hcheckpoints
  · intro a₁ ha₁
    -- the recovery in progress is the one just granted
    obtain ⟨t₁, ht₁, hcurrent⟩ := ha₁.current
    obtain rfl := Option.some.inj (ht₁.symm.trans ht')
    have hid : a.id = a₁.id := Option.some.inj hcurrent
    have hmem := ha₁.mem
    rw [← hid, ha'] at hmem
    obtain rfl := Option.some.inj hmem
    have hchosen' : s.chosen auth project input = some k := by
      unfold Db.chosen
      rw [hbegin]
      change (chooseTask s actor project input).toOption.join.map (·.id) = some k
      rw [hchosen, ← hk]
      rfl
    have ht : s.tasks.get? k = some t := hk ▸ (chooseTask_ok hchosen).1
    rcases hok (hmode ▸ ha₁.mode) hchosen' with hnone | hholder
    · rw [hnone] at hw
      exact absurd hw (by simp)
    · simp only [Db.holderRecorded, ht, Option.bind_some] at hholder
      cases hcurrent₀ : t.currentAttempt with
      | none =>
        rw [hcurrent₀, show w = some x from hw] at hholder
        exact absurd hholder (by simp)
      | some c =>
        obtain ⟨b, hb, hbid⟩ := hprecedes c hcurrent₀
        rw [hcurrent₀, Option.bind_some] at hholder
        exact ⟨b, hb, by rw [latestRevision_congr hcheckpoints, hbid, hholder]; exact hw⟩

/-- A checkpoint is the owner's, and its owner's recovery records nothing else. -/
lemma checkpoint_keeps {auth : Auth} {input : CheckpointInput} (hkept : KeptNext k (s, w))
    (hok : keepsRecord k (s, w) (.request auth (.checkpoint project id input)))
    (h : checkpoint s actor project id input = .ok s') :
    KeptNext k (s', (Request.checkpoint project id input).recorded k s w) := by
  intro x hw
  have hapart : s.Apart s' k := checkpoint_apart h
  obtain ⟨a₁, contributors, howned, rfl⟩ := checkpoint_ok h
  have hown := owned_ok howned
  intro a' ha'
  obtain ⟨a, ha, -⟩ := hapart.recovering ha'
  have hx : w = some x := by
    simp only [Request.recorded] at hw
    split_ifs at hw with hon
    · simp only [Db.worksOn, hown.attempt, Option.any_some, decide_eq_true_eq] at hon
      have hrecovers : s.recoversIn id k = true := by
        have hmem := ha.mem
        rw [ha.id_of_owned hown hon, hown.attempt] at hmem
        obtain rfl := Option.some.inj hmem
        simp [Db.recoversIn, hown.attempt, hon, ha.mode]
      rcases hok hrecovers with hnone | hsame
      · rw [hnone] at hw
        exact absurd hw (by simp)
      · rw [← hsame, hw]
    · exact hw
  refine (hkept x hx).apart hapart (fun a b ha hb => ?_) a' ha'
  exact latestRevision_addCheckpoint (hb.ne_owned ha hown)

lemma release_keeps {input : ReleaseInput} (hkept : KeptNext k (s, w))
    (h : release s actor project id input = .ok s') :
    KeptNext k (s', (Request.release project id input).recorded k s w) := by
  intro x hw
  simp only [Request.recorded] at hw
  split_ifs at hw with hon
  have hapart : s.Apart s' k := release_apart h
  obtain ⟨a₁, t, s₁, hown, -, -, rfl, rfl⟩ := release_ok h
  refine (hkept x hw).apart hapart fun a b ha hb => ?_
  exact latestRevision_addCheckpoint (hb.ne_owned ha hown)

lemma createActivities_checkpoints {subjectTask submission : Id} {title : String}
    (kinds : List ActivityKind) :
    (s.createActivities project subjectTask title submission kinds).checkpoints
      = s.checkpoints := by
  unfold Db.createActivities
  induction kinds generalizing s with
  | nil => rfl
  | cons kind kinds ih => exact ih

lemma submit_checkpoints {input : SubmissionInput} (h : submit s actor project id input = .ok s') :
    s'.checkpoints = s.checkpoints := by
  obtain ⟨subject, canonical, roster, ownerSession, s₀, -, -, -, hs₀, -, -, rfl⟩ := submit_ok h
  have hprevious : s₀.checkpoints = s.checkpoints := by
    rw [hs₀]
    cases s.previousSubmission project subject.task.id <;> rfl
  refine Eq.trans ?_ hprevious
  have hqueue : ((s₀.enterWorkflow actor ownerSession id subject input canonical roster
      (s₀.reviewModeFloor subject.task.id subject.project.reviewMode)).createActivities
        subject.project.id subject.task.id subject.task.title s₀.submissions.fresh
        (neededReviews (s₀.reviewModeFloor subject.task.id subject.project.reviewMode))).checkpoints
      = s₀.checkpoints := createActivities_checkpoints _
  simp only [Db.writeSubmission]
  split
  · unfold Db.createIntegration
    split <;> exact hqueue
  · split <;> exact hqueue

lemma submit_keeps {input : SubmissionInput} (hkept : KeptNext k (s, w))
    (h : submit s actor project id input = .ok s') :
    KeptNext k (s', (Request.submit project id input).recorded k s w) := by
  intro x hw
  simp only [Request.recorded] at hw
  split_ifs at hw with hon
  exact (hkept x hw).apart (submit_apart h) fun _ _ _ _ =>
    latestRevision_congr (submit_checkpoints h)

/-- A resolution ends the recovery it resolves. -/
lemma recoveryResolution_keeps {input : RecoveryInput} (hkept : KeptNext k (s, w))
    (h : recoveryResolution s actor project id input = .ok s') :
    KeptNext k (s', (Request.recoveryResolution project id input).recorded k s w) := by
  intro x hw a' ha'
  have hapart : s.Apart s' k := recoveryResolution_apart h
  have hx : w = some x := by
    simp only [Request.recorded] at hw
    split_ifs at hw
    exact hw
  obtain ⟨a₁, hown⟩ : ∃ a₁, s.Owns actor project id a₁ := by
    simp only [recoveryResolution, bind_eq_ok] at h
    obtain ⟨-, -, -, -, a₁, howned, -⟩ := h
    exact ⟨a₁, owned_ok howned⟩
  rw [recoveryResolution_ok h] at ha' hapart ⊢
  refine (hkept x hx).apart hapart (fun a b ha hb => ?_) a' ha'
  exact latestRevision_addCheckpoint (hb.ne_owned ha hown)

end Keep

/-- The steps that keep the record next to the recovery do. -/
lemma Tracked.keepsNext {p p' : Db × Option String} {i : TrackedAction} (hp : Follows k p)
    (hkept : KeptNext k p) (hok : keepsRecord k p i) (h : Tracked k p i p') : KeptNext k p' := by
  cases h with
  | request hreq h =>
    obtain ⟨actor, hbegin, -, hhandle⟩ := serve_ok h
    cases ‹Request› with
    | claim project input => exact claim_keeps hp.chain hkept hbegin hok hhandle
    | renew project id generation =>
      intro x hw
      refine (hkept x hw).apart (renew_apart hhandle) fun _ _ _ _ => latestRevision_congr ?_
      obtain ⟨a, expires, -, rfl⟩ := renew_ok hhandle
      rfl
    | checkpoint project id input => exact checkpoint_keeps hkept hok hhandle
    | release project id input => exact release_keeps hkept hhandle
    | recoveryResolution project id input => exact recoveryResolution_keeps hkept hhandle
    | submit project id input => exact submit_keeps hkept hhandle
    | _ => exact absurd hreq (by simp [Request.onAttempts])
  | elsewhere h =>
    intro x hw
    refine (hkept x hw).apart h.apart fun a b ha hb => h.checkpoints b.id ?_
    simp [Db.worksOn, hb.mem, hb.task.trans ha.task]

lemma TrackedReachable.recordedNext {s : Db} {x : String}
    (h : TrackedReachable k (keepsRecord k) s (some x)) : s.RecordedNext k x := by
  obtain ⟨s₀, hinit, hrun⟩ := h
  have hboth := hrun.invariant (I := fun p => Follows k p ∧ KeptNext k p)
    (fun _ _ _ hp hok hstep => ⟨hstep.follows hp.1, hstep.keepsNext hp.1 hp.2 hok⟩)
    ⟨hinit.follows, fun _ hnone => absurd hnone (by simp)⟩
  exact hboth.2 x rfl

end Runs

/-! ### The evidence of a recovery -/

/-- Recovery of the task asks for the revision: it is resolved only with it, as verified, and it is
resolved with it when the other checks pass. -/
def RecoversRecord (s : Db) (k : Id) (x : String) : Prop :=
  ∀ actor project a input, s.Recovering k a →
    (∀ s', recoveryResolution s actor project a.id input = .ok s' →
      input.fetchedRevision = some x ∧ establish s a input = .ok .verified) ∧
    (s.Cleared actor project a input → input.fetchedRevision = some x →
      ∃ s', recoveryResolution s actor project a.id input = .ok s')

/-- The attempt just before a recovery that somebody may resolve recorded the revision. -/
def RecordedBefore (s : Db) (k : Id) (x : String) : Prop :=
  ∀ actor project a input, s.Recovering k a → s.Cleared actor project a input →
    ∃ b, s.Precedes b a ∧ s.latestRevision b.id = some x

section Evidence

variable {s : Db} {k : Id} {a b : Attempt} {input : RecoveryInput} {x : String}

/-- What a record of the predecessor asks for. -/
lemma establish_recorded {prior : Attempt} (hprior : s.predecessor a = some prior)
    (hrecorded : s.latestRevision prior.id = some x) {e : Evidence}
    (h : establish s a input = .ok e) : input.fetchedRevision = some x ∧ e = .verified := by
  simp only [establish, hprior, Option.bind_some, hrecorded, Option.map_some, bind_eq_ok,
    okOr_eq_ok, refuseIf_eq_ok, pure_eq_ok, not_not] at h
  obtain ⟨_, -, fetched, hfetched, _, rfl, rfl⟩ := h
  exact ⟨hfetched, rfl⟩

lemma establish_verified (hc : s.Chain k) (ha : s.Recovering k a) (hb : s.Precedes b a)
    (hrecorded : s.latestRevision b.id = some x) (hfetched : input.fetchedRevision = some x) :
    establish s a input = .ok .verified := by
  obtain ⟨t, ht, hcurrent⟩ := ha.current
  have hexpired := hc.superseded t a.id a b ht hcurrent ha.mem ha.mode hb
  have hlt := hb.earlier
  have hprior := predecessor_of_precedes hc ha.task hb
  simp only [establish, hprior, Option.bind_some, hrecorded, Option.map_some, bind_eq_ok,
    okOr_eq_ok, refuseIf_eq_ok, pure_eq_ok, not_not]
  exact ⟨(), not_or.2 ⟨not_not.2 hexpired, not_le.2 hlt⟩, x, hfetched, (), rfl, trivial⟩

/-- Without a record of the predecessor the caller's word is enough. -/
lemma establish_attested (h : ∀ b, s.predecessor a = some b → s.latestRevision b.id = none)
    (hsaved : input.savedWorkChecked = true) (hjobs : input.runningJobsChecked = true) :
    establish s a input = .ok .attested := by
  have hnone : (s.predecessor a).bind (fun prior =>
      (s.latestRevision prior.id).map (fun recorded => (prior, recorded))) = none := by
    cases hp : s.predecessor a with
    | none => rfl
    | some b => rw [Option.bind_some, h b hp, Option.map_none]
  simp only [establish, hnone, bind_eq_ok, refuseIf_eq_ok, pure_eq_ok]
  exact ⟨(), by simp [hsaved, hjobs], trivial⟩

/-- Recovery asks for the revision exactly when the attempt just before recorded it. -/
lemma recoversRecord_iff (hc : s.Chain k)
    (hvalid : validateRevision (some x) "fetched_revision" = .ok ()) :
    RecoversRecord s k x ↔ RecordedBefore s k x := by
  constructor
  · intro h actor project a input ha hcleared
    cases hp : (s.predecessor a).bind (fun b => s.latestRevision b.id) with
    | none =>
      -- the caller's word would be taken
      let attested : RecoveryInput := { input with
        fetchedRevision := none, savedWorkChecked := true, runningJobsChecked := true }
      have haccepted : ∃ s', recoveryResolution s actor project a.id attested = .ok s' := by
        refine (recoveryResolution_iff ha.mem ha.mode).2 ⟨?_, rfl, _, establish_attested ?_ rfl rfl⟩
        · exact ⟨hcleared.summary, hcleared.owned, hcleared.outside, hcleared.decisions,
            hcleared.quiescent⟩
        · intro b hb
          rwa [hb, Option.bind_some] at hp
      obtain ⟨s', hs'⟩ := haccepted
      exact absurd ((h actor project a attested ha).1 s' hs').1 (by simp [attested])
    | some y =>
      obtain ⟨b, hb, hrecorded⟩ := Option.bind_eq_some_iff.1 hp
      refine ⟨b, precedes_of_predecessor hb, ?_⟩
      -- the revision itself must be enough
      let fetched : RecoveryInput := { input with fetchedRevision := some x }
      have hcleared' : s.Cleared actor project a fetched :=
        ⟨hcleared.summary, hcleared.owned, hcleared.outside, hcleared.decisions,
          hcleared.quiescent⟩
      obtain ⟨-, -, e, he⟩ := (recoveryResolution_iff ha.mem ha.mode).1
        ((h actor project a fetched ha).2 hcleared' rfl)
      obtain ⟨hsame, -⟩ := establish_recorded hb hrecorded he
      rw [hrecorded, ← hsame]
  · intro h actor project a input ha
    constructor
    · intro s' hs'
      obtain ⟨hcleared, -, e, he⟩ := (recoveryResolution_iff ha.mem ha.mode).1 ⟨s', hs'⟩
      obtain ⟨b, hb, hrecorded⟩ := h actor project a input ha hcleared
      obtain ⟨hfetched, rfl⟩ :=
        establish_recorded (predecessor_of_precedes hc ha.task hb) hrecorded he
      exact ⟨hfetched, he⟩
    · intro hcleared hfetched
      obtain ⟨b, hb, hrecorded⟩ := h actor project a input ha hcleared
      exact (recoveryResolution_iff ha.mem ha.mode).2
        ⟨hcleared, by rw [hfetched]; exact hvalid, _, establish_verified hc ha hb hrecorded hfetched⟩

end Evidence

/-- In every state reached, recovery of the task asks for the revision that stands recorded exactly
when the attempt just before the recovery recorded it; and it does in every run in which a recovery
takes over from the attempt that recorded the revision. -/
theorem recovery_exact (k : Id) (s : Db) (x : String) :
    (TrackedReachable k (fun _ _ => True) s (some x) →
      (RecoversRecord s k x ↔ RecordedBefore s k x)) ∧
    (TrackedReachable k (keepsRecord k) s (some x) → RecoversRecord s k x) := by
  constructor
  · intro h
    exact recoversRecord_iff h.follows.chain h.follows.valid
  · intro h
    have hnext := h.recordedNext
    exact (recoversRecord_iff h.follows.chain h.follows.valid).2
      fun _ _ a _ ha _ => hnext a ha

/-! ### Recoveries of an agent's work -/

/-- What a tracked task goes through in one happening. -/
def Happening.tracked : Happening → TrackedAction
  | .request auth req => .request auth req
  | .wait _ => .elsewhere

/-- One happening, with the revision that stands recorded for task `k`. -/
def track (k : Id) (p : Db × Option String) : Happening → Option (Db × Option String)
  | .request auth req =>
    if req.onAttempts then
      (serve p.1 auth req).toOption.map fun s => (s, req.recorded k p.1 p.2)
    else none
  | .wait ms => some ({ p.1 with now := p.1.now + ms }, p.2)

section Track

variable {k : Id} {p p' : Db × Option String}

lemma elsewhere_wait (s : Db) (ms : Nat) : s.Elsewhere { s with now := s.now + ms } k :=
  ⟨.of_eq rfl rfl, fun _ _ => rfl⟩

lemma track_step {h : Happening} (hp : track k p h = some p') : Tracked k p h.tracked p' := by
  cases h with
  | request auth req =>
    simp only [track] at hp
    split at hp
    · obtain ⟨s', hs', rfl⟩ := Option.map_eq_some_iff.1 hp
      exact .request ‹_› (toOption_eq_some.1 hs')
    · exact absurd hp (by simp)
  | wait ms =>
    obtain rfl := Option.some.inj hp
    exact .elsewhere (elsewhere_wait p.1 ms)

/-- Happenings that can be followed are a run of the tracked task. -/
lemma tracked_of_follow {ok : Db × Option String → TrackedAction → Prop}
    [∀ p i, Decidable (ok p i)] {l : List Happening}
    (h : follow (track k) (fun p h => ok p h.tracked) p l = some p') : Run (Tracked k) ok p p' := by
  have hrun := run_of_follow h
  clear h
  induction hrun with
  | refl => exact .refl _
  | tail _ hok hstep ih => exact .tail ih hok (track_step hstep)

end Track

open Scenario

/-- An agent recovers the task from its expired attempt. -/
def recovers (n : Id) : Happening :=
  .request (agent n) (.claim 1 ⟨.recovery, some 1, some 1, 1, instructionVersion⟩)

/-- An agent records where its work in progress is. -/
def records (n attempt : Id) (revision : String) : Happening :=
  .request (agent n) (.checkpoint 1 attempt
    { generation := 1
      summary := "Half way."
      currentAction := ""
      nextStep := ""
      blockers := []
      contributorSessions := []
      revision := some revision })

/-- An agent works, records a revision and disappears; another recovers its work. -/
def recoversWork : List Happening :=
  [claims 2 1, records 2 1 base, .wait 600000, recovers 3]

/-- The other disappears before it resolved the recovery, and a third one takes over. -/
def recoversTwice : List Happening := recoversWork ++ [.wait 600000, recovers 4]

/-- A recovery resolved on the word of its owner. -/
def attests (generation : Int) : RecoveryInput where
  generation := generation
  disposition := .restart
  summary := "Nothing to save."
  fetchedRevision := none
  savedWorkChecked := true
  runningJobsChecked := true

/-- An agent, as its credential makes it known. -/
def agentActor (n : Id) : Actor := ⟨n, .agent, .agent, some n, some n, some (.interactive, .write)⟩

/-- Attempt `id` is an unresolved recovery of the first task. -/
def recoversFirst (s : Db) (id : Id) : Bool :=
  (s.attempts.get? id).any (fun a => a.id = id ∧ a.task = 1 ∧ a.mode = .recovery) &&
    (s.tasks.get? 1).any (fun t => t.currentAttempt = some id)

lemma recovering_of_first {s : Db} {id : Id} (h : recoversFirst s id = true) :
    ∃ a, a.id = id ∧ s.Recovering 1 a := by
  obtain ⟨hattempt, htask⟩ := (Bool.and_eq_true _ _).mp h
  obtain ⟨a, ha, hfields⟩ := (Option.any_eq_true _ _).1 hattempt
  obtain ⟨t, ht, hcurrent⟩ := (Option.any_eq_true _ _).1 htask
  rw [decide_eq_true_eq] at hfields hcurrent
  obtain ⟨hid, htask, hmode⟩ := hfields
  exact ⟨a, hid, ⟨hid ▸ ha, htask, hmode, t, ht, hid ▸ hcurrent⟩⟩

set_option maxRecDepth 20000 in
/-- A single recovery asks for the revision. -/
theorem recovery_exact_once : ∃ s, TrackedReachable 1 (keepsRecord 1) s (some base) ∧
    (∃ a, s.Recovering 1 a) ∧ RecoversRecord s 1 base := by
  obtain ⟨⟨s, w⟩, hs, h⟩ := exists_of_any
    (o := follow (track 1) (fun p h => keepsRecord 1 p h.tracked) (service .agent, none) recoversWork)
    (p := fun p => decide (p.2 = some base) && recoversFirst p.1 2) (by decide +kernel)
  obtain ⟨hw, hfirst⟩ := (Bool.and_eq_true _ _).mp h
  obtain rfl := of_decide_eq_true hw
  obtain ⟨a, -, ha⟩ := recovering_of_first hfirst
  have hreach : TrackedReachable 1 (keepsRecord 1) s (some base) :=
    ⟨_, service_initial .agent, tracked_of_follow hs⟩
  exact ⟨s, hreach, ⟨a, ha⟩, (recovery_exact 1 s base).2 hreach⟩

set_option maxRecDepth 20000 in
/-- A second one is resolved on its owner's word. -/
theorem recovery_skips : ∃ s, TrackedReachable 1 (fun _ _ => True) s (some base) ∧
    ¬ RecoversRecord s 1 base := by
  obtain ⟨⟨s, w⟩, hs, h⟩ := exists_of_any
    (o := follow (track 1) (fun _ _ => True) (service .agent, none) recoversTwice)
    (p := fun p => decide (p.2 = some base) && (recoversFirst p.1 3 &&
      (recoveryResolution p.1 (agentActor 4) 1 3 (attests 3)).toOption.isSome))
    (by decide +kernel)
  obtain ⟨hw, hrest⟩ := (Bool.and_eq_true _ _).mp h
  obtain ⟨hfirst, haccepted⟩ := (Bool.and_eq_true _ _).mp hrest
  obtain rfl := of_decide_eq_true hw
  obtain ⟨a, hid, ha⟩ := recovering_of_first hfirst
  obtain ⟨s', hs'⟩ := Option.isSome_iff_exists.1 haccepted
  refine ⟨s, ⟨_, service_initial .agent, tracked_of_follow hs⟩, fun hlaw => ?_⟩
  have hfetched := ((hlaw (agentActor 4) 1 a (attests 3) ha).1 s'
    (hid ▸ toOption_eq_some.1 hs')).1
  exact absurd hfetched (by simp [attests])

end AgentCoordinator
