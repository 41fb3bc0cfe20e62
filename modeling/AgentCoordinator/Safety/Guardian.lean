import AgentCoordinator.Local.Guardian

/-
A local job is launched at most once, and its observations are sent in order.

What counts is the job that a recovery would find. Between two operations the journal is at most one
event ahead of the state file, so that a recovery finds either the state or the state with that
event replayed, and an operation that fails or is cut off leaves one of the two. The recovered phase
goes forward; a launch follows a durable launch intent, from which no call goes back; what was sent
is below what is pending, or is the first of it; and a terminal outcome stays pending until the
service has taken it. As for the state file, see `Inspected`.
-/

namespace AgentCoordinator.Guardian

open Procedure Crash

/-! ### Phases -/

/-- The order of the phases; a phase of the last rank is final. -/
def JobPhase.rank : JobPhase → Nat
  | .prepared => 0
  | .registered => 1
  | .launchIntent => 2
  | .running => 3
  | .succeeded | .failed | .notStarted | .unknown => 4

/-- The phase stays or goes forward. -/
def JobPhase.Forward (p q : JobPhase) : Prop := p = q ∨ p.rank < q.rank

lemma JobPhase.Forward.refl (p : JobPhase) : p.Forward p := .inl rfl

lemma JobPhase.Forward.rank_le {p q : JobPhase} (h : p.Forward q) : p.rank ≤ q.rank := by
  rcases h with rfl | h
  · exact Nat.le_refl _
  · exact Nat.le_of_lt h

/-- A final phase stays. -/
lemma JobPhase.Forward.final {p q : JobPhase} (h : p.Forward q) (hp : p.rank = 4) : q = p := by
  rcases h with rfl | h
  · rfl
  · rw [hp] at h
    cases q <;> simp [JobPhase.rank] at h

/-! ### What the files say -/

/-- The job that a recovery finds. -/
def Files.recovered (d : Files) : Option StoredJob := d.state.map fun s => s.recovered d.events

/-- An observation that is sent may be followed by a later one, or by itself again. -/
def Before (o p : PendingObservation) : Prop := o.body.sequence < p.body.sequence ∨ o = p

/-- The job `r` is one that the history of the files allows for. -/
structure Fits (r : StoredJob) (d : Files) : Prop where
  sorted : r.pendingObservations.Pairwise fun a b => a.body.sequence < b.body.sequence
  below : ∀ p ∈ r.pendingObservations, p.body.sequence < r.nextSequence
  keys : ∀ p ∈ r.pendingObservations, p.idempotencyKey ∈ d.keys
  sentBelow : ∀ o ∈ d.sent, o.body.sequence < r.nextSequence
  sent : ∀ o ∈ d.sent, ∀ p ∈ r.pendingObservations, Before o p
  inOrder : d.sent.Pairwise Before
  outcomes : ∀ o ∈ d.outcomes, o ∈ r.pendingObservations ∨ o ∈ d.accepted
  once : d.spawns ≤ 1
  launched : 0 < d.spawns → 2 ≤ r.phase.rank

/-- No job has been initialized yet. -/
structure Files.Blank (d : Files) : Prop where
  lines : d.lines = []
  tail : d.tail = .none
  spawns : d.spawns = 0
  sent : d.sent = []
  outcomes : d.outcomes = []

/-- What holds of the files between any two operations. -/
def Files.Ok (d : Files) : Prop :=
  match d.state with
  | none => d.Blank
  | some s => Fits (s.recovered d.events) d ∧
      (s.ahead d.events = [] ∨ ∃ event, s.ahead d.events = [event])

/-- The state file holds the job, and the journal is not ahead of it. -/
structure Clean (s : StoredJob) (d : Files) : Prop where
  state : d.state = some s
  ahead : s.ahead d.events = []
  fits : Fits s d

/-- Two jobs in the same phase with the same observations. -/
structure Like (r s : StoredJob) : Prop where
  phase : r.phase = s.phase
  next : r.nextSequence = s.nextSequence
  pending : r.pendingObservations = s.pendingObservations

/-- The files with the history of an event that has reached the journal. -/
def Files.noting (d : Files) (event : JournalEvent) : Files :=
  { d with outcomes := d.outcomes ++ event.event.outcome }

section Files

variable {r s : StoredJob} {d d' : Files} {event : JournalEvent}

lemma Fits.like (h : Fits r d) (hlike : Like r s) : Fits s d where
  sorted := hlike.pending ▸ h.sorted
  below p hp := hlike.next ▸ h.below p (hlike.pending ▸ hp)
  keys p hp := h.keys p (hlike.pending ▸ hp)
  sentBelow o ho := hlike.next ▸ h.sentBelow o ho
  sent o ho p hp := h.sent o ho p (hlike.pending ▸ hp)
  inOrder := h.inOrder
  outcomes o ho := hlike.pending ▸ h.outcomes o ho
  once := h.once
  launched hone := hlike.phase ▸ h.launched hone

lemma Like.symm (h : Like r s) : Like s r := ⟨h.phase.symm, h.next.symm, h.pending.symm⟩

/-- The history of the files, without the files. -/
structure SameHistory (d d' : Files) : Prop where
  keys : d'.keys = d.keys
  sent : d'.sent = d.sent
  accepted : d'.accepted = d.accepted
  outcomes : d'.outcomes = d.outcomes
  spawns : d'.spawns = d.spawns

lemma Fits.history (h : Fits r d) (hsame : SameHistory d d') : Fits r d' where
  sorted := h.sorted
  below := h.below
  keys p hp := hsame.keys ▸ h.keys p hp
  sentBelow o ho := h.sentBelow o (hsame.sent ▸ ho)
  sent o ho := h.sent o (hsame.sent ▸ ho)
  inOrder := hsame.sent ▸ h.inOrder
  outcomes o ho := hsame.accepted ▸ h.outcomes o (hsame.outcomes ▸ ho)
  once := hsame.spawns ▸ h.once
  launched hone := h.launched (hsame.spawns ▸ hone)

lemma ahead_eq_nil {events : List JournalEvent} :
    s.ahead events = [] ↔ ∀ e ∈ events, e.revision ≤ s.revision := by
  simp [StoredJob.ahead, List.filter_eq_nil_iff]

lemma recovered_of_ahead_nil {events : List JournalEvent} (h : s.ahead events = []) :
    s.recovered events = s := by
  rw [StoredJob.recovered, h]
  rfl

lemma Clean.ok (h : Clean s d) : d.Ok := by
  unfold Files.Ok
  rw [h.state]
  exact ⟨(recovered_of_ahead_nil h.ahead).symm ▸ h.fits, .inl h.ahead⟩

lemma Clean.recovered (h : Clean s d) : d.recovered = some s := by
  rw [Files.recovered, h.state, Option.map_some, recovered_of_ahead_nil h.ahead]

/-- A fresh observation is replayed as it was enqueued. -/
lemma restoreObservation_eq_enqueue {o : PendingObservation}
    (hs : s.pendingObservations.Pairwise fun a b => a.body.sequence < b.body.sequence)
    (hbelow : ∀ p ∈ s.pendingObservations, p.body.sequence < s.nextSequence)
    (hfresh : ∀ p ∈ s.pendingObservations, p.idempotencyKey ≠ o.idempotencyKey)
    (hnext : o.body.sequence = s.nextSequence) : s.restoreObservation o = s.enqueue o := by
  have hnew : (s.pendingObservations.any fun p => p.idempotencyKey = o.idempotencyKey) = false := by
    rw [Bool.eq_false_iff]
    intro hany
    obtain ⟨p, hp, heq⟩ := List.any_eq_true.1 hany
    exact hfresh p hp (of_decide_eq_true heq)
  have hsorted : (s.pendingObservations ++ [o]).Pairwise
      fun a b => a.body.sequence ≤ b.body.sequence := by
    rw [List.pairwise_append]
    refine ⟨hs.imp fun hlt => Nat.le_of_lt hlt, List.pairwise_singleton _ _, ?_⟩
    intro p hp q hq
    rw [List.mem_singleton.1 hq, hnext]
    exact Nat.le_of_lt (hbelow p hp)
  have hmax : max s.nextSequence (o.body.sequence + 1) = s.nextSequence + 1 := by
    rw [hnext]
    exact Nat.max_eq_right (Nat.le_succ _)
  simp [StoredJob.restoreObservation, StoredJob.enqueue, hnew, hmax, hsorted.insertionSort_eq]

/-- A job with a new observation fits what a job fits. -/
lemma Fits.enqueue {o : PendingObservation} (h : Fits s d) (hkey : o.idempotencyKey ∈ d.keys)
    (hnext : o.body.sequence = s.nextSequence) : Fits (s.enqueue o) d where
  sorted := by
    refine List.pairwise_append.2 ⟨h.sorted, List.pairwise_singleton _ _, fun p hp q hq => ?_⟩
    rw [List.mem_singleton.1 hq, hnext]
    exact h.below p hp
  below p hp := by
    show p.body.sequence < s.nextSequence + 1
    rcases List.mem_append.1 hp with hp | hp
    · exact Nat.lt_succ_of_lt (h.below p hp)
    · rw [List.mem_singleton.1 hp, hnext]
      exact Nat.lt_succ_self _
  keys p hp := by
    rcases List.mem_append.1 hp with hp | hp
    · exact h.keys p hp
    · rw [List.mem_singleton.1 hp]
      exact hkey
  sentBelow o' ho' := Nat.lt_succ_of_lt (h.sentBelow o' ho')
  sent o' ho' p hp := by
    rcases List.mem_append.1 hp with hp | hp
    · exact h.sent o' ho' p hp
    · rw [List.mem_singleton.1 hp]
      exact .inl (hnext ▸ h.sentBelow o' ho')
  inOrder := h.inOrder
  outcomes o' ho' := (h.outcomes o' ho').imp (fun hp => List.mem_append_left _ hp) id
  once := h.once
  launched := h.launched

/-- A job in a later phase, with the same observations. -/
structure Advances (s s₁ : StoredJob) : Prop where
  revision : s₁.revision = s.revision
  identities : s₁.identities = s.identities
  source : s₁.source = s.source
  next : s₁.nextSequence = s.nextSequence
  pending : s₁.pendingObservations = s.pendingObservations
  forward : s.phase.Forward s₁.phase

lemma Fits.advance {t : StoredJob} (h : Fits s d) (hs : Advances s t) : Fits t d where
  sorted := hs.pending ▸ h.sorted
  below p hp := hs.next ▸ h.below p (hs.pending ▸ hp)
  keys p hp := h.keys p (hs.pending ▸ hp)
  sentBelow o ho := hs.next ▸ h.sentBelow o ho
  sent o ho p hp := h.sent o ho p (hs.pending ▸ hp)
  inOrder := h.inOrder
  outcomes o ho := hs.pending ▸ h.outcomes o ho
  once := h.once
  launched hone := Nat.le_trans (h.launched hone) hs.forward.rank_le

/-- A terminal outcome that is pending may be noted. -/
lemma Fits.noting (h : Fits s d) (hevent : ∀ o ∈ event.event.outcome, o ∈ s.pendingObservations) :
    Fits s (d.noting event) where
  sorted := h.sorted
  below := h.below
  keys := h.keys
  sentBelow := h.sentBelow
  sent := h.sent
  inOrder := h.inOrder
  outcomes o ho := (List.mem_append.1 ho).elim (h.outcomes o) fun ho => .inl (hevent o ho)
  once := h.once
  launched := h.launched

/-- The phase that a recovery finds stays or goes forward. -/
def PhaseForward (d d' : Files) : Prop :=
  ∀ r, d.recovered = some r → ∃ r', d'.recovered = some r' ∧ r.phase.Forward r'.phase

lemma PhaseForward.refl (d : Files) : PhaseForward d d := fun r h => ⟨r, h, .refl _⟩

/-- The new job may be saved. -/
structure Saves (d : Files) (s : StoredJob) : Prop where
  revisions : ∀ e ∈ d.events, e.revision ≤ s.revision
  fits : Fits s d
  forward : ∀ r, d.recovered = some r → r.phase.Forward s.phase

lemma Saves.clean (h : Saves d s) : Clean s { d with state := some s } :=
  ⟨rfl, ahead_eq_nil.2 h.revisions, h.fits.history ⟨rfl, rfl, rfl, rfl, rfl⟩⟩

/-- What a save leaves. -/
lemma Saves.effect (h : Saves d s) (hok : d.Ok) {answer : Except String Unit}
    (hd' : d' ∈ effects d (.save s) answer) : d'.Ok ∧ PhaseForward d d' := by
  have hsaved : Files.Ok { d with state := some s } ∧ PhaseForward d { d with state := some s } :=
    ⟨h.clean.ok, fun r hr => ⟨s, h.clean.recovered, h.forward r hr⟩⟩
  cases answer with
  | ok _ =>
    obtain rfl := List.mem_singleton.1 hd'
    exact hsaved
  | error e =>
    simp only [effects, List.mem_cons, List.not_mem_nil, or_false] at hd'
    rcases hd' with rfl | rfl
    · exact ⟨hok, .refl _⟩
    · exact hsaved

lemma Files.lines_subset : d.lines ⊆ d.events := by
  unfold Files.events
  split
  · exact List.subset_append_left _ _
  · exact List.Subset.refl _
  · exact List.Subset.refl _

/-- The journal is one event ahead. -/
lemma ahead_append (hlines : ∀ e ∈ d.lines, e.revision ≤ s.revision)
    (hnew : s.revision < event.revision) : s.ahead (d.lines ++ [event]) = [event] := by
  have hnil : s.ahead d.lines = [] := ahead_eq_nil.2 hlines
  unfold StoredJob.ahead at hnil ⊢
  rw [List.filter_append, hnil, List.nil_append, List.filter_cons_of_pos (by simpa using hnew)]
  rfl

/-- The new event may be appended: its replay fits. -/
structure Appends (s : StoredJob) (d : Files) (event : JournalEvent) : Prop where
  clean : Clean s d
  revision : event.revision = s.revision + 1
  fits : Fits (s.replay event) (d.noting event)
  forward : s.phase.Forward (s.replay event).phase

lemma Appends.lines (h : Appends s d event) : ∀ e ∈ d.lines, e.revision ≤ s.revision :=
  fun e he => ahead_eq_nil.1 h.clean.ahead e (Files.lines_subset he)

lemma Appends.ahead (h : Appends s d event) : s.ahead (d.lines ++ [event]) = [event] :=
  ahead_append h.lines (h.revision ▸ Nat.lt_succ_self _)

/-- Files whose journal has the event as its last one, and is otherwise as it was. -/
lemma Appends.ok_of_events (h : Appends s d event) (hstate : d'.state = some s)
    (hevents : d'.events = d.lines ++ [event]) (hsame : SameHistory (d.noting event) d') :
    d'.Ok ∧ PhaseForward d d' := by
  have hahead : s.ahead d'.events = [event] := hevents ▸ h.ahead
  have hrecovered : s.recovered d'.events = s.replay event := by
    rw [StoredJob.recovered, hahead]
    rfl
  constructor
  · unfold Files.Ok
    rw [hstate]
    exact ⟨hrecovered ▸ h.fits.history hsame, .inr ⟨event, hahead⟩⟩
  · intro r hr
    obtain rfl := Option.some.inj (h.clean.recovered.symm.trans hr)
    exact ⟨_, by rw [Files.recovered, hstate, Option.map_some, hrecovered], h.forward⟩

/-- Files whose journal has lost what was not a full line of it. -/
lemma Clean.cut (h : Clean s d) (hstate : d'.state = some s) (hevents : d'.events ⊆ d.events)
    (hsame : SameHistory d d') : d'.Ok ∧ PhaseForward d d' := by
  have hclean : Clean s d' := ⟨hstate,
    ahead_eq_nil.2 fun e he => ahead_eq_nil.1 h.ahead e (hevents he), h.fits.history hsame⟩
  refine ⟨hclean.ok, fun r hr => ⟨s, hclean.recovered, ?_⟩⟩
  obtain rfl := Option.some.inj (h.recovered.symm.trans hr)
  exact .refl _

/-- What an append leaves. -/
lemma Appends.effect (h : Appends s d event) {answer : Except String Unit}
    (hd' : d' ∈ effects d (.append event) answer) : d'.Ok ∧ PhaseForward d d' := by
  have happended : (d.appended event).Ok ∧ PhaseForward d (d.appended event) :=
    h.ok_of_events h.clean.state rfl ⟨rfl, rfl, rfl, rfl, rfl⟩
  cases answer with
  | ok _ =>
    obtain rfl := List.mem_singleton.1 hd'
    exact happended
  | error e =>
    have hlines : d.lines ⊆ d.events := Files.lines_subset
    simp only [effects, Files.partlyAppended, List.mem_cons, List.not_mem_nil, or_false] at hd'
    rcases hd' with rfl | rfl | rfl | rfl | rfl
    · exact ⟨h.clean.ok, .refl _⟩
    · exact h.clean.cut h.clean.state hlines ⟨rfl, rfl, rfl, rfl, rfl⟩
    · exact h.clean.cut h.clean.state hlines ⟨rfl, rfl, rfl, rfl, rfl⟩
    · exact h.ok_of_events h.clean.state rfl ⟨rfl, rfl, rfl, rfl, rfl⟩
    · exact happended

/-- After the append the job that was replayed may be saved, or one like it. -/
lemma Appends.saves {t : StoredJob} (h : Appends s d event) (hlike : Like (s.replay event) t)
    (hrevision : t.revision = event.revision) : Saves (d.appended event) t where
  revisions e he := by
    rw [hrevision]
    rcases List.mem_append.1 he with he | he
    · exact Nat.le_trans (h.lines e he) (h.revision ▸ Nat.le_succ _)
    · rw [List.mem_singleton.1 he]
  fits := (h.fits.like hlike).history ⟨rfl, rfl, rfl, rfl, rfl⟩
  forward r hr := by
    have hrecovered : (d.appended event).recovered = some (s.replay event) := by
      show Option.map _ d.state = _
      rw [h.clean.state, Option.map_some]
      show some (List.foldl StoredJob.replay s (s.ahead (d.lines ++ [event]))) = _
      rw [h.ahead]
      rfl
    obtain rfl := Option.some.inj (hrecovered.symm.trans hr)
    exact .inl hlike.phase

end Files

/-! ### The outline -/

/-- Calls in which the state file can be inspected. -/
def Inspected : Condition Files host where
  call
    | _, d, .stateExists, exist => exist = d.state.isSome
    | _, _, _, _ => True
  crash _ := True

/-- The call began with a recovery that found the job registered. -/
def StartedRegistered (h : List (Called host)) : Prop :=
  ∃ s events after, h = ⟨.load, .ok s⟩ :: ⟨.events, .ok events⟩ :: after ∧
    (s.recovered events).phase = .registered

/-- The service has confirmed that exactly this job may be launched until the deadline. -/
def Granted (h : List (Called host)) (s : StoredJob) (deadline : Nat) : Prop :=
  ∃ before started reply job reporter elapsed now remaining after,
    h = before ++ [⟨.instant, started⟩, ⟨.getReporter s.identities.reporterId, .ok reply⟩,
      ⟨.instant, elapsed⟩, ⟨.instant, now⟩] ++ after ∧
    isSuccess reply.status ∧ reply.data = some (some job, some reporter) ∧
    job.Names reporter s ∧ reporter.launchAllowed = some true ∧
    reporter.leaseRemainingMs = some remaining ∧ 0 < safeRemaining remaining started elapsed ∧
    deadline = now + (safeRemaining remaining started elapsed).toNat * 1000000

/-- The state in which the producer may be spawned: never spawned, from a registered job, with a
launch intent in both files, and before the deadline of the grant. -/
def LaunchReady (h : List (Called host)) (d : Files) : Prop :=
  d.spawns = 0 ∧ StartedRegistered h ∧ ∃ s, d.state = some s ∧ s.phase = .launchIntent ∧
    (∃ event ∈ d.lines, event.event = .launchIntent ∧ event.revision = s.revision) ∧
    ∃ earlier now deadline, h = earlier ++ [⟨.instant, now⟩] ∧ Granted earlier s deadline ∧
      now < deadline

/-- What an operation promises. -/
def Op.Promise (h : List (Called host)) (d : Files) : Op → Prop
  | .spawnProducer .. => LaunchReady h d
  | _ => True

/-- What the calls promise. -/
def outline : Outline Files host String Request Reply where
  condition := Inspected
  inv := Files.Ok
  commits h d op _ d' := PhaseForward d d' ∧ op.Promise h d
  ends _ _ _ _ := True

/-- An operation that leaves the files alone. -/
def Op.Reads : Op → Prop
  | .save _ | .append _ | .newKey | .postObservation .. | .spawnProducer .. => False
  | _ => True

lemma reading : Reading machine outline Op.Reads := by
  refine ⟨fun d d' h => h, ?_⟩
  intro op h d answer d' hop hd'
  have hpromise : op.Promise h d := by
    cases op <;> first | exact hop.elim | trivial
  refine ⟨?_, .refl d, hpromise⟩
  cases op with
  | save _ | append _ | newKey | postObservation _ _ | spawnProducer _ _ => exact hop.elim
  | stateExists =>
    change d' ∈ (if _ then [] else [d]) at hd'
    split at hd'
    · cases hd'
    · exact List.mem_singleton.1 hd'
  | load =>
    cases answer with
    | error e => exact List.mem_singleton.1 hd'
    | ok s =>
      change d' ∈ (if _ then [d] else []) at hd'
      split at hd'
      · exact List.mem_singleton.1 hd'
      · cases hd'
  | events =>
    cases answer with
    | error e => exact List.mem_singleton.1 hd'
    | ok events =>
      change d' ∈ (if _ then [d] else []) at hd'
      split at hd'
      · exact List.mem_singleton.1 hd'
      · cases hd'
  | _ => exact List.mem_singleton.1 hd'

/-! ### The rest of a call -/

/-- From the job `s₀` in the files `d₀` and after the calls `b`, a call has come to the job `s`, and
has spawned nothing. -/
structure Kept (b : List (Called host)) (d₀ : Files) (s₀ : StoredJob) (h : List (Called host))
    (d : Files) (s : StoredJob) : Prop where
  clean : Clean s d
  identities : s.identities = s₀.identities
  source : s.source = s₀.source
  spawns : d.spawns = d₀.spawns
  history : b <+: h

/-- A procedure that returns such a job, in a phase. -/
def Keeps (b : List (Called host)) (d₀ : Files) (s₀ : StoredJob) (phase : JobPhase)
    (h : List (Called host)) (d : Files) (r : Except String StoredJob) : Prop :=
  ∀ s, r = .ok s → Kept b d₀ s₀ h d s ∧ s.phase = phase

section Rules

variable {α : Type} {b h h' : List (Called host)} {d₀ d : Files} {s₀ s s₁ : StoredJob}
  {phase : JobPhase} {Q : List (Called host) → Files → Except String α → Prop}

lemma Kept.start (hclean : Clean s d) : Kept h d s h d s :=
  ⟨hclean, rfl, rfl, rfl, List.prefix_refl h⟩

lemma Kept.read (hk : Kept b d₀ s₀ h d s) (hh : h <+: h') : Kept b d₀ s₀ h' d s :=
  ⟨hk.clean, hk.identities, hk.source, hk.spawns, hk.history.trans hh⟩

lemma Kept.keeps (hk : Kept b d₀ s₀ h d s) (hphase : s.phase = phase) :
    Keeps b d₀ s₀ phase h d (.ok s) := by
  rintro _ ⟨⟩
  exact ⟨hk, hphase⟩

lemma keeps_error (h : List (Called host)) (d : Files) (e : String) :
    Keeps b d₀ s₀ phase h d (.error e) := by
  rintro _ ⟨⟩

/-- What comes after such a procedure. -/
lemma safe_keeps_bind {p : Host StoredJob} {f : StoredJob → Host α}
    (hE : ∀ h d e, Q h d (.error e)) (hp : p.Safe machine outline (Keeps b d₀ s₀ phase) h d)
    (hf : ∀ h' d' s', Kept b d₀ s₀ h' d' s' → s'.phase = phase →
      (f s').Safe machine outline Q h' d') : (p >>= f).Safe machine outline Q h d := by
  refine hp.bind ?_ fun h' d' e _ => hE h' d' e
  intro h' d' s' hkeeps
  obtain ⟨hk, hphase⟩ := hkeeps s' rfl
  exact hf h' d' s' hk hphase

/-- The two jobs differ in what no recovery restores. -/
structure SameCore (s s₁ : StoredJob) : Prop where
  revision : s₁.revision = s.revision
  identities : s₁.identities = s.identities
  source : s₁.source = s.source
  like : Like s s₁

/-- A save that fails or goes on with the new file. -/
lemma safe_save_bind {f : Unit → Host α} (hE : ∀ h d e, Q h d (.error e)) (hsaves : Saves d s)
    (hf : (f ()).Safe machine outline Q (h ++ [⟨.save s, .ok ()⟩]) { d with state := some s }) :
    (save s >>= f).Safe machine outline Q h d := by
  refine Proc.safe_call reading.quiet fun answer d' hI _ hd' => ?_
  obtain ⟨hok, hforward⟩ := hsaves.effect hI hd'
  refine ⟨hok, ⟨hforward, trivial⟩, ?_⟩
  cases answer with
  | error e => exact hE _ _ _
  | ok _ =>
    obtain rfl := List.mem_singleton.1 hd'
    exact hf

/-- A save of a job that has moved on in what is not restored, or is done with its first
observation. -/
lemma persistState_safe {t : StoredJob} (hk : Kept b d₀ s₀ h d s) (hrevision : t.revision = s.revision)
    (hidentities : t.identities = s.identities) (hsource : t.source = s.source)
    (hphase : t.phase = s.phase) (hfits : Fits t d) :
    (persistState t).Safe machine outline (Keeps b d₀ s₀ s.phase) h d := by
  have hsaves : Saves d { t with revision := t.revision + 1 } := by
    refine ⟨fun e he => ?_, hfits.like ⟨rfl, rfl, rfl⟩, fun r hr => ?_⟩
    · show e.revision ≤ t.revision + 1
      rw [hrevision]
      exact Nat.le_succ_of_le (ahead_eq_nil.1 hk.clean.ahead e he)
    · obtain rfl := Option.some.inj (hk.clean.recovered.symm.trans hr)
      exact .inl hphase.symm
  refine safe_save_bind keeps_error hsaves ?_
  refine Kept.keeps ⟨hsaves.clean, ?_, ?_, hk.spawns, ?_⟩ hphase
  · exact hidentities.trans hk.identities
  · exact hsource.trans hk.source
  · exact hk.history.trans (List.prefix_append _ _)

/-- A save of a job that differs in what no recovery restores. -/
lemma persistSame_safe {t : StoredJob} (hk : Kept b d₀ s₀ h d s) (hsame : SameCore s t) :
    (persistState t).Safe machine outline (Keeps b d₀ s₀ s.phase) h d :=
  persistState_safe hk hsame.revision hsame.identities hsame.source hsame.like.phase.symm
    (hk.clean.fits.like hsame.like)

/-- A new key is like no key before. -/
lemma safe_newKey_bind {f : String → Host α} (hk : Kept b d₀ s₀ h d s)
    (hf : ∀ key d', (∀ p ∈ s.pendingObservations, p.idempotencyKey ≠ key) → key ∈ d'.keys → Kept b d₀ s₀ (h ++ [⟨.newKey, key⟩]) d' s →
      (f key).Safe machine outline Q (h ++ [⟨.newKey, key⟩]) d') :
    (newKey >>= f).Safe machine outline Q h d := by
  refine Proc.safe_call reading.quiet fun key d' hI _ hd' => ?_
  change d' ∈ (if key ∈ d.keys then [] else [{ d with keys := key :: d.keys }]) at hd'
  split at hd'
  · cases hd'
  rename_i hfresh
  obtain rfl := List.mem_singleton.1 hd'
  have hfits : Fits s { d with keys := key :: d.keys } :=
    { hk.clean.fits with keys := fun p hp => List.mem_cons_of_mem _ (hk.clean.fits.keys p hp) }
  have hclean : Clean s { d with keys := key :: d.keys } :=
    ⟨hk.clean.state, hk.clean.ahead, hfits⟩
  refine ⟨hclean.ok, ⟨fun r hr => ⟨r, hr, .refl _⟩, trivial⟩, ?_⟩
  refine hf key _ ?_ List.mem_cons_self ⟨hclean, hk.identities, hk.source, hk.spawns, ?_⟩
  · rintro p hp rfl
    exact hfresh (hk.clean.fits.keys p hp)
  · exact hk.history.trans (List.prefix_append _ _)

end Rules

/-! ### Reports -/

section Reports

variable {b h h' : List (Called host)} {d₀ d : Files} {s₀ s s₁ : StoredJob}

/-- The first pending observation is sent. -/
lemma Kept.posted {p : PendingObservation} {rest : List PendingObservation}
    (accepted : List PendingObservation) (call : Called host) (hk : Kept b d₀ s₀ h d s)
    (hpending : s.pendingObservations = p :: rest) (haccepted : d.accepted ⊆ accepted) :
    Kept b d₀ s₀ (h ++ [call])
      { d with
        sent := d.sent ++ [p]
        accepted := accepted } s := by
  have hfits := hk.clean.fits
  have hmem : p ∈ s.pendingObservations := hpending ▸ List.mem_cons_self
  refine ⟨⟨hk.clean.state, hk.clean.ahead, ?_⟩, hk.identities, hk.source, hk.spawns,
    hk.history.trans (List.prefix_append _ _)⟩
  refine { hfits with sentBelow := ?_, sent := ?_, inOrder := ?_, outcomes := ?_ }
  · intro o ho
    rcases List.mem_append.1 ho with ho | ho
    · exact hfits.sentBelow o ho
    · rw [List.mem_singleton.1 ho]
      exact hfits.below p hmem
  · intro o ho q hq
    rcases List.mem_append.1 ho with ho | ho
    · exact hfits.sent o ho q hq
    · rw [List.mem_singleton.1 ho]
      have hsorted := hfits.sorted
      rw [hpending] at hq hsorted
      rcases List.mem_cons.1 hq with rfl | hq
      · exact .inr rfl
      · exact .inl ((List.pairwise_cons.1 hsorted).1 q hq)
  · refine List.pairwise_append.2 ⟨hfits.inOrder, List.pairwise_singleton _ _, fun o ho q hq => ?_⟩
    rw [List.mem_singleton.1 hq]
    exact hfits.sent o ho p hmem
  · exact fun o ho => (hfits.outcomes o ho).imp id fun ho => haccepted ho

/-- The first pending observation is done with, once it was taken. -/
lemma Fits.taken {p : PendingObservation} {rest : List PendingObservation} (error : Option String)
    (hfits : Fits s d) (hpending : s.pendingObservations = p :: rest) (htaken : p ∈ d.accepted) :
    Fits { s with
      pendingObservations := rest
      lastReportError := error } d := by
  have hrest : ∀ q ∈ rest, q ∈ s.pendingObservations :=
    fun q hq => hpending ▸ List.mem_cons_of_mem _ hq
  have hsorted := hfits.sorted
  rw [hpending] at hsorted
  refine { hfits with
    sorted := (List.pairwise_cons.1 hsorted).2
    below := fun q hq => hfits.below q (hrest q hq)
    keys := fun q hq => hfits.keys q (hrest q hq)
    sent := fun o ho q hq => hfits.sent o ho q (hrest q hq)
    outcomes := fun o ho => ?_ }
  rcases hfits.outcomes o ho with ho | ho
  · rw [hpending] at ho
    rcases List.mem_cons.1 ho with rfl | ho
    · exact .inr htaken
    · exact .inl ho
  · exact .inr ho

/-- What `flushPending` returns. -/
def KeepsPair (b : List (Called host)) (d₀ : Files) (s₀ s : StoredJob) (h : List (Called host))
    (d : Files) (r : Except String (StoredJob × Bool)) : Prop :=
  ∀ s' goesOn, r = .ok (s', goesOn) → Kept b d₀ s₀ h d s' ∧ s'.phase = s.phase

/-- A flag is returned with the job. -/
lemma safe_flag {p : Host StoredJob} {goesOn : Bool}
    (hp : p.Safe machine outline (Keeps b d₀ s₀ s.phase) h d) :
    (p >>= fun s' => pure (s', goesOn)).Safe machine outline (KeepsPair b d₀ s₀ s) h d := by
  refine hp.bind ?_ ?_
  · rintro h' d' s' hkeeps _ _ ⟨⟩
    exact hkeeps s' rfl
  · rintro h' d' e _ _ _ ⟨⟩

lemma flushPending_safe (n : Nat) (hk : Kept b d₀ s₀ h d s) :
    (flushPending s n).Safe machine outline (KeepsPair b d₀ s₀ s) h d := by
  induction n generalizing h d s with
  | zero =>
    rintro _ _ ⟨⟩
    exact ⟨hk, rfl⟩
  | succ n ih =>
    unfold flushPending
    cases hpending : s.pendingObservations with
    | nil =>
      rintro _ _ ⟨⟩
      exact ⟨hk, rfl⟩
    | cons p rest =>
      refine Proc.safe_call reading.quiet fun answer d' hI _ hd' => ?_
      cases answer with
      | ok status =>
        obtain rfl := List.mem_singleton.1 hd'
        have hk' := hk.posted (d.accepted ++ takenWith status p)
          ⟨.postObservation s.identities.reporterId p, .ok status⟩ hpending
          (List.subset_append_left _ _)
        refine ⟨hk'.clean.ok, ⟨fun r hr => ⟨r, hr, .refl _⟩, trivial⟩, ?_⟩
        show Proc.Safe _ _ _ (if isSuccess status = true then _ else _) _ _
        split
        · rename_i hsuccess
          have htaken : p ∈ d.accepted ++ takenWith status p :=
            List.mem_append_right _ (by simp [takenWith, hsuccess])
          have hfits := hk'.clean.fits.taken none hpending htaken
          refine (persistState_safe hk' (t := { s with
            pendingObservations := rest
            lastReportError := none }) rfl rfl rfl rfl hfits).bind ?_ ?_
          · intro h' d' s' hkeeps
            obtain ⟨hk'', hphase⟩ := hkeeps s' rfl
            refine (ih hk'').mono fun h'' d'' r hr s'' goesOn hs'' => ?_
            exact (hr s'' goesOn hs'').imp_right fun h => h.trans hphase
          · rintro h' d' e _ _ _ ⟨⟩
        · show Proc.Safe _ _ _ (if status = 401 ∨ status = 403 then _ else _) _ _
          split
          · exact safe_flag (persistSame_safe hk' ⟨rfl, rfl, rfl, rfl, rfl, rfl⟩)
          · exact safe_flag (persistSame_safe hk' ⟨rfl, rfl, rfl, rfl, rfl, rfl⟩)
      | error e =>
        have hsame : ∀ d'', (hk'' : Kept b d₀ s₀ (h ++ [⟨.postObservation
            s.identities.reporterId p, .error e⟩]) d'' s) → Proc.Safe machine outline
            (KeepsPair b d₀ s₀ s) (do
              let s' ← persistState (s.failing e)
              return (s', true)) (h ++ [⟨.postObservation s.identities.reporterId p, .error e⟩]) d'' :=
          fun d'' hk'' => safe_flag (persistSame_safe hk'' ⟨rfl, rfl, rfl, rfl, rfl, rfl⟩)
        have hk' := hk.posted d.accepted
          ⟨.postObservation s.identities.reporterId p, .error e⟩ hpending (List.Subset.refl _)
        simp only [machine, effects, List.mem_cons, List.not_mem_nil, or_false] at hd'
        rcases hd' with rfl | rfl
        · refine ⟨hI, ⟨.refl _, trivial⟩, hsame _ (hk.read (List.prefix_append _ _))⟩
        · exact ⟨hk'.clean.ok, ⟨fun r hr => ⟨r, hr, .refl _⟩, trivial⟩, hsame _ hk'⟩

/-- A job whose reporter is changed is the same to a recovery. -/
lemma SameCore.reporter (f : StoredReporter → StoredReporter) (error : Option String) :
    SameCore s { s.mapReporter f with lastReportError := error } :=
  ⟨rfl, rfl, rfl, rfl, rfl, rfl⟩

lemma sendRenewal_safe (config : RenewalConfig) (pending : PendingRenewal) (now : Int)
    (hk : Kept b d₀ s₀ h d s) :
    (sendRenewal s config pending now).Safe machine outline (Keeps b d₀ s₀ s.phase) h d := by
  refine reading.call trivial fun answer _ _ _ => ?_
  have hk' := hk.read (List.prefix_append h
    [⟨.postRenewal s.identities.reporterId pending, answer⟩])
  cases answer with
  | ok status =>
    show Proc.Safe _ _ _ (if isSuccess status = true then _ else _) _ _
    split
    · exact persistSame_safe hk' (.reporter _ _)
    · show Proc.Safe _ _ _ (if status = 401 ∨ status = 403 ∨ status = 409 then _ else _) _ _
      split
      · exact persistSame_safe hk' ⟨rfl, rfl, rfl, rfl, rfl, rfl⟩
      · exact persistSame_safe hk' ⟨rfl, rfl, rfl, rfl, rfl, rfl⟩
  | error e => exact persistSame_safe hk' ⟨rfl, rfl, rfl, rfl, rfl, rfl⟩

lemma maybeRenew_safe (hk : Kept b d₀ s₀ h d s) :
    (maybeRenew s).Safe machine outline (Keeps b d₀ s₀ s.phase) h d := by
  unfold maybeRenew
  refine reading.call trivial fun now _ _ _ => ?_
  have hk := hk.read (List.prefix_append h [⟨.nowMs, now⟩])
  rcases s.reporter.bind StoredReporter.renewal with _ | config
  · exact hk.keeps rfl
  refine reading.ask_bind keeps_error trivial fun answer until' _ _ => ?_
  have hk := hk.read (List.prefix_append _ [⟨.parseTime _, answer⟩])
  split
  · exact persistSame_safe hk ⟨rfl, rfl, rfl, rfl, rfl, rfl⟩
  split
  · exact persistSame_safe hk ⟨rfl, rfl, rfl, rfl, rfl, rfl⟩
  refine reading.call trivial fun alive _ _ _ => ?_
  have hk := hk.read (List.prefix_append _ [⟨.isAlive _, alive⟩])
  have hstop : Proc.Safe machine outline (Keeps b d₀ s₀ s.phase)
      (persistState (s.mapReporter fun reporter => { reporter with
        renewal := none
        pendingRenewal := none }))
      _ d := persistSame_safe hk ⟨rfl, rfl, rfl, rfl, rfl, rfl⟩
  rcases alive with _ | _ | _
  · exact hstop
  · exact hstop
  rcases s.reporter.bind StoredReporter.pendingRenewal with _ | pending
  rotate_left
  · exact sendRenewal_safe _ _ _ hk
  dsimp only
  split
  · exact hk.keeps rfl
  refine safe_newKey_bind hk fun key d' _ _ hk => ?_
  refine safe_keeps_bind keeps_error (persistSame_safe hk ⟨rfl, rfl, rfl, rfl, rfl, rfl⟩) ?_
  intro h' d'' s' hk hphase
  exact (sendRenewal_safe _ _ _ hk).mono fun _ _ _ hr => hphase ▸ hr

lemma flushReports_safe (hk : Kept b d₀ s₀ h d s) :
    (flushReports s).Safe machine outline (Keeps b d₀ s₀ s.phase) h d := by
  unfold flushReports
  split
  · exact hk.keeps rfl
  split
  · exact hk.keeps rfl
  refine reading.call trivial fun answer _ _ _ => ?_
  have hk := hk.read (List.prefix_append h [⟨.newClient _ _ _, answer⟩])
  cases answer with
  | error e => exact persistSame_safe hk ⟨rfl, rfl, rfl, rfl, rfl, rfl⟩
  | ok _ =>
  refine (flushPending_safe _ hk).bind ?_ ?_
  · rintro h' d' ⟨s', goesOn⟩ hpair
    obtain ⟨hk, hphase⟩ := hpair s' goesOn rfl
    show Proc.Safe _ _ _ (if goesOn = true then _ else _) _ _
    split
    · exact (maybeRenew_safe hk).mono fun _ _ _ hr => hphase ▸ hr
    · exact hk.keeps hphase
  · intro h' d' e _
    exact keeps_error _ _ e

end Reports

/-! ### Events -/

section Events

variable {α : Type} {b h h' : List (Called host)} {d₀ d : Files} {s₀ s s₁ s₂ : StoredJob}
  {kind : JournalKind} {o : PendingObservation}
  {Q : List (Called host) → Files → Except String α → Prop}

/-- The event takes the job `s` to the job `s₁`, however it is dated. -/
structure Replays (s : StoredJob) (kind : JournalKind) (s₁ : StoredJob) : Prop where
  revision : s₁.revision = s.revision
  identities : s₁.identities = s.identities
  source : s₁.source = s.source
  like : ∀ at', Like (s.replay ⟨s.revision + 1, at', kind⟩) s₁
  forward : s.phase.Forward s₁.phase

/-- What is so once an event was committed: it is in both files. -/
structure Committed (b : List (Called host)) (d₀ : Files) (s₀ s₁ : StoredJob) (kind : JournalKind)
    (h : List (Called host)) (d : Files) (s : StoredJob) : Prop where
  kept : Kept b d₀ s₀ h d s
  phase : s.phase = s₁.phase
  line : ∃ event ∈ d.lines, event.event = kind ∧ event.revision = s.revision

lemma commitEvent_safe (hk : Kept b d₀ s₀ h d s) (hreplays : Replays s kind s₁)
    (hfits : Fits s₁ d) (hkind : ∀ o ∈ kind.outcome, o ∈ s₁.pendingObservations) :
    (commitEvent s₁ kind).Safe machine outline
      (fun h' d' r => ∀ s', r = .ok s' → Committed b d₀ s₀ s₁ kind h' d' s') h d := by
  refine reading.call trivial fun now _ _ _ => ?_
  refine Proc.safe_call reading.quiet fun answer d' hI _ hd' => ?_
  have hlike := hreplays.like now
  rw [← hreplays.revision] at hlike
  have happends : Appends s d ⟨s₁.revision + 1, now, kind⟩ := by
    refine ⟨hk.clean, by rw [hreplays.revision], ?_, hlike.phase ▸ hreplays.forward⟩
    exact (hfits.noting hkind).like hlike.symm
  obtain ⟨hok, hforward⟩ := happends.effect hd'
  refine ⟨hok, ⟨hforward, trivial⟩, ?_⟩
  cases answer with
  | error e =>
    rintro _ ⟨⟩
  | ok _ =>
    obtain rfl := List.mem_singleton.1 hd'
    have hsaves := happends.saves (t := { s₁ with revision := s₁.revision + 1 })
      ⟨hlike.phase, hlike.next, hlike.pending⟩ rfl
    refine safe_save_bind (by rintro _ _ _ _ ⟨⟩) hsaves ?_
    rintro _ ⟨⟩
    refine ⟨⟨hsaves.clean, ?_, ?_, hk.spawns, ?_⟩, rfl, ?_⟩
    · exact hreplays.identities.trans hk.identities
    · exact hreplays.source.trans hk.source
    · rw [List.append_assoc, List.append_assoc]
      exact hk.history.trans (List.prefix_append _ _)
    · exact ⟨⟨s₁.revision + 1, now, kind⟩, List.mem_append_right _ List.mem_cons_self, rfl, rfl⟩

lemma Committed.keeps (hk : Committed b d₀ s₀ s₁ kind h d s) :
    Keeps b d₀ s₀ s₁.phase h d (.ok s) := hk.kept.keeps hk.phase

/-- An event that brings an observation to a job in a later phase. -/
lemma commitObservation_safe {t : StoredJob} (hk : Kept b d₀ s₀ h d s) (hs : Advances s t)
    (hnext : o.body.sequence = s.nextSequence)
    (hfresh : ∀ p ∈ s.pendingObservations, p.idempotencyKey ≠ o.idempotencyKey)
    (hkey : o.idempotencyKey ∈ d.keys) (hkind : ∀ o' ∈ kind.outcome, o' = o)
    (hreplay : ∀ at', ∃ s' : StoredJob,
      s.replay ⟨s.revision + 1, at', kind⟩ = s'.restoreObservation o ∧
      s'.phase = t.phase ∧ s'.nextSequence = s.nextSequence ∧
      s'.pendingObservations = s.pendingObservations)
    (hcore : SameCore (t.enqueue o) s₂) :
    (commitEvent s₂ kind).Safe machine outline (Keeps b d₀ s₀ t.phase) h d := by
  have hfits : Fits (t.enqueue o) d :=
    (hk.clean.fits.advance hs).enqueue hkey (hnext.trans hs.next.symm)
  have hreplays : Replays s kind s₂ := by
    refine ⟨hcore.revision.trans hs.revision, hcore.identities.trans hs.identities,
      hcore.source.trans hs.source, fun at' => ?_, hcore.like.phase ▸ hs.forward⟩
    obtain ⟨s', heq, hphase, hnext', hpending⟩ := hreplay at'
    have hfits' := hk.clean.fits
    rw [heq, restoreObservation_eq_enqueue (hpending ▸ hfits'.sorted)
      (hpending ▸ hnext' ▸ hfits'.below) (hpending ▸ hfresh) (hnext.trans hnext'.symm)]
    refine ⟨hphase.trans hcore.like.phase, ?_, ?_⟩
    · rw [← hcore.like.next]
      show s'.nextSequence + 1 = t.nextSequence + 1
      rw [hnext', hs.next]
    · rw [← hcore.like.pending]
      show s'.pendingObservations ++ [o] = t.pendingObservations ++ [o]
      rw [hpending, hs.pending]
  refine (commitEvent_safe hk hreplays (hfits.like hcore.like) fun o' ho' => ?_).mono ?_
  · rw [hkind o' ho', ← hcore.like.pending]
    exact List.mem_append_right _ List.mem_cons_self
  · rintro h' d' r hr s' rfl
    have hc := hr s' rfl
    exact ⟨hc.kept, hc.phase.trans hcore.like.phase.symm⟩

lemma setUnknown_safe (unchanged : Option Bool) (message : String) (hk : Kept b d₀ s₀ h d s)
    (hphase : s.phase.rank < 4) :
    (setUnknown s unchanged message).Safe machine outline (Keeps b d₀ s₀ .unknown) h d := by
  refine safe_newKey_bind hk fun key d' hfresh hkey hk => ?_
  exact commitObservation_safe hk (t := { s with
      phase := .unknown
      inputsUnchanged := unchanged
      lastLocalSummary := some message })
    ⟨rfl, rfl, rfl, rfl, rfl, .inr hphase⟩ rfl hfresh hkey (by rintro _ ⟨⟩)
    (fun at' => ⟨_, rfl, rfl, rfl, rfl⟩) ⟨rfl, rfl, rfl, rfl, rfl, rfl⟩

lemma applyTerminal_safe (evidence : TerminalEvidence) (hk : Kept b d₀ s₀ h d s)
    (hphase : s.phase.Forward evidence.phase) :
    (applyTerminal s evidence).Safe machine outline (Keeps b d₀ s₀ evidence.phase) h d := by
  refine safe_newKey_bind hk fun key d' hfresh hkey hk => ?_
  exact commitObservation_safe hk (t := { s with
      phase := evidence.phase
      exitCode := evidence.exitCode
      inputsUnchanged := some evidence.inputsUnchanged
      lastLocalSummary := some evidence.summary })
    ⟨rfl, rfl, rfl, rfl, rfl, hphase⟩ rfl hfresh hkey (fun o ho => List.mem_singleton.1 ho)
    (fun at' => ⟨_, rfl, rfl, rfl, rfl⟩) ⟨rfl, rfl, rfl, rfl, rfl, rfl⟩

lemma maybeEnqueueRunning_safe (hk : Kept b d₀ s₀ h d s) :
    (maybeEnqueueRunning s).Safe machine outline (Keeps b d₀ s₀ s.phase) h d := by
  refine reading.call trivial fun now _ _ _ => ?_
  have hk := hk.read (List.prefix_append h [⟨.nowMs, now⟩])
  show Proc.Safe _ _ _ (if runningObservationIntervalMs ≤ now - s.lastRunningObservationMs.getD 0
    then _ else _) _ _
  split
  · refine safe_newKey_bind hk fun key d' _ hkey hk => ?_
    exact persistState_safe hk rfl rfl rfl rfl
      ((hk.clean.fits.enqueue hkey rfl).like ⟨rfl, rfl, rfl⟩)
  · exact hk.keeps rfl

/-- An observation of the source leaves the job alone. -/
lemma safe_inputsUnchanged_bind {f : Bool → Host α} {source : SourceSnapshot}
    (hk : Kept b d₀ s₀ h d s)
    (hf : ∀ h' unchanged, Kept b d₀ s₀ h' d s → (f unchanged).Safe machine outline Q h' d) :
    (inputsUnchanged source >>= f).Safe machine outline Q h d :=
  reading.call trivial fun answer _ _ _ => hf _ _ (hk.read (List.prefix_append h [⟨_, answer⟩]))

lemma notStarted_safe (unchanged : Bool) (summary : String) (hk : Kept b d₀ s₀ h d s)
    (hphase : s.phase.rank < 4) :
    (notStarted s unchanged summary).Safe machine outline (Keeps b d₀ s₀ .notStarted) h d := by
  refine safe_keeps_bind keeps_error (applyTerminal_safe _ hk (.inr hphase)) ?_
  intro h' d' s' hk hphase'
  change s'.phase = .notStarted at hphase'
  exact (flushReports_safe hk).mono fun _ _ _ hr => hphase' ▸ hr

end Events

/-! ### Recovery -/

section Recovery

variable {α : Type} {b h h' : List (Called host)} {d₀ d : Files} {s₀ s s₁ : StoredJob}
  {Q : List (Called host) → Files → Except String α → Prop}

/-- What a recovery has read. -/
def Reads (h : List (Called host)) (s : StoredJob) (events : List JournalEvent) :
    List (Called host) :=
  h ++ [⟨.load, .ok s⟩, ⟨.events, .ok events⟩]

@[simp] lemma restoreObservation_revision (o : PendingObservation) :
    (s.restoreObservation o).revision = s.revision := by
  unfold StoredJob.restoreObservation
  dsimp only
  split <;> rfl

@[simp] lemma replay_revision (event : JournalEvent) :
    (s.replay event).revision = event.revision := by
  unfold StoredJob.replay
  cases event.event <;> simp

/-- What `recoverInner` returns. -/
def Inner (h : List (Called host)) (d : Files) (h' : List (Called host)) (d' : Files)
    (r : Except String (StoredJob × Bool)) : Prop :=
  ∀ x, r = .ok x → d' = d ∧ ∃ s, d.state = some s ∧ h' = Reads h s d.events ∧
    x = (s.recovered d.events, decide ((s.ahead d.events).isEmpty = false))

lemma recoverInner_safe : recoverInner.Safe machine outline (Inner h d) h d := by
  have hE : ∀ h' d' e, Inner h d h' d' (.error e) := by rintro _ _ _ _ ⟨⟩
  refine reading.ask_bind hE trivial fun answer s hanswer hload => ?_
  refine Proc.safe_ensure_bind hE fun _ => ?_
  refine reading.ask_bind hE trivial fun answer' events hanswer' hevents => ?_
  obtain rfl : answer = .ok s := hanswer
  obtain rfl : answer' = .ok events := hanswer'
  change d ∈ (if d.state = some s then [d] else []) at hload
  change d ∈ (if d.events = events then [d] else []) at hevents
  split at hload
  · split at hevents
    · rename_i hstate heq
      subst heq
      rintro _ ⟨⟩
      exact ⟨rfl, s, hstate, by simp [Reads], rfl⟩
    · cases hevents
  · cases hload

/-- What a recovery returns is in the state file, with the journal not ahead. -/
lemma safe_recover_bind {f : StoredJob → Host α} (hE : ∀ h d e, Q h d (.error e)) (hok : d.Ok)
    (hf : ∀ s events after d', Clean (s.recovered events) d' →
      (f (s.recovered events)).Safe machine outline Q (Reads h s events ++ after) d') :
    (recover >>= f).Safe machine outline Q h d := by
  refine Proc.Safe.bind (Q := fun h' d' r => ∀ s', r = .ok s' → ∃ s events after,
    s' = s.recovered events ∧ h' = Reads h s events ++ after ∧ Clean s' d') ?_ ?_ ?_
  · refine recoverInner_safe.bind ?_ (by rintro _ _ _ _ _ ⟨⟩)
    intro h' d' x hinner
    obtain ⟨hd, s, hstate, rfl, rfl⟩ := hinner x rfl
    subst d'
    unfold Files.Ok at hok
    rw [hstate] at hok
    obtain ⟨hfits, hahead⟩ := hok
    rcases hahead with hahead | ⟨event, hahead⟩
    · show Proc.Safe _ _ _ (if ((s.ahead d.events).isEmpty = false : Bool) = true then _ else _) _ _
      rw [hahead, recovered_of_ahead_nil hahead]
      rw [recovered_of_ahead_nil hahead] at hfits
      rintro _ ⟨⟩
      refine ⟨s, d.events, [], (recovered_of_ahead_nil hahead).symm, ?_, hstate, hahead, hfits⟩
      rw [List.append_nil]
    · show Proc.Safe _ _ _ (if ((s.ahead d.events).isEmpty = false : Bool) = true then _ else _) _ _
      rw [hahead]
      have hmem : event ∈ s.ahead d.events := hahead ▸ List.mem_cons_self
      have hrecovered : s.recovered d.events = s.replay event := by
        rw [StoredJob.recovered, hahead]
        rfl
      have hsaves : Saves d (s.recovered d.events) := by
        refine ⟨fun e he => ?_, hfits, fun r hr => ?_⟩
        · rw [hrecovered, replay_revision]
          have hnew : s.revision < event.revision := of_decide_eq_true (List.mem_filter.1 hmem).2
          rcases Nat.lt_or_ge s.revision e.revision with hlt | hle
          · have he' : e ∈ s.ahead d.events := List.mem_filter.2 ⟨he, decide_eq_true hlt⟩
            rw [hahead] at he'
            rw [List.mem_singleton.1 he']
          · exact Nat.le_trans hle (Nat.le_of_lt hnew)
        · rw [Files.recovered, hstate] at hr
          obtain rfl := Option.some.inj hr
          exact .refl _
      refine safe_save_bind (by rintro _ _ _ _ ⟨⟩) hsaves ?_
      rintro _ ⟨⟩
      exact ⟨s, d.events, [⟨.save (s.recovered d.events), .ok ()⟩], rfl, rfl, hsaves.clean⟩
  · rintro h' d' s' hfound
    obtain ⟨s, events, after, rfl, rfl, hclean⟩ := hfound s' rfl
    exact hf s events after d' hclean
  · exact fun h' d' e _ => hE h' d' e

end Recovery

/-! ### Launches -/

section Launches

variable {α : Type} {b h h' : List (Called host)} {d₀ d : Files} {s₀ s s₁ : StoredJob}
  {Q : List (Called host) → Files → Except String α → Prop} {deadline : Nat}

/-- How a procedure ends does not matter. -/
def Anyway (_ : List (Called host)) (_ : Files) (_ : Except String α) : Prop := True

lemma anyway_error (h : List (Called host)) (d : Files) (e : String) :
    Anyway h d (.error e : Except String α) := trivial

lemma Granted.read (hgrant : Granted h s deadline) (hh : h <+: h')
    (hidentities : s₁.identities = s.identities) (hsource : s₁.source = s.source) :
    Granted h' s₁ deadline := by
  obtain ⟨before, started, reply, job, reporter, elapsed, now, remaining, after, rfl, hsuccess,
    hdata, hnames, hrest⟩ := hgrant
  obtain ⟨more, rfl⟩ := hh
  refine ⟨before, started, reply, job, reporter, elapsed, now, remaining, after ++ more, ?_,
    hsuccess, hdata, ?_, hrest⟩
  · rw [hidentities, List.append_assoc]
  · unfold JobReply.Names
    rw [hidentities, hsource]
    exact hnames

/-- What a check of the launch authority returns. -/
def Checked (h₀ : List (Called host)) (d₀ : Files) (s : StoredJob) (h : List (Called host))
    (d : Files) (r : Except String LaunchAuthority) : Prop :=
  ∀ a, r = .ok a → d = d₀ ∧ h₀ <+: h ∧ ∀ deadline, a = .allowed deadline → Granted h s deadline

lemma checked_error (h₀ : List (Called host)) (d₀ : Files) (h : List (Called host)) (d : Files)
    (e : String) : Checked h₀ d₀ s h d (.error e) := by
  rintro _ ⟨⟩

lemma checked_denied {a : LaunchAuthority} (hh : h <+: h') (ha : ∀ deadline, a ≠ .allowed deadline) :
    Checked h d s h' d (.ok a) := by
  rintro _ ⟨⟩
  exact ⟨rfl, hh, fun deadline heq => absurd heq (ha deadline)⟩

lemma safe_context_bind {β : Type} {value : Option β} {message : String} {f : β → Host α}
    (hE : ∀ h d e, Q h d (.error e))
    (hf : ∀ a, value = some a → (f a).Safe machine outline Q h d) :
    (context value message >>= f).Safe machine outline Q h d := by
  cases value with
  | none => exact hE _ _ _
  | some a => exact hf a rfl

lemma judgeAuthority_safe {before : List (Called host)} {reply : AuthorityReply} (started : Nat)
    (hh : h <+: before) (hsuccess : isSuccess reply.status) :
    (judgeAuthority s reply started).Safe machine outline (Checked h d s)
      (before ++ [⟨.instant, started⟩, ⟨.getReporter s.identities.reporterId, .ok reply⟩]) d := by
  have hread := hh.trans (List.prefix_append before
    [⟨.instant, started⟩, ⟨.getReporter s.identities.reporterId, .ok reply⟩])
  unfold judgeAuthority
  cases hdata : reply.data with
  | none => exact checked_denied hread (by rintro _ ⟨⟩)
  | some data =>
    obtain ⟨_ | job, _ | reporter⟩ := data
    · exact checked_denied hread (by rintro _ ⟨⟩)
    · exact checked_denied hread (by rintro _ ⟨⟩)
    · exact checked_denied hread (by rintro _ ⟨⟩)
    dsimp only
    split
    · exact checked_denied hread (by rintro _ ⟨⟩)
    rename_i hnames
    refine safe_context_bind (checked_error _ _) fun launchAllowed hallowed => ?_
    split
    · exact checked_denied hread (by rintro _ ⟨⟩)
    rename_i htrue
    refine safe_context_bind (checked_error _ _) fun remaining hremaining => ?_
    refine reading.call trivial fun elapsed _ _ _ => ?_
    show Proc.Safe _ _ _ (if safeRemaining remaining started elapsed ≤ 0 then _ else _) _ _
    split
    · exact checked_denied (hread.trans (List.prefix_append _ _)) (by rintro _ ⟨⟩)
    rename_i hpositive
    refine reading.call trivial fun now _ _ _ => ?_
    rintro _ ⟨⟩
    refine ⟨rfl, (hread.trans (List.prefix_append _ _)).trans (List.prefix_append _ _), ?_⟩
    rintro _ ⟨⟩
    refine ⟨before, started, reply, job, reporter, elapsed, now, remaining, [], by simp, hsuccess,
      hdata, Decidable.not_not.1 hnames, ?_, hremaining, Int.not_le.1 hpositive, rfl⟩
    rw [hallowed, eq_true_of_ne_false htrue]

lemma checkLaunchAuthority_safe :
    (checkLaunchAuthority s).Safe machine outline (Checked h d s) h d := by
  refine safe_context_bind (checked_error _ _) fun reporter _ => ?_
  refine reading.call trivial fun client _ _ _ => ?_
  have hread := List.prefix_append h [(⟨.newClient reporter.serviceOrigin reporter.bearerToken
    reporter.allowInsecureLoopback, client⟩ : Called host)]
  cases client with
  | error e => exact checked_denied hread (by rintro _ ⟨⟩)
  | ok _ =>
  refine reading.call trivial fun started _ _ _ => ?_
  refine reading.call trivial fun answer _ _ _ => ?_
  have hread' := (hread.trans (List.prefix_append _ [⟨.instant, started⟩])).trans
    (List.prefix_append _ [⟨.getReporter s.identities.reporterId, answer⟩])
  cases answer with
  | error e => exact checked_denied hread' (by rintro _ ⟨⟩)
  | ok reply =>
  show Proc.Safe _ _ _ (if reply.status = 401 ∨ reply.status = 403 ∨ reply.status = 404 then _
    else _) _ _
  split
  · exact checked_denied hread' (by rintro _ ⟨⟩)
  split
  · exact checked_denied hread' (by rintro _ ⟨⟩)
  rename_i hsuccess
  have hjudge := judgeAuthority_safe (s := s) (d := d) started hread (eq_true_of_ne_false hsuccess)
  rwa [List.append_cons] at hjudge

lemma watchProducer_safe (pid n : Nat) (hk : Kept b d₀ s₀ h d s) (hphase : s.phase.rank < 4) :
    (watchProducer pid s n).Safe machine outline Anyway h d := by
  induction n generalizing h d s with
  | zero => trivial
  | succ n ih =>
    refine safe_keeps_bind anyway_error (flushReports_safe hk) fun h d s' hk hphase' => ?_
    rw [← hphase'] at hphase
    refine reading.ask_bind anyway_error trivial fun answer exited _ _ => ?_
    have hk := hk.read (List.prefix_append h [⟨.tryWait pid, answer⟩])
    cases exited with
    | some status =>
      refine safe_inputsUnchanged_bind hk fun h unchanged hk => ?_
      have hforward : s'.phase.Forward (if status.success then .succeeded else .failed) := by
        refine .inr ?_
        split <;> exact hphase
      refine safe_keeps_bind anyway_error (applyTerminal_safe _ hk hforward) ?_
      intro h d s'' hk _
      exact safe_keeps_bind anyway_error (flushReports_safe hk) fun _ _ _ _ _ => trivial
    | none =>
      refine safe_keeps_bind anyway_error (maybeEnqueueRunning_safe hk) fun h d s'' hk hphase'' => ?_
      refine reading.call trivial fun answer _ _ _ => ?_
      exact ih (hk.read (List.prefix_append h [⟨.sleep, answer⟩])) (hphase'' ▸ hphase)

lemma recordProducer_safe (pid polls : Nat) (hk : Kept b d₀ s₀ h d s) (hphase : s.phase.rank < 3) :
    (recordProducer pid s polls).Safe machine outline Anyway h d := by
  have hphase' := Nat.lt_succ_of_lt hphase
  refine reading.ask_bind anyway_error trivial fun answer process _ _ => ?_
  have hk := hk.read (List.prefix_append h [⟨.capture pid, answer⟩])
  refine reading.call trivial fun now _ _ _ => ?_
  have hk := hk.read (List.prefix_append _ [⟨.nowMs, now⟩])
  cases process with
  | none => exact watchProducer_safe pid polls hk hphase'
  | some process =>
    refine safe_newKey_bind hk fun key d' hfresh hkey hk => ?_
    refine safe_keeps_bind anyway_error (commitObservation_safe hk (t := { s with
        phase := .running
        process := some process
        processStartedAtMs := some now })
      ⟨rfl, rfl, rfl, rfl, rfl, .inr hphase⟩ rfl hfresh hkey (by rintro _ ⟨⟩)
      (fun at' => ⟨_, rfl, rfl, rfl, rfl⟩) ⟨rfl, rfl, rfl, rfl, rfl, rfl⟩) ?_
    intro h d s' hk hphase''
    exact watchProducer_safe pid polls hk (hphase'' ▸ Nat.lt_succ_self 3)

/-- A launch that is not started, and what comes after it. -/
lemma safe_notStarted_bind {f : StoredJob → Host α} {unchanged : Bool} {summary : String}
    (hk : Kept b d₀ s₀ h d s) (hphase : s.phase.rank < 4)
    (hf : ∀ h d s', (f s').Safe machine outline Anyway h d) :
    (notStarted s unchanged summary >>= f).Safe machine outline Anyway h d :=
  safe_keeps_bind anyway_error (notStarted_safe _ _ hk hphase) fun h d s' _ _ => hf h d s'

lemma StartedRegistered.read (hstart : StartedRegistered h) (hh : h <+: h') :
    StartedRegistered h' := by
  obtain ⟨s, events, after, rfl, hphase⟩ := hstart
  obtain ⟨more, rfl⟩ := hh
  exact ⟨s, events, after ++ more, rfl, hphase⟩

lemma launch_safe (polls : Nat) (hk : Kept b d₀ s h d s) (hphase : s.phase = .registered)
    (hstart : StartedRegistered b) (hgrant : Granted b s deadline) :
    (launch s deadline polls).Safe machine outline Anyway h d := by
  have hnone : d₀.spawns = 0 := by
    rw [← hk.spawns]
    refine Nat.eq_zero_of_not_pos fun hone => ?_
    have hlaunched := hk.clean.fits.launched hone
    rw [hphase] at hlaunched
    exact absurd hlaunched (by decide)
  have hearly : s.phase.rank < 4 := hphase ▸ by decide
  refine reading.call trivial fun clean _ _ _ => ?_
  have hk := hk.read (List.prefix_append h [⟨.verifyCleanSnapshot s.source, clean⟩])
  cases clean with
  | error e => exact safe_notStarted_bind hk hearly fun _ _ _ => trivial
  | ok _ =>
  refine reading.call trivial fun logs _ _ _ => ?_
  have hk := hk.read (List.prefix_append _ [⟨.prepareLogs s.logLimitBytes, logs⟩])
  cases logs with
  | error e =>
    refine safe_inputsUnchanged_bind hk fun h unchanged hk => ?_
    exact safe_notStarted_bind hk hearly fun _ _ _ => trivial
  | ok _ =>
  have hreplays : Replays s .launchIntent { s with phase := .launchIntent } :=
    ⟨rfl, rfl, rfl, fun _ => ⟨rfl, rfl, rfl⟩, hphase ▸ .inr (Nat.lt_succ_self 1)⟩
  have hfits := hk.clean.fits.advance (t := { s with phase := .launchIntent })
    ⟨rfl, rfl, rfl, rfl, rfl, hreplays.forward⟩
  refine (commitEvent_safe hk hreplays hfits (by rintro _ ⟨⟩)).bind ?_ ?_
  rotate_left
  · exact fun _ _ _ _ => trivial
  intro h d s' hcommitted
  obtain ⟨hk, hphase', hline⟩ := hcommitted s' rfl
  have hphase' : s'.phase = .launchIntent := hphase'
  have hearly : s'.phase.rank < 4 := hphase' ▸ by decide
  refine reading.call trivial fun now _ _ _ => ?_
  have hnow := hk.read (List.prefix_append h [⟨.instant, now⟩])
  show Proc.Safe _ _ _ (if deadline ≤ now then _ else _) _ _
  split
  · refine safe_inputsUnchanged_bind hnow fun h unchanged hk => ?_
    exact safe_notStarted_bind hk hearly fun _ _ _ => trivial
  rename_i hdeadline
  refine Proc.safe_call reading.quiet fun answer d' hI _ hd' => ?_
  have hready : LaunchReady (h ++ [⟨.instant, now⟩]) d := by
    refine ⟨hk.spawns.trans hnone, hstart.read hnow.history, s', hk.clean.state, hphase', hline,
      h, now, deadline, rfl, hgrant.read hk.history hk.identities hk.source, ?_⟩
    exact Nat.lt_of_not_le hdeadline
  cases answer with
  | error e =>
    obtain rfl := List.mem_singleton.1 hd'
    refine ⟨hI, ⟨.refl _, hready⟩, ?_⟩
    refine safe_inputsUnchanged_bind (hnow.read (List.prefix_append _ _)) fun h unchanged hk => ?_
    exact safe_notStarted_bind hk hearly fun _ _ _ => trivial
  | ok pid =>
    obtain rfl := List.mem_singleton.1 hd'
    have hfits : Fits s' { d with spawns := d.spawns + 1 } :=
      { hk.clean.fits with
        once := by rw [hk.spawns, hnone]
        launched := fun _ => by rw [hphase']; exact Nat.le_refl 2 }
    have hclean : Clean s' { d with spawns := d.spawns + 1 } :=
      ⟨hk.clean.state, hk.clean.ahead, hfits⟩
    refine ⟨hclean.ok, ⟨fun r hr => ⟨r, hr, .refl _⟩, hready⟩, ?_⟩
    exact recordProducer_safe pid polls (.start hclean) (hphase' ▸ by decide)

lemma launchAndWatch_safe (polls : Nat) (hclean : Clean s d) (hphase : s.phase = .registered)
    (hstart : StartedRegistered h) :
    (launchAndWatch s polls).Safe machine outline Anyway h d := by
  refine checkLaunchAuthority_safe.bind ?_ fun _ _ _ _ => trivial
  intro h' d' a hchecked
  obtain ⟨rfl, hh, hgrant⟩ := hchecked a rfl
  have hk : Kept h' d' s h' d' s := .start hclean
  cases a with
  | allowed deadline => exact launch_safe polls hk hphase (hstart.read hh) (hgrant deadline rfl)
  | denied message =>
    refine safe_inputsUnchanged_bind hk fun h unchanged hk => ?_
    exact safe_notStarted_bind hk (hphase ▸ by decide) fun _ _ _ => trivial
  | uncertain message =>
    refine safe_keeps_bind anyway_error
      (persistSame_safe hk ⟨rfl, rfl, rfl, rfl, rfl, rfl⟩) fun _ _ _ _ _ => trivial

end Launches

/-! ### Calls -/

section Calls

variable {α : Type} {b h h' : List (Called host)} {d₀ d : Files} {s₀ s s₁ : StoredJob}
  {Q : List (Called host) → Files → Except String α → Prop} {event : JournalEvent}

/-- A job becomes unknown, and what comes after it. -/
lemma safe_setUnknown_bind {f : StoredJob → Host α} {unchanged : Option Bool} {message : String}
    (hk : Kept b d₀ s₀ h d s) (hphase : s.phase.rank < 4)
    (hf : ∀ h d s', Kept b d₀ s₀ h d s' → (f s').Safe machine outline Anyway h d) :
    (setUnknown s unchanged message >>= f).Safe machine outline Anyway h d :=
  safe_keeps_bind anyway_error (setUnknown_safe _ _ hk hphase) fun h d s' hk _ => hf h d s' hk

/-- The last reports of a call. -/
lemma safe_lastReports {f : StoredJob → Host α} (hk : Kept b d₀ s₀ h d s)
    (hf : ∀ h d s', (f s').Safe machine outline Anyway h d) :
    (flushReports s >>= f).Safe machine outline Anyway h d :=
  safe_keeps_bind anyway_error (flushReports_safe hk) fun h d s' _ _ => hf h d s'

lemma observeRunning_safe (n : Nat) (hk : Kept b d₀ s₀ h d s) (hphase : s.phase = .running) :
    (observeRunning s n).Safe machine outline Anyway h d := by
  induction n generalizing h d s with
  | zero => trivial
  | succ n ih =>
    refine safe_keeps_bind anyway_error (flushReports_safe hk) fun h d s' hk hphase' => ?_
    have hphase : s'.phase = .running := hphase'.trans hphase
    have hearly : s'.phase.rank < 4 := hphase ▸ by decide
    cases hprocess : s'.process with
    | none =>
      refine safe_inputsUnchanged_bind hk fun h unchanged hk => ?_
      refine safe_setUnknown_bind hk hearly fun h d s'' hk => ?_
      exact safe_lastReports hk fun _ _ _ => trivial
    | some identity =>
      refine reading.ask_bind anyway_error trivial fun answer alive _ _ => ?_
      have hk := hk.read (List.prefix_append h [⟨.isAlive identity, answer⟩])
      cases alive with
      | true =>
        refine safe_keeps_bind anyway_error (maybeEnqueueRunning_safe hk) ?_
        intro h d s'' hk hphase''
        refine reading.call trivial fun answer _ _ _ => ?_
        exact ih (hk.read (List.prefix_append h [⟨.sleep, answer⟩])) (hphase''.trans hphase)
      | false =>
        refine safe_inputsUnchanged_bind hk fun h unchanged hk => ?_
        refine safe_setUnknown_bind hk hearly fun h d s'' hk => ?_
        exact safe_lastReports hk fun _ _ _ => trivial

lemma runGuardian_safe (mode : GuardianMode) (polls : Nat) (hok : d.Ok) :
    (runGuardian mode polls).Safe machine outline Anyway [] d := by
  refine safe_recover_bind anyway_error hok fun s₁ events after d' hclean => ?_
  have hstart : (s₁.recovered events).phase = .registered →
      StartedRegistered (Reads [] s₁ events ++ after) :=
    fun hphase => ⟨s₁, events, after, rfl, hphase⟩
  generalize s₁.recovered events = s at hclean hstart ⊢
  refine Proc.safe_ensure_bind anyway_error fun _ => ?_
  refine safe_keeps_bind anyway_error (flushReports_safe (.start hclean)) ?_
  intro h d s' hk hphase
  have hlast : ∀ outcome, Proc.Safe machine outline Anyway
      (flushReports s' >>= fun _ => pure outcome : Host GuardianOutcome) h d :=
    fun outcome => safe_lastReports hk fun _ _ _ => trivial
  have hunknown : s'.phase = .launchIntent → ∀ message, Proc.Safe machine outline Anyway (do
      let state ← setUnknown s' none message
      let _ ← flushReports state
      return .observedUnknown : Host GuardianOutcome) h d := by
    intro hintent message
    refine safe_setUnknown_bind hk (hintent ▸ by decide) fun h d s'' hk => ?_
    exact safe_lastReports hk fun _ _ _ => trivial
  cases hphase' : s'.phase with
  | prepared => cases mode <;> trivial
  | registered =>
    cases mode with
    | run =>
      have hregistered := hstart (hphase.symm.trans hphase')
      exact launchAndWatch_safe polls hk.clean hphase' (hregistered.read hk.history)
    | observe => trivial
  | launchIntent => cases mode <;> exact hunknown hphase' _
  | running => cases mode <;> exact observeRunning_safe polls hk hphase'
  | unknown => cases mode <;> exact hlast _
  | succeeded | failed | notStarted => cases mode <;> exact hlast _

/-- A new job without observations may be saved where there is none. -/
lemma Files.Blank.saves (hblank : d.Blank) (hstate : d.state = none)
    (hpending : s.pendingObservations = []) : Saves d s where
  revisions e he := by
    rw [Files.events, hblank.tail, hblank.lines] at he
    cases he
  fits := by
    have hnone : ∀ p, p ∉ s.pendingObservations := by simp [hpending]
    refine ⟨by simp [hpending], fun p hp => absurd hp (hnone p), fun p hp => absurd hp (hnone p),
      by simp [hblank.sent], by simp [hblank.sent], by simp [hblank.sent],
      by simp [hblank.outcomes], ?_, ?_⟩
    · rw [hblank.spawns]
      exact Nat.zero_le 1
    · rw [hblank.spawns]
      exact fun h => absurd h (Nat.lt_irrefl 0)
  forward r hr := by
    rw [Files.recovered, hstate] at hr
    cases hr

/-- An event that the state has seen already changes nothing for a recovery. -/
lemma Clean.append_seen (hclean : Clean s d) (hseen : event.revision ≤ s.revision)
    (hevent : event.event.outcome = []) {answer : Except String Unit}
    (hd' : d' ∈ effects d (.append event) answer) : Clean s d' := by
  have hclean' : ∀ d'' : Files, d''.state = d.state → d''.events ⊆ d.events ++ [event] →
      SameHistory d d'' → Clean s d'' := by
    intro d'' hstate hevents hsame
    refine ⟨hstate.trans hclean.state, ahead_eq_nil.2 fun e he => ?_, hclean.fits.history hsame⟩
    rcases List.mem_append.1 (hevents he) with he | he
    · exact ahead_eq_nil.1 hclean.ahead e he
    · rw [List.mem_singleton.1 he]
      exact hseen
  have hlines : d.lines ⊆ d.events ++ [event] :=
    List.subset_append_of_subset_left _ Files.lines_subset
  have hlines' : d.lines ++ [event] ⊆ d.events ++ [event] :=
    List.append_subset.2 ⟨hlines, List.subset_append_right _ _⟩
  have happended : Clean s (d.appended event) :=
    hclean' _ rfl hlines' ⟨rfl, rfl, rfl, by simp [Files.appended, hevent], rfl⟩
  cases answer with
  | ok _ =>
    obtain rfl := List.mem_singleton.1 hd'
    exact happended
  | error e =>
    simp only [effects, Files.partlyAppended, List.mem_cons, List.not_mem_nil, or_false] at hd'
    rcases hd' with rfl | rfl | rfl | rfl | rfl
    · exact hclean
    · exact hclean' _ rfl hlines ⟨rfl, rfl, rfl, rfl, rfl⟩
    · exact hclean' _ rfl hlines ⟨rfl, rfl, rfl, rfl, rfl⟩
    · exact hclean' _ rfl hlines' ⟨rfl, rfl, rfl, by simp [hevent], rfl⟩
    · exact happended

lemma initializeLaunchState_safe (input : InitializeJob) (hok : d.Ok) :
    (initializeLaunchState input).Safe machine outline Anyway h d := by
  refine reading.ask_bind anyway_error trivial fun _ _ _ _ => ?_
  refine reading.ask_bind anyway_error trivial fun _ _ _ _ => ?_
  refine reading.call trivial fun exist _ hexist _ => ?_
  have hexist : exist = d.state.isSome := hexist
  show Proc.Safe _ _ _ (if exist = true then _ else _) _ _
  split
  · refine safe_recover_bind anyway_error hok fun s events after d' _ => ?_
    exact Proc.safe_ensure_bind anyway_error fun _ => trivial
  rename_i hnone
  have hstate : d.state = none := by
    rw [hexist, Option.isSome_iff_ne_none] at hnone
    exact Decidable.not_not.1 hnone
  unfold Files.Ok at hok
  rw [hstate] at hok
  have hsaves := hok.saves (s := input.prepared) hstate rfl
  refine safe_save_bind anyway_error hsaves ?_
  refine reading.call trivial fun now _ _ _ => ?_
  refine Proc.safe_call reading.quiet fun answer d' _ _ hd' => ?_
  have hclean := hsaves.clean.append_seen (Nat.le_refl _) rfl hd'
  refine ⟨hclean.ok, ⟨fun r hr => ⟨r, ?_, .refl _⟩, trivial⟩, ?_⟩
  · rw [← hr, hclean.recovered, hsaves.clean.recovered]
  · cases answer <;> trivial

/-- A rule for a request that only reads. -/
lemma checkRenewal_uses (renewal : Option RenewalConfig) :
    (checkRenewal renewal).Uses Op.Reads := by
  unfold checkRenewal
  cases renewal with
  | none => trivial
  | some renewal =>
    refine Proc.uses_bind (Proc.uses_ask _ trivial) fun _ => ?_
    simp

lemma recordRegistration_safe (registration : ReporterRegistration) (hok : d.Ok) :
    (recordRegistration registration).Safe machine outline Anyway h d := by
  refine safe_recover_bind anyway_error hok fun s₁ events after d' hclean => ?_
  generalize s₁.recovered events = s at hclean ⊢
  refine reading.uses_bind anyway_error (checkRenewal_uses _) fun h' _ _ => ?_
  refine reading.call trivial fun now _ _ _ => ?_
  rcases hreporter : s.reporter with _ | existing
  rotate_left
  · exact Proc.safe_ensure_bind anyway_error fun _ => trivial
  refine Proc.safe_ensure_bind anyway_error fun hphase => ?_
  refine Proc.safe_ensure_bind anyway_error fun _ => ?_
  refine safe_newKey_bind (.start hclean) fun key d'' hfresh hkey hk => ?_
  refine (commitObservation_safe hk (t := { s with
      reporter := some (registration.reporter now)
      phase := .registered })
    ⟨rfl, rfl, rfl, rfl, rfl, hphase ▸ .inr Nat.zero_lt_one⟩ rfl hfresh hkey (by rintro _ ⟨⟩)
    (fun at' => ⟨{ s with
      revision := s.revision + 1
      reporter := some (registration.reporter now)
      phase := .registered }, rfl, rfl, rfl, rfl⟩) ⟨rfl, rfl, rfl, rfl, rfl, rfl⟩).mono ?_
  exact fun _ _ _ _ => trivial

/-- What a call returns is put into its reply. -/
lemma safe_map {β : Type} {f : α → β} {p : Host α} (hp : p.Safe machine outline Anyway h d) :
    (f <$> p).Safe machine outline Anyway h d :=
  hp.bind (fun _ _ _ _ => trivial) fun _ _ _ _ => trivial

lemma outline_valid : outline.Valid machine where
  procedure request d hok := by
    refine Proc.Safe.mono (Q := Anyway) ?_ fun _ _ _ _ => trivial
    cases request with
    | initializeLaunchState input => exact safe_map (initializeLaunchState_safe input hok)
    | recordRegistration registration => exact safe_map (recordRegistration_safe registration hok)
    | runGuardian mode polls => exact safe_map (runGuardian_safe mode polls hok)
    | inspectJob =>
      exact safe_map (recoverInner_safe.bind (fun _ _ _ _ => trivial) fun _ _ _ _ => trivial)
  others d d' _ h := h.elim
  ends request h d d' result _ h := h.elim
  crash d d' hok _ hd' := by
    obtain rfl := List.mem_singleton.1 hd'
    exact hok

end Calls

/-! ### Runs -/

/-- A job of which nothing is there yet. -/
def Files.Fresh (d : Files) : Prop := d = ⟨none, [], .none, 0, [], [], [], []⟩

/-- What a run may show of its files: one launch, observations in order, and terminal outcomes that
are pending until the service has taken them. -/
structure Files.Lawful (d : Files) : Prop where
  once : d.spawns ≤ 1
  inOrder : d.sent.Pairwise Before
  outcomes : ∀ o ∈ d.outcomes, o ∈ d.accepted ∨
    ∃ job, d.recovered = some job ∧ o ∈ job.pendingObservations

lemma Files.Ok.lawful {d : Files} (hok : d.Ok) : d.Lawful := by
  unfold Files.Ok at hok
  split at hok
  · refine ⟨hok.spawns ▸ Nat.zero_le 1, by simp [hok.sent], by simp [hok.outcomes]⟩
  · rename_i s hstate
    obtain ⟨hfits, -⟩ := hok
    refine ⟨hfits.once, hfits.inOrder, fun o ho => ?_⟩
    refine (hfits.outcomes o ho).symm.imp_right fun hpending => ⟨_, ?_, hpending⟩
    rw [Files.recovered, hstate]
    rfl


lemma Files.Fresh.ok {d : Files} (h : d.Fresh) : d.Ok := by
  obtain rfl := h
  exact ⟨rfl, rfl, rfl, rfl, rfl⟩

/-- What a step of a run may show: the recovered phase stays or goes forward, a final one stays, and
the producer is spawned when that is ready. -/
structure LawfulStep (x x' : Files × Option (Running host String Request Reply))
    (event : Event (Act host String Request Reply)) : Prop where
  forward : PhaseForward x.1 x'.1
  final : ∀ job job', x.1.recovered = some job → x'.1.recovered = some job' →
    job.phase.isTerminal ∨ job.phase = .unknown → job'.phase = job.phase
  spawned : ∀ run command captureLogs answer, x.2 = some run →
    event = .work (.call (.spawnProducer command captureLogs) answer) → LaunchReady run.history x.1

lemma PhaseForward.final {d d' : Files} {job job' : StoredJob} (h : PhaseForward d d')
    (hjob : d.recovered = some job) (hjob' : d'.recovered = some job')
    (hfinal : job.phase.isTerminal ∨ job.phase = .unknown) : job'.phase = job.phase := by
  obtain ⟨r, hr, hforward⟩ := h job hjob
  obtain rfl := Option.some.inj (hr.symm.trans hjob')
  refine hforward.final ?_
  rcases hfinal with hterminal | hunknown
  · revert hterminal
    cases job.phase <;> simp [JobPhase.isTerminal, JobPhase.rank]
  · rw [hunknown]
    rfl

/-- While the state file can be inspected, the producer is spawned at most once, when that is ready;
the recovered phase goes forward; observations are sent in order; and a terminal outcome that
reached the journal is pending until the service has taken it. -/
theorem launched_at_most_once {x : Files × Option (Running host String Request Reply)}
    (hx : machine.program.ReachableBy Inspected.Holds Files.Fresh x) :
    x.1.Lawful ∧ ∀ event x', Inspected.Holds x event → machine.program.Step x event x' →
      LawfulStep x x' event := by
  have hinit : ∀ d, Files.Fresh d → outline.inv d := fun _ h => h.ok
  refine ⟨(outline_valid.inv hinit hx).lawful, fun event x' hinspected hstep => ?_⟩
  have hboth : PhaseForward x.1 x'.1 ∧ ∀ run command captureLogs answer, x.2 = some run →
      event = .work (.call (.spawnProducer command captureLogs) answer) →
        LaunchReady run.history x.1 := by
    cases hstep with
    | work hwork =>
      cases hwork with
      | start request => exact ⟨.refl _, fun _ _ _ _ hrun => by cases hrun⟩
      | call hcall =>
        obtain ⟨hforward, hpromise⟩ := outline_valid.commits hinit hx hinspected
          (.work (.call hcall))
        refine ⟨hforward, ?_⟩
        rintro run command captureLogs answer ⟨⟩ ⟨⟩
        exact hpromise
      | returned => exact ⟨.refl _, fun _ _ _ _ _ hevent => by cases hevent⟩
      | failed => exact ⟨.refl _, fun _ _ _ _ _ hevent => by cases hevent⟩
    | crash hcrash =>
      obtain rfl := List.mem_singleton.1 hcrash
      exact ⟨.refl _, fun _ _ _ _ _ hevent => by cases hevent⟩
    | others hothers => exact hothers.elim
  exact ⟨hboth.1, fun _ _ => hboth.1.final, hboth.2⟩

/-! ### A job prepared over another -/

/-- A job to prepare. -/
def input : InitializeJob where
  identities := ⟨"job", "producer", "runner", "reporter"⟩
  command := ⟨"/bin/true", [], "/c", []⟩
  source := ⟨"/c", "r", "t"⟩
  logLimitBytes := 0
  harness := none

/-- Everything works, but the service denies a launch. Whether the state file is found is left
open. -/
def world (found : Files → Bool) (_ : Nat) : Plays Files host := fun d op =>
  match op with
  | .stateExists => (found d, 0)
  | .load => (match d.state with | some s => .ok s | none => .error "absent", 0)
  | .events => (.ok d.events, 0)
  | .nowMs => ((0 : Int), 0)
  | .instant => ((0 : Nat), 0)
  | .newKey => (String.ofList (d.keys.flatMap String.toList ++ ['k']), 0)
  | .parseTime _ => (.ok 0, 0)
  | .getReporter _ => (.ok ⟨403, none⟩, 0)
  | .postObservation .. | .postRenewal .. | .spawnProducer .. => (.ok 200, 0)
  | .isAlive _ => (.ok true, 0)
  | .capture _ => (.ok none, 0)
  | .tryWait _ => (.ok none, 0)
  | .sleep => ((), 0)
  | .save _ | .append _ | .validateInitialize _ | .verifyCleanSnapshot _ | .prepareLogs _ |
    .newClient .. => (.ok (), 0)

/-- A preparation whose look at the state file is told by `found`. -/
def prepares (found : Files → Bool) : Machine.Episode Files host Request :=
  ⟨.initializeLaunchState input, 100, world found⟩

/-- The job is registered, and a guardian runs. -/
def registersAndRuns : List (Machine.Episode Files host Request) :=
  [⟨.recordRegistration ⟨"https://c", false, "acr_reporter.x", none⟩, 100,
      world fun d => d.state.isSome⟩,
    ⟨.runGuardian .run 5, 100, world fun d => d.state.isSome⟩]

/-- A job that was not started, with both its observations sent, is prepared again: the preparation
could not inspect the state file. The next guardian sends the first observation after the second. -/
theorem observation_sent_again :
    ∃ x, machine.program.Reachable Files.Fresh x ∧ ¬ x.1.Lawful := by
  have hplayed : (machine.episodes ⟨none, [], .none, 0, [], [], [], []⟩
      (prepares (fun d => d.state.isSome) :: registersAndRuns ++
        prepares (fun _ => false) :: registersAndRuns)).map
        (fun d => d.sent.map fun o => o.body.sequence) = some [1, 2, 1, 2] := by
    decide +kernel
  obtain ⟨d, hd, hsent⟩ := Option.map_eq_some_iff.1 hplayed
  have hreach : machine.program.ReachableBy Condition.all.Holds Files.Fresh (d, none) :=
    Machine.reachable_of_episodes hd (fun _ _ _ _ _ _ _ _ => trivial)
      (fun _ => trivial) (.start rfl)
  refine ⟨(d, none), hreach.reachable, fun hlawful => ?_⟩
  have horder : (d.sent.map fun o => o.body.sequence).Pairwise (· ≤ ·) := by
    refine List.pairwise_map.2 (hlawful.inOrder.imp fun {o p} hbefore => ?_)
    rcases hbefore with hlt | rfl
    · exact Nat.le_of_lt hlt
    · exact Nat.le_refl _
  rw [hsent] at horder
  revert horder
  decide

/-- The job is prepared again, but its state file is found. -/
theorem launched_at_most_once_found :
    ∃ d, machine.episodes ⟨none, [], .none, 0, [], [], [], []⟩
      (prepares (fun d => d.state.isSome) :: registersAndRuns ++
        prepares (fun d => d.state.isSome) :: registersAndRuns) = some d ∧ d.Lawful := by
  have hplayed : (machine.episodes ⟨none, [], .none, 0, [], [], [], []⟩
      (prepares (fun d => d.state.isSome) :: registersAndRuns ++
        prepares (fun d => d.state.isSome) :: registersAndRuns)).isSome = true := by
    decide +kernel
  obtain ⟨d, hd⟩ := Option.isSome_iff_exists.1 hplayed
  refine ⟨d, hd, (launched_at_most_once (Machine.reachable_of_episodes hd ?_ (fun _ => trivial)
    (Program.ReachableBy.start rfl))).1⟩
  intro e he k h d op _ _
  have hworld : e.world = world fun d => d.state.isSome := by
    simp only [registersAndRuns, List.cons_append, List.nil_append, List.mem_cons,
      List.not_mem_nil, or_false] at he
    rcases he with rfl | rfl | rfl | rfl | rfl | rfl <;> rfl
  rw [hworld]
  cases op <;> first | rfl | trivial

end AgentCoordinator.Guardian
