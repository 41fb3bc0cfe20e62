import Mathlib.Data.List.Nodup
import AgentCoordinator.Library.Triple
import AgentCoordinator.Supervisor.RunState

/-
A run is used once, and its state is pruned only after its end.

Supervisors prepare, start, end and prune runs in any interleaving, and crash anywhere. The files of
a run only grow, so a complete record stays what it is; and they change only under the lock of the
run. What is proved of each call of a supervisor is what the others may rely on.
-/

namespace AgentCoordinator.RunState

open Procedure

variable {F : Format} {ι : Type}

/-! ### Records -/

/-- The terminal record of a run names the role, and matches the start record. -/
def Record (F : Format) (x : RunDir ι) (role : Role) (t : Terminal) : Prop :=
  (∃ s, x.file .terminal = some s ∧ F.fromSlice s = some t) ∧ t.role = role.slug ∧
    x.file .started = some t.sessionId

/-- A run of the role that has ended, as a candidate. -/
def Ended (F : Format) (run : RunPath → RunDir ι) (role : Role) (c : Candidate) : Prop :=
  ∃ t, Record F (run ⟨role, c.name⟩) role t ∧ t.finishedUnixNanos = c.finished

/-- Fewer than `n` of the ended runs of the role come after this one. -/
def AmongLatest (F : Format) (run : RunPath → RunDir ι) (role : Role) (n : Nat) (c : Candidate) :
    Prop :=
  Ended F run role c ∧
    ∀ later : List Candidate, later.Nodup → (∀ c' ∈ later, Ended F run role c' ∧ c.Before c') →
      later.length < n

/-- When the state of a run may be removed: the run is not the one being prepared, it has ended, and
at the time of the listing it was not one of the latest that had. -/
structure Prunable (F : Format) (i : ι) (current : RunPath) (d : Disk ι) (run : RunPath) :
    Prop where
  other : run ≠ current
  role : run.role = current.role
  locked : (d.run run).holder = some i
  ended : ∃ t, Record F (d.run run) run.role t ∧
    ¬ AmongLatest F (d.listed i) run.role KEEP_TERMINAL ⟨t.finishedUnixNanos, run.name⟩

/-! ### The supervisors -/

/-- The content of a file is still there, and more may have been written. -/
def Grows (before after : Option (List Char)) : Prop :=
  ∀ s, before = some s → ∃ s', after = some s' ∧ s <+: s'

/-- Start records are being written with session ids, and terminal records with records of some. -/
def Wellformed (F : Format) (d : Disk ι) : Prop :=
  ∀ r, (∀ s, (d.run r).file .started = some s → ∃ id : SessionId, s <+: id.text) ∧
    ∀ s, (d.run r).file .terminal = some s →
      ∃ t, t.sessionId.length = 36 ∧ s <+: F.toVec t

/-- What a supervisor relies on: the files only grow, and nobody else touches a run that it has
locked. -/
structure Rely (F : Format) (i : ι) (d d' : Disk ι) : Prop where
  wellformed : Wellformed F d → Wellformed F d'
  listed : d'.listed i = d.listed i
  held : ∀ r, (d.run r).holder = some i → (d'.run r).holder = some i ∧
    ∀ file, file ≠ .config → (d'.run r).file file = (d.run r).file file
  grows : ∀ r file, file ≠ .config → Grows ((d.run r).file file) ((d'.run r).file file)

variable [DecidableEq ι]

/-- The supervisors, each with what it does. -/
def team (F : Format) (sessions : ι → Session) :
    Team ι (Disk ι) calls Error Unit Unit where
  member i :=
    { effects := effects i
      crash d := [d.crash i]
      others := Rely F i
      procedure _ := (sessions i).code F }
  outside := Harness

/-- A moment of a run of the supervisors. -/
abbrev At (ι : Type) := Moment ι (Disk ι) calls Error Unit Unit

section Moments

variable (m : At ι)

/-- A supervisor starts, or ends, the launch of a run: it creates the record. -/
def Starts (r : RunPath) : Prop := ∃ i, m.event = .work i (.call (.create r .started) true)

def Ends (r : RunPath) : Prop := ∃ i, m.event = .work i (.call (.create r .terminal) true)

/-- `prepare` succeeds for a run. -/
def Readies (sessions : ι → Session) (r : RunPath) : Prop :=
  ∃ i, (sessions i).run = r ∧ m.event = .work i (.call (.mark .ready) ())

end Moments

/-- The calls that prepare, start, end or prune a run. -/
def Touches (current : RunPath) (r : RunPath) : Op → Prop
  | .create r' _ | .append r' _ _ | .privateDir r' _ | .removeState r' => r' = r
  | .mark .ready => current = r
  | _ => False

/-- What holds of a run of the supervisors. -/
structure UsedOnce (F : Format) (sessions : ι → Session) (l : List (At ι)) : Prop where
  /-- A run is started at most once. -/
  once : ∀ r, l.Pairwise fun m m' => ¬ (Starts m r ∧ Starts m' r)
  /-- A run is not prepared after it was started or ended. -/
  fresh : ∀ r, l.Pairwise fun m m' => Starts m r ∨ Ends m r → ¬ Readies m' sessions r
  /-- Who prepares or prunes a run holds its lock. -/
  exclusive : ∀ m ∈ l, ∀ i op answer r, m.event = .work i (.call op answer) →
    Touches (sessions i).run r op → (m.before.1.run r).holder = some i
  /-- State is removed only from runs that retention may prune. -/
  pruned : ∀ m ∈ l, ∀ i r ok, m.event = .work i (.call (.removeState r) ok) →
    Prunable F i (sessions i).run m.before.1 r

/-- No run was started, and no lock is held. -/
def Unused (d : Disk ι) : Prop :=
  ∀ r, (d.run r).holder = none ∧ (d.run r).file .started = none ∧ (d.run r).file .terminal = none

/-! ### What supervisors rely on -/

/-- What a supervisor does to the runs: no more than the others rely on. -/
structure Acts (i : ι) (d d' : Disk ι) : Prop where
  listed : ∀ j, j ≠ i → d'.listed j = d.listed j
  held : ∀ r j, j ≠ i → (d.run r).holder = some j → (d'.run r).holder = some j ∧
    ∀ file, file ≠ .config → (d'.run r).file file = (d.run r).file file
  grows : ∀ r file, file ≠ .config → Grows ((d.run r).file file) ((d'.run r).file file)

/-- What a supervisor shows before a call. -/
def Allowed (F : Format) (i : ι) (current : RunPath) (d : Disk ι) : Op → Prop
  | .create r _ | .append r _ _ | .privateDir r _ => (d.run r).holder = some i
  | .removeState r => Prunable F i current d r
  | .mark .ready => (d.run current).holder = some i ∧ (d.run current).file .started = none ∧
      (d.run current).file .terminal = none
  | _ => True

/-- The outlines of the supervisors. -/
def contract (F : Format) (sessions : ι → Session) : Contract ι (Disk ι) calls Error Unit Unit where
  inv := Wellformed F
  commits i _ d op _ d' := Acts i d d' ∧ Allowed F i (sessions i).run d op
  ends _ _ _ _ _ := True

section Grows

variable {a b c : Option (List Char)}

@[refl] lemma Grows.refl (a : Option (List Char)) : Grows a a :=
  fun s h => ⟨s, h, List.prefix_refl s⟩

lemma Grows.of_eq (h : b = a) : Grows a b := h ▸ Grows.refl a

lemma Grows.trans (h : Grows a b) (h' : Grows b c) : Grows a c := by
  intro s hs
  obtain ⟨s', hs', hle⟩ := h s hs
  obtain ⟨s'', hs'', hle'⟩ := h' s' hs'
  exact ⟨s'', hs'', hle.trans hle'⟩

lemma Grows.ne_none (h : Grows a b) (ha : a ≠ none) : b ≠ none := by
  obtain ⟨s, rfl⟩ := Option.ne_none_iff_exists'.1 ha
  obtain ⟨s', rfl, -⟩ := h s rfl
  exact Option.some_ne_none s'

lemma Grows.eq_none (h : Grows a b) (hb : b = none) : a = none := by
  by_contra ha
  exact h.ne_none ha hb

end Grows

/-- The runs differ at most in what nobody relies on. -/
structure Alike (d d' : Disk ι) : Prop where
  listed : d'.listed = d.listed
  holder : ∀ r, (d'.run r).holder = (d.run r).holder
  file : ∀ r file, file ≠ .config → (d'.run r).file file = (d.run r).file file

section Alike

variable {i : ι} {d d' : Disk ι} {r : RunPath} {x : RunDir ι}

omit [DecidableEq ι] in
@[refl] lemma Alike.refl (d : Disk ι) : Alike d d := ⟨rfl, fun _ => rfl, fun _ _ _ => rfl⟩

omit [DecidableEq ι] in
lemma Alike.wellformed (h : Alike d d') (hd : Wellformed F d) : Wellformed F d' := by
  intro r
  rw [h.file r .started (by decide), h.file r .terminal (by decide)]
  exact hd r

omit [DecidableEq ι] in
lemma Alike.rely (h : Alike d d') : Rely F i d d' where
  wellformed := h.wellformed
  listed := congrFun h.listed i
  held r hr := ⟨(h.holder r).trans hr, h.file r⟩
  grows r file hfile := .of_eq (h.file r file hfile)

omit [DecidableEq ι] in
lemma Alike.acts (h : Alike d d') : Acts i d d' where
  listed j _ := congrFun h.listed j
  held r _ _ hr := ⟨(h.holder r).trans hr, h.file r⟩
  grows r file hfile := .of_eq (h.file r file hfile)

omit [DecidableEq ι] in
lemma Harness.alike (h : Harness d d') : Alike d d' := ⟨h.listed, h.holder, h.file⟩

omit [DecidableEq ι] in
@[simp] lemma Disk.set_run_self : (d.set r x).run r = x := by
  unfold Disk.set
  exact Function.update_self r x d.run

omit [DecidableEq ι] in
lemma Disk.set_run_of_ne {r' : RunPath} (h : r' ≠ r) : (d.set r x).run r' = d.run r' := by
  unfold Disk.set
  exact Function.update_of_ne h x d.run

omit [DecidableEq ι] in
/-- A change of one run that nobody relies on. -/
lemma alike_set (hholder : x.holder = (d.run r).holder)
    (hfile : ∀ file, file ≠ .config → x.file file = (d.run r).file file) :
    Alike d (d.set r x) where
  listed := rfl
  holder r' := by
    by_cases h : r' = r
    · rw [h, Disk.set_run_self, hholder]
    · rw [Disk.set_run_of_ne h]
  file r' file hconfig := by
    by_cases h : r' = r
    · rw [h, Disk.set_run_self, hfile file hconfig]
    · rw [Disk.set_run_of_ne h]

end Alike

/-- The calls that change nothing anybody relies on, and that nothing has to be shown for. -/
def Quiet : Op → Prop
  | .create _ _ | .append _ _ _ | .tryLock _ | .unlock _ | .privateDir _ _ | .removeState _
  | .mark _ => False
  | _ => True

lemma alike_of_quiet {i : ι} {d d' : Disk ι} {op : Op} {answer : op.Answer} (hop : Quiet op)
    (h : d' ∈ effects i d op answer) : Alike d d' := by
  have hself : ∀ {c : Prop} [Decidable c], d' ∈ (if c then [d] else []) → d' = d := by
    intro c _ hd'
    split at hd'
    · exact List.mem_singleton.1 hd'
    · exact absurd hd' List.not_mem_nil
  have hself' : ∀ {c : Prop} [Decidable c], d' ∈ (if c then [] else [d]) → d' = d := by
    intro c _ hd'
    split at hd'
    · exact absurd hd' List.not_mem_nil
    · exact List.mem_singleton.1 hd'
  cases op with
  | managedPaths | readSeed | isDir _ | regularLock _ | sync _ _ | fileType _ | canonicalize _
  | now =>
    obtain rfl := List.mem_singleton.1 h
    exact .refl d'
  | createDirAll r =>
    cases answer with
    | false =>
      obtain rfl := List.mem_singleton.1 h
      exact .refl d'
    | true =>
      obtain rfl := List.mem_singleton.1 h
      exact alike_set rfl fun _ _ => rfl
  | inspectLock r =>
    cases answer with
    | missing => exact hself' h ▸ .refl d
    | found => exact hself h ▸ .refl d
    | failed => exact List.mem_singleton.1 h ▸ .refl d
  | openLock r create =>
    cases answer with
    | false => exact List.mem_singleton.1 h ▸ .refl d
    | true =>
      simp only [effects, if_true] at h
      split at h
      · obtain rfl := List.mem_singleton.1 h
        exact alike_set rfl fun _ _ => rfl
      · exact absurd h List.not_mem_nil
  | inspect r file =>
    cases answer with
    | missing => exact hself h ▸ .refl d
    | found => exact hself' h ▸ .refl d
    | failed => exact List.mem_singleton.1 h ▸ .refl d
  | read r file =>
    cases answer with
    | none => exact List.mem_singleton.1 h ▸ .refl d
    | some contents => exact hself h ▸ .refl d
  | listRuns role =>
    cases answer with
    | missing => exact List.mem_singleton.1 h ▸ .refl d
    | failed => exact List.mem_singleton.1 h ▸ .refl d
    | entries names => exact hself h ▸ .refl d
  | inspectState r =>
    simp only [effects] at h
    split at h
    · exact List.mem_singleton.1 h ▸ .refl d
    · exact List.mem_singleton.1 h ▸ .refl d
    · exact List.mem_singleton.1 h ▸ .refl d
    · exact List.mem_singleton.1 h ▸ .refl d
    · exact absurd h List.not_mem_nil
  | checkPrivateDir r p =>
    cases answer with
    | false => exact List.mem_singleton.1 h ▸ .refl d
    | true => exact hself h ▸ .refl d
  | create _ _ | append _ _ _ | tryLock _ | unlock _ | privateDir _ _ | removeState _ | mark _ =>
    exact hop.elim

/-! ### Calls -/

section Calls

variable {sessions : ι → Session} {i : ι} {P : Disk ι → Prop}

/-- What a supervisor relies on keeps its assertion. -/
lemma stable_of (h : ∀ d d', Wellformed F d' → P d → Rely F i d d' → P d') :
    Stable ((team F sessions).member i) ((contract F sessions).outline i) P :=
  fun d d' _ hI' hP hothers => h d d' hI' hP hothers

lemma tame : Tame ((team F sessions).member i) ((contract F sessions).outline i) :=
  fun _ _ hI hothers => hothers.wellformed hI

lemma stable_held (r : RunPath) : Stable ((team F sessions).member i)
    ((contract F sessions).outline i) fun d => (d.run r).holder = some i :=
  stable_of fun _ _ _ h hrely => (hrely.held r h).1

lemma stable_file (r : RunPath) {file : File} (hfile : file ≠ .config)
    (Q : Option (List Char) → Prop) :
    Stable ((team F sessions).member i) ((contract F sessions).outline i)
      fun d => (d.run r).holder = some i ∧ Q ((d.run r).file file) := by
  refine stable_of fun d d' _ h hrely => ?_
  obtain ⟨hholder, hsame⟩ := hrely.held r h.1
  exact ⟨hholder, (hsame file hfile).symm ▸ h.2⟩

lemma stable_listed (Q : (RunPath → RunDir ι) → Prop) : Stable ((team F sessions).member i)
    ((contract F sessions).outline i) fun d => Q (d.listed i) :=
  stable_of fun _ _ _ h hrely => hrely.listed.symm ▸ h

/-- A record that can be read is complete. -/
lemma eq_of_fromSlice {s s' : List Char} {t t' : Terminal} (hs : F.fromSlice s = some t)
    (hle : s <+: s') (hle' : s' <+: F.toVec t') : s = s' ∧ t = t' := by
  have hwhole : s = F.toVec t' := by
    by_contra hne
    rw [F.fromSlice_part t' s (hle.trans hle') hne] at hs
    cases hs
  subst hwhole
  refine ⟨hle.eq_of_length_le hle'.length_le, ?_⟩
  exact Option.some.inj (hs.symm.trans (F.fromSlice_toVec t'))

lemma stable_parsed (r : RunPath) (t : Terminal) : Stable ((team F sessions).member i)
    ((contract F sessions).outline i) fun d =>
      ∃ s, (d.run r).file .terminal = some s ∧ F.fromSlice s = some t := by
  refine stable_of fun d d' hI' h hrely => ?_
  obtain ⟨s, hs, hparsed⟩ := h
  obtain ⟨s', hs', hle⟩ := hrely.grows r .terminal (by decide) s hs
  obtain ⟨t', -, hle'⟩ := (hI' r).2 s' hs'
  obtain ⟨rfl, -⟩ := eq_of_fromSlice hparsed hle hle'
  exact ⟨s, hs', hparsed⟩

omit [DecidableEq ι] in
/-- A record stays the record of its run. -/
lemma Record.rely {d d' : Disk ι} {r : RunPath} {role : Role} {t : Terminal}
    (h : Record F (d.run r) role t) (hI' : Wellformed F d') (hrely : Rely F i d d') :
    Record F (d'.run r) role t := by
  obtain ⟨⟨s, hs, hparsed⟩, hrole, hstarted⟩ := h
  obtain ⟨s', hs', hle⟩ := hrely.grows r .terminal (by decide) s hs
  obtain ⟨t', hlength, hle'⟩ := (hI' r).2 s' hs'
  obtain ⟨rfl, rfl⟩ := eq_of_fromSlice hparsed hle hle'
  obtain ⟨u, hu, hgrown⟩ := hrely.grows r .started (by decide) _ hstarted
  obtain ⟨id, hid⟩ := (hI' r).1 u hu
  -- a start record that equals a whole session id is not being written any more
  have hlengths : u.length ≤ t.sessionId.length := by
    rw [hlength, ← id.length_text]
    exact hid.length_le
  obtain rfl := hgrown.eq_of_length_le hlengths
  exact ⟨⟨s, hs', hparsed⟩, hrole, hu⟩

lemma stable_record (r : RunPath) (role : Role) (t : Terminal) :
    Stable ((team F sessions).member i) ((contract F sessions).outline i) fun d =>
      Record F (d.run r) role t :=
  stable_of fun _ _ hI' h hrely => h.rely hI' hrely

lemma stable_ended (role : Role) (c : Candidate) :
    Stable ((team F sessions).member i) ((contract F sessions).outline i) fun d =>
      Ended F d.run role c := by
  refine stable_of fun d d' hI' h hrely => ?_
  obtain ⟨t, ht, hfinished⟩ := h
  exact ⟨t, ht.rely hI' hrely, hfinished⟩

/-- A call that changes nothing anybody relies on. -/
lemma calls_alike {op : Op} {K : op.Answer → Disk ι → Prop}
    (hP : Stable ((team F sessions).member i) ((contract F sessions).outline i) P)
    (halike : ∀ d answer d', d' ∈ effects i d op answer → Alike d d')
    (hallowed : ∀ d, P d → Allowed F i (sessions i).run d op)
    (hK : ∀ d answer d', d' ∈ effects i d op answer → K answer d') :
    Calls ((team F sessions).member i) ((contract F sessions).outline i) P op
      fun answer d => P d ∧ K answer d := by
  intro h d answer d' hI hPd _ hd'
  have hsame := halike d answer d' hd'
  have hI' := hsame.wellformed hI
  exact ⟨hI', ⟨hsame.acts, hallowed d hPd⟩, hP d d' hI hI' hPd hsame.rely, hK d answer d' hd'⟩

/-- A quiet call. -/
lemma calls_quiet {op : Op} {K : op.Answer → Disk ι → Prop} (hop : Quiet op)
    (hP : Stable ((team F sessions).member i) ((contract F sessions).outline i) P)
    (hK : ∀ d answer d', d' ∈ effects i d op answer → K answer d') :
    Calls ((team F sessions).member i) ((contract F sessions).outline i) P op
      fun answer d => P d ∧ K answer d := by
  refine calls_alike hP (fun _ _ _ => alike_of_quiet hop) (fun _ _ => ?_) hK
  cases op <;> trivial

lemma calls_kept {op : Op} (hop : Quiet op)
    (hP : Stable ((team F sessions).member i) ((contract F sessions).outline i) P) :
    Calls ((team F sessions).member i) ((contract F sessions).outline i) P op fun _ => P :=
  (calls_quiet (K := fun _ _ => True) hop hP fun _ _ _ _ => trivial).mono (fun _ h => h)
    fun _ _ h => h.1

/-- A procedure that makes only quiet calls. -/
lemma uses_quiet {ε β : Type} {p : Proc calls ε β} (hp : p.Uses Quiet)
    (hP : Stable ((team F sessions).member i) ((contract F sessions).outline i) P) :
    Triple ((team F sessions).member i) ((contract F sessions).outline i) P p fun _ => P :=
  .uses tame hP (fun _ hop => calls_kept hop hP) hp

end Calls

/-! ### Retention -/

section Retention

variable {sessions : ι → Session} {i : ι} {P : Disk ι → Prop}

lemma openLock_quiet (r : RunPath) (create : Bool) : (openLock r create).Uses Quiet :=
  Proc.uses_bind (Proc.uses_ask _ trivial) fun _ =>
    Proc.uses_bind (Proc.uses_ite (Proc.uses_ask _ trivial) trivial) fun _ =>
      Proc.uses_ask _ trivial

lemma file_of_read {d d' : Disk ι} {r : RunPath} {file : File} {s : List Char}
    (h : d' ∈ effects i d (.read r file) (some s)) : (d'.run r).file file = some s := by
  simp only [effects] at h
  split at h
  · obtain rfl := List.mem_singleton.1 h
    assumption
  · exact absurd h List.not_mem_nil

/-- What `terminal_record` returns is the record of the run. -/
lemma terminalRecord_spec (r : RunPath) (role : Role)
    (hP : Stable ((team F sessions).member i) ((contract F sessions).outline i) P) :
    Triple ((team F sessions).member i) ((contract F sessions).outline i) P
      (terminalRecord F r role) fun result d =>
        P d ∧ ∀ t, result = .ok (some t) → Record F (d.run r) role t := by
  refine .call (K := fun bytes d => P d ∧ ∀ s, bytes = some s → (d.run r).file .terminal = some s)
    tame hP (calls_quiet trivial hP ?_) fun bytes => ?_
  · rintro d _ d' hd' s rfl
    exact file_of_read hd'
  unfold recordOf
  cases hparsed : bytes.bind F.fromSlice with
  | none => exact .pure fun d h => ⟨h.1, fun t ht => by cases ht⟩
  | some t =>
    obtain ⟨s, rfl, hs⟩ := Option.bind_eq_some_iff.1 hparsed
    have hstable := hP.and (stable_parsed r t)
    refine Triple.mono (P := fun d => P d ∧
        ∃ s, (d.run r).file .terminal = some s ∧ F.fromSlice s = some t) ?_
      (fun d h => ⟨h.1, s, h.2 s rfl, hs⟩) fun _ _ h => h
    refine .call (K := fun started d => (P d ∧
        ∃ s, (d.run r).file .terminal = some s ∧ F.fromSlice s = some t) ∧
          ∀ s, started = some s → (d.run r).file .started = some s)
      tame hstable (calls_quiet trivial hstable ?_) fun started => .pure ?_
    · rintro d _ d' hd' s rfl
      exact file_of_read hd'
    rintro d ⟨⟨hPd, hterminal⟩, hstarted⟩
    refine ⟨hPd, fun t' ht' => ?_⟩
    have hchecked : checkRecord role t started = some t' := Except.ok.inj ht'
    unfold checkRecord at hchecked
    split at hchecked
    next hmatch =>
      obtain rfl := Option.some.inj hchecked
      exact ⟨hterminal, hmatch.1, hstarted _ hmatch.2.symm⟩
    next => cases hchecked

/-- An entry of the listing that becomes a candidate has ended, and is not the current run. -/
lemma candidateOf_spec (role : Role) (current : RunPath) (name : String)
    (hP : Stable ((team F sessions).member i) ((contract F sessions).outline i) P) :
    Triple ((team F sessions).member i) ((contract F sessions).outline i) P
      (candidateOf F role current name) fun result d => P d ∧ ∀ c, result = .ok (some c) →
        c.name = name ∧ (⟨role, name⟩ : RunPath) ≠ current ∧ Ended F d.run role c := by
  have hkept : ∀ op, Quiet op → Calls ((team F sessions).member i)
      ((contract F sessions).outline i) P op fun _ => P := fun op hop => calls_kept hop hP
  refine .bind (.ask (Q := fun _ => P) tame hP (hkept _ trivial) fun _ _ h => h) (fun isDir => ?_)
    fun _ d h => ⟨h, fun c hc => by cases hc⟩
  refine .ite (fun _ => ?_) fun _ => .pure fun d h => ⟨h, fun c hc => by cases hc⟩
  refine .bind (.ask (Q := fun _ => P) tame hP (hkept _ trivial) fun _ _ h => h) (fun _ => ?_)
    fun _ d h => ⟨h, fun c hc => by cases hc⟩
  refine .ite (fun _ => .pure fun d h => ⟨h, fun c hc => by cases hc⟩) fun hcurrent => ?_
  refine .bind (terminalRecord_spec ⟨role, name⟩ role hP) (fun record => .pure ?_)
    fun _ d h => ⟨h.1, fun c hc => by cases hc⟩
  rintro d ⟨hPd, hrecord⟩
  refine ⟨hPd, fun c hc => ?_⟩
  obtain ⟨t, rfl, rfl⟩ := Option.map_eq_some_iff.1 (Except.ok.inj hc)
  exact ⟨rfl, hcurrent, t, hrecord t rfl, rfl⟩

/-- The candidates of a listing are entries, each once, that have ended. -/
lemma candidatesOf_spec (role : Role) (current : RunPath) (names : List String)
    (hP : Stable ((team F sessions).member i) ((contract F sessions).outline i) P) :
    Triple ((team F sessions).member i) ((contract F sessions).outline i) P
      (candidatesOf F role current names) fun result d => P d ∧ ∀ cs, result = .ok cs →
        (cs.map Candidate.name).Sublist names ∧
          ∀ c ∈ cs, (⟨role, c.name⟩ : RunPath) ≠ current ∧ Ended F d.run role c := by
  induction names generalizing P with
  | nil =>
    refine .pure fun d h => ⟨h, ?_⟩
    rintro _ ⟨⟩
    exact ⟨List.Sublist.refl _, fun c hc => absurd hc List.not_mem_nil⟩
  | cons name names ih =>
    refine .bind (candidateOf_spec role current name hP) (fun found => ?_)
      fun _ d h => ⟨h.1, fun cs hcs => by cases hcs⟩
    have hfound : Stable ((team F sessions).member i) ((contract F sessions).outline i) fun d =>
        ∀ c, (.ok found : Except Error (Option Candidate)) = .ok (some c) →
          c.name = name ∧ (⟨role, name⟩ : RunPath) ≠ current ∧ Ended F d.run role c := by
      intro d d' hI hI' h hothers c hc
      obtain ⟨hname, hcurrent, hended⟩ := h c hc
      exact ⟨hname, hcurrent, stable_ended role c d d' hI hI' hended hothers⟩
    refine .bind (ih (hP.and hfound)) (fun cs => .pure ?_)
      fun _ d h => ⟨h.1.1, fun cs hcs => by cases hcs⟩
    rintro d ⟨⟨hPd, hfirst⟩, hrest⟩
    obtain ⟨hsub, hall⟩ := hrest cs rfl
    refine ⟨hPd, ?_⟩
    rintro _ ⟨⟩
    cases found with
    | none => exact ⟨hsub.trans (List.sublist_cons_self name names), hall⟩
    | some c =>
      obtain ⟨rfl, hcurrent, hended⟩ := hfirst c rfl
      refine ⟨hsub.cons_cons c.name, fun c' hc' => ?_⟩
      rcases List.mem_cons.1 hc' with rfl | hc'
      · exact ⟨hcurrent, hended⟩
      · exact hall c' hc'

end Retention

/-! ### The order of candidates -/

section Order

variable {a b c : Candidate} {candidates : List Candidate}

lemma Candidate.not_before : ¬ a.Before b ↔
    b.finished < a.finished ∨ a.finished = b.finished ∧ b.name ≤ a.name := by
  unfold Candidate.Before
  constructor
  · intro h
    rcases lt_trichotomy a.finished b.finished with hlt | heq | hgt
    · exact absurd (.inl hlt) h
    · exact .inr ⟨heq, not_lt.1 fun hname => h (.inr ⟨heq, hname⟩)⟩
    · exact .inl hgt
  · rintro (hgt | ⟨heq, hname⟩) (hlt | ⟨heq', hname'⟩)
    · exact lt_asymm hlt hgt
    · exact hgt.ne' heq'
    · exact hlt.ne heq
    · exact not_lt.2 hname hname'

/-- Candidates of different runs are in some order. -/
lemma Candidate.before_of_not_before (h : ¬ a.Before b) (hne : a.name ≠ b.name) : b.Before a := by
  rcases Candidate.not_before.1 h with hlt | ⟨heq, hname⟩
  · exact .inl hlt
  · exact .inr ⟨heq.symm, lt_of_le_of_ne hname hne.symm⟩

instance : Std.Total fun a b : Candidate => ¬ a.Before b where
  total a b := by
    rw [Candidate.not_before, Candidate.not_before]
    rcases lt_trichotomy a.finished b.finished with hlt | heq | hgt
    · exact .inr (.inl hlt)
    · exact (le_total b.name a.name).imp (fun h => .inr ⟨heq, h⟩) fun h => .inr ⟨heq.symm, h⟩
    · exact .inl (.inl hgt)

instance : IsTrans Candidate fun a b => ¬ a.Before b where
  trans a b c hab hbc := by
    rw [Candidate.not_before] at hab hbc ⊢
    rcases hab with hab | ⟨hab, hab'⟩ <;> rcases hbc with hbc | ⟨hbc, hbc'⟩
    · exact .inl (hbc.trans hab)
    · exact .inl (hbc ▸ hab)
    · exact .inl (hab ▸ hbc)
    · exact .inr ⟨hab.trans hbc, hbc'.trans hab'⟩

lemma pairwise_latestFirst (candidates : List Candidate) :
    (latestFirst candidates).Pairwise fun a b => ¬ a.Before b :=
  List.pairwise_insertionSort _ candidates

lemma perm_latestFirst (candidates : List Candidate) : (latestFirst candidates).Perm candidates :=
  List.perm_insertionSort _ candidates

omit [DecidableEq ι] in
/-- Candidates behind the first `n` are not among the `n` latest. -/
lemma not_amongLatest {run : RunPath → RunDir ι} {role : Role} {n : Nat}
    (hnodup : (candidates.map Candidate.name).Nodup)
    (hended : ∀ c ∈ candidates, Ended F run role c) (hc : c ∈ (latestFirst candidates).drop n) :
    ¬ AmongLatest F run role n c := by
  rintro ⟨-, hfew⟩
  have hperm := perm_latestFirst candidates
  have hnames : ((latestFirst candidates).map Candidate.name).Nodup :=
    (hperm.map Candidate.name).nodup_iff.2 hnodup
  have hsplit := List.take_append_drop n (latestFirst candidates)
  have hlength : n < (latestFirst candidates).length := by
    by_contra hle
    rw [List.drop_eq_nil_of_le (not_lt.1 hle)] at hc
    exact List.not_mem_nil hc
  have htake : ((latestFirst candidates).take n).length = n :=
    List.length_take_of_le hlength.le
  have hpairs := pairwise_latestFirst candidates
  rw [← hsplit, List.map_append, List.nodup_append] at hnames
  rw [← hsplit, List.pairwise_append] at hpairs
  have hfewer := hfew ((latestFirst candidates).take n) (List.Nodup.of_map _ hnames.1) ?_
  · exact absurd htake hfewer.ne
  intro c' hc'
  refine ⟨hended c' (hperm.subset (List.mem_of_mem_take hc')), ?_⟩
  refine Candidate.before_of_not_before (hpairs.2.2 c' hc' c hc) ?_
  exact hnames.2.2 _ (List.mem_map_of_mem hc') _ (List.mem_map_of_mem hc)

end Order

/-! ### Pruning -/

section Pruning

variable {sessions : ι → Session} {i : ι} {P : Disk ι → Prop} {d d' : Disk ι} {r : RunPath}

/-- The run of a supervisor is locked and was not started. -/
def Fresh (i : ι) (r : RunPath) (d : Disk ι) : Prop :=
  (d.run r).holder = some i ∧ (d.run r).file .started = none ∧ (d.run r).file .terminal = none

/-- What was listed of a candidate that is to be pruned. -/
def Old (F : Format) (i : ι) (current : RunPath) (role : Role) (d : Disk ι) (c : Candidate) :
    Prop :=
  (⟨role, c.name⟩ : RunPath) ≠ current ∧ role = current.role ∧
    ¬ AmongLatest F (d.listed i) role KEEP_TERMINAL c

lemma stable_fresh : Stable ((team F sessions).member i) ((contract F sessions).outline i)
    (Fresh i r) := by
  refine stable_of fun d d' _ h hrely => ?_
  obtain ⟨hholder, hsame⟩ := hrely.held r h.1
  exact ⟨hholder, (hsame _ (by decide)).trans h.2.1, (hsame _ (by decide)).trans h.2.2⟩

omit [DecidableEq ι] in
/-- A change of a run that the supervisor holds, or that nobody holds. -/
lemma acts_set {x : RunDir ι} (hfree : ∀ j, j ≠ i → (d.run r).holder ≠ some j)
    (hgrows : ∀ file, file ≠ .config → Grows ((d.run r).file file) (x.file file)) :
    Acts i d (d.set r x) where
  listed _ _ := rfl
  held r' j hj hr := by
    have hne : r' ≠ r := by
      rintro rfl
      exact hfree j hj hr
    rw [Disk.set_run_of_ne hne]
    exact ⟨hr, fun _ _ => rfl⟩
  grows r' file hfile := by
    by_cases h : r' = r
    · subst h
      rw [Disk.set_run_self]
      exact hgrows file hfile
    · rw [Disk.set_run_of_ne h]

omit [DecidableEq ι] in
lemma wellformed_set {x : RunDir ι} (hd : Wellformed F d)
    (hstarted : x.file .started = (d.run r).file .started)
    (hterminal : x.file .terminal = (d.run r).file .terminal) : Wellformed F (d.set r x) := by
  intro r'
  by_cases h : r' = r
  · subst h
    rw [Disk.set_run_self, hstarted, hterminal]
    exact hd r'
  · rw [Disk.set_run_of_ne h]
    exact hd r'

/-- `try_lock`. -/
lemma calls_tryLock (hP : ∀ d, P d → (d.run r).holder = none →
      P (d.set r { d.run r with holder := some i })) :
    Calls ((team F sessions).member i) ((contract F sessions).outline i) P (.tryLock r)
      fun answer d => P d ∧ (answer = .locked → (d.run r).holder = some i) := by
  intro h d answer d' hI hPd _ hd'
  have hstay : d' = d → answer ≠ .locked → (contract F sessions).inv d' ∧
      (Acts i d d' ∧ True) ∧ P d' ∧ (answer = .locked → (d'.run r).holder = some i) := by
    rintro rfl hanswer
    exact ⟨hI, ⟨(Alike.refl d').acts, trivial⟩, hPd, fun h => absurd h hanswer⟩
  cases answer with
  | locked =>
    change d' ∈ (if (d.run r).holder = none then
      [d.set r { d.run r with holder := some i }] else []) at hd'
    split at hd'
    next hnone =>
      obtain rfl := List.mem_singleton.1 hd'
      refine ⟨wellformed_set hI rfl rfl, ⟨acts_set ?_ fun _ _ => .refl _, trivial⟩, hP d hPd hnone,
        fun _ => by rw [Disk.set_run_self]⟩
      intro j _ hj
      cases hnone.symm.trans hj
    next => exact absurd hd' List.not_mem_nil
  | wouldBlock =>
    change d' ∈ (if (d.run r).holder = none then [] else [d]) at hd'
    split at hd'
    · exact absurd hd' List.not_mem_nil
    · exact hstay (List.mem_singleton.1 hd') nofun
  | failed => exact hstay (List.mem_singleton.1 hd') nofun

lemma RunDir.release_of_holder {x : RunDir ι} (h : x.holder = some i) :
    x.release i = { x with holder := none } := by
  unfold RunDir.release
  rw [if_pos h]

/-- The lock of a run that the supervisor holds is closed. -/
lemma calls_unlock (hheld : ∀ d, P d → (d.run r).holder = some i) {Q : Disk ι → Prop}
    (hQ : ∀ d, P d → Q (d.set r { d.run r with holder := none })) :
    Calls ((team F sessions).member i) ((contract F sessions).outline i) P (.unlock r)
      fun _ => Q := by
  intro h d _ d' hI hPd _ hd'
  obtain rfl : d' = d.set r ((d.run r).release i) := List.mem_singleton.1 hd'
  rw [RunDir.release_of_holder (hheld d hPd)]
  refine ⟨wellformed_set hI rfl rfl, ⟨acts_set ?_ fun _ _ => .refl _, trivial⟩, hQ d hPd⟩
  rintro j hj hr
  exact hj (Option.some.inj (hr.symm.trans (hheld d hPd)))

omit [DecidableEq ι] in
lemma alike_of_remnant {x : RunDir ι} (h : x ∈ (d.run r).remnants) : Alike d (d.set r x) := by
  have hall : ∀ places : List Place, ∀ y ∈ places.foldr (fun p xs => xs ++ xs.map (·.lose p))
      [d.run r, (d.run r).loseConfig], y.holder = (d.run r).holder ∧
        ∀ file, file ≠ .config → y.file file = (d.run r).file file := by
    intro places
    induction places with
    | nil =>
      intro y hy
      rcases List.mem_pair.1 hy with rfl | rfl
      · exact ⟨rfl, fun _ _ => rfl⟩
      · exact ⟨rfl, fun file hfile => Function.update_of_ne hfile _ _⟩
    | cons p places ih =>
      intro y hy
      rcases List.mem_append.1 hy with hy | hy
      · exact ih y hy
      · obtain ⟨z, hz, rfl⟩ := List.mem_map.1 hy
        exact ih z hz
  obtain ⟨hholder, hfile⟩ := hall directories x h
  exact alike_set hholder hfile

lemma alike_of_removeState {ok : Bool} (h : d' ∈ effects i d (.removeState r) ok) :
    Alike d d' := by
  cases ok with
  | true =>
    obtain rfl := List.mem_singleton.1 h
    exact alike_set rfl fun file hfile => Function.update_of_ne hfile _ _
  | false =>
    obtain ⟨x, hx, rfl⟩ := List.mem_map.1 h
    exact alike_of_remnant hx

/-- A candidate whose lock is held is pruned only as it may be. -/
lemma pruneHeld_spec (role : Role) (c : Candidate)
    (hP : Stable ((team F sessions).member i) ((contract F sessions).outline i) P)
    (hheld : ∀ d, P d → Old F i (sessions i).run role d c ∧
      (d.run ⟨role, c.name⟩).holder = some i) :
    Triple ((team F sessions).member i) ((contract F sessions).outline i) P
      (pruneHeld F ⟨role, c.name⟩ role c.finished) fun _ => P := by
  refine .bind (terminalRecord_spec ⟨role, c.name⟩ role hP) (fun record => ?_) fun _ _ h => h.1
  refine .ite (fun hany => ?_) fun _ => .pure fun _ h => h.1
  obtain ⟨t, rfl, hfinished⟩ := (Option.any_eq_true _ _).1 hany
  have hfinished : t.finishedUnixNanos = c.finished := of_decide_eq_true hfinished
  have hstable := hP.and (stable_record ⟨role, c.name⟩ role t)
  refine Triple.mono (P := fun d => P d ∧ Record F (d.run ⟨role, c.name⟩) role t)
    (Q := fun _ d => P d ∧ Record F (d.run ⟨role, c.name⟩) role t) ?_
      (fun d h => ⟨h.1, h.2 t rfl⟩) fun _ _ h => h.1
  refine .call tame hstable (calls_kept trivial hstable) fun root => ?_
  have hallowed : ∀ d, P d ∧ Record F (d.run ⟨role, c.name⟩) role t →
      Prunable F i (sessions i).run d ⟨role, c.name⟩ := by
    rintro d ⟨hPd, hrecord⟩
    obtain ⟨⟨hother, hrole, hold⟩, hholder⟩ := hheld d hPd
    exact ⟨hother, hrole, hholder, t, hrecord, hfinished.symm ▸ hold⟩
  cases root with
  | directory =>
    refine .ask tame hstable (calls_alike (K := fun _ _ => True) hstable
      (fun _ _ _ => alike_of_removeState) hallowed fun _ _ _ _ => trivial) fun _ _ h => h.1
  | other => exact .pure fun _ h => h
  | missing => exact .pure fun _ h => h
  | failed => exact .throw fun _ h => h

/-- While candidates are pruned. -/
def WhilePruning (F : Format) (i : ι) (current : RunPath) (role : Role) (cs : List Candidate)
    (d : Disk ι) : Prop :=
  Fresh i current d ∧ ∀ c ∈ cs, Old F i current role d c

lemma stable_whilePruning {current : RunPath} {role : Role} {cs : List Candidate} :
    Stable ((team F sessions).member i) ((contract F sessions).outline i)
      (WhilePruning F i current role cs) := by
  refine stable_fresh.and ?_
  intro d d' hI hI' h hothers c hc
  obtain ⟨hother, hrole, hold⟩ := h c hc
  exact ⟨hother, hrole, stable_listed
    (fun run => ¬ AmongLatest F run role KEEP_TERMINAL c) d d' hI hI' hold hothers⟩

omit [DecidableEq ι] in
lemma WhilePruning.set {current : RunPath} {role : Role} {cs : List Candidate}
    (h : WhilePruning F i current role cs d) (hr : r ≠ current) (x : RunDir ι) :
    WhilePruning F i current role cs (d.set r x) := by
  obtain ⟨hfresh, hold⟩ := h
  refine ⟨?_, hold⟩
  unfold Fresh at hfresh ⊢
  rwa [Disk.set_run_of_ne hr.symm]

/-- One candidate. -/
lemma pruneOpened_spec {role : Role} {cs : List Candidate} {c : Candidate} (hc : c ∈ cs)
    (opened : Except Error Unit) :
    Triple ((team F sessions).member i) ((contract F sessions).outline i)
      (WhilePruning F i (sessions i).run role cs)
      (pruneOpened F ⟨role, c.name⟩ role c.finished opened)
      fun _ => WhilePruning F i (sessions i).run role cs := by
  cases opened with
  | error e => exact .pure fun _ h => h
  | ok _ =>
    refine .call tame stable_whilePruning (calls_tryLock fun d hd _ => hd.set (hd.2 c hc).1 _)
      fun locking => ?_
    cases locking with
    | wouldBlock => exact .pure fun _ h => h.1
    | failed => exact .throw fun _ h => h.1
    | locked =>
      have hstable : Stable ((team F sessions).member i) ((contract F sessions).outline i)
          fun d => WhilePruning F i (sessions i).run role cs d ∧
            (d.run ⟨role, c.name⟩).holder = some i :=
        stable_whilePruning.and (stable_held ⟨role, c.name⟩)
      refine Triple.mono (P := fun d => WhilePruning F i (sessions i).run role cs d ∧
          (d.run ⟨role, c.name⟩).holder = some i)
        (Q := fun _ => WhilePruning F i (sessions i).run role cs) ?_
          (fun d h => ⟨h.1, h.2 rfl⟩) fun _ _ h => h
      refine .bind ((pruneHeld_spec role c hstable fun d h => ⟨h.1.2 c hc, h.2⟩).attempt
        (R := fun _ d => WhilePruning F i (sessions i).run role cs d ∧
          (d.run ⟨role, c.name⟩).holder = some i) fun _ _ h => h) (fun pruned => ?_)
            fun _ _ h => h.1
      exact .call tame hstable (calls_unlock (fun _ h => h.2) fun d h => h.1.set (h.1.2 c hc).1 _)
        fun _ => .lift fun _ h => h

/-- The second loop of `prune_terminal`. -/
lemma pruneEach_spec {role : Role} {cs : List Candidate} (rest : List Candidate)
    (hrest : rest ⊆ cs) :
    Triple ((team F sessions).member i) ((contract F sessions).outline i)
      (WhilePruning F i (sessions i).run role cs) (pruneEach F role rest)
      fun _ => WhilePruning F i (sessions i).run role cs := by
  induction rest with
  | nil => exact .pure fun _ h => h
  | cons c rest ih =>
    have hopen : Triple ((team F sessions).member i) ((contract F sessions).outline i)
        (WhilePruning F i (sessions i).run role cs) (openLock ⟨role, c.name⟩ false)
        fun _ => WhilePruning F i (sessions i).run role cs :=
      uses_quiet (openLock_quiet _ false) stable_whilePruning
    refine .bind (hopen.attempt (R := fun _ => WhilePruning F i (sessions i).run role cs)
      fun _ _ h => h) (fun opened => ?_) fun _ _ h => h
    refine .bind (pruneOpened_spec (hrest List.mem_cons_self) opened) (fun _ => ?_) fun _ _ h => h
    exact ih fun c' hc' => hrest (List.mem_cons_of_mem c hc')

/-- The end of a listing. -/
lemma calls_listed {names : List String} {cs : List Candidate} (hnames : names.Nodup) :
    Calls ((team F sessions).member i) ((contract F sessions).outline i)
      (fun d => Fresh i (sessions i).run d ∧ (cs.map Candidate.name).Sublist names ∧
        ∀ c ∈ cs, (⟨(sessions i).run.role, c.name⟩ : RunPath) ≠ (sessions i).run ∧
          Ended F d.run (sessions i).run.role c) (.mark .listed)
      fun _ => WhilePruning F i (sessions i).run (sessions i).run.role
        ((latestFirst cs).drop KEEP_TERMINAL) := by
  rintro h d _ d' hI ⟨hfresh, hsub, hcs⟩ - hd'
  obtain rfl : d' = d.list i := List.mem_singleton.1 hd'
  have hacts : Acts i d (d.list i) :=
    ⟨fun j hj => Function.update_of_ne hj _ _, fun _ _ _ hr => ⟨hr, fun _ _ => rfl⟩,
      fun _ _ _ => .refl _⟩
  refine ⟨hI, ⟨hacts, trivial⟩, hfresh, fun c hc => ?_⟩
  have hmem : c ∈ cs := (perm_latestFirst cs).subset (List.mem_of_mem_drop hc)
  have hlisted : (d.list i).listed i = d.run := by
    unfold Disk.list
    exact Function.update_self i d.run d.listed
  have hold := not_amongLatest (hnames.sublist hsub) (fun c' hc' => (hcs c' hc').2) hc
  exact ⟨(hcs c hmem).1, rfl, hlisted.symm ▸ hold⟩

/-- `prune_terminal` keeps the run as fresh as it is. -/
lemma pruneTerminal_spec : Triple ((team F sessions).member i) ((contract F sessions).outline i)
    (Fresh i (sessions i).run) (pruneTerminal F (sessions i).run.role (sessions i).run)
    fun _ => Fresh i (sessions i).run := by
  refine .call (K := fun listing d => Fresh i (sessions i).run d ∧
    ∀ names, listing = .entries names → names.Nodup) tame stable_fresh
      (calls_quiet trivial stable_fresh ?_) fun listing => ?_
  · rintro d _ d' hd' names rfl
    change d' ∈ (if names.Nodup then [d] else []) at hd'
    split at hd'
    · assumption
    · exact absurd hd' List.not_mem_nil
  cases listing with
  | missing => exact .pure fun _ h => h.1
  | failed => exact .throw fun _ h => h.1
  | entries names =>
    by_cases hnames : names.Nodup
    · refine Triple.mono (P := Fresh i (sessions i).run) (Q := fun _ => Fresh i (sessions i).run)
        ?_ (fun _ h => h.1) fun _ _ h => h
      refine .bind (.ask (Q := fun _ => Fresh i (sessions i).run) tame stable_fresh
        (calls_kept trivial stable_fresh) fun _ _ h => h) (fun _ => ?_) fun _ _ h => h
      refine .bind (candidatesOf_spec _ _ names stable_fresh) (fun cs => ?_) fun _ _ h => h.1
      refine Triple.mono (P := fun d => Fresh i (sessions i).run d ∧
          (cs.map Candidate.name).Sublist names ∧
            ∀ c ∈ cs, (⟨(sessions i).run.role, c.name⟩ : RunPath) ≠ (sessions i).run ∧
              Ended F d.run (sessions i).run.role c)
        (Q := fun _ => Fresh i (sessions i).run) ?_
          (fun d h => ⟨h.1, h.2 cs rfl⟩) fun _ _ h => h
      have hstable : Stable ((team F sessions).member i) ((contract F sessions).outline i)
          fun d => ∀ c ∈ cs, (⟨(sessions i).run.role, c.name⟩ : RunPath) ≠ (sessions i).run ∧
            Ended F d.run (sessions i).run.role c := fun d d' hI hI' h hothers c hc =>
        ⟨(h c hc).1, stable_ended _ c d d' hI hI' (h c hc).2 hothers⟩
      refine .call tame (stable_fresh.and ((Stable.const _).and hstable)) (calls_listed hnames)
        fun _ => ?_
      exact (pruneEach_spec _ fun _ h => h).mono (fun _ h => h) fun _ _ h => h.1
    · exact fun h d _ hd => absurd (hd.2 names rfl) hnames

/-! ### Files that are written -/

/-- What may be written to a file. -/
def Fits (F : Format) (file : File) (contents : List Char) : Prop :=
  (file = .started → ∃ id : SessionId, contents = id.text) ∧
    (file = .terminal → ∃ t, t.sessionId.length = 36 ∧ contents = F.toVec t)

omit [DecidableEq ι] in
@[simp] lemma RunDir.write_file_self (x : RunDir ι) (file : File) (s : List Char) :
    (x.write file s).file file = some s := Function.update_self _ _ _

omit [DecidableEq ι] in
lemma RunDir.write_file_of_ne (x : RunDir ι) {file file' : File} (s : List Char)
    (h : file' ≠ file) : (x.write file s).file file' = x.file file' := Function.update_of_ne h _ _

omit [DecidableEq ι] in
/-- Writing a part of what may be written. -/
lemma wellformed_write {file : File} {contents s : List Char} (hfits : Fits F file contents)
    (hs : s <+: contents) (hd : Wellformed F d) :
    Wellformed F (d.set r ((d.run r).write file s)) := by
  intro r'
  by_cases h : r' = r
  · subst h
    rw [Disk.set_run_self]
    constructor
    · intro s' hs'
      by_cases hfile : File.started = file
      · subst hfile
        rw [RunDir.write_file_self] at hs'
        obtain rfl := Option.some.inj hs'
        obtain ⟨id, rfl⟩ := hfits.1 rfl
        exact ⟨id, hs⟩
      · rw [RunDir.write_file_of_ne _ _ hfile] at hs'
        exact (hd r').1 s' hs'
    · intro s' hs'
      by_cases hfile : File.terminal = file
      · subst hfile
        rw [RunDir.write_file_self] at hs'
        obtain rfl := Option.some.inj hs'
        obtain ⟨t, hlength, rfl⟩ := hfits.2 rfl
        exact ⟨t, hlength, hs⟩
      · rw [RunDir.write_file_of_ne _ _ hfile] at hs'
        exact (hd r').2 s' hs'
  · rw [Disk.set_run_of_ne h]
    exact hd r'

omit [DecidableEq ι] in
/-- Writing more under the lock. -/
lemma acts_write {file : File} {s : List Char} (hholder : (d.run r).holder = some i)
    (hgrows : file ≠ .config → Grows ((d.run r).file file) (some s)) :
    Acts i d (d.set r ((d.run r).write file s)) := by
  refine acts_set ?_ fun file' hfile' => ?_
  · intro j hj hr
    exact hj (Option.some.inj (hr.symm.trans hholder))
  · by_cases h : file' = file
    · subst h
      rw [RunDir.write_file_self]
      exact hgrows hfile'
    · rw [RunDir.write_file_of_ne _ _ h]

/-- The files of the current run that a supervisor writes: `P` does not speak of them. -/
structure Writable (i : ι) (r : RunPath) (file : File) (P : Disk ι → Prop) : Prop where
  held : ∀ d, P d → (d.run r).holder = some i
  write : ∀ d s, P d → P (d.set r ((d.run r).write file s))

lemma calls_create {file : File} {contents : List Char} (hfits : Fits F file contents)
    (hP : Writable i r file P) :
    Calls ((team F sessions).member i) ((contract F sessions).outline i) P (.create r file)
      fun ok d => P d ∧ (ok = true → file ≠ .config → (d.run r).file file = some []) := by
  intro h d ok d' hI hPd _ hd'
  cases ok with
  | false =>
    obtain rfl := List.mem_singleton.1 hd'
    exact ⟨hI, ⟨(Alike.refl d').acts, hP.held d' hPd⟩, hPd, fun h => nomatch h⟩
  | true =>
    change d' ∈ (if (d.run r).file file = none then
      [d.set r ((d.run r).write file [])] else []) at hd'
    split at hd'
    next hnone =>
      obtain rfl := List.mem_singleton.1 hd'
      refine ⟨wellformed_write hfits List.nil_prefix hI, ⟨acts_write (hP.held d hPd) ?_,
        hP.held d hPd⟩, hP.write d [] hPd,
        fun _ _ => by rw [Disk.set_run_self, RunDir.write_file_self]⟩
      intro _ s hs
      cases hnone.symm.trans hs
    next => exact absurd hd' List.not_mem_nil

lemma calls_append {file : File} {contents s : List Char} {byte : Char}
    (hfits : Fits F file contents) (hs : s ++ [byte] <+: contents) (hP : Writable i r file P) :
    Calls ((team F sessions).member i) ((contract F sessions).outline i)
      (fun d => P d ∧ (file ≠ .config → (d.run r).file file = some s)) (.append r file byte)
      fun ok d => P d ∧
        (ok = true → file ≠ .config → (d.run r).file file = some (s ++ [byte])) := by
  rintro h d ok d' hI ⟨hPd, hsofar⟩ - hd'
  have hheld := hP.held d hPd
  cases ok with
  | false =>
    obtain rfl := List.mem_singleton.1 hd'
    exact ⟨hI, ⟨(Alike.refl d').acts, hheld⟩, hPd, fun h => nomatch h⟩
  | true =>
    change d' ∈ effects i d (.append r file byte) true at hd'
    simp only [effects, if_true] at hd'
    split at hd'
    next u hu =>
      obtain rfl := List.mem_singleton.1 hd'
      by_cases hfile : file = .config
      · -- nobody relies on the configuration, whatever it is by now
        subst hfile
        have hsame : Alike d (d.set r ((d.run r).write .config (u ++ [byte]))) :=
          alike_set rfl fun file' hfile' => RunDir.write_file_of_ne _ _ hfile'
        exact ⟨hsame.wellformed hI, ⟨hsame.acts, hheld⟩, hP.write d _ hPd,
          fun _ h => absurd rfl h⟩
      · obtain rfl := Option.some.inj (hu.symm.trans (hsofar hfile))
        refine ⟨wellformed_write hfits hs hI, ⟨acts_write hheld fun _ => ?_, hheld⟩,
          hP.write d _ hPd, fun _ _ => by rw [Disk.set_run_self, RunDir.write_file_self]⟩
        intro u' hu'
        obtain rfl := Option.some.inj (hu.symm.trans hu')
        exact ⟨u ++ [byte], rfl, List.prefix_append u [byte]⟩
    next hnone =>
      obtain rfl := List.mem_singleton.1 hd'
      refine ⟨hI, ⟨(Alike.refl d').acts, hheld⟩, hPd, fun _ hfile => ?_⟩
      cases hnone.symm.trans (hsofar hfile)

/-- `write_new` on the current run. -/
lemma writeNew_spec {file : File} {contents : List Char} (hfits : Fits F file contents)
    (hW : Writable i r file P)
    (hP : Stable ((team F sessions).member i) ((contract F sessions).outline i) P) :
    Triple ((team F sessions).member i) ((contract F sessions).outline i) P
      (writeNew r file contents) fun _ => P := by
  have hsofar : ∀ s, Stable ((team F sessions).member i) ((contract F sessions).outline i)
      fun d => P d ∧ (file ≠ .config → (d.run r).file file = some s) := by
    intro s d d' hI hI' h hothers
    refine ⟨hP d d' hI hI' h.1 hothers, fun hfile => ?_⟩
    exact ((hothers.held r (hW.held d h.1)).2 file hfile).trans (h.2 hfile)
  have hall : ∀ rest s, s ++ rest = contents →
      Triple ((team F sessions).member i) ((contract F sessions).outline i)
        (fun d => P d ∧ (file ≠ .config → (d.run r).file file = some s))
        (writeAll r file rest) fun _ => P := by
    intro rest
    induction rest with
    | nil => exact fun s _ => .pure fun _ h => h.1
    | cons byte rest ih =>
      intro s hs
      have hs' : (s ++ [byte]) ++ rest = contents := by rw [List.append_assoc]; exact hs
      refine .bind (.ask (Q := fun result d => P d ∧ (result = .ok () → file ≠ .config →
          (d.run r).file file = some (s ++ [byte]))) tame (hsofar s)
        (calls_append hfits ⟨rest, hs'⟩ hW) ?_) (fun _ => ?_) fun _ _ h => h.1
      · rintro (_ | _) d h
        · exact ⟨h.1, fun hok => nomatch hok⟩
        · exact ⟨h.1, fun _ => h.2 rfl⟩
      · exact (ih (s ++ [byte]) hs').mono (fun _ h => ⟨h.1, h.2 rfl⟩) fun _ _ h => h
  refine .bind (.ask (Q := fun result d => P d ∧ (result = .ok () → file ≠ .config →
      (d.run r).file file = some [])) tame hP (calls_create hfits hW) ?_) (fun _ => ?_)
    fun _ _ h => h.1
  · rintro (_ | _) d h
    · exact ⟨h.1, fun hok => nomatch hok⟩
    · exact ⟨h.1, fun _ => h.2 rfl⟩
  refine Triple.mono (P := fun d => P d ∧ (file ≠ .config → (d.run r).file file = some []))
    (Q := fun _ => P) ?_ (fun _ h => ⟨h.1, h.2 rfl⟩) fun _ _ h => h
  refine .bind (hall contents [] rfl) (fun _ => ?_) fun _ _ h => h
  exact .ask tame hP (calls_kept trivial hP) fun _ _ h => h

omit [DecidableEq ι] in
lemma writable_fresh {file : File} (hstarted : file ≠ .started) (hterminal : file ≠ .terminal) :
    Writable i r file (Fresh i r) where
  held _ h := h.1
  write d s h := by
    unfold Fresh
    rw [Disk.set_run_self, RunDir.write_file_of_ne _ _ hstarted.symm,
      RunDir.write_file_of_ne _ _ hterminal.symm]
    exact h

omit [DecidableEq ι] in
lemma writable_held {file : File} :
    Writable i r file fun d => (d.run r).holder = some i where
  held _ h := h
  write d s h := by
    rw [Disk.set_run_self]
    exact h

/-! ### Preparation -/

lemma alike_of_privateDir {p : Place} {ok : Bool} (h : d' ∈ effects i d (.privateDir r p) ok) :
    Alike d d' := by
  have hmade : ∀ x ∈ (d.run r).makePrivate p, Alike d (d.set r x) := by
    intro x hx
    unfold RunDir.makePrivate at hx
    split at hx
    · obtain rfl := List.mem_singleton.1 hx
      exact alike_set rfl fun _ _ => rfl
    · split at hx
      · obtain rfl := List.mem_singleton.1 hx
        exact alike_set rfl fun _ _ => rfl
      · exact absurd hx List.not_mem_nil
    · exact absurd hx List.not_mem_nil
  cases ok with
  | true =>
    obtain ⟨x, hx, rfl⟩ := List.mem_map.1 h
    exact hmade x hx
  | false =>
    rcases List.mem_cons.1 h with rfl | h
    · exact .refl d'
    · obtain ⟨x, hx, rfl⟩ := List.mem_map.1 h
      exact hmade x hx

lemma makeDirs_spec (places : List Place) :
    Triple ((team F sessions).member i) ((contract F sessions).outline i) (Fresh i r)
      (makeDirs r places) fun _ => Fresh i r := by
  induction places with
  | nil => exact .pure fun _ h => h
  | cons p places ih =>
    refine .bind (.ask (Q := fun _ => Fresh i r) tame stable_fresh
      (calls_alike (K := fun _ _ => True) stable_fresh (fun _ _ _ => alike_of_privateDir)
        (fun _ h => h.1) fun _ _ _ _ => trivial) fun _ _ h => h.1) (fun _ => ih) fun _ _ h => h

lemma checkDirs_quiet (r : RunPath) (places : List Place) : (checkDirs r places).Uses Quiet := by
  induction places with
  | nil => trivial
  | cons p places ih => exact Proc.uses_bind (Proc.uses_ask _ trivial) fun _ => ih

lemma reuseLayout_quiet (r : RunPath) (seed : List Char) : (reuseLayout r seed).Uses Quiet :=
  Proc.uses_bind (Proc.uses_ask _ trivial) fun _ => Proc.uses_bind (Proc.uses_ensure _ _) fun _ =>
    Proc.uses_bind (checkDirs_quiet r directories) fun _ =>
      Proc.uses_bind (Proc.uses_ask _ trivial) fun _ => Proc.uses_ensure _ _

/-- `prepare_layout` keeps the run as fresh as it is. -/
lemma prepareLayout_spec (seed : List Char) :
    Triple ((team F sessions).member i) ((contract F sessions).outline i) (Fresh i r)
      (prepareLayout r seed) fun _ => Fresh i r := by
  refine .call tame stable_fresh (calls_kept trivial stable_fresh) fun prepared => ?_
  refine .ite (fun _ => uses_quiet (reuseLayout_quiet r seed) stable_fresh) fun _ => ?_
  refine .call tame stable_fresh (calls_kept trivial stable_fresh) fun root => ?_
  refine .bind (.ensure (Q := fun _ => Fresh i r) (fun _ _ h => h) fun _ h => h) (fun _ => ?_)
    fun _ _ h => h
  refine .bind (makeDirs_spec directories) (fun _ => ?_) fun _ _ h => h
  refine .bind (writeNew_spec ⟨nofun, nofun⟩ (writable_fresh (by decide) (by decide)) stable_fresh)
    (fun _ => ?_) fun _ _ h => h
  exact writeNew_spec ⟨nofun, nofun⟩ (writable_fresh (by decide) (by decide)) stable_fresh

lemma cargoSeed_quiet : cargoSeed.Uses Quiet :=
  Proc.uses_bind (Proc.uses_ask _ trivial) fun _ =>
    Proc.uses_bind (Proc.uses_ensure _ _) fun _ => Proc.uses_pure _

lemma file_of_missing {file : File} (h : d' ∈ effects i d (.inspect r file) .missing) :
    (d'.run r).file file = none := by
  change d' ∈ (if (d.run r).file file = none then [d] else []) at h
  split at h
  · obtain rfl := List.mem_singleton.1 h
    assumption
  · exact absurd h List.not_mem_nil

/-- The check of a marker. -/
lemma unused_spec (file : File) (hP : Stable ((team F sessions).member i)
    ((contract F sessions).outline i) P) :
    Triple ((team F sessions).member i) ((contract F sessions).outline i) P
      (.ask (.inspect r file) unused) fun result d =>
        P d ∧ (result = .ok () → (d.run r).file file = none) := by
  refine .ask (K := fun answer d => P d ∧ (answer = .missing → (d.run r).file file = none)) tame hP
    (calls_quiet trivial hP ?_) ?_
  · rintro d _ d' hd' rfl
    exact file_of_missing hd'
  · rintro (_ | _ | _) d h
    · exact ⟨h.1, fun _ => h.2 rfl⟩
    · exact ⟨h.1, fun hok => nomatch hok⟩
    · exact ⟨h.1, fun hok => nomatch hok⟩

/-- What `prepare` does under the lock succeeds only with a fresh run. -/
lemma prepareHeld_spec (seed : List Char) :
    Triple ((team F sessions).member i) ((contract F sessions).outline i)
      (fun d => (d.run (sessions i).run).holder = some i) (prepareHeld F (sessions i).run seed)
      fun result d => (d.run (sessions i).run).holder = some i ∧
        (result = .ok () → Fresh i (sessions i).run d) := by
  refine .bind (unused_spec .started (stable_held _)) (fun _ => ?_)
    fun _ _ h => ⟨h.1, fun hok => nomatch hok⟩
  refine Triple.mono (P := fun d => (d.run (sessions i).run).holder = some i ∧
      (d.run (sessions i).run).file .started = none) ?_ (fun _ h => ⟨h.1, h.2 rfl⟩) fun _ _ h => h
  refine .bind (unused_spec .terminal (stable_file _ (by decide) fun c => c = none)) (fun _ => ?_)
    fun _ _ h => ⟨h.1.1, fun hok => nomatch hok⟩
  refine Triple.mono (P := Fresh i (sessions i).run) (Q := fun _ => Fresh i (sessions i).run) ?_
    (fun _ h => ⟨h.1.1, h.1.2, h.2 rfl⟩) fun _ _ h => ⟨h.1, fun _ => h⟩
  exact .bind pruneTerminal_spec (fun _ => prepareLayout_spec seed) fun _ _ h => h

/-- `prepare` succeeds only with a fresh run, locked. -/
lemma prepare_spec :
    Triple ((team F sessions).member i) ((contract F sessions).outline i) (fun _ => True)
      (prepare F (sessions i).run) fun result d =>
        result = .ok () → Fresh i (sessions i).run d := by
  have hany : Stable ((team F sessions).member i) ((contract F sessions).outline i)
      fun _ => True := Stable.const True
  have herror : ∀ (e : Error) (d : Disk ι), True → (Except.error e : Except Error Unit) = .ok () →
      Fresh i (sessions i).run d := fun _ _ _ hok => nomatch hok
  refine .bind (Q := fun _ _ => True) (.ask tame hany (calls_kept trivial hany) fun _ _ h => h)
    (fun _ => ?_) herror
  refine .bind (uses_quiet cargoSeed_quiet hany) (fun seed => ?_) herror
  refine .bind (Q := fun _ _ => True) (.ask tame hany (calls_kept trivial hany) fun _ _ h => h)
    (fun _ => ?_) herror
  refine .bind (Q := fun _ _ => True) (.ask tame hany (calls_kept trivial hany) fun _ _ h => h)
    (fun isDir => ?_) herror
  refine .bind (Q := fun _ _ => True) (.ensure (fun _ _ h => h) fun _ h => h) (fun _ => ?_) herror
  refine .bind (uses_quiet (openLock_quiet _ true) hany) (fun _ => ?_) herror
  refine .call tame hany (calls_tryLock fun _ _ _ => trivial) fun locking => ?_
  cases locking with
  | wouldBlock => exact .throw fun d _ hok => nomatch hok
  | failed => exact .throw fun d _ hok => nomatch hok
  | locked =>
    refine Triple.mono (P := fun d => (d.run (sessions i).run).holder = some i) ?_
      (fun _ h => h.2 rfl) fun _ _ h => h
    refine .bind ((prepareHeld_spec seed).attempt (R := fun result d =>
      (d.run (sessions i).run).holder = some i ∧
        (result = .ok (.ok ()) → Fresh i (sessions i).run d)) ?_) (fun prepared => ?_)
          fun _ _ _ hok => nomatch hok
    · rintro result d ⟨hheld, hfresh⟩
      exact ⟨hheld, fun hok => hfresh (Except.ok.inj hok)⟩
    · cases prepared with
      | ok _ => exact .pure fun d h _ => h.2 rfl
      | error e =>
        refine Triple.mono (P := fun d => (d.run (sessions i).run).holder = some i) ?_
          (fun _ h => h.1) fun _ _ h => h
        exact .call tame (stable_held _) (calls_unlock (Q := fun _ => True) (fun _ h => h)
          fun _ _ => trivial) fun _ => .throw fun _ _ hok => nomatch hok

/-! ### Sessions -/

/-- What a supervisor calls on its guard. -/
lemma command_spec (c : Command) :
    Triple ((team F sessions).member i) ((contract F sessions).outline i)
      (fun d => (d.run r).holder = some i) (c.code F r) fun _ d => (d.run r).holder = some i := by
  cases c with
  | started id => exact writeNew_spec ⟨fun _ => ⟨id, rfl⟩, nofun⟩ writable_held (stable_held r)
  | terminal id =>
    refine .bind (.ask (Q := fun _ d => (d.run r).holder = some i) tame (stable_held r)
      (calls_kept trivial (stable_held r)) fun _ _ h => h) (fun now => ?_) fun _ _ h => h
    exact writeNew_spec ⟨nofun, fun _ => ⟨_, id.length_text, rfl⟩⟩ writable_held (stable_held r)

lemma obey_spec (commands : List Command) :
    Triple ((team F sessions).member i) ((contract F sessions).outline i)
      (fun d => (d.run r).holder = some i) (obey F r commands)
      fun _ d => (d.run r).holder = some i := by
  induction commands with
  | nil => exact .pure fun _ h => h
  | cons c commands ih =>
    exact .bind ((command_spec c).attempt (R := fun _ d => (d.run r).holder = some i)
      fun _ _ h => h) (fun _ => ih) fun _ _ h => h

/-- What a supervisor does with its run. -/
lemma session_spec : Triple ((team F sessions).member i) ((contract F sessions).outline i)
    (fun _ => True) ((sessions i).code F) fun _ _ => True := by
  refine .bind prepare_spec (fun _ => ?_) fun _ _ _ => trivial
  refine Triple.mono (P := Fresh i (sessions i).run) (Q := fun _ _ => True) ?_
    (fun _ h => h rfl) fun _ _ h => h
  refine .call (K := fun _ => Fresh i (sessions i).run) tame stable_fresh ?_ fun _ => ?_
  · intro h d _ d' hI hfresh _ hd'
    obtain rfl : d' = d := List.mem_singleton.1 hd'
    exact ⟨hI, ⟨(Alike.refl d').acts, hfresh⟩, hfresh⟩
  · refine Triple.mono (P := fun d => (d.run (sessions i).run).holder = some i)
      (Q := fun _ _ => True) ?_ (fun _ h => h.1) fun _ _ h => h
    refine .bind (obey_spec (sessions i).commands) (fun _ => ?_) fun _ _ _ => trivial
    exact .call tame (stable_held _) (calls_unlock (Q := fun _ => True) (fun _ h => h)
      fun _ _ => trivial) fun _ => .pure fun _ h => h

end Pruning

/-! ### The team -/

section Team

variable {sessions : ι → Session} {d d' : Disk ι}

lemma RunDir.release_file (x : RunDir ι) (i : ι) (file : File) :
    (x.release i).file file = x.file file := by
  unfold RunDir.release
  split <;> rfl

lemma wellformed_crash (i : ι) (hd : Wellformed F d) : Wellformed F (d.crash i) := by
  intro r
  refine ⟨fun s hs => ?_, fun s hs => ?_⟩
  · exact (hd r).1 s ((RunDir.release_file _ i _).symm.trans hs)
  · exact (hd r).2 s ((RunDir.release_file _ i _).symm.trans hs)

/-- A crash does no more than the others rely on. -/
lemma acts_crash (i : ι) (d : Disk ι) : Acts i d (d.crash i) where
  listed _ _ := rfl
  held r j hj hr := by
    refine ⟨?_, fun file _ => RunDir.release_file _ i file⟩
    show ((d.run r).release i).holder = some j
    unfold RunDir.release
    rw [if_neg fun hi => hj (Option.some.inj (hr.symm.trans hi))]
    exact hr
  grows r file _ := .of_eq (RunDir.release_file _ i file)

omit [DecidableEq ι] in
/-- What one supervisor does is what another relies on. -/
lemma Acts.rely {i j : ι} (hij : i ≠ j) (h : Acts i d d') (hI' : Wellformed F d') :
    Rely F j d d' where
  wellformed _ := hI'
  listed := h.listed j hij.symm
  held r hr := h.held r j hij.symm hr
  grows := h.grows

/-- Every supervisor keeps its part of the contract. -/
lemma contract_kept (F : Format) (sessions : ι → Session) :
    (contract F sessions).Kept (team F sessions) where
  valid i :=
    { procedure := fun _ d hI => (session_spec [] d hI trivial).mono fun _ _ _ _ => trivial
      others := tame
      ends := fun _ _ _ _ _ _ _ => trivial
      crash := by
        rintro d d' hI - hd'
        obtain rfl := List.mem_singleton.1 hd'
        exact wellformed_crash i hI }
  call i j hij _ d _ _ d' _ hI' hcommits := hcommits.1.rely hij hI'
  crash i j hij d d' hI hd' := by
    obtain rfl := List.mem_singleton.1 hd'
    exact (acts_crash i d).rely hij (wellformed_crash i hI)
  outside d d' hI hharness := ⟨hharness.alike.wellformed hI, fun _ => hharness.alike.rely⟩

/-- The files of the runs only grow. -/
lemma lasting_grows (F : Format) (sessions : ι → Session) :
    (contract F sessions).Lasting (team F sessions) fun d d' =>
      ∀ r file, file ≠ .config → Grows ((d.run r).file file) ((d'.run r).file file) where
  refl _ _ _ _ := .refl _
  trans _ _ _ h h' r file hfile := (h r file hfile).trans (h' r file hfile)
  call _ _ _ _ _ _ hcommits := hcommits.1.grows
  crash i d d' hd' := by
    obtain rfl := List.mem_singleton.1 hd'
    exact (acts_crash i d).grows
  outside _ _ hharness r file hfile := .of_eq (hharness.file r file hfile)

/-- A record that is created was missing before, and is there afterwards. -/
lemma file_of_create {i : ι} {r : RunPath} {file : File}
    (h : d' ∈ effects i d (.create r file) true) :
    (d.run r).file file = none ∧ (d'.run r).file file ≠ none := by
  change d' ∈ (if (d.run r).file file = none then
    [d.set r ((d.run r).write file [])] else []) at h
  split at h
  next hnone =>
    obtain rfl := List.mem_singleton.1 h
    rw [Disk.set_run_self, RunDir.write_file_self]
    exact ⟨hnone, Option.some_ne_none _⟩
  next => exact absurd h List.not_mem_nil

/-- In every run of supervisors, a run is used once, and pruned only after its end. -/
theorem used_once (F : Format) (sessions : ι → Session) {d : Disk ι} (hd : Unused d)
    {l : List (At ι)} {w : World ι (Disk ι) calls Error Unit Unit}
    (hl : (team F sessions).Trace (d, fun _ => none) l w) : UsedOnce F sessions l := by
  have hkept := contract_kept F sessions
  have hgood : (contract F sessions).Good (team F sessions) (d, fun _ => none) := by
    refine ⟨fun r => ⟨fun s hs => ?_, fun s hs => ?_⟩, fun i run h => nomatch h⟩
    · cases (hd r).2.1.symm.trans hs
    · cases (hd r).2.2.symm.trans hs
  obtain ⟨-, hmoments⟩ := hkept.trace hgood hl
  have hpairs := (lasting_grows F sessions).pairwise hkept hgood hl
  -- what a supervisor has shown before a call
  have hallowed : ∀ m ∈ l, ∀ i op answer, m.event = .work i (.call op answer) →
      Allowed F i (sessions i).run m.before.1 op := by
    intro m hm i op answer hevent
    obtain ⟨h, hcommits⟩ := (hmoments m hm).2.1 i op answer hevent
    exact hcommits.2
  have hcreated : ∀ m ∈ l, ∀ i r file, m.event = .work i (.call (.create r file) true) →
      (m.before.1.run r).file file = none ∧ (m.after.1.run r).file file ≠ none := by
    intro m hm i r file hevent
    have hstep := (hmoments m hm).2.2
    rw [hevent] at hstep
    have heffect : m.after.1 ∈ effects i m.before.1 (.create r file) true := hstep.effect
    exact file_of_create heffect
  refine ⟨fun r => ?_, fun r => ?_, fun m hm i op answer r hevent htouch => ?_,
    fun m hm i r ok hevent => hallowed m hm i _ ok hevent⟩
  · refine hpairs.imp_of_mem fun hm hm' hgrows => ?_
    rintro ⟨⟨i, hstart⟩, j, hstart'⟩
    have hafter := (hcreated _ hm i r .started hstart).2
    exact (hgrows r .started (by decide)).ne_none hafter (hcreated _ hm' j r .started hstart').1
  · refine hpairs.imp_of_mem fun {m m'} hm hm' hgrows => ?_
    rintro hused ⟨j, rfl, hready⟩
    obtain ⟨-, hstarted, hterminal⟩ := hallowed m' hm' j (.mark .ready) () hready
    rcases hused with ⟨i, hstart⟩ | ⟨i, hend⟩
    · have hafter := (hcreated m hm i _ .started hstart).2
      exact (hgrows _ .started (by decide)).ne_none hafter hstarted
    · have hafter := (hcreated m hm i _ .terminal hend).2
      exact (hgrows _ .terminal (by decide)).ne_none hafter hterminal
  · have hshown := hallowed m hm i op answer hevent
    cases op with
    | create r' _ | append r' _ _ | privateDir r' _ =>
      obtain rfl := htouch
      exact hshown
    | removeState r' =>
      obtain rfl := htouch
      exact hshown.locked
    | mark mark =>
      cases mark with
      | listed => exact htouch.elim
      | ready =>
        obtain rfl := htouch
        exact hshown.1
    | _ => exact htouch.elim

end Team

/-! ### A launch -/

section Sample

/-- A text in quotes, without the quotes. -/
private def quoted (s : List Char) : List Char :=
  s.flatMap fun c => if c = '"' ∨ c = '\\' then ['\\', c] else [c]

private def sampleVec (t : Terminal) : List Char :=
  ("\x7b\"role\":\"").toList ++ (quoted t.role ++ '"' :: ((",\"session_id\":\"").toList ++
    (quoted t.sessionId ++ '"' :: ((",\"finished_unix_nanos\":").toList ++
      (Nat.toDigits 10 t.finishedUnixNanos ++ ['\x7d'])))))

private lemma part_of_quoted {s s' u u' : List Char}
    (h : quoted s ++ '"' :: u <+: quoted s' ++ '"' :: u') : s = s' ∧ u <+: u' := by
  induction s generalizing s' with
  | nil =>
    cases s' with
    | nil => exact ⟨rfl, (List.cons_prefix_cons.1 h).2⟩
    | cons c s' =>
      exfalso
      unfold quoted at h
      rw [List.flatMap_cons] at h
      split at h
      · exact absurd (List.cons_prefix_cons.1 h).1 (by decide)
      next hc => exact hc (.inl (List.cons_prefix_cons.1 h).1.symm)
  | cons b s ih =>
    cases s' with
    | nil =>
      exfalso
      unfold quoted at h
      rw [List.flatMap_cons] at h
      split at h
      · exact absurd (List.cons_prefix_cons.1 h).1 (by decide)
      next hb => exact hb (.inl (List.cons_prefix_cons.1 h).1)
    | cons c s' =>
      have hcons : ∀ x (y : List Char), quoted (x :: y) =
          (if x = '"' ∨ x = '\\' then ['\\', x] else [x]) ++ quoted y := fun x y => rfl
      rw [hcons, hcons] at h
      split at h <;> split at h
      · obtain ⟨rfl, hrest⟩ := List.cons_prefix_cons.1 (List.cons_prefix_cons.1 h).2
        obtain ⟨rfl, hu⟩ := ih hrest
        exact ⟨rfl, hu⟩
      next _ hc => exact absurd (.inr (List.cons_prefix_cons.1 h).1.symm) hc
      next hb _ => exact absurd (.inr (List.cons_prefix_cons.1 h).1) hb
      · obtain ⟨rfl, hrest⟩ := List.cons_prefix_cons.1 h
        obtain ⟨rfl, hu⟩ := ih hrest
        exact ⟨rfl, hu⟩

private lemma eq_of_closed {a b : List Char} (h : a ++ ['\x7d'] <+: b ++ ['\x7d'])
    (hb : '\x7d' ∉ b) : a = b := by
  induction a generalizing b with
  | nil =>
    cases b with
    | nil => rfl
    | cons c b => exact absurd ((List.cons_prefix_cons.1 h).1 ▸ List.mem_cons_self) hb
  | cons x a ih =>
    cases b with
    | nil =>
      have hlength := h.length_le
      simp only [List.length_append, List.length_cons, List.length_nil] at hlength
      omega
    | cons c b =>
      obtain ⟨rfl, hrest⟩ := List.cons_prefix_cons.1 h
      rw [ih hrest fun hmem => hb (List.mem_cons_of_mem _ hmem)]

private lemma sampleVec_part {t t' : Terminal} (h : sampleVec t <+: sampleVec t') : t = t' := by
  unfold sampleVec at h
  obtain ⟨hrole, h⟩ := part_of_quoted ((List.prefix_append_right_inj _).1 h)
  obtain ⟨hid, h⟩ := part_of_quoted ((List.prefix_append_right_inj _).1 h)
  have hdigits := eq_of_closed ((List.prefix_append_right_inj _).1 h) fun hmem =>
    absurd (Nat.isDigit_of_mem_toDigits (by decide) (by decide) hmem) (by decide)
  have hfinished : t.finishedUnixNanos = t'.finishedUnixNanos := by
    rw [← Nat.ofDigitChars_ten_toDigits (n := t.finishedUnixNanos), hdigits,
      Nat.ofDigitChars_ten_toDigits]
  obtain ⟨_, _, _⟩ := t
  obtain ⟨_, _, _⟩ := t'
  cases hrole
  cases hid
  cases hfinished
  rfl

open Classical in
private noncomputable def sampleFormat : Format where
  toVec := sampleVec
  fromSlice s := if h : ∃ t, sampleVec t = s then some h.choose else none
  fromSlice_toVec t := by
    have hex : ∃ t', sampleVec t' = sampleVec t := ⟨t, rfl⟩
    have hle : sampleVec hex.choose <+: sampleVec t :=
      ⟨[], (List.append_nil _).trans hex.choose_spec⟩
    rw [dif_pos hex, sampleVec_part hle]
  fromSlice_part t s hle hne := by
    refine dif_neg ?_
    rintro ⟨t', rfl⟩
    exact hne (congrArg sampleVec (sampleVec_part hle))

private def firstRun : RunPath := ⟨.implementer, "first"⟩

private def sampleId : SessionId := ⟨"0b9f7d52-6a4e-4c1b-9d57-1f6f0c3a2e11".toList, by decide⟩

private def unmade : RunDir Unit := ⟨false, false, none, fun _ => none, fun _ => .missing⟩

private def sampleDisk : Disk Unit := ⟨fun _ => unmade, fun _ _ => unmade⟩

private def launch (_ : Unit) : Session := ⟨firstRun, [.started sampleId, .terminal sampleId]⟩

/-- Every call succeeds. -/
private def smoothly : Plays (Disk Unit) calls := fun d op =>
  match op with
  | .managedPaths | .createDirAll _ | .regularLock _ | .openLock _ _ | .create _ _ | .append _ _ _
  | .sync _ _ | .canonicalize _ | .checkPrivateDir _ _ | .privateDir _ _ | .removeState _ =>
    (true, 0)
  | .readSeed => (some CARGO_CONFIG_SEED, 0)
  | .read r file => ((d.run r).file file, 0)
  | .isDir _ | .fileType _ => (some true, 0)
  | .inspectLock r => (if (d.run r).lockFile then .found else .missing, 0)
  | .inspect r file => (if (d.run r).file file = none then .missing else .found, 0)
  | .tryLock r => (if (d.run r).holder = none then .locked else .wouldBlock, 0)
  | .listRuns _ => (.entries ["first"], 0)
  | .inspectState _ => (.missing, 0)
  | .now => (some 1767225600000000000, 0)
  | .unlock _ | .mark _ => ((), 0)

/-- The runs after the launch. -/
private noncomputable def launched : Option (World Unit (Disk Unit) calls Error Unit Unit) :=
  (team sampleFormat launch).turns (sampleDisk, fun _ => none) [⟨(), (), 400, fun _ => smoothly⟩]

private lemma launched_files : launched.map (fun w =>
    ((w.1.run firstRun).file .started, ((w.1.run firstRun).file .terminal).isSome)) =
      some (some sampleId.text, true) := by
  decide +kernel

/-- A launch from its preparation to its end. -/
theorem used_once_launch : ∃ l w,
    (team sampleFormat launch).Trace (sampleDisk, fun _ => none) l w ∧
    (w.1.run firstRun).file .started = some sampleId.text ∧
    ((w.1.run firstRun).file .terminal).isSome ∧ UsedOnce sampleFormat launch l := by
  obtain ⟨w, hw, hfiles⟩ := Option.map_eq_some_iff.1 launched_files
  obtain ⟨hstarted, hterminal⟩ := Prod.mk.inj hfiles
  obtain ⟨l, hl⟩ := Team.trace_of_turns hw .nil
  exact ⟨l, w, hl, hstarted, hterminal, used_once _ _ (fun _ => ⟨rfl, rfl, rfl⟩) hl⟩

end Sample

end AgentCoordinator.RunState
