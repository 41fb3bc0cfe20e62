import AgentCoordinator.Supervisor.RunLoop

/-
No second launch while one may live.

At rest, every launch that runs on this boot is named by its record, with its process: this is what
recovery goes by, which waits for such a launch and settles any other. A poll claims nothing unless
recovery has found nothing that runs, and while a launch runs under the supervisor that spawned it
the loop waits for it. An attempt that is settled is not released again, as its record says so by
the time recovery reads it. See `Recorded` for what the saves and the crashes have to leave.
-/

namespace AgentCoordinator.Supervisor

open Procedure Tabular Crash

/-! ### What the records say -/

/-- The record of a process names it. -/
def Host.Names (d : Host) (p : Process) : Prop :=
  ∃ record, d.records.get? p.session = some record ∧
    (record.bootId = "" ∨ record.bootId = d.boot) ∧ record.pid = some p.pid ∧
      record.startTicks = p.ticks

/-- Every launch that runs is named by its record. -/
def Host.Saved (d : Host) : Prop := ∀ p ∈ d.processes, d.Names p

/-- The record of a settled attempt, if it is still there, says that it is released. -/
def Host.Marked (d : Host) : Prop :=
  ∀ session ∈ d.settled, ∀ record, d.records.get? session = some record → record.released = true

/-- No launch of the session runs, and any other launch that runs has its record. -/
def Host.Quiet (d : Host) (session : String) : Prop :=
  ∀ p ∈ d.processes, p.session ≠ session ∧ ∃ record ∈ d.records, record.sessionId = p.session

/-- Settled attempts and records are of sessions that were made. -/
structure Host.Known (d : Host) : Prop where
  settled : ∀ session ∈ d.settled, session ∈ d.sessions
  records : ∀ record ∈ d.records, record.sessionId ∈ d.sessions

/-- Runs in which a supervisor does not end while a launch runs that is not named by its record, and
in which every settled attempt is marked before the records are read again. -/
def Recorded : Condition Host driver where
  call
    | _, d, .loadAll, _ => d.Marked
    | _, _, _, _ => True
  crash := Host.Saved

/-- What an operation promises. -/
def Op.Promise (d : Host) : Op → Prop
  | .claim _ => d.processes = []
  | .release launch _ _ => launch.sessionId ∉ d.settled ∧ d.Quiet launch.sessionId
  | .discard session => d.Quiet session
  | _ => True

/-- What the loop promises. -/
def launchOutline : Outline Host driver Empty Request Unit where
  condition := Recorded
  inv := Host.Known
  commits _ d op _ _ := op.Promise d
  ends _ _ d _ := d.Known ∧ d.Saved

/-! ### Frames -/

/-- Nothing has changed that concerns launches, except that some have ended and sessions were
made. -/
structure Still (d d' : Host) : Prop where
  records : d'.records = d.records
  boot : d'.boot = d.boot
  processes : d'.processes ⊆ d.processes
  settled : d'.settled = d.settled
  sessions : d.sessions ⊆ d'.sessions

/-- Only what belongs to one launch has changed, launches have ended and sessions were made. -/
structure Apart (session : String) (d d' : Host) : Prop where
  records : ∀ k, k ≠ session → d'.records.get? k = d.records.get? k
  boot : d'.boot = d.boot
  processes : d'.processes ⊆ d.processes
  settled : ∀ k ∈ d'.settled, k ∈ d.settled ∨ k = session
  sessions : d.sessions ⊆ d'.sessions
  known : d.Known → d'.Known

/-- Besides, its attempt is not settled. -/
structure Tends (session : String) (d d' : Host) : Prop extends Apart session d d' where
  same : d'.settled = d.settled

section Frames

variable {session k : String} {d d' d'' : Host}

lemma Still.refl (d : Host) : Still d d := ⟨rfl, rfl, List.Subset.refl _, rfl, List.Subset.refl _⟩

lemma Still.trans (h : Still d d') (h' : Still d' d'') : Still d d'' where
  records := h'.records.trans h.records
  boot := h'.boot.trans h.boot
  processes := List.Subset.trans h'.processes h.processes
  settled := h'.settled.trans h.settled
  sessions := List.Subset.trans h.sessions h'.sessions

/-- The end of a process concerns no record. -/
lemma Still.ends (h : Ends d d') : Still d d' := by
  obtain ⟨p, hp, rfl⟩ := h
  exact ⟨rfl, rfl, List.erase_subset, rfl, List.Subset.refl _⟩

lemma Still.known (h : Still d d') (hd : d.Known) : d'.Known where
  settled k hk := h.sessions (hd.settled k (h.settled ▸ hk))
  records record hr := h.sessions (hd.records record (h.records ▸ hr))

lemma Still.saved (h : Still d d') (hd : d.Saved) : d'.Saved := by
  intro p hp
  obtain ⟨record, hrecord, hboot, hprocess⟩ := hd p (h.processes hp)
  exact ⟨record, h.records ▸ hrecord, h.boot ▸ hboot, hprocess⟩

lemma Still.tends (session : String) (h : Still d d') : Tends session d d' where
  records _ _ := h.records ▸ rfl
  boot := h.boot
  processes := h.processes
  settled _ hk := .inl (h.settled ▸ hk)
  sessions := h.sessions
  known := h.known
  same := h.settled

lemma Apart.refl (session : String) (d : Host) : Apart session d d :=
  ((Still.refl d).tends session).toApart

lemma Apart.trans (h : Apart session d d') (h' : Apart session d' d'') : Apart session d d'' where
  records k hk := (h'.records k hk).trans (h.records k hk)
  boot := h'.boot.trans h.boot
  processes := List.Subset.trans h'.processes h.processes
  settled k hk := (h'.settled k hk).elim (h.settled k) .inr
  sessions := List.Subset.trans h.sessions h'.sessions
  known := h'.known ∘ h.known

lemma Tends.refl (session : String) (d : Host) : Tends session d d := (Still.refl d).tends session

lemma Tends.trans (h : Tends session d d') (h' : Tends session d' d'') : Tends session d d'' :=
  ⟨h.toApart.trans h'.toApart, h'.same.trans h.same⟩

lemma Apart.names (h : Apart session d d') {p : Process} (hp : p.session ≠ session)
    (hnames : d.Names p) : d'.Names p := by
  obtain ⟨record, hrecord, hrest⟩ := hnames
  exact ⟨record, (h.records _ hp).trans hrecord, h.boot ▸ hrest⟩

/-- The launches that run are others, each named by its record, and the session is one that was
made. -/
structure Host.Resting (session : String) (d : Host) : Prop where
  known : d.Known
  made : session ∈ d.sessions
  others : ∀ p ∈ d.processes, p.session ≠ session ∧ d.Names p

lemma Host.Resting.apart (h : d.Resting session) (hd' : Apart session d d') :
    d'.Resting session where
  known := hd'.known h.known
  made := hd'.sessions h.made
  others p hp := by
    obtain ⟨hne, hnames⟩ := h.others p (hd'.processes hp)
    exact ⟨hne, hd'.names hne hnames⟩

lemma Host.Resting.saved (h : d.Resting session) : d.Saved := fun p hp => (h.others p hp).2

lemma Host.Names.mem {p : Process} (h : d.Names p) :
    ∃ record ∈ d.records, record.sessionId = p.session := by
  obtain ⟨record, hrecord, -⟩ := h
  exact ⟨record, Table.mem_of_get? hrecord, Table.key_of_get? hrecord⟩

lemma Host.Resting.quiet (h : d.Resting session) : d.Quiet session :=
  fun p hp => ⟨(h.others p hp).1, (h.others p hp).2.mem⟩

lemma Apart.none (h : Apart session d d') (hnone : d.processes = []) : d'.processes = [] :=
  List.subset_nil.1 (hnone ▸ h.processes)

end Frames

/-- An operation that concerns no launch record, no attempt and no process. -/
def Op.Calm : Op → Prop
  | .save _ | .remove _ | .claim _ | .start _ | .renew .. | .attemptState .. | .release .. |
    .discard _ => False
  | _ => True

/-- An operation that concerns no record, no attempt, no process, no run and no cost. -/
def Op.Aside : Op → Prop
  | .save _ | .remove _ | .claim _ | .start _ | .renew .. | .attemptState .. | .release .. |
    .discard _ | .saveReview _ | .removeReview _ | .append _ | .launchReview _ |
    .discardReview _ => False
  | _ => True

/-- An operation that concerns at most the record and the run of one launch. -/
def Op.Of (session : String) : Op → Prop
  | .save record => record.sessionId = session
  | .remove k | .discard k => k = session
  | op => op.Calm

section Operations

variable {session : String} {d d' : Host}

lemma eq_of_mem_ite {c : Prop} [Decidable c] (h : d' ∈ (if c then [d] else [])) : d' = d := by
  split at h
  · exact List.mem_singleton.1 h
  · cases h

/-- What a calm operation leaves. -/
lemma Still.calm {op : Op} {answer : driver.Answer op} (hop : op.Calm)
    (hd' : d' ∈ effects d op answer) : Still d d' := by
  have hrefl : d' = d → Still d d' := by
    rintro rfl
    exact .refl d'
  have hsame : ∀ l : List Host, (∀ x ∈ l, x.records = d.records ∧ x.boot = d.boot ∧
      x.processes = d.processes ∧ x.settled = d.settled ∧ d.sessions ⊆ x.sessions) → d' ∈ l →
      Still d d' := by
    intro l hl hmem
    obtain ⟨hrecords, hboot, hprocesses, hsettled, hsessions⟩ := hl d' hmem
    exact ⟨hrecords, hboot, hprocesses ▸ List.Subset.refl _, hsettled, hsessions⟩
  cases op with
  | save _ | remove _ | claim _ | start _ | renew _ _ | attemptState _ _ | release _ _ _
  | discard _ => exact hop.elim
  | loadAll | load _ | loadReviews | recorded _ _ | bootId | startTicks _ =>
    exact hrefl (eq_of_mem_ite hd')
  | exited _ =>
    cases answer with
    | none => exact hrefl (List.mem_singleton.1 hd')
    | some _ =>
      change d' ∈ (if _ then [] else [d]) at hd'
      split at hd'
      · cases hd'
      · exact hrefl (List.mem_singleton.1 hd')
  | reviewEvents _ =>
    cases answer with
    | none => exact hrefl (List.mem_singleton.1 hd')
    | some _ => exact hrefl (eq_of_mem_ite hd')
  | forever => cases hd'
  | nowMs =>
    change d' ∈ (if _ then [_] else []) at hd'
    split at hd'
    · exact hsame _ (by simp) hd'
    · cases hd'
  | newSession =>
    change d' ∈ (if _ then [] else [_]) at hd'
    split at hd'
    · cases hd'
    · exact hsame _ (by simp) hd'
  | saveReview _ | removeReview _ | append _ =>
    cases answer <;> exact hsame _ (by simp [effects, Host.savedReview, Host.droppedReview,
      Host.appended]) hd'
  | launchReview _ | discardReview _ =>
    exact hsame _ (by simp [effects, Host.writing, Host.discardedReview]) hd'
  | _ => exact hrefl (List.mem_singleton.1 hd')

lemma Op.Aside.calm {op : Op} (hop : op.Aside) : op.Calm := by
  cases op <;> first | exact hop.elim | trivial

lemma Op.Calm.promise {op : Op} (hop : op.Calm) : op.Promise d := by
  cases op <;> first | exact hop.elim | trivial

lemma Tends.saved {record : LaunchRecord} (hmade : session ∈ d.sessions)
    (hsession : record.sessionId = session) : Tends session d (d.saved record) where
  records k hk := by
    show (d.records.put record).get? k = _
    rw [Table.get?_put, if_neg]
    exact fun h => hk (h.trans hsession)
  boot := rfl
  processes := List.Subset.refl _
  settled _ := .inl
  sessions := List.Subset.refl _
  known hd := by
    refine ⟨hd.settled, fun r hr => ?_⟩
    rcases Table.mem_put.1 hr with rfl | ⟨hr, -⟩
    · exact hsession ▸ hmade
    · exact hd.records r hr
  same := rfl

lemma Tends.dropped (session : String) (d : Host) : Tends session d (d.dropped session) where
  records k hk := by
    show (d.records.erase session).get? k = _
    rw [Table.get?_erase, if_neg hk]
  boot := rfl
  processes := List.Subset.refl _
  settled _ := .inl
  sessions := List.Subset.refl _
  known hd := ⟨hd.settled, fun r hr => hd.records r (Table.mem_erase.1 hr).1⟩
  same := rfl

lemma Op.Of.kinds {op : Op} (hop : op.Of session) :
    (∃ record, op = .save record ∧ record.sessionId = session) ∨ op = .remove session ∨
      op = .discard session ∨ op.Calm := by
  cases op with
  | save record => exact .inl ⟨record, rfl, hop⟩
  | remove k => exact .inr (.inl (congrArg _ hop))
  | discard k => exact .inr (.inr (.inl (congrArg _ hop)))
  | _ => exact .inr (.inr (.inr hop))

/-- What an operation of a launch leaves. -/
lemma Tends.of {op : Op} {answer : driver.Answer op} (hop : op.Of session)
    (hmade : session ∈ d.sessions) (hd' : d' ∈ effects d op answer) : Tends session d d' := by
  have hboth : ∀ {x : Host}, Tends session d x → d' ∈ [d, x] → Tends session d d' := by
    intro x hx hmem
    simp only [List.mem_cons, List.not_mem_nil, or_false] at hmem
    rcases hmem with rfl | rfl
    · exact .refl session d'
    · exact hx
  rcases hop.kinds with ⟨record, rfl, hrecord⟩ | rfl | rfl | hcalm
  · have hsaved : Tends session d (d.saved record) := .saved hmade hrecord
    cases answer with
    | ok _ => exact List.mem_singleton.1 hd' ▸ hsaved
    | error _ => exact hboth hsaved hd'
  · cases answer with
    | ok _ => exact List.mem_singleton.1 hd' ▸ .dropped session d
    | error _ => exact hboth (.dropped session d) hd'
  · exact List.mem_singleton.1 hd' ▸ .refl session d
  · exact (Still.calm hcalm hd').tends session

lemma Op.Calm.of {op : Op} (hop : op.Calm) : op.Of session := by
  cases op <;> first | exact hop.elim | exact hop

/-- While other launches are named by their records, one launch may be seen to. -/
lemma framing (session : String) :
    Framing machine launchOutline (Op.Of session) (Host.Resting session) (Tends session) where
  refl := .refl session
  trans _ _ _ := Tends.trans
  others _ _ hothers := (Still.ends hothers).tends session
  stable _ _ h hd' := h.apart hd'.toApart
  frame op h d answer d' hop hrest hknown _ hd' := by
    have htends := Tends.of hop hrest.made hd'
    refine ⟨htends.known hknown, ?_, htends⟩
    rcases hop.kinds with ⟨record, rfl, -⟩ | rfl | rfl | hcalm
    · trivial
    · trivial
    · exact hrest.quiet
    · exact hcalm.promise

end Operations

/-! ### The parts of the loop -/

section Parts

variable {α : Type} {session : String} {h : List (Called driver)} {d d' : Host}
  {Q : List (Called driver) → Host → Except Empty α → Prop} {config : Config} {launch : Launch}
  {record : LaunchRecord}

lemma uses_perform {kind : Op → Prop} {op : Op} (hop : kind op) :
    (perform op).Uses kind := ⟨hop, fun _ => trivial⟩

lemma markIfExhausted_uses (digest : Digest) (now : Int) :
    (markIfExhausted config launch digest now).Uses Op.Aside := by
  unfold markIfExhausted
  split
  · exact uses_perform trivial
  · trivial

lemma orFail_uses {α β : Type} {kind : Op → Prop} {r : Except String α}
    {f : α → Loop (Except String β)} (hf : ∀ a, (f a).Uses kind) : (orFail r f).Uses kind := by
  cases r with
  | ok a => exact hf a
  | error e => trivial

end Parts

/-! ### Recovery -/

section Recovery

variable {α : Type} {h : List (Called driver)} {d d' : Host} {config : Config}
  {record : LaunchRecord}

/-- Calm operations, in states that they keep. -/
lemma calm {A : Host → Prop} (hA : ∀ d d', A d → Still d d' → A d') :
    Framing machine launchOutline Op.Calm A Still where
  refl := .refl
  trans _ _ _ := Still.trans
  others _ _ := .ends
  stable := hA
  frame _ _ _ _ _ hop _ hknown _ hd' :=
    ⟨(Still.calm hop hd').known hknown, hop.promise, .calm hop hd'⟩

/-- The supervisor may end here. -/
structure Host.Kept (d : Host) : Prop where
  known : d.Known
  saved : d.Saved

lemma Host.Kept.still (h : d.Kept) (hd' : Still d d') : d'.Kept :=
  ⟨hd'.known h.known, hd'.saved h.saved⟩

/-- The records that were read are those that stand. -/
structure Host.Reads (records : List LaunchRecord) (d : Host) : Prop where
  kept : d.Kept
  found : ∀ record ∈ records, d.records.get? record.sessionId = some record
  nodup : (records.map LaunchRecord.sessionId).Nodup

/-- Their attempts are not settled unless they say so. -/
def Host.MarkedIn (records : List LaunchRecord) (d : Host) : Prop :=
  ∀ record ∈ records, record.released = false → record.sessionId ∉ d.settled

section Reads

variable {rest : List LaunchRecord}

lemma Host.Reads.still (h : d.Reads rest) (hd' : Still d d') : d'.Reads rest :=
  ⟨h.kept.still hd', fun record hr => hd'.records ▸ h.found record hr, h.nodup⟩

lemma Host.MarkedIn.still (h : d.MarkedIn rest) (hd' : Still d d') : d'.MarkedIn rest :=
  fun record hr hreleased => hd'.settled ▸ h record hr hreleased

lemma Host.Reads.tail (h : d.Reads (record :: rest)) : d.Reads rest :=
  ⟨h.kept, fun r hr => h.found r (List.mem_cons_of_mem _ hr), (List.nodup_cons.1 h.nodup).2⟩

lemma Host.MarkedIn.tail (h : d.MarkedIn (record :: rest)) : d.MarkedIn rest :=
  fun r hr => h r (List.mem_cons_of_mem _ hr)

/-- The other records are of other sessions. -/
lemma Host.Reads.ne (h : d.Reads (record :: rest)) {r : LaunchRecord} (hr : r ∈ rest) :
    r.sessionId ≠ record.sessionId := by
  intro hsession
  have hnotin := (List.nodup_cons.1 h.nodup).1
  exact hnotin (hsession ▸ List.mem_map_of_mem hr)

/-- What happens to one launch leaves the other records. -/
lemma Host.Reads.apart (h : d.Reads (record :: rest)) (hd' : Apart record.sessionId d d')
    (hkept : d'.Kept) : d'.Reads rest where
  kept := hkept
  found r hr := (hd'.records _ (h.ne hr)).trans (h.tail.found r hr)
  nodup := h.tail.nodup

end Reads

/-- Recovery has seen to the records: every launch of theirs that runs is among those that it
waits for. -/
def Recovers (records : List LaunchRecord) (d : Host) (_ : List (Called driver)) (d' : Host)
    (r : Except Empty (List String)) : Prop :=
  d'.Kept ∧ d'.processes ⊆ d.processes ∧ ∀ running, r = .ok running →
    ∀ p ∈ d'.processes, p.session ∈ records.map LaunchRecord.sessionId → p.session ∈ running

lemma Recovers.mono {records : List LaunchRecord} {d₁ : Host} {r : Except Empty (List String)}
    (hprocesses : d₁.processes ⊆ d.processes) (hr : Recovers records d₁ h d' r) :
    Recovers records d h d' r :=
  ⟨hr.1, List.Subset.trans hr.2.1 hprocesses, hr.2.2⟩

/-- A record more, of a launch that does not run. -/
lemma Recovers.cons {records : List LaunchRecord} {d₁ : Host} {r : Except Empty (List String)}
    (hprocesses : d₁.processes ⊆ d.processes)
    (hdead : ∀ p ∈ d₁.processes, p.session ≠ record.sessionId) (hr : Recovers records d₁ h d' r) :
    Recovers (record :: records) d h d' r := by
  refine ⟨hr.1, List.Subset.trans hr.2.1 hprocesses, fun running hrunning p hp hsession => ?_⟩
  rcases List.mem_cons.1 hsession with hsession | hsession
  · exact absurd hsession (hdead p (hr.2.1 hp))
  · exact hr.2.2 running hrunning p hp hsession

/-- A record whose retries are counted anew names the same process. -/
lemma Host.Kept.reset (h : d.Kept) (hfound : d.records.get? record.sessionId = some record) :
    (d.saved { record with releaseFailures := 0 }).Kept := by
  have hmade := h.known.records record (Table.mem_of_get? hfound)
  have hapart : Tends record.sessionId d (d.saved { record with releaseFailures := 0 }) :=
    .saved hmade rfl
  refine ⟨hapart.known h.known, fun p hp => ?_⟩
  have hnames := h.saved p hp
  by_cases hsession : p.session = record.sessionId
  · obtain ⟨record', hrecord', hrest⟩ := hnames
    rw [hsession, hfound] at hrecord'
    obtain rfl := Option.some.inj hrecord'
    refine ⟨{ record with releaseFailures := 0 }, ?_, hrest⟩
    rw [hsession]
    exact (Table.get?_put _ _ _).trans (if_pos rfl)
  · exact hapart.names hsession hnames

end Recovery

/-! ### A launch under way -/

section Watching

variable {session : String} {h : List (Called driver)} {d d' : Host} {config : Config}
  {launch : Launch} {lease : Lease} {record : LaunchRecord}

/-- No launch runs but that of one session. -/
structure Host.Alone (session : String) (d : Host) : Prop where
  known : d.Known
  made : session ∈ d.sessions
  own : ∀ p ∈ d.processes, p.session = session

lemma Host.Alone.apart (h : d.Alone session) (hd' : Apart session d d') : d'.Alone session :=
  ⟨hd'.known h.known, hd'.sessions h.made, fun p hp => h.own p (hd'.processes hp)⟩

/-- The watch knows when the attempt is settled, and then renews nothing. -/
def Watch.Knows (watch : Watch) (session : String) (d : Host) : Prop :=
  session ∈ d.settled → watch.submitted = true ∧ watch.drainReason ≠ none

/-- A launch is watched. -/
structure Host.Watched (watch : Watch) (session : String) (d : Host) : Prop where
  alone : d.Alone session
  knows : watch.Knows session d

lemma Host.Watched.still {watch : Watch} (h : d.Watched watch session) (hd' : Still d d') :
    d'.Watched watch session :=
  ⟨h.alone.apart (hd'.tends session).toApart, fun hs => h.knows (hd'.settled ▸ hs)⟩

/-- A drain says no less of the attempt. -/
def Drained (watch : Watch) (d : Host) (_ : List (Called driver)) (d' : Host)
    (r : Except Empty Watch) : Prop :=
  Still d d' ∧ ∀ watch', r = .ok watch' →
    watch'.submitted = watch.submitted ∧ (watch.drainReason ≠ none → watch'.drainReason ≠ none)

lemma Drained.refl (watch : Watch) (d : Host) : Drained watch d h d (.ok watch) := by
  refine ⟨.refl d, ?_⟩
  rintro _ ⟨⟩
  exact ⟨rfl, id⟩

/-- An attempt that a renewal finds submitted is settled. -/
lemma Apart.settling (hmade : session ∈ d.sessions) : Apart session d (d.settling session) where
  records _ _ := rfl
  boot := rfl
  processes := List.Subset.refl _
  settled _ hk := (List.mem_cons.1 hk).symm
  sessions := List.Subset.refl _
  known hd := by
    refine ⟨fun k hk => ?_, hd.records⟩
    rcases List.mem_cons.1 hk with rfl | hk
    · exact hmade
    · exact hd.settled k hk

/-- The watch knows what it knew. -/
lemma Drained.watched {watch watch' : Watch} (hd : d.Watched watch session)
    (hdrained : Drained watch d h d' (.ok watch')) : d'.Watched watch' session := by
  obtain ⟨hstill, hdrained⟩ := hdrained
  obtain ⟨hsubmitted, hreason⟩ := hdrained watch' rfl
  have hd' := hd.still hstill
  refine ⟨hd'.alone, fun hs => ?_⟩
  obtain ⟨hknown, hdrains⟩ := hd'.knows hs
  exact ⟨hsubmitted.trans hknown, hreason hdrains⟩

end Watching

/-! ### Work -/

section Work

variable {session : String} {h : List (Called driver)} {d d' : Host} {config : Config}
  {launch : Launch} {lease : Lease} {record : LaunchRecord} {ticks : Nat}

/-- Nothing runs, and the session is one that was made. -/
structure Host.Free (session : String) (d : Host) : Prop extends d.Resting session where
  none : d.processes = []

lemma Host.Free.apart (h : d.Free session) (hd' : Apart session d d') : d'.Free session :=
  ⟨h.toResting.apart hd', List.subset_nil.1 (h.none ▸ hd'.processes)⟩

lemma Host.Free.kept (h : d.Free session) : d.Kept := ⟨h.known, h.saved⟩

/-- The claimed launch has run or failed, and if its attempt is settled then the result tells. -/
def Ran (session : String) (_ : List (Called driver)) (d : Host)
    (r : Except Empty (Except String Ended × LaunchRecord)) : Prop :=
  d.Free session ∧ ∀ x, r = .ok x → x.2.sessionId = session ∧
    (session ∈ d.settled → ∃ ended, x.1 = .ok ended ∧ ended.submitted = true)

lemma Ran.failed {error : String} (hfree : d.Free session) (hunsettled : session ∉ d.settled)
    (hrecord : record.sessionId = session) : Ran session h d (.ok (.error error, record)) := by
  refine ⟨hfree, ?_⟩
  rintro _ ⟨⟩
  exact ⟨hrecord, fun hs => absurd hs hunsettled⟩

lemma prepareClaimed_uses : (prepareClaimed launch lease).Uses Op.Aside := by
  refine Proc.uses_bind (uses_perform trivial) fun registered => ?_
  exact orFail_uses fun _ => Proc.uses_bind (uses_perform trivial) fun _ => trivial

/-- A launch that is spawned runs alone. -/
lemma Host.Free.spawned {pid : Nat} {start : Option Nat} (hfree : d.Free session) :
    (d.spawning ⟨session, pid, start⟩).Alone session where
  known := ⟨hfree.known.settled, hfree.known.records⟩
  made := hfree.made
  own p hp := by
    rcases List.mem_cons.1 hp with rfl | hp
    · rfl
    · rw [hfree.none] at hp
      cases hp

lemma evidence_uses (result : Except String Ended) : (evidence launch result).Uses Op.Aside := by
  cases result with
  | error _ => trivial
  | ok _ => exact uses_perform trivial

lemma terminal_uses (session : String) : (terminal session).Uses Op.Aside := by
  refine Proc.uses_bind (uses_perform trivial) fun started => ?_
  exact Proc.uses_ite (uses_perform trivial) trivial

end Work

/-! ### Polls -/

section Polls

variable {h : List (Called driver)} {d d' : Host} {config : Config} {vendor : Vendor}
  {ticks : Nat}

/-- Nothing runs. -/
structure Host.Unoccupied (d : Host) : Prop where
  known : d.Known
  none : d.processes = []

lemma Host.Unoccupied.still (h : d.Unoccupied) (hd' : Still d d') : d'.Unoccupied :=
  ⟨hd'.known h.known, List.subset_nil.1 (h.none ▸ hd'.processes)⟩

lemma Host.Unoccupied.kept (h : d.Unoccupied) : d.Kept :=
  ⟨h.known, fun p hp => by simp [h.none] at hp⟩

/-- A new session was not made before. -/
lemma made_of_newSession {session : String} (hd' : d' ∈ effects d .newSession session) :
    session ∉ d.sessions ∧ session ∈ d'.sessions := by
  change d' ∈ (if session ∈ d.sessions then []
    else [{ d with sessions := session :: d.sessions }]) at hd'
  split at hd'
  · cases hd'
  · obtain rfl := List.mem_singleton.1 hd'
    exact ⟨‹_›, List.mem_cons_self⟩

lemma idle_uses (seconds : Nat) : (idle seconds).Uses Op.Aside := by
  induction seconds with
  | zero => exact uses_perform trivial
  | succ seconds ih =>
    refine Proc.uses_bind (uses_perform trivial) fun stopping => ?_
    exact Proc.uses_ite trivial (Proc.uses_bind (uses_perform trivial) fun _ => ih)

end Polls

/-! ### Runs -/

lemma Host.Fresh.kept {d : Host} (h : d.Fresh) : d.Kept where
  known := ⟨by simp [h.settled], by simp [h.records]⟩
  saved p hp := by
    rw [h.processes] at hp
    cases hp

/-- A host that was just set up. -/
def fresh : Host := ⟨.empty, .empty, [], [], "boot", 0, [], [], [], [], []⟩

/-- Every settled attempt is marked. -/
def Host.marked (d : Host) : Bool :=
  d.settled.all fun session => (d.records.get? session).all fun record => record.released

/-- Everything works, but perhaps the ledger. The clock goes on by `delay` at each look, there is
one task, and the records are read if `admits` allows it. -/
def world (admits : Host → Bool) (appended : Except String Unit) (delay : Int) (_ : Nat) :
    Plays Host driver := fun d op =>
  match op with
  | .loadAll => (d.records.rows, if admits d then 0 else 1)
  | .append _ => (appended, 0)
  | .load session => (d.records.get? session, 0)
  | .loadReviews => (d.reviews.rows, 0)
  | .recorded role session => (d.ledger.any fun row => row.role = role ∧ row.session = session, 0)
  | .digest _ => (⟨"", "", none⟩, 0)
  | .bootId => (d.boot, 0)
  | .startTicks pid => ((d.processes.find? fun p => p.pid = pid).bind Process.ticks, 0)
  | .nowMs => (d.clock + delay, 0)
  | .newSession => (String.ofList ('s' :: d.sessions.flatMap String.toList), 0)
  | .projects => (["p"], 0)
  | .project => ("p", 0)
  | .next _ => (.ok (some ⟨"t", 0, "title"⟩, []), 0)
  | .admission => (.ok ⟨"h", "m", "e"⟩, 0)
  | .claim _ => (.ok ⟨"a", 0, 60, 0⟩, 0)
  | .start _ => (.ok (d.processes.length, some 1), 0)
  | .exited session => (if d.processes.any fun p => p.session = session then none else some 0, 0)
  | .lastEventMs _ => (none, 0)
  | .renew .. => (.error (.failed "later"), 0)
  | .attemptState .. => (none, 0)
  | .taskHold _ => (none, 0)
  | .nextReview => (none, 0)
  | .claimReview .. => (.error "none", 0)
  | .launchReview _ => (.error "none", 0)
  | .reviewEvents session => (none, if session ∈ d.reviewEvents then 1 else 0)
  | .stopping | .hasMarker .. | .reviewer => (false, 0)
  | .evidence .. => ("", 0)
  | .runs | .heldTasks => ([], 0)
  | .capped _ | .save _ | .remove _ | .saveReview _ | .removeReview _ | .create _ | .register ..
  | .installPrompt .. | .release .. | .discard _ | .beat .. | .decide .. | .releaseReview .. =>
    (.ok (), 0)
  | .markExhausted .. | .pause | .select _ | .signal _ | .heartbeat _ | .strikesCleared _
  | .reportCosts | .discardReview _ | .forever => ((), 0)

/-- A supervisor that polls once. -/
def onePoll : Request := ⟨⟨⟨"h", "m", "e"⟩, false, 60, 60, 60, 60⟩, true, 1, 1⟩

/-- Its start. -/
def started : Running driver Empty Request Unit := ⟨onePoll, [], onePoll.run⟩

/-- The launch of the second claim. -/
def second : Launch := ⟨"p", ⟨"t", 0, "title"⟩, "ss", ⟨"h", "m", "e"⟩⟩

/-- The process of the first launch. -/
def first : Process := ⟨"s", 0, some 1⟩

end AgentCoordinator.Supervisor
