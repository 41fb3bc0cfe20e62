import AgentCoordinator.Safety.Launches

/-
Every launch's cost is counted exactly once.

The ledger gets a row when a launch is settled, and the record of the launch says so afterwards, so
that no later recovery counts it again; a reviewer launch is looked up in the ledger instead. A
record goes only once the cost is counted. What this rests on is in `Billed`.
-/

namespace AgentCoordinator.Supervisor

open Procedure Tabular Crash

/-! ### The ledger and the records -/

/-- The rows of a launch in the ledger. -/
def Host.rows (d : Host) (role : Role) (session : String) : Nat :=
  d.ledger.countP fun row => row.role = role ∧ row.session = session

/-- No launch is counted twice, and a launch whose record was removed is counted, unless it is a
reviewer's that wrote no events. -/
structure Host.CountedOnce (d : Host) : Prop where
  once : ∀ role session, d.rows role session ≤ 1
  implementer : ∀ session, (.implementer, session) ∈ d.removed → d.rows .implementer session = 1
  reviewer : ∀ session, (.reviewer, session) ∈ d.removed →
    d.rows .reviewer session = if session ∈ d.wrote then 1 else 0

/-- A record that says so is of a launch that is counted; a reviewer launch that is counted has
written events, and events that are gone are counted; and all are of sessions that were made. -/
structure Host.Counted (d : Host) : Prop extends d.CountedOnce where
  marked : ∀ record ∈ d.records, record.costRecorded = true →
    d.rows .implementer record.sessionId = 1
  written : ∀ session, d.rows .reviewer session ≠ 0 → session ∈ d.wrote
  kept : ∀ session ∈ d.reviewEvents, session ∈ d.wrote
  gone : ∀ session ∈ d.wrote, session ∉ d.reviewEvents → d.rows .reviewer session = 1
  counted : ∀ session, d.rows .implementer session ≠ 0 → session ∈ d.sessions
  records : ∀ record ∈ d.records, record.sessionId ∈ d.sessions
  reviews : ∀ launch ∈ d.reviews, launch.session ∈ d.sessions
  reviewed : ∀ session, (.reviewer, session) ∈ d.removed → session ∈ d.sessions

/-- Runs in which the row of an implementer launch is appended, no crash or failed save has left a
counted launch unmarked when the records are read, and the events of a reviewer launch are read if
there are any. -/
def Billed : Condition Host driver where
  call
    | _, _, .append row, answer => row.role = .implementer → answer = .ok ()
    | _, d, .loadAll, _ => ∀ record ∈ d.records, record.costRecorded = false →
        d.rows .implementer record.sessionId = 0
    | _, d, .reviewEvents session, none => session ∉ d.reviewEvents
    | _, _, _, _ => True
  crash _ := True

/-- What the loop keeps. -/
def costOutline : Outline Host driver Empty Request Unit where
  condition := Billed
  inv := Host.Counted
  commits _ _ _ _ _ := True
  ends _ _ _ _ := True

/-! ### What operations leave -/

/-- The reviewer launch is counted, if it has written events. -/
def Host.Accounted (session : String) (d : Host) : Prop :=
  session ∈ d.wrote → d.rows .reviewer session = 1

/-- What has to be so when an operation is called. -/
def Op.Due (d : Host) : Op → Prop
  | .save record => record.sessionId ∈ d.sessions ∧
      (record.costRecorded = true → d.rows .implementer record.sessionId = 1)
  | .remove session => (d.records.get? session).isSome → d.rows .implementer session = 1
  | .append row => d.rows row.role row.session = 0 ∧
      (row.role = .implementer → row.session ∈ d.sessions) ∧
      (row.role = .reviewer → row.session ∈ d.wrote)
  | .saveReview launch => launch.session ∈ d.sessions
  | .removeReview session | .discardReview session => d.Accounted session
  | .launchReview launch => (.reviewer, launch.session) ∉ d.removed
  | _ => True

/-- An operation that changes nothing of costs. -/
def Op.Plain : Op → Prop
  | .save _ | .remove _ | .saveReview _ | .removeReview _ | .append _ | .launchReview _ |
    .discardReview _ => False
  | _ => True

/-- Nothing has changed of costs, except that sessions were made. -/
structure Alike (d d' : Host) : Prop where
  records : d'.records = d.records
  reviews : d'.reviews = d.reviews
  ledger : d'.ledger = d.ledger
  reviewEvents : d'.reviewEvents = d.reviewEvents
  wrote : d'.wrote = d.wrote
  removed : d'.removed = d.removed
  sessions : d.sessions ⊆ d'.sessions

section Operations

variable {session : String} {role : Role} {d d' d'' : Host}

lemma Host.rows_congr (h : d'.ledger = d.ledger) : d'.rows role session = d.rows role session := by
  unfold Host.rows
  rw [h]

lemma Host.rows_appended (row : Row) : (d.appended row).rows role session =
    d.rows role session + if row.role = role ∧ row.session = session then 1 else 0 := by
  show List.countP _ (d.ledger ++ [row]) = _
  rw [List.countP_append, List.countP_singleton]
  simp only [Host.rows, decide_eq_true_eq]

lemma Alike.refl (d : Host) : Alike d d := ⟨rfl, rfl, rfl, rfl, rfl, rfl, List.Subset.refl _⟩

lemma Alike.trans (h : Alike d d') (h' : Alike d' d'') : Alike d d'' where
  records := h'.records.trans h.records
  reviews := h'.reviews.trans h.reviews
  ledger := h'.ledger.trans h.ledger
  reviewEvents := h'.reviewEvents.trans h.reviewEvents
  wrote := h'.wrote.trans h.wrote
  removed := h'.removed.trans h.removed
  sessions := List.Subset.trans h.sessions h'.sessions

lemma Alike.rows (h : Alike d d') : d'.rows role session = d.rows role session :=
  Host.rows_congr h.ledger

lemma Alike.ends (h : Ends d d') : Alike d d' := by
  obtain ⟨p, hp, rfl⟩ := h
  exact ⟨rfl, rfl, rfl, rfl, rfl, rfl, List.Subset.refl _⟩

lemma Alike.counted (h : Alike d d') (hd : d.Counted) : d'.Counted where
  once role session := h.rows ▸ hd.once role session
  implementer session hs := h.rows ▸ hd.implementer session (h.removed ▸ hs)
  reviewer session hs := by
    rw [h.rows, h.wrote]
    exact hd.reviewer session (h.removed ▸ hs)
  marked record hr hmarked := h.rows ▸ hd.marked record (h.records ▸ hr) hmarked
  written session hs := h.wrote ▸ hd.written session (h.rows ▸ hs)
  kept session hs := h.wrote ▸ hd.kept session (h.reviewEvents ▸ hs)
  gone session hs hgone := h.rows ▸ hd.gone session (h.wrote ▸ hs) (h.reviewEvents ▸ hgone)
  counted session hs := h.sessions (hd.counted session (h.rows ▸ hs))
  records record hr := h.sessions (hd.records record (h.records ▸ hr))
  reviews launch hl := h.sessions (hd.reviews launch (h.reviews ▸ hl))
  reviewed session hs := h.sessions (hd.reviewed session (h.removed ▸ hs))

/-- What a plain operation leaves. -/
lemma Alike.plain {op : Op} {answer : driver.Answer op} (hop : op.Plain)
    (hd' : d' ∈ effects d op answer) : Alike d d' := by
  have hrefl : d' = d → Alike d d' := by
    rintro rfl
    exact .refl d'
  have hsame : ∀ l : List Host, (∀ x ∈ l, x.records = d.records ∧ x.reviews = d.reviews ∧
      x.ledger = d.ledger ∧ x.reviewEvents = d.reviewEvents ∧ x.wrote = d.wrote ∧
      x.removed = d.removed ∧ d.sessions ⊆ x.sessions) → d' ∈ l → Alike d d' := by
    intro l hl hmem
    obtain ⟨hrecords, hreviews, hledger, hevents, hwrote, hremoved, hsessions⟩ := hl d' hmem
    exact ⟨hrecords, hreviews, hledger, hevents, hwrote, hremoved, hsessions⟩
  cases op with
  | save _ | remove _ | saveReview _ | removeReview _ | append _ | launchReview _
  | discardReview _ => exact hop.elim
  | loadAll | load _ | loadReviews | recorded _ _ | bootId | startTicks _ =>
    exact hrefl (eq_of_mem_ite hd')
  | forever => cases hd'
  | exited _ =>
    cases answer with
    | none => exact hrefl (List.mem_singleton.1 hd')
    | some _ =>
      change d' ∈ (if _ then [] else [d]) at hd'
      split at hd'
      · cases hd'
      · exact hrefl (List.mem_singleton.1 hd')
  | reviewEvents _ =>
    cases answer with
    | none => exact hrefl (List.mem_singleton.1 hd')
    | some _ => exact hrefl (eq_of_mem_ite hd')
  | nowMs =>
    change d' ∈ (if _ then [_] else []) at hd'
    split at hd'
    · exact hsame _ (by simp) hd'
    · cases hd'
  | newSession =>
    change d' ∈ (if _ then [] else [_]) at hd'
    split at hd'
    · cases hd'
    · exact hsame _ (by simp) hd'
  | start _ =>
    cases answer with
    | ok _ => exact hsame _ (by simp [effects, Host.spawning]) hd'
    | error _ => exact hrefl (List.mem_singleton.1 hd')
  | release _ _ _ =>
    cases answer with
    | ok _ => exact hsame _ (by simp [effects, Host.settling]) hd'
    | error _ => exact hrefl (List.mem_singleton.1 hd')
  | attemptState _ _ =>
    change d' ∈ (if _ then [_] else [d]) at hd'
    split at hd'
    · exact hsame _ (by simp [Host.settling]) hd'
    · exact hrefl (List.mem_singleton.1 hd')
  | renew _ _ =>
    rcases answer with (⟨_, _⟩ | _) | _
    · change d' ∈ (if _ then [_] else [d]) at hd'
      split at hd'
      · exact hsame _ (by simp [Host.settling]) hd'
      · exact hrefl (List.mem_singleton.1 hd')
    · exact hrefl (List.mem_singleton.1 hd')
    · exact hrefl (List.mem_singleton.1 hd')
  | _ => exact hrefl (List.mem_singleton.1 hd')

lemma Op.Plain.due {op : Op} (hop : op.Plain) : op.Due d := by
  cases op <;> first | exact hop.elim | trivial

lemma Op.Aside.plain {op : Op} (hop : op.Aside) : op.Plain := by
  cases op <;> first | exact hop.elim | trivial

end Operations

/-! ### Writes -/

section Writes

variable {session : String} {role : Role} {d d' : Host} {record : LaunchRecord} {row : Row}
  {launch : ReviewLaunch}

lemma Host.Counted.saved (hd : d.Counted) (hdue : Op.Due d (.save record)) :
    (d.saved record).Counted where
  toCountedOnce := ⟨hd.once, hd.implementer, hd.reviewer⟩
  marked r hr hmarked := by
    rcases Table.mem_put.1 hr with rfl | ⟨hr, -⟩
    · exact hdue.2 hmarked
    · exact hd.marked r hr hmarked
  written := hd.written
  kept := hd.kept
  gone := hd.gone
  counted := hd.counted
  records r hr := by
    rcases Table.mem_put.1 hr with rfl | ⟨hr, -⟩
    · exact hdue.1
    · exact hd.records r hr
  reviews := hd.reviews
  reviewed := hd.reviewed

lemma mem_dropped {α : Type} {record : Option α} {removed : List (Role × String)}
    {x : Role × String} (h : x ∈ dropped record role session removed) :
    x ∈ removed ∨ x = (role, session) ∧ record.isSome := by
  unfold dropped at h
  split at h
  · exact (List.mem_cons.1 h).symm.imp_right fun h => ⟨h, ‹_›⟩
  · exact .inl h

lemma Host.Counted.dropped (hd : d.Counted) (hdue : Op.Due d (.remove session)) :
    (d.dropped session).Counted where
  once := hd.once
  implementer s hs := by
    rcases mem_dropped hs with hs | ⟨heq, hsome⟩
    · exact hd.implementer s hs
    · obtain ⟨-, rfl⟩ := Prod.mk.inj heq
      exact hdue hsome
  reviewer s hs := by
    rcases mem_dropped hs with hs | ⟨heq, -⟩
    · exact hd.reviewer s hs
    · cases heq
  marked r hr := hd.marked r (Table.mem_erase.1 hr).1
  written := hd.written
  kept := hd.kept
  gone := hd.gone
  counted := hd.counted
  records r hr := hd.records r (Table.mem_erase.1 hr).1
  reviews := hd.reviews
  reviewed s hs := by
    rcases mem_dropped hs with hs | ⟨heq, -⟩
    · exact hd.reviewed s hs
    · cases heq

lemma Host.Counted.appended (hd : d.Counted) (hdue : Op.Due d (.append row)) :
    (d.appended row).Counted := by
  obtain ⟨hnone, hmade, hwrote⟩ := hdue
  -- A launch that is counted is not the one of the row.
  have hother {role session} (h : d.rows role session ≠ 0) :
      (d.appended row).rows role session = d.rows role session := by
    rw [Host.rows_appended, if_neg, Nat.add_zero]
    rintro ⟨rfl, rfl⟩
    exact h hnone
  have hrole {role session} (h : (d.appended row).rows role session ≠ 0) :
      d.rows role session ≠ 0 ∨ row.role = role ∧ row.session = session := by
    rw [Host.rows_appended] at h
    by_cases hrow : row.role = role ∧ row.session = session
    · exact .inr hrow
    · rw [if_neg hrow] at h
      exact .inl h
  refine ⟨⟨fun role session => ?_, fun s hs => ?_, fun s hs => ?_⟩, fun r hr hmarked => ?_,
    fun s hs => ?_, hd.kept, fun s hs hgone => ?_, fun s hs => ?_, hd.records, hd.reviews,
    hd.reviewed⟩
  · by_cases hzero : d.rows role session = 0
    · rw [Host.rows_appended, hzero]
      split <;> omega
    · rw [hother hzero]
      exact hd.once role session
  · have hone := hd.implementer s hs
    rw [hother (by omega), hone]
  · have hrows := hd.reviewer s hs
    by_cases hw : s ∈ d.wrote
    · rw [if_pos hw] at hrows
      rw [hother (by omega), hrows]
      exact (if_pos hw).symm
    · rw [if_neg hw] at hrows
      rw [Host.rows_appended, hrows, if_neg, Nat.add_zero]
      · exact (if_neg hw).symm
      · rintro ⟨hreviewer, rfl⟩
        exact hw (hwrote hreviewer)
  · have hone := hd.marked r hr hmarked
    rw [hother (by omega), hone]
  · rcases hrole hs with hs | ⟨hreviewer, rfl⟩
    · exact hd.written s hs
    · exact hwrote hreviewer
  · have hone := hd.gone s hs hgone
    rw [hother (by omega), hone]
  · rcases hrole hs with hs | ⟨himplementer, rfl⟩
    · exact hd.counted s hs
    · exact hmade himplementer

lemma Host.Counted.savedReview (hd : d.Counted) (hdue : launch.session ∈ d.sessions) :
    (d.savedReview launch).Counted where
  toCountedOnce := ⟨hd.once, hd.implementer, hd.reviewer⟩
  marked := hd.marked
  written := hd.written
  kept := hd.kept
  gone := hd.gone
  counted := hd.counted
  records := hd.records
  reviews l hl := by
    rcases Table.mem_put.1 hl with rfl | ⟨hl, -⟩
    · exact hdue
    · exact hd.reviews l hl
  reviewed := hd.reviewed

lemma Host.Counted.droppedReview (hd : d.Counted) (hdue : d.Accounted session) :
    (d.droppedReview session).Counted where
  once := hd.once
  implementer s hs := by
    rcases mem_dropped hs with hs | ⟨heq, -⟩
    · exact hd.implementer s hs
    · cases heq
  reviewer s hs := by
    rcases mem_dropped hs with hs | ⟨heq, -⟩
    · exact hd.reviewer s hs
    obtain ⟨-, rfl⟩ := Prod.mk.inj heq
    show d.rows .reviewer s = if s ∈ d.wrote then 1 else 0
    split
    · exact hdue ‹_›
    · exact Decidable.not_not.1 fun hrows => ‹s ∉ d.wrote› (hd.written s hrows)
  marked := hd.marked
  written := hd.written
  kept := hd.kept
  gone := hd.gone
  counted := hd.counted
  records := hd.records
  reviews l hl := hd.reviews l (Table.mem_erase.1 hl).1
  reviewed s hs := by
    rcases mem_dropped hs with hs | ⟨heq, hsome⟩
    · exact hd.reviewed s hs
    obtain ⟨-, rfl⟩ := Prod.mk.inj heq
    obtain ⟨launch, hlaunch⟩ := Option.isSome_iff_exists.1 hsome
    have := hd.reviews launch (Table.mem_of_get? hlaunch)
    rwa [show launch.session = s from Table.key_of_get? hlaunch] at this

lemma Host.Counted.writing (hd : d.Counted) (hdue : (.reviewer, session) ∉ d.removed) :
    (d.writing session).Counted where
  once := hd.once
  implementer := hd.implementer
  reviewer s hs := by
    have hne : s ≠ session := by
      rintro rfl
      exact hdue hs
    have hwrote : s ∈ (d.writing session).wrote ↔ s ∈ d.wrote := by
      simp [Host.writing, hne]
    simp only [hwrote]
    exact hd.reviewer s hs
  marked := hd.marked
  written s hs := List.mem_cons_of_mem _ (hd.written s hs)
  kept s hs := by
    rcases List.mem_cons.1 hs with rfl | hs
    · exact List.mem_cons_self
    · exact List.mem_cons_of_mem _ (hd.kept s hs)
  gone s hs hgone := by
    obtain ⟨hne, hgone⟩ := not_or.1 fun h => hgone (List.mem_cons.2 h)
    rcases List.mem_cons.1 hs with rfl | hs
    · exact absurd rfl hne
    · exact hd.gone s hs hgone
  counted := hd.counted
  records := hd.records
  reviews := hd.reviews
  reviewed := hd.reviewed

lemma Host.Counted.discardedReview (hd : d.Counted) (hdue : d.Accounted session) :
    (d.discardedReview session).Counted where
  toCountedOnce := ⟨hd.once, hd.implementer, hd.reviewer⟩
  marked := hd.marked
  written := hd.written
  kept s hs := hd.kept s (List.mem_filter.1 hs).1
  gone s hs hgone := by
    by_cases hsession : s = session
    · subst hsession
      exact hdue hs
    · refine hd.gone s hs fun hevents => hgone (List.mem_filter.2 ⟨hevents, ?_⟩)
      exact decide_eq_true hsession
  counted := hd.counted
  records := hd.records
  reviews := hd.reviews
  reviewed := hd.reviewed

/-- An operation that is due keeps the costs counted. -/
lemma Host.Counted.step {op : Op} {answer : driver.Answer op} (hd : d.Counted) (hdue : op.Due d)
    (hd' : d' ∈ effects d op answer) : d'.Counted := by
  have hplain (hop : op.Plain) : d'.Counted := (Alike.plain hop hd').counted hd
  have hboth : ∀ {x : Host}, x.Counted → d' ∈ [d, x] → d'.Counted := by
    intro x hx hmem
    simp only [List.mem_cons, List.not_mem_nil, or_false] at hmem
    rcases hmem with rfl | rfl
    · exact hd
    · exact hx
  cases op with
  | save record =>
    cases answer with
    | ok _ => exact List.mem_singleton.1 hd' ▸ hd.saved hdue
    | error _ => exact hboth (hd.saved hdue) hd'
  | remove session =>
    cases answer with
    | ok _ => exact List.mem_singleton.1 hd' ▸ hd.dropped hdue
    | error _ => exact hboth (hd.dropped hdue) hd'
  | append row =>
    cases answer with
    | ok _ => exact List.mem_singleton.1 hd' ▸ hd.appended hdue
    | error _ => exact hboth (hd.appended hdue) hd'
  | saveReview launch =>
    cases answer with
    | ok _ => exact List.mem_singleton.1 hd' ▸ hd.savedReview hdue
    | error _ => exact hboth (hd.savedReview hdue) hd'
  | removeReview session =>
    cases answer with
    | ok _ => exact List.mem_singleton.1 hd' ▸ hd.droppedReview hdue
    | error _ => exact hboth (hd.droppedReview hdue) hd'
  | launchReview launch => exact hboth (hd.writing hdue) hd'
  | discardReview session => exact hboth (hd.discardedReview hdue) hd'
  | _ => exact hplain trivial

end Writes

/-! ### Frames -/

/-- Of the implementers' costs, only what belongs to one launch has changed. -/
structure Beside (session : String) (d d' : Host) : Prop where
  records : ∀ k, k ≠ session → d'.records.get? k = d.records.get? k
  rows : ∀ k, k ≠ session → d'.rows .implementer k = d.rows .implementer k
  sessions : d.sessions ⊆ d'.sessions

/-- Besides, it is counted as before. -/
structure Keeps (session : String) (d d' : Host) : Prop extends Beside session d d' where
  own : d'.rows .implementer session = d.rows .implementer session

/-- The launch of a session, which was made, is counted or it does not matter. -/
structure Host.Paid (session : String) (paid : Bool) (d : Host) : Prop where
  made : session ∈ d.sessions
  counted : paid = true → d.rows .implementer session = 1

/-- An operation that concerns at most the record of one launch, which may say that it is counted
and may be removed if it is. -/
def Op.Entry (session : String) (paid : Bool) : Op → Prop
  | .save record => record.sessionId = session ∧ (record.costRecorded = true → paid = true)
  | .remove k => k = session ∧ paid = true
  | op => op.Plain

section Frames

variable {session : String} {paid : Bool} {d d' d'' : Host}

lemma Alike.keeps (session : String) (h : Alike d d') : Keeps session d d' where
  records _ _ := h.records ▸ rfl
  rows _ _ := h.rows
  sessions := h.sessions
  own := h.rows

lemma Beside.trans (h : Beside session d d') (h' : Beside session d' d'') :
    Beside session d d'' where
  records k hk := (h'.records k hk).trans (h.records k hk)
  rows k hk := (h'.rows k hk).trans (h.rows k hk)
  sessions := List.Subset.trans h.sessions h'.sessions

lemma Keeps.trans (h : Keeps session d d') (h' : Keeps session d' d'') : Keeps session d d'' :=
  ⟨h.toBeside.trans h'.toBeside, h'.own.trans h.own⟩

lemma Host.Paid.keeps (h : d.Paid session paid) (hd' : Keeps session d d') :
    d'.Paid session paid :=
  ⟨hd'.sessions h.made, fun hpaid => hd'.own.trans (h.counted hpaid)⟩

/-- A write of the record of a launch. -/
lemma Keeps.of_records (hrecords : ∀ k, k ≠ session → d'.records.get? k = d.records.get? k)
    (hledger : d'.ledger = d.ledger) (hsessions : d'.sessions = d.sessions) :
    Keeps session d d' where
  records := hrecords
  rows _ _ := Host.rows_congr hledger
  sessions := hsessions ▸ List.Subset.refl _
  own := Host.rows_congr hledger

lemma Keeps.saved {record : LaunchRecord} (hsession : record.sessionId = session) :
    Keeps session d (d.saved record) := by
  refine .of_records (fun k hk => ?_) rfl rfl
  show (d.records.put record).get? k = _
  rw [Table.get?_put, if_neg]
  exact fun h => hk (h.trans hsession)

lemma Keeps.dropped : Keeps session d (d.dropped session) := by
  refine .of_records (fun k hk => ?_) rfl rfl
  show (d.records.erase session).get? k = _
  rw [Table.get?_erase, if_neg hk]

lemma Op.Entry.kinds {op : Op} (hop : op.Entry session paid) :
    (∃ record, op = .save record ∧ record.sessionId = session ∧
      (record.costRecorded = true → paid = true)) ∨
        (op = .remove session ∧ paid = true) ∨ op.Plain := by
  cases op with
  | save record => exact .inl ⟨record, rfl, hop⟩
  | remove k => exact .inr (.inl ⟨congrArg _ hop.1, hop.2⟩)
  | _ => exact .inr (.inr hop)

lemma Op.Entry.due {op : Op} (hop : op.Entry session paid) (hd : d.Paid session paid) :
    op.Due d := by
  rcases hop.kinds with ⟨record, rfl, rfl, hmarked⟩ | ⟨rfl, hpaid⟩ | hplain
  · exact ⟨hd.made, fun h => hd.counted (hmarked h)⟩
  · exact fun _ => hd.counted hpaid
  · exact hplain.due

/-- What an operation of a launch leaves. -/
lemma Keeps.entry {op : Op} {answer : driver.Answer op} (hop : op.Entry session paid)
    (hd' : d' ∈ effects d op answer) : Keeps session d d' := by
  have hrefl : Keeps session d d := (Alike.refl d).keeps session
  have hboth : ∀ {x : Host}, Keeps session d x → d' ∈ [d, x] → Keeps session d d' := by
    intro x hx hmem
    simp only [List.mem_cons, List.not_mem_nil, or_false] at hmem
    rcases hmem with rfl | rfl
    · exact hrefl
    · exact hx
  rcases hop.kinds with ⟨record, rfl, hsession, -⟩ | ⟨rfl, -⟩ | hplain
  · cases answer with
    | ok _ => exact List.mem_singleton.1 hd' ▸ .saved hsession
    | error _ => exact hboth (.saved hsession) hd'
  · cases answer with
    | ok _ => exact List.mem_singleton.1 hd' ▸ .dropped
    | error _ => exact hboth .dropped hd'
  · exact (Alike.plain hplain hd').keeps session

lemma Op.Plain.entry {op : Op} (hop : op.Plain) : op.Entry session paid := by
  cases op <;> first | exact hop.elim | exact hop

/-- Plain operations, in states that they keep. -/
lemma plainly {A : Host → Prop} (hA : ∀ d d', A d → Alike d d' → A d') :
    Framing machine costOutline Op.Plain A Alike where
  refl := .refl
  trans _ _ _ := Alike.trans
  others _ _ := .ends
  stable := hA
  frame _ _ _ _ _ hop _ hd _ hd' := ⟨hd.step hop.due hd', trivial, .plain hop hd'⟩

/-- An operation that is due. -/
lemma safe_due {α : Type} {Q : List (Called driver) → Host → Except Empty α → Prop}
    {h : List (Called driver)} {A : Host → Prop} (hA : ∀ d d', A d → Alike d d' → A d') {op : Op}
    {next : driver.Answer op → Loop α} (hd : A d) (hdue : ∀ d₁, A d₁ → op.Due d₁)
    (hnext : ∀ d₁ answer d₂, A d₁ → Billed.call h d₁ op answer → d₂ ∈ effects d₁ op answer →
      (next answer).Safe machine costOutline Q (h ++ [⟨op, answer⟩]) d₂) :
    (Proc.call op next).Safe machine costOutline Q h d := by
  refine (plainly hA).any hd fun d₁ answer d₂ hA₁ _ hd₁ hok hd₂ => ?_
  exact ⟨hd₁.step (hdue d₁ hA₁) hd₂, trivial, hnext d₁ answer d₂ hA₁ hok hd₂⟩

/-- The operations of a launch. -/
lemma entries (session : String) (paid : Bool) :
    Framing machine costOutline (Op.Entry session paid) (Host.Paid session paid)
      (Keeps session) where
  refl d := (Alike.refl d).keeps session
  trans _ _ _ := Keeps.trans
  others _ _ hothers := (Alike.ends hothers).keeps session
  stable _ _ h hd' := h.keeps hd'
  frame _ _ _ _ _ hop hpaid hd _ hd' := ⟨hd.step (hop.due hpaid) hd', trivial, .entry hop hd'⟩

end Frames

/-! ### The cost of a launch -/

section Launch

variable {session : String} {h : List (Called driver)} {d d' : Host} {config : Config}
  {launch : Launch} {lease : Lease} {record : LaunchRecord} {ticks : Nat} {paid : Bool}

/-- The launch of a session is counted now, and no other is touched. -/
structure Counts (session : String) (d d' : Host) : Prop where
  paid : d'.Paid session true
  beside : Beside session d d'

lemma Counts.keeps {d'' : Host} (h : Counts session d d') (hd' : Keeps session d' d'') :
    Counts session d d'' :=
  ⟨h.paid.keeps hd', h.beside.trans hd'.toBeside⟩

lemma Counts.appended {row : Row} (hmade : session ∈ d.sessions)
    (hrows : d.rows .implementer session = 0) (hrole : row.role = .implementer)
    (hsession : row.session = session) : Counts session d (d.appended row) where
  paid := by
    refine ⟨hmade, fun _ => ?_⟩
    rw [Host.rows_appended, hrows, if_pos ⟨hrole, hsession⟩]
  beside := by
    refine ⟨fun _ _ => rfl, fun k hk => ?_, List.Subset.refl _⟩
    rw [Host.rows_appended, if_neg, Nat.add_zero]
    rintro ⟨-, rfl⟩
    exact hk hsession

lemma costSettle_counts (hlaunch : launch.sessionId = session) (hmade : session ∈ d.sessions)
    (hrows : d.rows .implementer session = 0) :
    (costSettle config launch record).Safe machine costOutline
      (fun _ d' _ => Counts session d d') h d := by
  have hframing := plainly (A := fun d₁ => Keeps session d d₁) fun _ _ hd hd' =>
    hd.trans (hd'.keeps session)
  have hkeeps : Keeps session d d := (Alike.refl d).keeps session
  refine hframing.call trivial hkeeps fun _ digest d₁ _ _ _ _ hkeeps₁ _ _ => ?_
  refine hframing.call trivial hkeeps₁ fun _ now d₂ _ _ _ _ hkeeps₂ _ _ => ?_
  refine hframing.uses_bind (p := markIfExhausted config launch digest now) (fun _ _ e => e.elim)
    ((markIfExhausted_uses digest now).mono fun _ => Op.Aside.plain) hkeeps₂ ?_
  intro h₃ d₃ _ _ hkeeps₃ _
  refine safe_due (fun _ _ hd hd' => hd.trans (hd'.keeps session)) hkeeps₃ ?_ ?_
  · intro d₄ hkeeps₄
    subst hlaunch
    exact ⟨hkeeps₄.own.trans hrows, fun _ => hkeeps₄.sessions hmade, by rintro ⟨⟩⟩
  intro d₄ appended d₅ hkeeps₄ hok hd₅
  have hrows₄ : d₄.rows .implementer session = 0 := hkeeps₄.own.trans hrows
  have hmade₄ := hkeeps₄.sessions hmade
  obtain rfl : appended = .ok () := hok rfl
  obtain rfl := List.mem_singleton.1 hd₅
  have hcounts : Counts session d₄ (d₄.appended (launch.row record digest.usage now)) :=
    .appended hmade₄ hrows₄ rfl hlaunch
  exact ⟨hcounts.paid, hkeeps₄.toBeside.trans hcounts.beside⟩

/-- The record says that the launch is counted. -/
def SettledCost (session : String) (d : Host) (_ : List (Called driver)) (d' : Host)
    (r : Except Empty (LaunchRecord × String)) : Prop :=
  Counts session d d' ∧ ∀ x, r = .ok x → x.1.sessionId = session ∧ x.1.costRecorded = true

lemma settleCost_counts (hlaunch : launch.sessionId = session) (hrecord : record.sessionId = session)
    (hmade : session ∈ d.sessions)
    (hrows : d.rows .implementer session = if record.costRecorded then 1 else 0) :
    (settleCost config launch record).Safe machine costOutline (SettledCost session d) h d := by
  unfold settleCost
  split
  · rename_i hmarked
    rw [if_pos hmarked] at hrows
    refine ⟨⟨⟨hmade, fun _ => hrows⟩, ((Alike.refl d).keeps session).toBeside⟩, ?_⟩
    rintro _ ⟨⟩
    exact ⟨hrecord, hmarked⟩
  rename_i hmarked
  rw [if_neg hmarked] at hrows
  refine (costSettle_counts hlaunch hmade hrows).bind ?_ fun _ _ e => e.elim
  intro h₁ d₁ sentence hcounts
  refine (entries session true).call ⟨hrecord, fun _ => rfl⟩ hcounts.paid ?_
  intro d₂ saved d₃ _ hkeeps₂ _ _ _ _ hkeeps₃
  refine ⟨hcounts.keeps hkeeps₃, ?_⟩
  rintro _ ⟨⟩
  exact ⟨hrecord, rfl⟩

/-- A release leaves the record of the launch as it is, as far as the cost goes. -/
lemma release_counts {summary : String} (hrecord : record.sessionId = session)
    (hmarked : record.costRecorded = true → paid = true) (hpaid : d.Paid session paid) :
    (release launch record summary).Safe machine costOutline (fun _ d' r => Keeps session d d' ∧
      d'.Paid session paid ∧ ∀ x, r = .ok x → x.sessionId = session) h d := by
  have hplain {op : Op} (hop : op.Plain) : op.Entry session paid := hop.entry
  refine (entries session paid).call (hplain trivial) hpaid ?_
  intro _ released d₁ _ _ _ _ hpaid₁ _ hkeeps₁
  have hsession : (record.tried released).sessionId = session ∧
      ((record.tried released).costRecorded = true → paid = true) := by
    cases released <;> exact ⟨hrecord, hmarked⟩
  refine (entries session paid).call hsession hpaid₁ fun _ saved d₂ _ _ _ _ hpaid₂ _ hkeeps₂ => ?_
  refine ⟨hkeeps₁.trans hkeeps₂, hpaid₂, ?_⟩
  rintro _ ⟨⟩
  exact hsession.1

lemma discardRecorded_entries (hrecord : record.sessionId = session) :
    (discardRecorded record.sessionId).Uses (Op.Entry session true) := by
  refine Proc.uses_bind (uses_perform trivial) fun discarded => ?_
  cases discarded with
  | ok _ => exact Proc.uses_bind (uses_perform ⟨hrecord, rfl⟩) fun _ => trivial
  | error _ => trivial

lemma discardRecorded_counts (hrecord : record.sessionId = session) (hpaid : d.Paid session true) :
    (discardRecorded record.sessionId).Safe machine costOutline
      (fun _ d' _ => Keeps session d d') h d :=
  (entries session true).uses (discardRecorded_entries hrecord) hpaid fun _ _ _ _ _ hkeeps => hkeeps

/-- A settled record is of a launch that is counted. -/
lemma settleSelected_counts (hrecord : record.sessionId = session) (hmade : session ∈ d.sessions)
    (hrows : d.rows .implementer session = if record.costRecorded then 1 else 0) :
    (settleSelected config record).Safe machine costOutline (fun _ d' _ => Beside session d d')
      h d := by
  have hframing := plainly (A := fun d₁ => Keeps session d d₁) fun _ _ hd hd' =>
    hd.trans (hd'.keeps session)
  have hkeeps : Keeps session d d := (Alike.refl d).keeps session
  refine hframing.call trivial hkeeps fun _ project d₁ _ _ _ _ hkeeps₁ _ _ => ?_
  refine (settleCost_counts hrecord hrecord (hkeeps₁.sessions hmade)
    (hkeeps₁.own.trans hrows)).bind ?_ fun _ _ e => e.elim
  rintro h₂ d₂ ⟨record', cost⟩ ⟨hcounts, hsettled⟩
  obtain ⟨hsession, hmarked⟩ := hsettled _ rfl
  have hbeside := hkeeps₁.toBeside.trans hcounts.beside
  show Proc.Safe _ _ _ (if record'.released = true then _ else _) _ _
  split
  · exact (discardRecorded_counts hsession hcounts.paid).mono fun _ _ _ hkeeps₃ =>
      hbeside.trans hkeeps₃.toBeside
  refine (release_counts hsession (fun _ => rfl) hcounts.paid).bind ?_ fun _ _ e => e.elim
  rintro h₃ d₃ record'' ⟨hkeeps₃, hpaid₃, hsession''⟩
  have hbeside₃ := hbeside.trans hkeeps₃.toBeside
  show Proc.Safe _ _ _ (if record''.released = true then _ else _) _ _
  split
  · exact (discardRecorded_counts (hsession'' _ rfl) hpaid₃).mono fun _ _ _ hkeeps₄ =>
      hbeside₃.trans hkeeps₄.toBeside
  · exact hbeside₃

lemma settle_counts (hmade : record.sessionId ∈ d.sessions)
    (hrows : d.rows .implementer record.sessionId = if record.costRecorded then 1 else 0) :
    (settle config record).Safe machine costOutline
      (fun _ d' _ => Beside record.sessionId d d') h d := by
  unfold settle
  split
  · refine (plainly (A := fun d₁ => Alike d d₁) fun _ _ => Alike.trans).call trivial (.refl d) ?_
    intro _ _ d₁ _ _ _ _ halike _ _
    refine (settleSelected_counts rfl (halike.sessions hmade) (halike.rows.trans hrows)).mono ?_
    exact fun _ _ _ hbeside => (halike.keeps record.sessionId).toBeside.trans hbeside
  · exact settleSelected_counts rfl hmade hrows

end Launch

/-! ### Recovery -/

section Recovery

variable {h : List (Called driver)} {d d' : Host} {config : Config} {record : LaunchRecord}
  {rest : List LaunchRecord}

/-- The records that were read are those that stand, and a launch is counted exactly if its record
says so. -/
structure Host.Bills (records : List LaunchRecord) (d : Host) : Prop where
  found : ∀ record ∈ records, d.records.get? record.sessionId = some record
  nodup : (records.map LaunchRecord.sessionId).Nodup
  made : ∀ record ∈ records, record.sessionId ∈ d.sessions
  rows : ∀ record ∈ records,
    d.rows .implementer record.sessionId = if record.costRecorded then 1 else 0

lemma Host.Bills.alike (hd : d.Bills rest) (hd' : Alike d d') : d'.Bills rest where
  found record hr := hd'.records ▸ hd.found record hr
  nodup := hd.nodup
  made record hr := hd'.sessions (hd.made record hr)
  rows record hr := hd'.rows.trans (hd.rows record hr)

/-- What happens to one launch leaves the others. -/
lemma Host.Bills.beside (hd : d.Bills (record :: rest)) (hd' : Beside record.sessionId d d') :
    d'.Bills rest := by
  have hne : ∀ r ∈ rest, r.sessionId ≠ record.sessionId := by
    intro r hr hsession
    exact (List.nodup_cons.1 hd.nodup).1 (hsession ▸ List.mem_map_of_mem hr)
  refine ⟨fun r hr => ?_, (List.nodup_cons.1 hd.nodup).2, fun r hr => ?_, fun r hr => ?_⟩
  · exact (hd'.records _ (hne r hr)).trans (hd.found r (List.mem_cons_of_mem _ hr))
  · exact hd'.sessions (hd.made r (List.mem_cons_of_mem _ hr))
  · exact (hd'.rows _ (hne r hr)).trans (hd.rows r (List.mem_cons_of_mem _ hr))

lemma Host.Bills.tail (hd : d.Bills (record :: rest)) : d.Bills rest :=
  hd.beside ((Alike.refl d).keeps record.sessionId).toBeside

lemma mayBeAlive_uses : (mayBeAlive record).Uses Op.Aside := by
  refine Proc.uses_bind (uses_perform trivial) fun now => ?_
  refine Proc.uses_bind (uses_perform trivial) fun boot => ?_
  refine Proc.uses_ite trivial (Proc.uses_ite trivial ?_)
  split
  · exact Proc.uses_bind (uses_perform trivial) fun _ => trivial
  · trivial
  · trivial

lemma recoverEach_counts {records : List LaunchRecord} (hbills : d.Bills records) :
    (recoverEach config records).Safe machine costOutline (fun _ _ _ => True) h d := by
  induction records generalizing h d with
  | nil => trivial
  | cons record rest ih =>
    have hframing := plainly (A := Host.Bills (record :: rest)) fun _ _ => Host.Bills.alike
    refine hframing.uses_bind (fun _ _ e => e.elim) (mayBeAlive_uses.mono fun _ => Op.Aside.plain)
      hbills ?_
    intro h₁ d₁ alive _ hbills₁ _
    cases alive with
    | true => exact (ih hbills₁.tail).bind (fun _ _ _ _ => trivial) fun _ _ e => e.elim
    | false =>
      show Proc.Safe _ _ _ (if record.releaseFailures < maxReleaseTries then _ else _) _ _
      split
      · refine (settle_counts (hbills₁.made record List.mem_cons_self)
          (hbills₁.rows record List.mem_cons_self)).bind ?_ fun _ _ e => e.elim
        exact fun _ _ _ hbeside => ih (hbills₁.beside hbeside)
      · exact ih hbills₁.tail

/-- What a look at the records tells. -/
lemma bills_of_loadAll {records : List LaunchRecord} (hd : d.Counted)
    (hok : ∀ record ∈ d.records, record.costRecorded = false →
      d.rows .implementer record.sessionId = 0)
    (hd' : d' ∈ effects d .loadAll records) : d' = d ∧ d.Bills records := by
  change d' ∈ (if records.Perm d.records.rows then [d] else []) at hd'
  split at hd'
  · rename_i hperm
    refine ⟨List.mem_singleton.1 hd', fun r hr => ?_, ?_, fun r hr => ?_, fun r hr => ?_⟩
    · exact Table.get?_of_mem (hperm.mem_iff.1 hr)
    · exact ((hperm.map _).nodup_iff).2 d.records.nodup
    · exact hd.records r (hperm.mem_iff.1 hr)
    · split
      · exact hd.marked r (hperm.mem_iff.1 hr) ‹_›
      · exact hok r (hperm.mem_iff.1 hr) (Bool.eq_false_iff.2 ‹_›)
  · cases hd'

lemma loadAll_counts {f : List LaunchRecord → Loop α}
    (hf : ∀ h' d' records, d'.Bills records →
      (f records).Safe machine costOutline (fun _ _ _ => True) h' d') :
    (perform .loadAll >>= f).Safe machine costOutline (fun _ _ _ => True) h d := by
  refine (plainly (A := fun _ => True) fun _ _ _ _ => trivial).any trivial ?_
  intro d₁ records d' _ _ hd₁ hok hd'
  obtain ⟨rfl, hbills⟩ := bills_of_loadAll hd₁ hok hd'
  exact ⟨hd₁, trivial, hf _ _ _ hbills⟩

lemma recover_counts : (recover config).Safe machine costOutline (fun _ _ _ => True) h d := by
  refine loadAll_counts fun h' d' records hbills => ?_
  refine (recoverEach_counts hbills).bind (fun _ _ running _ => ?_) fun _ _ e => e.elim
  show Proc.Safe _ _ _ (if running = [] then _ else _) _ _
  split <;> trivial

lemma resetEach_counts {records : List LaunchRecord} (hbills : d.Bills records) :
    (resetEach records).Safe machine costOutline (fun _ _ _ => True) h d := by
  induction records generalizing h d with
  | nil => trivial
  | cons record rest ih =>
    show Proc.Safe _ _ _ (if 0 < record.releaseFailures then _ else _) _ _
    split
    · have hpaid : d.Paid record.sessionId record.costRecorded := by
        refine ⟨hbills.made record List.mem_cons_self, fun hmarked => ?_⟩
        rw [hbills.rows record List.mem_cons_self, if_pos hmarked]
      refine (entries record.sessionId record.costRecorded).call ⟨rfl, id⟩ hpaid ?_
      exact fun _ _ _ _ _ _ _ _ _ hkeeps => ih (hbills.beside hkeeps.toBeside)
    · exact ih hbills.tail

lemma sweepTerminal_uses : sweepTerminal.Uses Op.Plain := by
  refine Proc.uses_bind (uses_perform trivial) fun runs => ?_
  induction runs with
  | nil => trivial
  | cons session rest ih =>
    refine Proc.uses_bind (uses_perform trivial) fun record => ?_
    refine Proc.uses_ite (Proc.uses_bind (uses_perform trivial) fun terminal => ?_) ih
    exact Proc.uses_ite (Proc.uses_bind (uses_perform trivial) fun _ => ih) ih

end Recovery

/-! ### Work -/

section Work

variable {session : String} {h : List (Called driver)} {d d' : Host} {config : Config}
  {launch : Launch} {lease : Lease} {record : LaunchRecord} {ticks : Nat}

lemma lookAtStop_uses (watch : Watch) : watch.lookAtStop.Uses Op.Aside :=
  Proc.uses_ite (Proc.uses_bind (uses_perform trivial) fun _ => trivial) trivial

lemma signal_uses (watch : Watch) (now : Int) : (watch.signal config now).Uses Op.Aside := by
  unfold Watch.signal
  split
  · trivial
  · exact Proc.uses_bind (uses_perform trivial) fun _ => trivial
  · exact Proc.uses_ite (Proc.uses_bind (uses_perform trivial) fun _ => trivial) trivial

lemma beat_uses (watch : Watch) (now : Int) : (watch.beat launch now).Uses Op.Aside :=
  Proc.uses_ite (Proc.uses_bind (uses_perform trivial) fun _ => trivial) trivial

lemma renewDue_uses (watch : Watch) (now : Int) :
    (renewDue config launch lease watch now).Uses Op.Plain := by
  refine Proc.uses_ite (Proc.uses_bind (uses_perform trivial) fun event => ?_) trivial
  split
  · trivial
  refine Proc.uses_bind (uses_perform trivial) fun renewed => ?_
  rcases renewed with (⟨code, state⟩ | error) | renewed <;> trivial

/-- The wait for a launch changes nothing of costs. -/
lemma superviseFrom_uses (watch : Watch) :
    (superviseFrom config launch lease watch ticks).Uses Op.Plain := by
  induction ticks generalizing lease watch with
  | zero => exact Proc.uses_bind (uses_perform trivial) fun _ => trivial
  | succ ticks ih =>
    refine Proc.uses_bind (uses_perform trivial) fun exited => ?_
    cases exited with
    | some code => trivial
    | none =>
      refine Proc.uses_bind (uses_perform trivial) fun now => ?_
      refine Proc.uses_bind ((beat_uses watch now).mono fun _ => Op.Aside.plain) fun watch => ?_
      refine Proc.uses_bind ?_ fun watch => ?_
      · refine (Proc.uses_bind (lookAtStop_uses watch) fun watch => ?_).mono fun _ => Op.Aside.plain
        exact signal_uses watch now
      refine Proc.uses_bind (renewDue_uses watch now) fun x => ?_
      exact Proc.uses_bind (uses_perform trivial) fun _ => ih x.2

lemma supervise_uses : (supervise config launch lease ticks).Uses Op.Plain :=
  Proc.uses_bind (uses_perform trivial) fun now => superviseFrom_uses (.new now lease)

/-- The launch has run or failed, and its record does not say that it is counted. -/
def Uncounted (session : String) (d : Host) (_ : List (Called driver)) (d' : Host)
    (r : Except Empty (Except String Ended × LaunchRecord)) : Prop :=
  Keeps session d d' ∧ ∀ x, r = .ok x → x.2.sessionId = session ∧ x.2.costRecorded = false

lemma runClaimed_counts (hrecord : record.sessionId = session)
    (hunmarked : record.costRecorded = false) (hpaid : d.Paid session false) :
    (runClaimed config launch record lease ticks).Safe machine costOutline (Uncounted session d)
      h d := by
  have hplain {op : Op} (hop : op.Plain) : op.Entry session false := hop.entry
  have hreturn {h' : List (Called driver)} {d' : Host} {result : Except String Ended}
      {record' : LaunchRecord} (hkeeps : Keeps session d d') (hsession : record'.sessionId = session)
      (hunmarked' : record'.costRecorded = false) :
      Uncounted session d h' d' (.ok (result, record')) := by
    refine ⟨hkeeps, ?_⟩
    rintro _ ⟨⟩
    exact ⟨hsession, hunmarked'⟩
  refine (entries session false).uses_bind (fun _ _ e => e.elim)
    (prepareClaimed_uses.mono fun _ hop => hop.plain.entry) hpaid ?_
  intro h₁ d₁ prepared _ hpaid₁ hkeeps₁
  rcases prepared with error | _
  · exact hreturn hkeeps₁ hrecord hunmarked
  refine (entries session false).call (hplain trivial) hpaid₁ ?_
  intro _ started d₂ _ _ _ _ hpaid₂ _ hkeeps₂
  have hkeeps₂ := hkeeps₁.trans hkeeps₂
  rcases started with error | ⟨pid, start⟩
  · exact hreturn hkeeps₂ hrecord hunmarked
  have hentry : Op.Entry session false (.save (record.spawned pid start)) :=
    ⟨hrecord, fun hmarked => absurd (hunmarked.symm.trans hmarked) Bool.false_ne_true⟩
  refine (entries session false).call hentry hpaid₂ fun _ saved d₃ _ _ _ _ hpaid₃ _ hkeeps₃ => ?_
  refine (entries session false).uses_bind (p := supervise config launch lease ticks)
    (fun _ _ e => e.elim) (supervise_uses.mono fun _ => Op.Plain.entry) hpaid₃ ?_
  intro h₄ d₄ ended _ _ hkeeps₄
  exact hreturn ((hkeeps₂.trans hkeeps₃).trans hkeeps₄) hrecord hunmarked

lemma runRecorded_counts {saved : Except String Unit} (hrecord : record.sessionId = session)
    (hunmarked : record.costRecorded = false) (hpaid : d.Paid session false) :
    (runRecorded config launch record lease ticks saved).Safe machine costOutline
      (Uncounted session d) h d := by
  rcases saved with error | _
  · refine ⟨(Alike.refl d).keeps session, ?_⟩
    rintro _ ⟨⟩
    exact ⟨hrecord, hunmarked⟩
  · exact runClaimed_counts hrecord hunmarked hpaid

lemma submitted_uses (result : Except String Ended) :
    (submitted launch record result).Uses Op.Plain := by
  cases result with
  | error _ => trivial
  | ok _ => exact Proc.uses_ite trivial (Proc.uses_bind (uses_perform trivial) fun _ => trivial)

/-- An attempt may be settled once its launch is counted. -/
lemma settleAttempt_uses {result : Except String Ended} {cost : String}
    (hrecord : record.sessionId = session) :
    (settleAttempt launch record result cost).Uses (Op.Entry session true) := by
  have hplain {op : Op} (hop : op.Plain) : op.Entry session true := hop.entry
  refine Proc.uses_bind ((submitted_uses result).mono fun _ => Op.Plain.entry) fun found => ?_
  refine Proc.uses_ite ?_ ?_
  · refine Proc.uses_bind ?_ fun _ => uses_perform (hplain trivial)
    exact Proc.uses_bind (uses_perform ⟨hrecord, fun _ => rfl⟩) fun _ => trivial
  · refine Proc.uses_bind ((evidence_uses result).mono fun _ hop => hop.plain.entry) fun text => ?_
    refine Proc.uses_bind ?_ fun _ => trivial
    refine Proc.uses_bind (uses_perform (hplain trivial)) fun released => ?_
    refine Proc.uses_bind (uses_perform ?_) fun _ => trivial
    cases released <;> exact ⟨hrecord, fun _ => rfl⟩

/-- A launch that was claimed is counted in the end. -/
lemma workClaimed_counts (hlaunch : launch.sessionId = session) (hmade : session ∈ d.sessions)
    (hrows : d.rows .implementer session = 0) :
    (workClaimed config launch lease ticks).Safe machine costOutline
      (fun _ d' _ => d'.Paid session true) h d := by
  have hplain {op : Op} (hop : op.Plain) : op.Entry session false := hop.entry
  have hpaid : d.Paid session false := ⟨hmade, by rintro ⟨⟩⟩
  refine (entries session false).call (hplain trivial) hpaid ?_
  intro _ boot d₁ _ _ _ _ hpaid₁ _ hkeeps₁
  refine (entries session false).call (hplain trivial) hpaid₁ ?_
  intro _ now d₂ _ _ _ _ hpaid₂ _ hkeeps₂
  have hentry : Op.Entry session false (.save (.new launch lease boot now)) :=
    ⟨hlaunch, by rintro ⟨⟩⟩
  refine (entries session false).call hentry hpaid₂ fun _ saved d₃ _ _ _ _ hpaid₃ _ hkeeps₃ => ?_
  refine (runRecorded_counts hlaunch rfl hpaid₃).bind ?_ fun _ _ e => e.elim
  rintro h₄ d₄ ⟨result, record⟩ ⟨hkeeps₄, huncounted⟩
  obtain ⟨hsession, hunmarked⟩ := huncounted _ rfl
  have hkeeps := ((hkeeps₁.trans hkeeps₂).trans hkeeps₃).trans hkeeps₄
  have hrows₄ : d₄.rows .implementer session = if record.costRecorded then 1 else 0 := by
    rw [hunmarked]
    exact hkeeps.own.trans hrows
  refine (settleCost_counts hlaunch hsession (hkeeps.sessions hmade) hrows₄).bind ?_
    fun _ _ e => e.elim
  rintro h₅ d₅ ⟨record', cost⟩ ⟨hcounts, hsettled⟩
  obtain ⟨hsession', -⟩ := hsettled _ rfl
  refine (entries session true).uses_bind (fun _ _ e => e.elim) (settleAttempt_uses hsession')
    hcounts.paid ?_
  exact fun _ _ _ _ hpaid₆ _ => hpaid₆

/-- A record of the launch stands only if the launch is counted. -/
def Host.Removable (session : String) (d : Host) : Prop :=
  (d.records.get? session).isSome → d.rows .implementer session = 1

lemma Host.Removable.alike (hd : d.Removable session) (hd' : Alike d d') :
    d'.Removable session := by
  intro hsome
  rw [hd'.records] at hsome
  exact hd'.rows.trans (hd hsome)

lemma work_counts (hlaunch : launch.sessionId = session) (hmade : session ∈ d.sessions)
    (hrows : d.rows .implementer session = 0) (hnone : d.records.get? session = none) :
    (work config launch ticks).Safe machine costOutline (fun _ d' _ => d'.Removable session)
      h d := by
  have hframing := plainly (A := fun d₁ => Alike d d₁) fun _ _ => Alike.trans
  have hfailed {d' : Host} (halike : Alike d d') : d'.Removable session := by
    refine Host.Removable.alike (fun hsome => ?_) halike
    rw [hnone] at hsome
    cases hsome
  refine hframing.call trivial (.refl d) fun _ created d₁ _ _ _ _ halike₁ _ _ => ?_
  rcases created with error | _
  · exact hfailed halike₁
  refine hframing.call trivial halike₁ fun _ stopping d₂ _ _ _ _ halike₂ _ _ => ?_
  show Proc.Safe _ _ _ (if stopping = true then _ else _) _ _
  split
  · exact hfailed halike₂
  refine hframing.call trivial halike₂ fun _ claimed d₃ _ _ _ _ halike₃ _ _ => ?_
  rcases claimed with error | lease
  · exact hfailed halike₃
  refine (workClaimed_counts hlaunch (halike₃.sessions hmade) (halike₃.rows.trans hrows)).mono ?_
  exact fun _ _ _ hpaid _ => hpaid.counted rfl

lemma removeFinished_plain : (removeFinished launch).Uses Op.Plain := by
  refine Proc.uses_bind ((terminal_uses _).mono fun _ => Op.Aside.plain) fun terminal => ?_
  exact Proc.uses_ite trivial (Proc.uses_bind (uses_perform trivial) fun _ => trivial)

lemma removeSettled_counts (hremovable : d.Removable launch.sessionId) :
    (removeSettled launch).Safe machine costOutline (fun _ _ _ => True) h d := by
  have hframing := plainly (A := Host.Removable launch.sessionId) fun _ _ => Host.Removable.alike
  refine hframing.uses_bind (fun _ _ e => e.elim) removeFinished_plain hremovable ?_
  intro h₁ d₁ removed _ hremovable₁ _
  split
  · exact safe_due (fun _ _ => Host.Removable.alike) hremovable₁ (fun _ hd => hd)
      fun _ _ _ _ _ _ => trivial
  · trivial

lemma finish_counts {result : Except String Int} (hremovable : d.Removable launch.sessionId) :
    (finish launch result).Safe machine costOutline (fun _ _ _ => True) h d := by
  have hframing := plainly (A := Host.Removable launch.sessionId) fun _ _ => Host.Removable.alike
  refine hframing.call trivial hremovable fun _ record d₁ _ _ _ _ hremovable₁ _ _ => ?_
  simp only [Proc.bind]
  split
  · trivial
  · exact (removeSettled_counts hremovable₁).bind (fun _ _ _ _ => trivial) fun _ _ e => e.elim

end Work

/-! ### Reviews -/

section Reviews

variable {session : String} {h : List (Called driver)} {d d' : Host} {config : Config}
  {launch : ReviewLaunch}

lemma Host.Accounted.alike (hd : d.Accounted session) (hd' : Alike d d') :
    d'.Accounted session := by
  intro hwrote
  rw [hd'.wrote] at hwrote
  exact hd'.rows.trans (hd hwrote)

/-- What a look at the ledger tells. -/
lemma eq_of_recorded {found : Bool} {role : Role}
    (hd' : d' ∈ effects d (.recorded role session) found) :
    d' = d ∧ (found = true ↔ d.rows role session ≠ 0) := by
  change d' ∈ (if found = d.ledger.any fun row => row.role = role ∧ row.session = session
    then [d] else []) at hd'
  split at hd'
  · rename_i hfound
    refine ⟨List.mem_singleton.1 hd', ?_⟩
    rw [hfound, Host.rows, List.any_eq_true]
    exact List.countP_pos_iff.symm.trans Nat.pos_iff_ne_zero
  · cases hd'

/-- What was read of a reviewer launch: it has written what was found, and it is accounted for if
nothing was. -/
def Host.Found (session : String) (events : Option Digest) (d : Host) : Prop :=
  if events.isSome then session ∈ d.wrote else d.Accounted session

lemma Host.Found.alike {events : Option Digest} (hd : d.Found session events) (hd' : Alike d d') :
    d'.Found session events := by
  unfold Host.Found at hd ⊢
  split
  · rw [if_pos ‹_›] at hd
    exact hd'.wrote ▸ hd
  · rw [if_neg ‹_›] at hd
    exact hd.alike hd'

/-- What a look at the events tells. -/
lemma found_of_reviewEvents {events : Option Digest} (hd : d.Counted)
    (hok : Billed.call h d (.reviewEvents session) events)
    (hd' : d' ∈ effects d (.reviewEvents session) events) : d' = d ∧ d.Found session events := by
  cases events with
  | none =>
    refine ⟨List.mem_singleton.1 hd', fun hwrote => ?_⟩
    exact hd.gone session hwrote hok
  | some digest =>
    change d' ∈ (if session ∈ d.reviewEvents then [d] else []) at hd'
    split at hd'
    · exact ⟨List.mem_singleton.1 hd', hd.kept session ‹_›⟩
    · cases hd'

lemma settleReview_counts {events : Option Digest} {now : Int}
    (hfound : d.Found launch.session events) :
    (settleReview launch events now).Safe machine costOutline
      (fun _ d' r => r = .ok true → d'.Accounted launch.session) h d := by
  rcases events with _ | digest
  · exact fun _ => hfound
  have hframing := plainly (A := Host.Found launch.session (some digest)) fun _ _ => Host.Found.alike
  refine hframing.any hfound fun d₁ found d₂ hfound₁ _ hd₁ _ hd₂ => ?_
  obtain ⟨rfl, hrows⟩ := eq_of_recorded hd₂
  refine ⟨hd₁, trivial, ?_⟩
  cases found with
  | true =>
    intro _ _
    have hone := hd₁.once .reviewer launch.session
    have hnonzero := hrows.1 rfl
    omega
  | false =>
    have hzero : d₂.rows .reviewer launch.session = 0 :=
      Decidable.not_not.1 fun h => Bool.false_ne_true (hrows.2 h)
    refine safe_due (A := fun d => d.Found launch.session (some digest) ∧
      d.rows .reviewer launch.session = 0) (fun _ _ h hd' => ⟨h.1.alike hd', hd'.rows.trans h.2⟩)
      ⟨hfound₁, hzero⟩ (fun _ hA => ⟨hA.2, (by rintro ⟨⟩), fun _ => hA.1⟩) ?_
    rintro d₃ appended d₄ ⟨-, hzero⟩ - hd₄
    cases appended with
    | ok _ =>
      intro _ _
      obtain rfl := List.mem_singleton.1 hd₄
      rw [Host.rows_appended, hzero, if_pos ⟨rfl, rfl⟩]
    | error _ => rintro ⟨⟩

/-- A review record goes once the launch is accounted for. -/
lemma endReview_counts {events : Option Digest} {now : Int}
    (hfound : d.Found launch.session events) :
    (endReview launch events now).Safe machine costOutline (fun _ _ _ => True) h d := by
  refine (settleReview_counts hfound).bind ?_ fun _ _ e => e.elim
  intro h₁ d₁ settled haccounted
  cases settled with
  | false => trivial
  | true =>
    refine safe_due (fun _ _ => Host.Accounted.alike) (haccounted rfl) (fun _ hd => hd) ?_
    intro d₂ _ d₃ haccounted₂ _ hd₃
    have haccounted₃ : d₃.Accounted launch.session := by
      simp only [effects, List.mem_cons, List.not_mem_nil, or_false] at hd₃
      rcases hd₃ with rfl | rfl <;> exact haccounted₂
    exact safe_due (fun _ _ => Host.Accounted.alike) haccounted₃ (fun _ hd => hd)
      fun _ _ _ _ _ _ => trivial

/-- The events of a reviewer launch are read and the launch is ended. -/
lemma reviewEvents_counts {f : Option Digest → Loop α} (hf : ∀ h' d' events,
      d'.Found session events → (f events).Safe machine costOutline (fun _ _ _ => True) h' d') :
    (perform (.reviewEvents session) >>= f).Safe machine costOutline (fun _ _ _ => True) h d := by
  refine (plainly (A := fun _ => True) fun _ _ _ _ => trivial).any trivial ?_
  intro d₁ events d₂ _ _ hd₁ hok hd₂
  obtain ⟨rfl, hfound⟩ := found_of_reviewEvents hd₁ hok hd₂
  exact ⟨hd₁, trivial, hf _ _ _ hfound⟩

lemma recoverReviewEach_counts {boot : String} {now : Int} {launches : List ReviewLaunch} :
    (recoverReviewEach boot now launches).Safe machine costOutline (fun _ _ _ => True) h d := by
  induction launches generalizing h d with
  | nil => trivial
  | cons launch rest ih =>
    unfold recoverReviewEach
    split
    · exact ih
    · refine reviewEvents_counts fun h₁ d₁ events hfound => ?_
      exact (endReview_counts hfound).bind (fun _ _ _ _ => ih) fun _ _ e => e.elim

lemma recoverReviews_counts :
    recoverReviews.Safe machine costOutline (fun _ _ _ => True) h d := by
  have hframing := plainly (A := fun _ => True) fun _ _ _ _ => trivial
  refine hframing.call trivial trivial fun _ boot d₁ _ _ _ _ _ _ _ => ?_
  refine hframing.call trivial trivial fun _ now d₂ _ _ _ _ _ _ _ => ?_
  exact hframing.call trivial trivial fun _ launches d₃ _ _ _ _ _ _ _ => recoverReviewEach_counts

/-- The session is one that was made, for a reviewer launch whose record still stands. -/
structure Host.Reviewing (session : String) (d : Host) : Prop where
  made : session ∈ d.sessions
  standing : (.reviewer, session) ∉ d.removed

lemma Host.Reviewing.alike (hd : d.Reviewing session) (hd' : Alike d d') : d'.Reviewing session :=
  ⟨hd'.sessions hd.made, hd'.removed ▸ hd.standing⟩

lemma endRead_counts (launch : ReviewLaunch) (output : Except String String) :
    (do
      let events ← perform (.reviewEvents launch.session)
      let now ← perform .nowMs
      endReview launch events now
      return output : Loop (Except String String)).Safe machine costOutline (fun _ _ _ => True)
      h d := by
  refine reviewEvents_counts fun h₁ d₁ events hfound => ?_
  refine (plainly fun _ _ => Host.Found.alike).call trivial hfound ?_
  intro _ now d₂ _ _ _ _ hfound₂ _ _
  exact (endReview_counts hfound₂).bind (fun _ _ _ _ => trivial) fun _ _ e => e.elim

lemma runReviewer_counts {review : Review} {attempt : String} (hreviewing : d.Reviewing session) :
    (runReviewer config review attempt session).Safe machine costOutline (fun _ _ _ => True)
      h d := by
  have hframing := plainly (A := Host.Reviewing session) fun _ _ => Host.Reviewing.alike
  refine hframing.call trivial hreviewing fun _ project d₁ _ _ _ _ hreviewing₁ _ _ => ?_
  refine hframing.call trivial hreviewing₁ fun _ bootId d₂ _ _ _ _ hreviewing₂ _ _ => ?_
  refine hframing.call trivial hreviewing₂ fun _ recordedMs d₃ _ _ _ _ hreviewing₃ _ _ => ?_
  refine safe_due (fun _ _ => Host.Reviewing.alike) hreviewing₃ (fun _ hd => hd.made) ?_
  intro d₄ saved d₅ hreviewing₄ _ hd₅
  have hreviewing₅ : d₅.Reviewing session := by
    rcases saved with error | _
    · simp only [effects, List.mem_cons, List.not_mem_nil, or_false] at hd₅
      rcases hd₅ with rfl | rfl
      · exact hreviewing₄
      · exact ⟨hreviewing₄.made, hreviewing₄.standing⟩
    · obtain rfl := List.mem_singleton.1 hd₅
      exact ⟨hreviewing₄.made, hreviewing₄.standing⟩
  rcases saved with error | _
  · exact endRead_counts ⟨session, project, review.subject, review.activity, attempt,
      config.vendor, bootId, recordedMs⟩ _
  · refine safe_due (fun _ _ => Host.Reviewing.alike) hreviewing₅ (fun _ hd => hd.standing) ?_
    intro _ output _ _ _ _
    exact endRead_counts ⟨session, project, review.subject, review.activity, attempt,
      config.vendor, bootId, recordedMs⟩ output

/-- A session is made that is new. -/
lemma newSession_counts {f : String → Loop α} (hf : ∀ h' d' session, session ∈ d'.sessions →
      d'.rows .implementer session = 0 → d'.records.get? session = none →
      (.reviewer, session) ∉ d'.removed →
        (f session).Safe machine costOutline (fun _ _ _ => True) h' d') :
    (perform .newSession >>= f).Safe machine costOutline (fun _ _ _ => True) h d := by
  refine (plainly (A := fun _ => True) fun _ _ _ _ => trivial).any trivial ?_
  intro d₁ session d₂ _ _ hd₁ _ hd₂
  have hplain : Op.Plain .newSession := trivial
  have halike : Alike d₁ d₂ := .plain hplain hd₂
  obtain ⟨hfresh, hmade⟩ := made_of_newSession hd₂
  refine ⟨halike.counted hd₁, trivial, hf _ _ _ hmade ?_ ?_ ?_⟩
  · rw [halike.rows]
    exact Decidable.not_not.1 fun hrows => hfresh (hd₁.counted session hrows)
  · rw [halike.records, Table.get?_eq_none_iff]
    intro hkey
    obtain ⟨record, hrecord, rfl⟩ := List.mem_map.1 hkey
    exact hfresh (hd₁.records record hrecord)
  · rw [halike.removed]
    exact fun hremoved => hfresh (hd₁.reviewed session hremoved)

lemma review_counts : (review config).Safe machine costOutline (fun _ _ _ => True) h d := by
  have hframing := plainly (A := fun _ => True) fun _ _ _ _ => trivial
  refine hframing.call trivial trivial fun _ offered d₁ _ _ _ _ _ _ _ => ?_
  rcases offered with _ | offered
  · trivial
  refine newSession_counts fun h₂ d₂ session hmade _ _ hstanding => ?_
  have hreviewing : d₂.Reviewing session := ⟨hmade, hstanding⟩
  refine (plainly fun _ _ => Host.Reviewing.alike).call trivial hreviewing ?_
  intro _ claimed d₃ _ _ _ _ hreviewing₃ _ _
  rcases claimed with error | attempt
  · trivial
  refine (runReviewer_counts hreviewing₃).bind ?_ fun _ _ e => e.elim
  intro h₄ d₄ output _
  refine hframing.uses ?_ trivial fun _ _ _ _ _ _ => trivial
  refine Proc.uses_bind (orFail_uses fun _ => uses_perform trivial) fun decided => ?_
  rcases decided with error | _
  · exact Proc.uses_bind (uses_perform trivial) fun _ => trivial
  · trivial

lemma reviewCapped_counts :
    (reviewCapped config).Safe machine costOutline (fun _ _ _ => True) h d := by
  have hframing := plainly (A := fun _ => True) fun _ _ _ _ => trivial
  refine hframing.call trivial trivial fun _ capped d₁ _ _ _ _ _ _ _ => ?_
  rcases capped with _ | _
  · trivial
  refine hframing.call trivial trivial fun _ reviewer d₂ _ _ _ _ _ _ _ => ?_
  show Proc.Safe _ _ _ (if reviewer = true then _ else _) _ _
  split
  · exact review_counts
  · trivial

lemma reviewHook_counts :
    (reviewHook config).Safe machine costOutline (fun _ _ _ => True) h d := by
  have hframing := plainly (A := fun _ => True) fun _ _ _ _ => trivial
  refine hframing.call trivial trivial fun _ reviewer d₁ _ _ _ _ _ _ _ => ?_
  simp only [Proc.bind]
  split
  · exact recoverReviews_counts.bind (fun _ _ _ _ => reviewCapped_counts) fun _ _ e => e.elim
  · exact reviewCapped_counts

lemma reviewEach_counts {projects : List String} :
    (reviewEach config projects).Safe machine costOutline (fun _ _ _ => True) h d := by
  have hframing := plainly (A := fun _ => True) fun _ _ _ _ => trivial
  induction projects generalizing h d with
  | nil => trivial
  | cons project rest ih =>
    refine hframing.call trivial trivial fun _ _ d₁ _ _ _ _ _ _ _ => ?_
    exact reviewHook_counts.bind (fun _ _ _ _ => ih) fun _ _ e => e.elim

end Reviews

/-! ### Polls -/

section Polls

variable {h : List (Called driver)} {d d' : Host} {config : Config} {vendor : Vendor}
  {ticks : Nat}

/-- The plain operations of a poll. -/
lemma anywhere : Framing machine costOutline Op.Plain (fun _ => True) Alike :=
  plainly fun _ _ _ _ => trivial

lemma nextEach_counts {exclude projects : List String} {failure : Option String}
    {skipped : List String} :
    (nextEach config vendor exclude ticks projects failure skipped).Safe machine costOutline
      (fun _ _ _ => True) h d := by
  induction projects generalizing h d failure skipped with
  | nil => trivial
  | cons project rest ih =>
    refine anywhere.call trivial trivial fun _ _ d₁ _ _ _ _ _ _ _ => ?_
    refine anywhere.call trivial trivial fun _ next d₂ _ _ _ _ _ _ _ => ?_
    rcases next with error | ⟨suggestion, excluded⟩
    · exact ih
    rcases suggestion with _ | suggestion
    · exact ih
    refine anywhere.call trivial trivial fun _ hold d₃ _ _ _ _ _ _ _ => ?_
    show Proc.Safe _ _ _ (if hold.isSome = true then _ else _) _ _
    split
    · exact ih
    refine newSession_counts fun h₄ d₄ session hmade hrows hnone _ => ?_
    refine (work_counts rfl hmade hrows hnone).bind ?_ fun _ _ e => e.elim
    intro h₅ d₅ result hremovable
    exact (finish_counts hremovable).bind (fun _ _ _ _ => trivial) fun _ _ e => e.elim

lemma iterateNext_counts {projects : List String} {main : String} :
    (iterateNext config vendor projects main ticks).Safe machine costOutline (fun _ _ _ => True)
      h d := by
  refine anywhere.call trivial trivial fun _ exclude d₁ _ _ _ _ _ _ _ => ?_
  refine nextEach_counts.bind ?_ fun _ _ e => e.elim
  intro h₂ d₂ left _
  refine anywhere.call trivial trivial fun _ _ d₃ _ _ _ _ _ _ _ => ?_
  rcases left with outcome | ⟨_ | failure, _ | skipped⟩ <;> trivial

lemma iterateAdmitted_counts {projects : List String} {main : String} :
    (iterateAdmitted config vendor projects main ticks).Safe machine costOutline
      (fun _ _ _ => True) h d := by
  unfold iterateAdmitted
  split
  · exact reviewEach_counts.bind (fun _ _ _ _ => iterateNext_counts) fun _ _ e => e.elim
  · exact iterateNext_counts

lemma iterate_counts :
    (iterate config ticks).Safe machine costOutline (fun _ _ _ => True) h d := by
  refine anywhere.call trivial trivial fun _ projects d₁ _ _ _ _ _ _ _ => ?_
  refine anywhere.call trivial trivial fun _ _ d₂ _ _ _ _ _ _ _ => ?_
  refine recover_counts.bind ?_ fun _ _ e => e.elim
  intro h₃ d₃ refused _
  rcases refused with _ | reason
  · refine anywhere.call trivial trivial fun _ _ d₄ _ _ _ _ _ _ _ => ?_
    refine anywhere.call trivial trivial fun _ admitted d₅ _ _ _ _ _ _ _ => ?_
    rcases admitted with reason | vendor
    · trivial
    · exact iterateAdmitted_counts
  · trivial

lemma pollFrom_counts {once : Bool} {iteration polls : Nat} :
    (pollFrom config once ticks iteration polls).Safe machine costOutline (fun _ _ _ => True)
      h d := by
  induction polls generalizing h d iteration with
  | zero => exact anywhere.uses (uses_perform trivial) trivial fun _ _ _ _ _ _ => trivial
  | succ polls ih =>
    refine iterate_counts.bind ?_ fun _ _ e => e.elim
    intro h₁ d₁ outcome _
    refine anywhere.call trivial trivial fun _ _ d₂ _ _ _ _ _ _ _ => ?_
    refine anywhere.call trivial trivial fun _ _ d₃ _ _ _ _ _ _ _ => ?_
    show Proc.Safe _ _ _ (if once = true then _ else _) _ _
    split
    · trivial
    refine anywhere.uses_bind (fun _ _ e => e.elim) ((idle_uses _).mono fun _ => Op.Aside.plain)
      trivial ?_
    intro h₄ d₄ stopped _ _ _
    cases stopped with
    | true => trivial
    | false => exact ih

lemma run_counts {once : Bool} {polls : Nat} :
    (run config once polls ticks).Safe machine costOutline (fun _ _ _ => True) h d := by
  refine anywhere.uses_bind (fun _ _ e => e.elim) sweepTerminal_uses trivial ?_
  intro h₁ d₁ _ _ _ _
  refine Proc.Safe.bind (Q := fun _ _ _ => True) ?_ ?_ fun _ _ e => e.elim
  · exact loadAll_counts fun _ _ _ hbills => resetEach_counts hbills
  · exact fun _ _ _ _ => pollFrom_counts

end Polls

/-! ### Runs -/

/-- The supervisor keeps to the outline. -/
theorem costOutline_valid : costOutline.Valid machine where
  procedure request d _ := run_counts
  others d d' hd hends := (Alike.ends hends).counted hd
  ends _ _ _ _ _ _ _ := trivial
  crash d d' hd _ hd' := by
    simp only [machine, List.mem_cons, List.not_mem_nil, or_false] at hd'
    rcases hd' with rfl | rfl
    · exact hd
    · have halike : Alike d d.rebooted := ⟨rfl, rfl, rfl, rfl, rfl, rfl, List.Subset.refl _⟩
      exact halike.counted hd

lemma Host.Fresh.counted {d : Host} (hd : d.Fresh) : d.Counted := by
  have hrows : ∀ role session, d.rows role session = 0 := by
    intro role session
    rw [Host.rows, hd.ledger, List.countP_nil]
  refine ⟨⟨fun _ _ => hrows _ _ ▸ Nat.zero_le 1, ?_, ?_⟩, ?_, ?_, ?_, ?_, ?_, ?_, ?_, ?_⟩
  all_goals simp [hrows, hd.records, hd.reviews, hd.removed, hd.wrote, hd.reviewEvents]

/-- The ledger never holds two rows for a launch, and once its record is removed it holds one, or
none for a reviewer launch that wrote no events. -/
theorem counted_once {x : Host × Option (Running driver Empty Request Unit)}
    (hx : machine.program.ReachableBy Billed.Holds Host.Fresh x) : x.1.CountedOnce :=
  (costOutline_valid.inv (fun _ => Host.Fresh.counted) hx).toCountedOnce

/-! ### A row that is not written -/

/-- No record that does not say so is of a launch that is counted. -/
def Host.billed (d : Host) : Bool :=
  d.records.rows.all fun record =>
    record.costRecorded || d.rows .implementer record.sessionId == 0

/-- The ledger can be written or not. -/
def billing (appended : Except String Unit) : Nat → Plays Host driver :=
  world Host.billed appended 0

/-- A launch is spawned and ends, and the supervisor goes on. -/
def launchEnds (plays : Nat → Plays Host driver) :
    Option (Host × Option (Running driver Empty Request Unit)) :=
  (machine.play plays 22 0 fresh started).bind fun x => x.2.bind fun run =>
    if first ∈ x.1.processes then
      machine.play plays 40 22 { x.1 with processes := x.1.processes.erase first } run
    else none

lemma reachable_of_launchEnds {c : Condition Host driver} {plays : Nat → Plays Host driver}
    {x : Host × Option (Running driver Empty Request Unit)} (hx : launchEnds plays = some x)
    (hplays : ∀ k, machine.Admits c (plays k)) :
    machine.program.ReachableBy c.Holds Host.Fresh x := by
  obtain ⟨⟨d, s⟩, hplay, hx⟩ := Option.bind_eq_some_iff.1 hx
  obtain ⟨run, rfl, hx⟩ := Option.bind_eq_some_iff.1 hx
  split at hx
  · rename_i hrunning
    have hstart : machine.program.ReachableBy c.Holds Host.Fresh (fresh, some started) :=
      (Program.ReachableBy.start ⟨rfl, rfl, rfl, rfl, rfl, rfl, rfl, rfl⟩).step
        (.work (.start onePoll)) trivial
    have hreach := Machine.reachable_of_play hplay hplays hstart
    exact Machine.reachable_of_play hx hplays (hreach.step (.others ⟨first, hrunning, rfl⟩) trivial)
  · cases hx

/-- The ledger cannot be written when a launch has ended. Its record says that it is counted all
the same, and then it is removed. -/
theorem launch_not_counted : ∃ x, machine.program.Reachable Host.Fresh x ∧ ¬ x.1.CountedOnce := by
  have hplayed : (launchEnds (billing (.error "full"))).map (fun x =>
      (x.1.rows .implementer "s", x.1.removed)) = some (0, [(.implementer, "s")]) := by
    decide +kernel
  obtain ⟨x, hx, hfacts⟩ := Option.map_eq_some_iff.1 hplayed
  obtain ⟨hrows, hremoved⟩ := Prod.mk.inj hfacts
  have hreach : machine.program.ReachableBy Condition.all.Holds Host.Fresh x :=
    reachable_of_launchEnds hx fun _ _ _ _ _ _ => trivial
  refine ⟨x, hreach.reachable, fun hcounted => ?_⟩
  have hone := hcounted.implementer "s" (hremoved ▸ List.mem_cons_self)
  omega

lemma billing_admits (k : Nat) : machine.Admits Billed (billing (.ok ()) k) := by
  intro h d op d' hd'
  cases op with
  | append row => exact fun _ => rfl
  | loadAll =>
    change (effects d .loadAll d.records.rows)[if d.billed then 0 else 1]? = some d' at hd'
    rw [effects, if_pos (List.Perm.refl _)] at hd'
    split at hd'
    · rename_i hbilled
      intro record hrecord hunmarked
      have := List.all_eq_true.1 hbilled record hrecord
      rwa [hunmarked, Bool.false_or, beq_iff_eq] at this
    · cases hd'
  | reviewEvents session =>
    change [d][if session ∈ d.reviewEvents then 1 else 0]? = some d' at hd'
    split at hd'
    · cases hd'
    · assumption
  | _ => trivial

/-- The ledger is written. -/
theorem counted_once_written : ∃ x, launchEnds (billing (.ok ())) = some x ∧ x.1.CountedOnce ∧
    (.implementer, "s") ∈ x.1.removed := by
  have hplayed : (launchEnds (billing (.ok ()))).map (fun x => x.1.removed) =
      some [(.implementer, "s")] := by
    decide +kernel
  obtain ⟨x, hx, hremoved⟩ := Option.map_eq_some_iff.1 hplayed
  exact ⟨x, hx, counted_once (reachable_of_launchEnds hx billing_admits),
    hremoved ▸ List.mem_cons_self⟩

end AgentCoordinator.Supervisor
