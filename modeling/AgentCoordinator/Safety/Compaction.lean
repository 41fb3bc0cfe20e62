import Mathlib.Data.List.Induction
import AgentCoordinator.Retention

/-
What compaction leaves of the observations.

A run with batches is compared with the same run without them. The jobs and the answers are the
same, and so is every row, apart from the summaries that were cleared. A cleared row repeats both of
its neighbours as they were reported, which new rows do not change: so it is neither the first nor
the last of a run of equal observations, and the nearest row before it that was kept says what it
said.
-/

namespace AgentCoordinator

open Guarded Tabular

/-! ### A run without batches -/

/-- The act is no batch. -/
def ReportAct.reports : ReportAct → Bool
  | .batch .. => false
  | _ => true

/-- The row `o` is the reported row `u`, maybe inspected and without its summary. -/
structure Observation.Keeps (o u : Observation) : Prop where
  reporter : o.reporter = u.reporter
  sequence : o.sequence = u.sequence
  requestHash : o.requestHash = u.requestHash
  producer : o.producer = u.producer
  state : o.state = u.state
  pid : o.pid = u.pid
  processStartedAt : o.processStartedAt = u.processStartedAt
  exitCode : o.exitCode = u.exitCode
  inputsUnchanged : o.inputsUnchanged = u.inputsUnchanged
  observedAt : o.observedAt = u.observedAt
  summary : o.payloadCompactedAt = none → o.summary = u.summary
  cleared : o.payloadCompactedAt ≠ none → o.summary = ""

lemma Observation.Keeps.key {o u : Observation} (h : o.Keeps u) : Keyed.key o = Keyed.key u :=
  Prod.ext h.reporter h.sequence

/-- What is kept of a row in any of the two updates of a batch. -/
lemma Observation.Keeps.checked {o u : Observation} (h : o.Keeps u) (now : Time) :
    (o.checked now).Keeps u :=
  ⟨h.reporter, h.sequence, h.requestHash, h.producer, h.state, h.pid, h.processStartedAt,
    h.exitCode, h.inputsUnchanged, h.observedAt, h.summary, h.cleared⟩

lemma Observation.Keeps.compacted {o u : Observation} (h : o.Keeps u) (now : Time) :
    (o.compacted now).Keeps u :=
  ⟨h.reporter, h.sequence, h.requestHash, h.producer, h.state, h.pid, h.processStartedAt,
    h.exitCode, h.inputsUnchanged, h.observedAt, nofun, fun _ => rfl⟩

/-- The two tables have the same rows, apart from what was compacted. -/
def KeepsAll (t t' : Table Observation) : Prop :=
  ∀ k, Option.Rel Observation.Keeps (t.get? k) (t'.get? k)

section Tables

variable {t t' : Table Observation} {o u : Observation}

lemma KeepsAll.exists_reported (h : KeepsAll t t') (ho : o ∈ t) : ∃ u ∈ t', o.Keeps u := by
  have hrel := h (Keyed.key o)
  rw [Table.get?_of_mem ho] at hrel
  cases hu : t'.get? (Keyed.key o) with
  | none => rw [hu] at hrel; cases hrel
  | some u =>
    rw [hu] at hrel
    cases hrel with
    | some hkeeps => exact ⟨u, Table.mem_of_get? hu, hkeeps⟩

lemma KeepsAll.exists_kept (h : KeepsAll t t') (hu : u ∈ t') : ∃ o ∈ t, o.Keeps u := by
  have hrel := h (Keyed.key u)
  rw [Table.get?_of_mem hu] at hrel
  cases ho : t.get? (Keyed.key u) with
  | none => rw [ho] at hrel; cases hrel
  | some o =>
    rw [ho] at hrel
    cases hrel with
    | some hkeeps => exact ⟨o, Table.mem_of_get? ho, hkeeps⟩

/-- Rows with one key in both tables correspond. -/
lemma KeepsAll.keeps (h : KeepsAll t t') (ho : o ∈ t) (hu : u ∈ t')
    (hkey : Keyed.key o = Keyed.key u) : o.Keeps u := by
  obtain ⟨u', hu', hkeeps⟩ := h.exists_reported ho
  have hu'' := Table.get?_of_mem hu
  rw [← hkey, hkeeps.key, Table.get?_of_mem hu', Option.some.injEq] at hu''
  rwa [← hu'']

/-- Neighbours are told by reporter and sequence, which are the same in both tables. -/
lemma KeepsAll.isPrevious (h : KeepsAll t t') {p p' : Observation} (hp : p.Keeps p')
    (ho : o.Keeps u) : IsPrevious t p o ↔ IsPrevious t' p' u := by
  rw [IsPrevious, IsPrevious, hp.reporter, ho.reporter, hp.sequence, ho.sequence]
  refine and_congr_right fun _ => and_congr_right fun _ => ?_
  constructor
  · intro hall q' hq'
    obtain ⟨q, hq, hkeeps⟩ := h.exists_kept hq'
    rw [← hkeeps.reporter, ← hkeeps.sequence]
    exact hall q hq
  · intro hall q hq
    obtain ⟨q', hq', hkeeps⟩ := h.exists_reported hq
    rw [hkeeps.reporter, hkeeps.sequence]
    exact hall q' hq'

lemma KeepsAll.isFollowing (h : KeepsAll t t') {n n' : Observation} (hn : n.Keeps n')
    (ho : o.Keeps u) : IsFollowing t n o ↔ IsFollowing t' n' u := by
  rw [IsFollowing, IsFollowing, hn.reporter, ho.reporter, hn.sequence, ho.sequence]
  refine and_congr_right fun _ => and_congr_right fun _ => ?_
  constructor
  · intro hall q' hq'
    obtain ⟨q, hq, hkeeps⟩ := h.exists_kept hq'
    rw [← hkeeps.reporter, ← hkeeps.sequence]
    exact hall q hq
  · intro hall q hq
    obtain ⟨q', hq', hkeeps⟩ := h.exists_reported hq
    rw [hkeeps.reporter, hkeeps.sequence]
    exact hall q' hq'

/-- A row with a summary repeats another one only as it was reported. -/
lemma Observation.Repeats.reported {p p' : Observation} (h : p.Repeats o) (hp : p.Keeps p')
    (ho : o.Keeps u) (hsummary : o.summary ≠ "") : p'.Repeats u := by
  obtain ⟨hstate, hpid, hstarted, hexit, hinputs, hsame⟩ := h
  have hsummary' : p.summary ≠ "" := by rwa [hsame]
  have hkept : o.payloadCompactedAt = none := by
    by_contra hne
    exact hsummary (ho.cleared hne)
  have hkept' : p.payloadCompactedAt = none := by
    by_contra hne
    exact hsummary' (hp.cleared hne)
  refine ⟨?_, ?_, ?_, ?_, ?_, ?_⟩
  · rw [← hp.state, ← ho.state, hstate]
  · rw [← hp.pid, ← ho.pid, hpid]
  · rw [← hp.processStartedAt, ← ho.processStartedAt, hstarted]
  · rw [← hp.exitCode, ← ho.exitCode, hexit]
  · rw [← hp.inputsUnchanged, ← ho.inputsUnchanged, hinputs]
  · rw [← hp.summary hkept', ← ho.summary hkept, hsame]

/-- An eligible row is between equal rows as they were reported. -/
lemma KeepsAll.betweenEqual (h : KeepsAll t t') (ho : o.Keeps u) (heligible : Eligible t o) :
    u.state = .running ∧ BetweenEqual t' u := by
  obtain ⟨-, hrunning, hsummary, ⟨p, hp, hprevious, hrepeats⟩, n, hn, hfollowing, hrepeats'⟩ :=
    heligible
  obtain ⟨p', hp', hkeeps⟩ := h.exists_reported hp
  obtain ⟨n', hn', hkeeps'⟩ := h.exists_reported hn
  exact ⟨ho.state ▸ hrunning,
    ⟨p', hp', (h.isPrevious hkeeps ho).1 hprevious, hrepeats.reported hkeeps ho hsummary⟩,
    n', hn', (h.isFollowing hkeeps' ho).1 hfollowing, hrepeats'.reported hkeeps' ho hsummary⟩

end Tables

/-! ### The two runs -/

/-- The reports `s` with compaction and the reports `r` without. -/
structure Lossless (s r : ReportDb) : Prop where
  jobs : s.jobs = r.jobs
  rows : KeepsAll s.observations r.observations
  cleared : ∀ o ∈ s.observations, ∀ u ∈ r.observations, o.Keeps u → o.payloadCompactedAt ≠ none →
    u.state = .running ∧ BetweenEqual r.observations u
  owned : ∀ u ∈ r.observations, ∃ j, r.jobs.get? u.reporter = some j ∧
    u.sequence ≤ j.lastSequence ∧ u.producer = j.producer
  positive : ∀ u ∈ r.observations, 0 < u.sequence

section Steps

variable {s r s' : ReportDb} {reporter : Id} {input : ObservationInput} {now : Time}

/-- The acceptance test reads nothing that compaction changes. -/
lemma Lossless.accept (h : Lossless s r) (reporter : Id) (input : ObservationInput) :
    acceptObservation s reporter input = acceptObservation r reporter input := by
  have hreplays : s.replays reporter input = r.replays reporter input := by
    have hrel := h.rows (reporter, input.sequence)
    rw [ReportDb.replays, ReportDb.replays]
    generalize s.observations.get? (reporter, input.sequence) = kept at hrel ⊢
    generalize r.observations.get? (reporter, input.sequence) = reported at hrel ⊢
    cases hrel with
    | none => rfl
    | some hkeeps => rw [Option.any_some, Option.any_some, hkeeps.requestHash]
  have hlaunched : s.launched reporter ↔ r.launched reporter := by
    constructor
    · rintro ⟨o, ho, hreporter, hlaunch⟩
      obtain ⟨u, hu, hkeeps⟩ := h.rows.exists_reported ho
      rw [hkeeps.state, hkeeps.pid, hkeeps.processStartedAt] at hlaunch
      exact ⟨u, hu, hkeeps.reporter ▸ hreporter, hlaunch⟩
    · rintro ⟨u, hu, hreporter, hlaunch⟩
      obtain ⟨o, ho, hkeeps⟩ := h.rows.exists_kept hu
      rw [← hkeeps.state, ← hkeeps.pid, ← hkeeps.processStartedAt] at hlaunch
      exact ⟨o, ho, hkeeps.reporter.trans hreporter, hlaunch⟩
  simp only [acceptObservation, h.jobs, hreplays, hlaunched]

/-- What an accepted observation is about. -/
lemma acceptObservation_ok {accepted : ReportedJob × Bool}
    (h : acceptObservation s reporter input = .ok accepted) :
    s.jobs.get? reporter = some accepted.1 ∧ accepted.1.producer = input.producer ∧
      0 < input.sequence ∧ (accepted.2 = false → accepted.1.lastSequence < input.sequence) := by
  simp only [acceptObservation, bind_eq_ok, okOr_eq_ok, refuseIf_eq_ok] at h
  obtain ⟨_, hvalid, j, hj, -, hproducer, hrest⟩ := h
  have hpositive : 0 < input.sequence := by
    simp only [validateObservation, bind_eq_ok, refuseIf_eq_ok] at hvalid
    obtain ⟨-, hfirst, -⟩ := hvalid
    omega
  rw [not_not] at hproducer
  split_ifs at hrest with hle
  · simp only [bind_eq_ok, refuseIf_eq_ok, pure_eq_ok] at hrest
    obtain ⟨-, -, rfl⟩ := hrest
    exact ⟨hj, hproducer, hpositive, nofun⟩
  · simp only [bind_eq_ok, refuseIf_eq_ok, pure_eq_ok] at hrest
    obtain ⟨-, -, -, -, -, -, rfl⟩ := hrest
    exact ⟨hj, hproducer, hpositive, fun _ => not_le.1 hle⟩

/-- A row that comes after all of its reporter leaves the neighbours of the others. -/
lemma BetweenEqual.insert {t t' : Table Observation} {w u : Observation}
    (hbetween : BetweenEqual t u) (hu : u ∈ t) (ht' : ∀ x, x ∈ t' ↔ x = w ∨ x ∈ t)
    (hlast : ∀ x ∈ t, x.reporter = w.reporter → x.sequence < w.sequence) : BetweenEqual t' u := by
  obtain ⟨⟨p, hp, ⟨hreporter, hlt, hall⟩, hrepeats⟩, n, hn, ⟨hreporter', hlt', hall'⟩, hrepeats'⟩ :=
    hbetween
  refine ⟨⟨p, (ht' p).2 (.inr hp), ⟨hreporter, hlt, ?_⟩, hrepeats⟩,
    n, (ht' n).2 (.inr hn), ⟨hreporter', hlt', ?_⟩, hrepeats'⟩
  · intro q hq hsame hbefore
    rcases (ht' q).1 hq with rfl | hq
    · exact absurd (hlast u hu hsame.symm) (not_lt.2 hbefore.le)
    · exact hall q hq hsame hbefore
  · intro q hq hsame hafter
    rcases (ht' q).1 hq with rfl | hq
    · exact (hlast n hn (hreporter'.trans hsame.symm)).le
    · exact hall' q hq hsame hafter

lemma mem_insert? {t t' : Table Observation} {w : Observation} (h : t.insert? w = some t')
    (x : Observation) : x ∈ t' ↔ x = w ∨ x ∈ t := by
  have hrows := Table.rows_of_insert? h
  constructor
  · intro hx
    have hx' : x ∈ t'.rows := hx
    rw [hrows, List.mem_append, List.mem_singleton] at hx'
    exact hx'.symm
  · intro hx
    have hx' : x ∈ t.rows ++ [w] := by
      rw [List.mem_append, List.mem_singleton]
      exact hx.symm
    rwa [← hrows] at hx'

/-- A new observation is inserted in both tables. -/
lemma Lossless.insert (h : Lossless s r) {j : ReportedJob} (hj : r.jobs.get? reporter = some j)
    (hproducer : j.producer = input.producer) (hpositive : 0 < input.sequence)
    (hnew : j.lastSequence < input.sequence) {t : Table Observation}
    (ht : s.observations.insert? (input.row reporter now) = some t) :
    ∃ t', r.observations.insert? (input.row reporter now) = some t' ∧
      Lossless ⟨s.jobs.put (j.observed input now), t⟩ ⟨r.jobs.put (j.observed input now), t'⟩ := by
  set w := input.row reporter now with hw
  have hfree : r.observations.get? (Keyed.key w) = none := by
    have hrel := h.rows (Keyed.key w)
    rw [(Table.insert?_eq_some ht).1] at hrel
    cases hr : r.observations.get? (Keyed.key w) with
    | none => rfl
    | some u => rw [hr] at hrel; cases hrel
  obtain ⟨t', ht', -⟩ := Table.insert?_of_free hfree
  have hlast : ∀ x ∈ r.observations, x.reporter = w.reporter → x.sequence < w.sequence := by
    intro x hx hsame
    obtain ⟨j', hj', hle, -⟩ := h.owned x hx
    rw [hsame] at hj'
    obtain rfl : j = j' := Option.some.inj (hj.symm.trans hj')
    exact hle.trans_lt hnew
  have hreporter : j.reporter = reporter := Table.key_of_get? hj
  refine ⟨t', ht', ?_, ?_, ?_, ?_, ?_⟩
  · exact congrArg (fun jobs => jobs.put (j.observed input now)) h.jobs
  · intro k
    rw [(Table.insert?_eq_some ht).2, (Table.insert?_eq_some ht').2]
    split_ifs
    · exact .some ⟨rfl, rfl, rfl, rfl, rfl, rfl, rfl, rfl, rfl, rfl, fun _ => rfl,
        fun hne => absurd rfl hne⟩
    · exact h.rows k
  · intro o ho u hu hkeeps hcompacted
    rcases (mem_insert? ht o).1 ho with rfl | ho
    · exact absurd rfl hcompacted
    · rcases (mem_insert? ht' u).1 hu with rfl | hu
      · -- the key of the new row was free
        have hold := Table.get?_of_mem ho
        rw [hkeeps.key, (Table.insert?_eq_some ht).1] at hold
        cases hold
      · obtain ⟨hrunning, hbetween⟩ := h.cleared o ho u hu hkeeps hcompacted
        exact ⟨hrunning, hbetween.insert hu (mem_insert? ht') hlast⟩
  · intro u hu
    simp only [Table.get?_put]
    have hkey : Keyed.key (j.observed input now) = reporter := hreporter
    rw [hkey]
    rcases (mem_insert? ht' u).1 hu with rfl | hu
    · exact ⟨_, if_pos rfl, le_rfl, hproducer.symm⟩
    · obtain ⟨j', hj', hle, hproducer'⟩ := h.owned u hu
      split_ifs with hsame
      · rw [hsame, hj, Option.some.injEq] at hj'
        obtain rfl := hj'
        exact ⟨_, rfl, hle.trans hnew.le, hproducer'⟩
      · exact ⟨j', hj', hle, hproducer'⟩
  · intro u hu
    rcases (mem_insert? ht' u).1 hu with rfl | hu
    · exact hpositive
    · exact h.positive u hu

/-- What the first update of a batch makes of a row. -/
def ReportDb.clear (s : ReportDb) (cutoff now : Time) (limit : Nat) (o : Observation) :
    Observation :=
  if Keyed.key o ∈ s.eligibleKeys cutoff limit then o.compacted now else o

/-- What the second update of a batch makes of a row. -/
def ReportDb.mark (s : ReportDb) (cutoff now : Time) (limit : Nat) (o : Observation) :
    Observation :=
  if Keyed.key o ∈ s.candidateKeys cutoff limit ∧ o.retentionCheckedAt = none then o.checked now
  else o

section Batches

variable {cutoff : Time} {limit : Nat} {o u : Observation} {k : Id × Int}

lemma get?_compactObservations :
    (compactObservations s cutoff now limit).observations.get? k =
      (s.observations.get? k).map fun o =>
        s.mark cutoff now limit (s.clear cutoff now limit o) := by
  rw [compactObservations, Table.get?_modify, Table.get?_modify, Option.map_map]
  rfl

lemma Observation.Keeps.clear (h : o.Keeps u) : (s.clear cutoff now limit o).Keeps u := by
  rw [ReportDb.clear]
  split_ifs
  · exact h.compacted now
  · exact h

lemma Observation.Keeps.mark (h : o.Keeps u) : (s.mark cutoff now limit o).Keeps u := by
  rw [ReportDb.mark]
  split_ifs
  · exact h.checked now
  · exact h

lemma key_clear : Keyed.key (s.clear cutoff now limit o) = Keyed.key o := by
  rw [ReportDb.clear]
  split_ifs <;> rfl

lemma key_mark : Keyed.key (s.mark cutoff now limit o) = Keyed.key o := by
  rw [ReportDb.mark]
  split_ifs <;> rfl

lemma payloadCompactedAt_mark :
    (s.mark cutoff now limit o).payloadCompactedAt = o.payloadCompactedAt := by
  rw [ReportDb.mark]
  split_ifs <;> rfl

/-- A candidate is a row that was not inspected. -/
lemma mem_candidates (h : o ∈ s.candidates cutoff limit) :
    o ∈ s.observations ∧ o.retentionCheckedAt = none := by
  have hsorted := List.mem_of_mem_take h
  rw [List.mem_insertionSort] at hsorted
  obtain ⟨hmem, hnone, -⟩ := Table.mem_filter.1 hsorted
  exact ⟨hmem, hnone⟩

/-- A row that a batch leaves without its summary had lost it before, or is eligible. -/
lemma eligible_of_clear (ho : o ∈ s.observations)
    (h : (s.clear cutoff now limit o).payloadCompactedAt ≠ none) :
    o.payloadCompactedAt ≠ none ∨ Eligible s.observations o := by
  rw [ReportDb.clear] at h
  split_ifs at h with hmem
  · -- the row with this key was a candidate
    obtain ⟨x, hx, hkey⟩ := List.mem_map.1 hmem
    obtain ⟨hcandidate, hx⟩ := List.mem_filter.1 hx
    have hget := Table.get?_of_mem (mem_candidates hcandidate).1
    rw [hkey, Table.get?_of_mem ho, Option.some.injEq] at hget
    rw [hget]
    exact .inr (of_decide_eq_true hx)
  · exact .inl h

end Batches

/-- A batch clears only rows between equal ones, and no other columns than its own. -/
lemma Lossless.batch (h : Lossless s r) (cutoff now : Time) (limit : Nat) :
    Lossless (compactObservations s cutoff now limit) r := by
  refine ⟨h.jobs, ?_, ?_, h.owned, h.positive⟩
  · intro k
    rw [get?_compactObservations]
    have hrel := h.rows k
    generalize s.observations.get? k = kept at hrel ⊢
    generalize r.observations.get? k = reported at hrel ⊢
    cases hrel with
    | none => exact .none
    | some hkeeps => exact .some hkeeps.clear.mark
  · intro o ho u hu hkeeps hcompacted
    have hget := Table.get?_of_mem ho
    rw [get?_compactObservations, Option.map_eq_some_iff] at hget
    obtain ⟨o', ho', rfl⟩ := hget
    have hmem := Table.mem_of_get? ho'
    have hkeeps' := h.rows.keeps hmem hu (by rw [← hkeeps.key, key_mark, key_clear])
    rw [payloadCompactedAt_mark] at hcompacted
    rcases eligible_of_clear hmem hcompacted with hcompacted | heligible
    · exact h.cleared o' hmem u hu hkeeps' hcompacted
    · exact h.rows.betweenEqual hkeeps' heligible

/-- Both tables have the same free keys. -/
lemma Lossless.insert?_eq_none (h : Lossless s r) {w : Observation}
    (ht : s.observations.insert? w = none) : r.observations.insert? w = none := by
  cases hr : r.observations.insert? w with
  | none => rfl
  | some t' =>
    have hrel := h.rows (Keyed.key w)
    rw [(Table.insert?_eq_some hr).1] at hrel
    have hfree : s.observations.get? (Keyed.key w) = none := by
      generalize s.observations.get? (Keyed.key w) = kept at hrel
      cases hrel
      rfl
    obtain ⟨t, ht', -⟩ := Table.insert?_of_free hfree
    rw [ht] at ht'
    cases ht'

/-- Each act keeps the run with compaction a lossless copy of the one without. -/
lemma Lossless.step (h : Lossless s r) (act : ReportAct) :
    Lossless (s.step act) (if act.reports then r.step act else r) := by
  cases act with
  | batch cutoff now limit => exact h.batch cutoff now limit
  | register reporter producer =>
    simp only [ReportDb.step, ReportAct.reports, if_true, registerJob, h.jobs]
    cases hjobs : r.jobs.insert?
        ⟨reporter, producer, .registered, 0, none, none, none, none, none, ""⟩ with
    | none => exact h
    | some jobs =>
      refine ⟨rfl, h.rows, h.cleared, fun u hu => ?_, h.positive⟩
      obtain ⟨j, hj, hle, hproducer⟩ := h.owned u hu
      obtain ⟨hfree, hget⟩ := Table.insert?_eq_some hjobs
      refine ⟨j, ?_, hle, hproducer⟩
      change jobs.get? u.reporter = some j
      rw [hget, if_neg, hj]
      intro hkey
      rw [hkey, hfree] at hj
      cases hj
  | observe now reporter input =>
    simp only [ReportDb.step, ReportAct.reports, if_true, observe, h.accept]
    cases haccept : acceptObservation r reporter input with
    | error e => exact h
    | ok accepted =>
      obtain ⟨hj, hproducer, hpositive, hnew⟩ := acceptObservation_ok haccept
      change Lossless
        ((if accepted.2 = true then _ else _ : Except AppError ReportDb).toOption.getD s)
        ((if accepted.2 = true then _ else _ : Except AppError ReportDb).toOption.getD r)
      split_ifs with hreplayed
      · exact h
      · cases ht : s.observations.insert? (input.row reporter now) with
        | some t =>
          obtain ⟨t', ht', hlossless⟩ :=
            h.insert hj hproducer hpositive (hnew (by simpa using hreplayed)) ht
          rw [ht']
          exact hlossless
        | none =>
          rw [h.insert?_eq_none ht]
          exact h

end Steps

/-- After any acts the reports are a lossless copy of those of the same acts without the batches. -/
lemma lossless_after (acts : List ReportAct) :
    Lossless (ReportDb.after acts) (ReportDb.after (acts.filter ReportAct.reports)) := by
  induction acts using List.reverseRecOn with
  | nil =>
    refine ⟨rfl, fun _ => .none, fun o ho => ?_, fun u hu => ?_, fun u hu => ?_⟩
    · cases Table.not_mem_empty o ho
    · cases Table.not_mem_empty u hu
    · cases Table.not_mem_empty u hu
  | append_singleton acts act ih =>
    have hstep := ih.step act
    have hafter : ReportDb.after (acts ++ [act]) = (ReportDb.after acts).step act := by
      rw [ReportDb.after, List.foldl_append]
      rfl
    rw [hafter, List.filter_append]
    cases hact : act.reports with
    | false =>
      rw [hact] at hstep
      rw [List.filter_cons_of_neg (by simp [hact]), List.filter_nil, List.append_nil]
      exact hstep
    | true =>
      rw [hact] at hstep
      rw [List.filter_cons_of_pos hact, List.filter_nil, ReportDb.after.eq_1 (_ ++ _),
        List.foldl_append]
      exact hstep

/-! ### The nearest row that was kept -/

/-- The nearest row of the reporter before `u` that was not compacted. -/
def NearestKept (t : Table Observation) (q u : Observation) : Prop :=
  q ∈ t ∧ q.payloadCompactedAt = none ∧ q.reporter = u.reporter ∧ q.sequence < u.sequence ∧
    ∀ x ∈ t, x.reporter = u.reporter → q.sequence < x.sequence → x.sequence < u.sequence →
      x.payloadCompactedAt ≠ none

lemma Observation.Repeats.trans {o o' o'' : Observation} (h : o.Repeats o') (h' : o'.Repeats o'') :
    o.Repeats o'' := by
  obtain ⟨h₁, h₂, h₃, h₄, h₅, h₆⟩ := h
  obtain ⟨h₁', h₂', h₃', h₄', h₅', h₆'⟩ := h'
  exact ⟨h₁.trans h₁', h₂.trans h₂', h₃.trans h₃', h₄.trans h₄', h₅.trans h₅', h₆.trans h₆'⟩

/-- A row that was kept says what was reported. -/
lemma Observation.Keeps.repeats {o u u' : Observation} (h : o.Keeps u)
    (hkept : o.payloadCompactedAt = none) (hrepeats : u.Repeats u') : o.Repeats u' := by
  refine Observation.Repeats.trans ?_ hrepeats
  exact ⟨h.state, h.pid, h.processStartedAt, h.exitCode, h.inputsUnchanged, h.summary hkept⟩

/-- The previous rows of a cleared one were cleared too, up to one that was kept. -/
lemma Lossless.exists_nearestKept {s r : ReportDb} (h : Lossless s r) (n : Nat) :
    ∀ o ∈ s.observations, ∀ u ∈ r.observations, o.Keeps u → o.payloadCompactedAt ≠ none →
      u.sequence.toNat ≤ n → ∃ q, NearestKept s.observations q u ∧ q.Repeats u := by
  induction n with
  | zero =>
    intro o _ u hu _ _ hle
    have hpositive := h.positive u hu
    omega
  | succ n ih =>
    intro o ho u hu hkeeps hcompacted hle
    obtain ⟨-, ⟨p', hp', ⟨hreporter, hlt, hall⟩, hrepeats⟩, -⟩ :=
      h.cleared o ho u hu hkeeps hcompacted
    obtain ⟨p, hp, hkeeps'⟩ := h.rows.exists_kept hp'
    -- what lies between the previous row and `u` would be a row of the table
    have hbetween : ∀ x ∈ s.observations, x.reporter = u.reporter → x.sequence < u.sequence →
        x.sequence ≤ p'.sequence := by
      intro x hx hsame hbefore
      obtain ⟨x', hx', hkeepsx⟩ := h.rows.exists_reported hx
      rw [hkeepsx.sequence]
      exact hall x' hx' (hkeepsx.reporter ▸ hsame) (hkeepsx.sequence ▸ hbefore)
    by_cases hkept : p.payloadCompactedAt = none
    · refine ⟨p, ⟨hp, hkept, hkeeps'.reporter.trans hreporter, hkeeps'.sequence ▸ hlt, ?_⟩,
        hkeeps'.repeats hkept hrepeats⟩
      intro x hx hsame hafter hbefore
      rw [hkeeps'.sequence] at hafter
      exact absurd (hbetween x hx hsame hbefore) (not_le.2 hafter)
    · obtain ⟨q, ⟨hq, hqkept, hqreporter, hqlt, hqall⟩, hqrepeats⟩ :=
        ih p hp p' hp' hkeeps' hkept (by have := h.positive u hu; omega)
      refine ⟨q, ⟨hq, hqkept, hqreporter.trans hreporter, hqlt.trans hlt, ?_⟩,
        hqrepeats.trans hrepeats⟩
      intro x hx hsame hafter hbefore
      rcases (hbetween x hx hsame hbefore).lt_or_eq with hltp | heq
      · exact hqall x hx (hsame.trans hreporter.symm) hafter hltp
      · -- `x` is the previous row itself
        have hkey : Keyed.key x = Keyed.key p :=
          Prod.ext (hsame.trans (hreporter.symm.trans hkeeps'.reporter.symm))
            (heq.trans hkeeps'.sequence.symm)
        have hget := Table.get?_of_mem hx
        rw [hkey, Table.get?_of_mem hp, Option.some.injEq] at hget
        rwa [← hget]

/-- Rows of one reporter name the producer of its job. -/
lemma Lossless.producer {s r : ReportDb} (h : Lossless s r) {q u : Observation}
    (hq : q ∈ s.observations) (hu : u ∈ r.observations) (hsame : q.reporter = u.reporter) :
    q.producer = u.producer := by
  obtain ⟨q', hq', hkeeps⟩ := h.rows.exists_reported hq
  obtain ⟨j, hj, -, hproducer⟩ := h.owned q' hq'
  obtain ⟨j', hj', -, hproducer'⟩ := h.owned u hu
  rw [← hkeeps.reporter, hsame, hj', Option.some.injEq] at hj
  rw [hkeeps.producer, hproducer, hproducer', hj]

/-! ### Inspections -/

/-- A row that was inspected stays so. -/
lemma checked_step {s : ReportDb} (act : ReportAct) {k : Id × Int} {o : Observation}
    (ho : s.observations.get? k = some o) (hchecked : o.retentionCheckedAt ≠ none) :
    ∃ o', (s.step act).observations.get? k = some o' ∧ o'.retentionCheckedAt ≠ none := by
  cases act with
  | batch cutoff now limit =>
    refine ⟨_, by rw [ReportDb.step, get?_compactObservations, ho, Option.map_some], ?_⟩
    have hcleared : (s.clear cutoff now limit o).retentionCheckedAt ≠ none := by
      rw [ReportDb.clear]
      split_ifs
      · exact hchecked
      · exact hchecked
    rwa [ReportDb.mark, if_neg fun h => hcleared h.2]
  | register reporter producer =>
    refine ⟨o, ?_, hchecked⟩
    rw [ReportDb.step, registerJob]
    cases s.jobs.insert? _ with
    | none => exact ho
    | some jobs => exact ho
  | observe now reporter input =>
    refine ⟨o, ?_, hchecked⟩
    rw [ReportDb.step]
    cases hobserve : observe s now reporter input with
    | error e => exact ho
    | ok s' =>
      simp only [observe, bind_eq_ok] at hobserve
      obtain ⟨accepted, -, hobserve⟩ := hobserve
      split_ifs at hobserve
      · obtain rfl := pure_eq_ok.1 hobserve
        exact ho
      · simp only [bind_eq_ok, okOr_eq_ok, pure_eq_ok] at hobserve
        obtain ⟨t, ht, rfl⟩ := hobserve
        obtain ⟨hfree, hget⟩ := Table.insert?_eq_some ht
        change t.get? k = some o
        rw [hget, if_neg, ho]
        rintro rfl
        rw [ho] at hfree
        cases hfree

/-- A batch marks every row it inspects. -/
lemma checked_of_candidate {s : ReportDb} {cutoff now : Time} {limit : Nat} {k : Id × Int}
    (hk : k ∈ s.candidateKeys cutoff limit) : ∃ o',
      (compactObservations s cutoff now limit).observations.get? k = some o' ∧
        o'.retentionCheckedAt ≠ none := by
  obtain ⟨o, ho, rfl⟩ := List.mem_map.1 hk
  obtain ⟨hmem, hnone⟩ := mem_candidates ho
  refine ⟨_, by rw [get?_compactObservations, Table.get?_of_mem hmem, Option.map_some], ?_⟩
  have hunchecked : (s.clear cutoff now limit o).retentionCheckedAt = none := by
    rw [ReportDb.clear]
    split_ifs
    · exact hnone
    · exact hnone
  rw [ReportDb.mark, key_clear, if_pos ⟨hk, hunchecked⟩]
  exact Option.some_ne_none now

/-- No row is inspected twice, nor one that was inspected before. -/
lemma inspections_spec (s : ReportDb) (acts : List ReportAct) :
    (s.inspections acts).Nodup ∧ ∀ k ∈ s.inspections acts, ∀ o,
      s.observations.get? k = some o → o.retentionCheckedAt = none := by
  induction acts generalizing s with
  | nil => exact ⟨List.nodup_nil, nofun⟩
  | cons act acts ih =>
    obtain ⟨hnodup, hunchecked⟩ := ih (s.step act)
    have hinspects : (s.inspects act).Nodup ∧ ∀ k ∈ s.inspects act,
        (∀ o, s.observations.get? k = some o → o.retentionCheckedAt = none) ∧
        ∃ o', (s.step act).observations.get? k = some o' ∧ o'.retentionCheckedAt ≠ none := by
      cases act with
      | register => exact ⟨List.nodup_nil, nofun⟩
      | observe => exact ⟨List.nodup_nil, nofun⟩
      | batch cutoff now limit =>
        refine ⟨?_, fun k hk => ⟨fun o ho => ?_, checked_of_candidate hk⟩⟩
        · have hrows : ((s.observations.filter fun o =>
              o.retentionCheckedAt = none ∧ o.observedAt < cutoff).map Keyed.key).Nodup :=
            s.observations.nodup.sublist (List.filter_sublist.map _)
          have hsorted := ((List.perm_insertionSort (fun o o' : Observation =>
            o.retentionOrder ≤ o'.retentionOrder) _).map Keyed.key).nodup_iff.2 hrows
          exact hsorted.sublist ((List.take_sublist _ _).map _)
        · obtain ⟨o', ho', hkey⟩ := List.mem_map.1 hk
          obtain ⟨hmem, hnone⟩ := mem_candidates ho'
          rw [← hkey, Table.get?_of_mem hmem, Option.some.injEq] at ho
          rwa [← ho]
    rw [ReportDb.inspections]
    refine ⟨List.nodup_append.2 ⟨hinspects.1, hnodup, ?_⟩, fun k hk o ho => ?_⟩
    · rintro k hk k' hk' rfl
      obtain ⟨-, o', ho', hchecked⟩ := hinspects.2 k hk
      exact hchecked (hunchecked k hk' o' ho')
    · rcases List.mem_append.1 hk with hk | hk
      · exact (hinspects.2 k hk).1 o ho
      · by_contra hchecked
        obtain ⟨o', ho', hchecked'⟩ := checked_step act ho hchecked
        exact hchecked' (hunchecked k hk o' ho')

/-- Compaction is lossless. Over any acts, with batches of any size between them: the jobs and the
acceptance of every observation are those of the same acts without batches, and a batch changes
neither; every row is the reported one, maybe without its summary; a row that lost it was running
and repeats both its neighbours as they were reported, and the nearest row before it that was kept
says and names the same; no row is inspected twice. -/
theorem compaction_lossless (acts : List ReportAct) :
    let s := ReportDb.after acts
    let r := ReportDb.after (acts.filter ReportAct.reports)
    s.jobs = r.jobs ∧
    (∀ reporter input, acceptObservation s reporter input = acceptObservation r reporter input) ∧
    (∀ cutoff now limit, (compactObservations s cutoff now limit).jobs = s.jobs ∧
      ∀ reporter input, acceptObservation (compactObservations s cutoff now limit) reporter input =
        acceptObservation s reporter input) ∧
    KeepsAll s.observations r.observations ∧
    (∀ o ∈ s.observations, ∀ u ∈ r.observations, o.Keeps u → o.payloadCompactedAt ≠ none →
      u.state = .running ∧ BetweenEqual r.observations u ∧
        ∃ q, NearestKept s.observations q u ∧ q.Repeats u ∧ q.producer = u.producer) ∧
    ((⟨.empty, .empty⟩ : ReportDb).inspections acts).Nodup := by
  intro s r
  have h : Lossless s r := lossless_after acts
  refine ⟨h.jobs, h.accept, fun cutoff now limit => ⟨rfl, fun reporter input => ?_⟩, h.rows,
    fun o ho u hu hkeeps hcompacted => ?_, (inspections_spec _ acts).1⟩
  · rw [(h.batch cutoff now limit).accept, h.accept]
  · obtain ⟨hrunning, hbetween⟩ := h.cleared o ho u hu hkeeps hcompacted
    obtain ⟨q, hnearest, hrepeats⟩ :=
      h.exists_nearestKept u.sequence.toNat o ho u hu hkeeps hcompacted le_rfl
    exact ⟨hrunning, hbetween, q, hnearest, hrepeats,
      h.producer hnearest.1 hu hnearest.2.2.1⟩

end AgentCoordinator
