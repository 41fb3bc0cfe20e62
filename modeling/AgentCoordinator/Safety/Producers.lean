import AgentCoordinator.Refinement.Jobs

/-
The evidence about a producer.

The row of a job is what its latest observation said. Observations are numbered, and one is
accepted only after all the others; a result ends the sequence, a launch rules out that nothing
was started, and nothing goes back to being merely registered. A restore forgets how far a job that
had not ended has come, and maintenance clears summaries, but never the latest one.
-/

namespace AgentCoordinator

open Guarded Tabular Transition

namespace Jobs

/-! ### Observations -/

/-- The same observation, maybe without its summary. -/
structure Reads (o o' : Observation) : Prop where
  reporter : o'.reporter = o.reporter
  sequence : o'.sequence = o.sequence
  producer : o'.producer = o.producer
  state : o'.state = o.state
  pid : o'.pid = o.pid
  processStartedAt : o'.processStartedAt = o.processStartedAt
  exitCode : o'.exitCode = o.exitCode
  inputsUnchanged : o'.inputsUnchanged = o.inputsUnchanged
  observedAt : o'.observedAt = o.observedAt

lemma Reads.refl (o : Observation) : Reads o o := ⟨rfl, rfl, rfl, rfl, rfl, rfl, rfl, rfl, rfl⟩

lemma Reads.trans {o o' o'' : Observation} (h : Reads o o') (h' : Reads o' o'') : Reads o o'' :=
  ⟨h'.reporter.trans h.reporter, h'.sequence.trans h.sequence, h'.producer.trans h.producer,
    h'.state.trans h.state, h'.pid.trans h.pid, h'.processStartedAt.trans h.processStartedAt,
    h'.exitCode.trans h.exitCode, h'.inputsUnchanged.trans h.inputsUnchanged,
    h'.observedAt.trans h.observedAt⟩

/-- The observation says that the producer was launched. -/
def Launched (o : Observation) : Prop :=
  o.state = .running ∨ o.pid ≠ none ∨ o.processStartedAt ≠ none

lemma Reads.launched {o o' : Observation} (h : Reads o o') : Launched o' ↔ Launched o := by
  unfold Launched
  rw [h.state, h.pid, h.processStartedAt]

/-- The job shows what the observation said, unless a restore forgot its state. -/
structure Shows (p : ReportedJob) (o : Observation) : Prop where
  state : p.state = o.state ∨ (p.state = .unknown ∧ (o.state = .registered ∨ o.state = .running))
  pid : p.pid = o.pid
  processStartedAt : p.processStartedAt = o.processStartedAt
  exitCode : p.exitCode = o.exitCode
  inputsUnchanged : p.inputsUnchanged = o.inputsUnchanged
  summary : p.summary = o.summary
  lastObservedAt : p.lastObservedAt = some o.observedAt

/-- The outcome a state comes with: an exit code and a final input-stability result exactly with a
result, and exit code 0 with success. -/
structure Outcome (p : ReportedJob) : Prop where
  succeeded : p.state = .succeeded → p.exitCode = some 0 ∧ p.inputsUnchanged ≠ none
  failed : p.state = .failed → p.exitCode ≠ none ∧ p.inputsUnchanged ≠ none
  other : p.state ≠ .succeeded → p.state ≠ .failed → p.exitCode = none

/-- What a valid observation makes of a job has the outcome of its state. -/
lemma outcome_observed {p : ReportedJob} {input : ObservationInput} {now : Time}
    (h : validateObservation input = .ok ()) : Outcome (p.observed input now) := by
  simp only [validateObservation, bind_eq_ok, refuseIf_eq_ok] at h
  obtain ⟨_, -, _, -, _, -, _, hsucceeded, _, hfailed, _, hnotStarted, hother⟩ := h
  constructor
  · intro hs
    change input.state = .succeeded at hs
    change input.exitCode = some 0 ∧ input.inputsUnchanged ≠ none
    simpa [hs] using hsucceeded
  · intro hs
    change input.state = .failed at hs
    change input.exitCode ≠ none ∧ input.inputsUnchanged ≠ none
    simpa [hs] using hfailed
  · intro hs hf
    change input.state ≠ .succeeded at hs
    change input.state ≠ .failed at hf
    change input.exitCode = none
    cases hstate : input.state <;> simp_all

/-- An observation that nothing was started carries nothing of a process. -/
lemma unlaunched_row {input : ObservationInput} {reporter : Id} {now : Time}
    (h : validateObservation input = .ok ()) (hs : input.state = .notStarted) :
    ¬ Launched (input.row reporter now) := by
  simp only [validateObservation, bind_eq_ok, refuseIf_eq_ok] at h
  obtain ⟨_, -, _, -, _, -, _, -, _, -, _, hnotStarted, -⟩ := h
  change ¬ (input.state = .running ∨ input.pid ≠ none ∨ input.processStartedAt ≠ none)
  simp_all

/-- A valid observation has a positive number. -/
lemma positive_of_valid {input : ObservationInput} (h : validateObservation input = .ok ()) :
    0 < input.sequence := by
  simp only [validateObservation, bind_eq_ok, refuseIf_eq_ok] at h
  obtain ⟨_, hfirst, -⟩ := h
  omega

/-! ### The invariant -/

/-- Jobs and observations agree. -/
structure Evidenced (s : ReportDb) : Prop where
  owned : ∀ o ∈ s.observations, ∃ p, s.jobs.get? o.reporter = some p ∧ o.producer = p.producer ∧
    0 < o.sequence ∧ o.sequence ≤ p.lastSequence
  latest : ∀ p ∈ s.jobs, 0 < p.lastSequence → ∃ o ∈ s.observations, o.reporter = p.reporter ∧
    o.sequence = p.lastSequence ∧ Shows p o
  unobserved : ∀ p ∈ s.jobs, p.lastSequence ≤ 0 → p.state = .registered ∨ p.state = .unknown
  unlaunched : ∀ p ∈ s.jobs, p.state = .notStarted →
    ∀ o ∈ s.observations, o.reporter = p.reporter → ¬ Launched o
  ended : ∀ p ∈ s.jobs, ∀ o ∈ s.observations, o.reporter = p.reporter → ¬ Open o.state →
    o.sequence = p.lastSequence
  outcome : ∀ p ∈ s.jobs, Outcome p
  first : ∀ o ∈ s.observations, ∀ o' ∈ s.observations, o.reporter = o'.reporter →
    o.state = .registered → o.sequence ≤ o'.sequence

section Kept

variable {s s' : ReportDb}

lemma Evidenced.empty : Evidenced ⟨.empty, .empty⟩ where
  owned _ h := absurd h (Table.not_mem_empty _)
  latest _ h := absurd h (Table.not_mem_empty _)
  unobserved _ h := absurd h (Table.not_mem_empty _)
  unlaunched _ h := absurd h (Table.not_mem_empty _)
  ended _ h := absurd h (Table.not_mem_empty _)
  outcome _ h := absurd h (Table.not_mem_empty _)
  first _ h := absurd h (Table.not_mem_empty _)

/-- The state of an ended job is that of its latest observation. -/
lemma Evidenced.state_of_ended (h : Evidenced s) {p : ReportedJob} (hp : p ∈ s.jobs)
    {o : Observation} (ho : o ∈ s.observations) (hreporter : o.reporter = p.reporter)
    (hended : ¬ Open o.state) : p.state = o.state := by
  have hsequence := h.ended p hp o ho hreporter hended
  obtain ⟨p', hp', -, hpositive, -⟩ := h.owned o ho
  obtain ⟨o', ho', hreporter', hsequence', hshows⟩ := h.latest p hp (hsequence ▸ hpositive)
  obtain rfl : o' = o := by
    refine Table.eq_of_get? (Table.get?_of_mem ho) ho' ?_
    exact Prod.ext (hreporter'.trans hreporter.symm) (hsequence'.trans hsequence.symm)
  rcases hshows.state with hs | ⟨-, hs | hs⟩
  · exact hs
  · exact absurd (by rw [hs]; decide) hended
  · exact absurd (by rw [hs]; decide) hended

/-- A job is registered under a new reporter. -/
lemma Evidenced.registered (h : Evidenced s) {reporter producer : Id}
    (hr : AgentCoordinator.registerJob s reporter producer = .ok s') : Evidenced s' := by
  simp only [AgentCoordinator.registerJob, bind_eq_ok, okOr_eq_ok, pure_eq_ok] at hr
  obtain ⟨jobs, hinsert, rfl⟩ := hr
  obtain ⟨hfree, hget⟩ := Table.insert?_eq_some hinsert
  change s.jobs.get? reporter = none at hfree
  have hmem : ∀ p ∈ jobs, p ∈ s.jobs ∨
      p = ⟨reporter, producer, .registered, 0, none, none, none, none, none, ""⟩ := by
    intro p hp
    have hrows : p ∈ jobs.rows := hp
    rwa [Table.rows_of_insert? hinsert, List.mem_append, List.mem_singleton] at hrows
  -- nothing was observed yet under the new reporter
  have hnone : ∀ o ∈ s.observations, o.reporter ≠ reporter := by
    rintro o ho rfl
    obtain ⟨p, hp, -⟩ := h.owned o ho
    rw [hfree] at hp
    exact absurd hp nofun
  refine ⟨fun o ho => ?_, fun p hp hpositive => ?_, fun p hp hzero => ?_, fun p hp hs o ho hat => ?_,
    fun p hp o ho hat hended => ?_, fun p hp => ?_, h.first⟩
  · obtain ⟨p, hp, hrest⟩ := h.owned o ho
    exact ⟨p, (hget o.reporter).trans ((if_neg (hnone o ho)).trans hp), hrest⟩
  · rcases hmem p hp with hp | rfl
    · exact h.latest p hp hpositive
    · exact absurd hpositive (Int.lt_irrefl 0)
  · rcases hmem p hp with hp | rfl
    · exact h.unobserved p hp hzero
    · exact .inl rfl
  · rcases hmem p hp with hp | rfl
    · exact h.unlaunched p hp hs o ho hat
    · exact absurd hat (hnone o ho)
  · rcases hmem p hp with hp | rfl
    · exact h.ended p hp o ho hat hended
    · exact absurd hat (hnone o ho)
  · rcases hmem p hp with hp | rfl
    · exact h.outcome p hp
    · exact ⟨nofun, nofun, fun _ _ => rfl⟩

/-- A new observation that was checked. -/
lemma Evidenced.observed (h : Evidenced s) {reporter : Id} {now : Time} {input : ObservationInput}
    {p : ReportedJob} {observations : Table Observation}
    (hc : NewObservation s reporter input p)
    (hinsert : s.observations.insert? (input.row reporter now) = some observations) :
    Evidenced { jobs := s.jobs.put (p.observed input now), observations } := by
  have hkey : p.reporter = reporter := Table.key_of_get? hc.job
  have hp : p ∈ s.jobs := Table.mem_of_get? hc.job
  have hobs := mem_insert? hinsert
  have hjobs : ∀ q, q ∈ s.jobs.put (p.observed input now) ↔
      q = p.observed input now ∨ (q ∈ s.jobs ∧ q.reporter ≠ reporter) := by
    intro q
    rw [Table.mem_put]
    change q = p.observed input now ∨ (q ∈ s.jobs ∧ q.reporter ≠ p.reporter) ↔ _
    rw [hkey]
  have hpositive := positive_of_valid hc.valid
  have hearlier : ∀ o ∈ s.observations, o.reporter = reporter →
      0 < o.sequence ∧ o.sequence ≤ p.lastSequence ∧ o.producer = p.producer := by
    rintro o ho rfl
    obtain ⟨q, hq, hproducer, hpos, hle⟩ := h.owned o ho
    obtain rfl := Option.some.inj (hc.job.symm.trans hq)
    exact ⟨hpos, hle, hproducer⟩
  refine ⟨fun o ho => ?_, fun q hq hpos => ?_, fun q hq hzero => ?_, fun q hq hs o ho hat => ?_,
    fun q hq o ho hat hended => ?_, fun q hq => ?_, fun o ho o' ho' hat hs => ?_⟩
  · -- owned
    have hput : ∀ k, (s.jobs.put (p.observed input now)).get? k =
        if k = reporter then some (p.observed input now) else s.jobs.get? k := by
      intro k
      rw [Table.get?_put]
      change (if k = p.reporter then _ else _) = _
      rw [hkey]
    rcases (hobs o).1 ho with rfl | ho
    · refine ⟨p.observed input now, ?_, hc.producer.symm, hpositive, le_rfl⟩
      exact (hput reporter).trans (if_pos rfl)
    · by_cases hsame : o.reporter = reporter
      · obtain ⟨hpos, hle, hproducer⟩ := hearlier o ho hsame
        refine ⟨p.observed input now, ?_, hproducer, hpos, hle.trans hc.later.le⟩
        exact (hput o.reporter).trans (if_pos hsame)
      · obtain ⟨q, hq, hrest⟩ := h.owned o ho
        exact ⟨q, (hput o.reporter).trans ((if_neg hsame).trans hq), hrest⟩
  · -- latest
    rcases (hjobs q).1 hq with rfl | ⟨hq, -⟩
    · exact ⟨input.row reporter now, (hobs _).2 (.inl rfl), hkey.symm, rfl,
        .inl rfl, rfl, rfl, rfl, rfl, rfl, rfl⟩
    · obtain ⟨o, ho, hrest⟩ := h.latest q hq hpos
      exact ⟨o, (hobs o).2 (.inr ho), hrest⟩
  · -- unobserved
    rcases (hjobs q).1 hq with rfl | ⟨hq, -⟩
    · exact absurd hzero (not_le.2 hpositive)
    · exact h.unobserved q hq hzero
  · -- unlaunched
    rcases (hjobs q).1 hq with rfl | ⟨hq, hne⟩
    · rcases (hobs o).1 ho with rfl | ho
      · exact unlaunched_row hc.valid hs
      · exact fun hl => hc.unlaunched hs ⟨o, ho, hat.trans hkey, hl⟩
    · rcases (hobs o).1 ho with rfl | ho
      · exact absurd hat.symm hne
      · exact h.unlaunched q hq hs o ho hat
  · -- ended
    rcases (hjobs q).1 hq with rfl | ⟨hq, hne⟩
    · rcases (hobs o).1 ho with rfl | ho
      · rfl
      · have hstate := h.state_of_ended hp ho hat hended
        exact absurd hc.notEnded (hstate ▸ hended)
    · rcases (hobs o).1 ho with rfl | ho
      · exact absurd hat.symm hne
      · exact h.ended q hq o ho hat hended
  · -- outcome
    rcases (hjobs q).1 hq with rfl | ⟨hq, -⟩
    · exact outcome_observed hc.valid
    · exact h.outcome q hq
  · -- first
    rcases (hobs o).1 ho with rfl | ho <;> rcases (hobs o').1 ho' with rfl | ho'
    · exact le_rfl
    · obtain ⟨hpos, hle, -⟩ := hearlier o' ho' hat.symm
      exact absurd (hc.first hs) (not_le.2 (hpos.trans_le hle))
    · exact (hearlier o ho hat).2.1.trans hc.later.le
    · exact h.first o ho o' ho' hat hs

/-- A batch of maintenance: each row is read as before, and a summary is lost only between two
equal neighbours. -/
lemma compacted_rows (cutoff now : Time) (limit : Nat) :
    (∀ o' ∈ (compactObservations s cutoff now limit).observations,
      ∃ o ∈ s.observations, Reads o o') ∧
    ∀ o ∈ s.observations, ∃ o' ∈ (compactObservations s cutoff now limit).observations,
      Reads o o' ∧ (o'.summary = o.summary ∨ BetweenEqual s.observations o) := by
  have hreads : ∀ o, Reads o (s.mark cutoff now limit (s.clear cutoff now limit o)) := by
    intro o
    unfold ReportDb.mark ReportDb.clear
    split_ifs <;> exact ⟨rfl, rfl, rfl, rfl, rfl, rfl, rfl, rfl, rfl⟩
  refine ⟨fun o' ho' => ?_, fun o ho => ?_⟩
  · have hget := Table.get?_of_mem ho'
    rw [get?_compactObservations, Option.map_eq_some_iff] at hget
    obtain ⟨o, ho, rfl⟩ := hget
    exact ⟨o, Table.mem_of_get? ho, hreads o⟩
  · refine ⟨_, Table.mem_of_get? (k := Keyed.key o) ?_, hreads o, ?_⟩
    · rw [get?_compactObservations, Table.get?_of_mem ho]
      rfl
    · have hmark : (s.mark cutoff now limit (s.clear cutoff now limit o)).summary
          = (s.clear cutoff now limit o).summary := by
        unfold ReportDb.mark
        split_ifs <;> rfl
      rw [hmark, ReportDb.clear]
      split_ifs with hmem
      · -- the row with this key was an eligible candidate
        obtain ⟨x, hx, hkey⟩ := List.mem_map.1 hmem
        obtain ⟨hcandidate, heligible⟩ := List.mem_filter.1 hx
        have hget := Table.get?_of_mem (mem_candidates hcandidate).1
        rw [hkey, Table.get?_of_mem ho, Option.some.injEq] at hget
        subst hget
        exact .inr (of_decide_eq_true heligible).2.2.2
      · exact .inl rfl

lemma Evidenced.compacted (h : Evidenced s) (cutoff now : Time) (limit : Nat) :
    Evidenced (compactObservations s cutoff now limit) := by
  have hold : ∀ o' ∈ (compactObservations s cutoff now limit).observations,
      ∃ o ∈ s.observations, Reads o o' := (compacted_rows cutoff now limit).1
  refine ⟨fun o' ho' => ?_, fun p hp hpos => ?_, h.unobserved, fun p hp hs o' ho' hat => ?_,
    fun p hp o' ho' hat hended => ?_, h.outcome, fun o₁ ho₁ o₂ ho₂ hat hs => ?_⟩
  · obtain ⟨o, ho, hreads⟩ := hold o' ho'
    rw [hreads.reporter, hreads.producer, hreads.sequence]
    exact h.owned o ho
  · obtain ⟨o, ho, hreporter, hsequence, hshows⟩ := h.latest p hp hpos
    obtain ⟨o', ho', hreads, hsummary⟩ := (compacted_rows cutoff now limit).2 o ho
    have hsame : o'.summary = o.summary := by
      rcases hsummary with hsame | ⟨-, n, hn, ⟨hreporter', hlt, -⟩, -⟩
      · exact hsame
      · -- no row of the reporter follows its latest one
        obtain ⟨q, hq, -, -, hle⟩ := h.owned n hn
        rw [hreporter', hreporter] at hq
        obtain rfl := Option.some.inj ((Table.get?_of_mem hp).symm.trans hq)
        exact absurd hle (not_le.2 (hsequence ▸ hlt))
    exact ⟨o', ho', hreads.reporter.trans hreporter, hreads.sequence.trans hsequence,
      hreads.state.symm ▸ hshows.state, hreads.pid.symm ▸ hshows.pid,
      hreads.processStartedAt.symm ▸ hshows.processStartedAt,
      hreads.exitCode.symm ▸ hshows.exitCode,
      hreads.inputsUnchanged.symm ▸ hshows.inputsUnchanged, hsame.symm ▸ hshows.summary,
      hreads.observedAt.symm ▸ hshows.lastObservedAt⟩
  · obtain ⟨o, ho, hreads⟩ := hold o' ho'
    rw [hreads.launched]
    exact h.unlaunched p hp hs o ho (hreads.reporter.symm.trans hat)
  · obtain ⟨o, ho, hreads⟩ := hold o' ho'
    rw [hreads.sequence]
    exact h.ended p hp o ho (hreads.reporter.symm.trans hat) (hreads.state ▸ hended)
  · obtain ⟨o, ho, hreads⟩ := hold o₁ ho₁
    obtain ⟨o', ho', hreads'⟩ := hold o₂ ho₂
    rw [hreads.sequence, hreads'.sequence]
    refine h.first o ho o' ho' ?_ (hreads.state.symm.trans hs)
    rw [← hreads.reporter, hat, hreads'.reporter]

/-- A job after a restore. -/
lemma mem_restoreReports {q : ReportedJob} (hq : q ∈ (restoreReports s).jobs) :
    ∃ p ∈ s.jobs, q = p ∨ (q = forget p ∧ (p.state = .registered ∨ p.state = .running)) := by
  have hget := Table.get?_of_mem hq
  rw [get?_restoreReports, Option.map_eq_some_iff] at hget
  obtain ⟨p, hp, rfl⟩ := hget
  refine ⟨p, Table.mem_of_get? hp, ?_⟩
  by_cases hs : p.state = .registered ∨ p.state = .running
  · exact .inr ⟨if_pos hs, hs⟩
  · exact .inl (if_neg hs)

/-- A restore: what had not ended is unknown. -/
lemma Evidenced.restored (h : Evidenced s) : Evidenced (restoreReports s) := by
  refine ⟨fun o ho => ?_, fun q hq hpos => ?_, fun q hq hzero => ?_, fun q hq hs o ho hat => ?_,
    fun q hq o ho hat hended => ?_, fun q hq => ?_, h.first⟩
  · obtain ⟨p, hp, hproducer, hpos, hle⟩ := h.owned o ho
    refine ⟨_, (get?_restoreReports o.reporter).trans (congrArg (Option.map _) hp), ?_⟩
    beta_reduce
    split_ifs <;> exact ⟨hproducer, hpos, hle⟩
  · obtain ⟨p, hp, rfl | ⟨rfl, hs⟩⟩ := mem_restoreReports hq
    · exact h.latest q hp hpos
    · obtain ⟨o, ho, hreporter, hsequence, hshows⟩ := h.latest p hp hpos
      refine ⟨o, ho, hreporter, hsequence, .inr ⟨rfl, ?_⟩, hshows.pid, hshows.processStartedAt,
        hshows.exitCode, hshows.inputsUnchanged, hshows.summary, hshows.lastObservedAt⟩
      rcases hshows.state with hstate | ⟨hunknown, -⟩
      · exact hstate ▸ hs
      · rw [hunknown] at hs
        exact absurd hs (by decide)
  · obtain ⟨p, hp, rfl | ⟨rfl, -⟩⟩ := mem_restoreReports hq
    · exact h.unobserved q hp hzero
    · exact .inr rfl
  · obtain ⟨p, hp, rfl | ⟨rfl, -⟩⟩ := mem_restoreReports hq
    · exact h.unlaunched q hp hs o ho hat
    · exact absurd hs nofun
  · obtain ⟨p, hp, rfl | ⟨rfl, -⟩⟩ := mem_restoreReports hq
    · exact h.ended q hp o ho hat hended
    · exact h.ended p hp o ho hat hended
  · obtain ⟨p, hp, rfl | ⟨rfl, hs⟩⟩ := mem_restoreReports hq
    · exact h.outcome q hp
    · have hexit : p.exitCode = none := by
        rcases hs with hs | hs <;>
          exact (h.outcome p hp).other (by rw [hs]; decide) (by rw [hs]; decide)
      exact ⟨nofun, nofun, fun _ _ => hexit⟩

end Kept

/-! ### Producers over whole runs -/

section Runs

variable {J J' : JobService}

/-- Every job has its own report. -/
structure Reported (J : JobService) : Prop where
  report : ∀ j ∈ J.registrations, ∃ p, J.reports.jobs.get? j.reporter = some p ∧
    p.producer = j.producer
  distinct : ∀ j ∈ J.registrations, ∀ j' ∈ J.registrations, j.reporter = j'.reporter → j = j'

/-- The same job later on: its number only grows, a result stays as it is, and what was observed
to be under way does not go back to being merely registered. -/
structure ReportedJob.Later (p p' : ReportedJob) : Prop where
  reporter : p'.reporter = p.reporter
  producer : p'.producer = p.producer
  sequence : p.lastSequence ≤ p'.lastSequence
  ended : ¬ Open p.state → p' = p
  begun : 0 < p.lastSequence → p.state ≠ .registered → p'.state ≠ .registered

lemma ReportedJob.Later.refl (p : ReportedJob) : ReportedJob.Later p p :=
  ⟨rfl, rfl, le_rfl, fun _ => rfl, fun _ h => h⟩

lemma ReportedJob.Later.trans {p p' p'' : ReportedJob} (h : ReportedJob.Later p p')
    (h' : ReportedJob.Later p' p'') : ReportedJob.Later p p'' where
  reporter := h'.reporter.trans h.reporter
  producer := h'.producer.trans h.producer
  sequence := h.sequence.trans h'.sequence
  ended hended := by
    obtain rfl := h.ended hended
    exact h'.ended hended
  begun hpos hs := h'.begun (hpos.trans_le h.sequence) (h.begun hpos hs)

/-- Jobs go on, and observations stay. -/
structure Advances (J J' : JobService) : Prop where
  jobs : ∀ k p, J.reports.jobs.get? k = some p →
    ∃ p', J'.reports.jobs.get? k = some p' ∧ ReportedJob.Later p p'
  observations : ∀ o ∈ J.reports.observations, ∃ o' ∈ J'.reports.observations, Reads o o'

lemma Advances.of_eq (h : J'.reports = J.reports) : Advances J J' where
  jobs k p hp := ⟨p, by rw [h]; exact hp, .refl p⟩
  observations o ho := ⟨o, by rw [h]; exact ho, .refl o⟩

lemma Advances.trans {J'' : JobService} (h : Advances J J') (h' : Advances J' J'') :
    Advances J J'' where
  jobs k p hp := by
    obtain ⟨p', hp', hlater⟩ := h.jobs k p hp
    obtain ⟨p'', hp'', hlater'⟩ := h'.jobs k p' hp'
    exact ⟨p'', hp'', hlater.trans hlater'⟩
  observations o ho := by
    obtain ⟨o', ho', hreads⟩ := h.observations o ho
    obtain ⟨o'', ho'', hreads'⟩ := h'.observations o' ho'
    exact ⟨o'', ho'', hreads.trans hreads'⟩

/-- Each effect lets the jobs go on. -/
lemma Effect.advances (he : Effect J J') : Advances J J' := by
  cases he with
  | idle | created | updated | deleted | reserved | released | resolved => exact .of_eq rfl
  | @registered s registrations reports reporters j v hjob _ hreport =>
    simp only [AgentCoordinator.registerJob, bind_eq_ok, okOr_eq_ok, pure_eq_ok] at hreport
    obtain ⟨jobs, hinsert, rfl⟩ := hreport
    obtain ⟨hfree, hget⟩ := Table.insert?_eq_some hinsert
    refine ⟨fun k p hp => ⟨p, (hget k).trans ((if_neg ?_).trans hp), .refl p⟩,
      fun o ho => ⟨o, ho, .refl o⟩⟩
    rintro rfl
    rw [hfree] at hp
    exact absurd hp nofun
  | @observed s observations reporter now input q hchecked hinsert =>
    refine ⟨fun k p hp => ?_, fun o ho => ⟨o, (mem_insert? hinsert o).2 (.inr ho), .refl o⟩⟩
    have hkey : q.reporter = reporter := Table.key_of_get? hchecked.job
    have hput : (J.reports.jobs.put (q.observed input now)).get? k
        = if k = reporter then some (q.observed input now) else J.reports.jobs.get? k := by
      rw [Table.get?_put]
      change (if k = q.reporter then _ else _) = _
      rw [hkey]
    by_cases hk : k = reporter
    · obtain rfl : q = p := Option.some.inj (hchecked.job.symm.trans (hk ▸ hp))
      refine ⟨q.observed input now, hput.trans (if_pos hk), rfl, rfl, hchecked.later.le,
        fun hended => absurd hchecked.notEnded hended, fun hpos _ hs => ?_⟩
      exact absurd (hchecked.first hs) (not_le.2 hpos)
    · exact ⟨p, hput.trans ((if_neg hk).trans hp), .refl p⟩
  | @compacted cutoff now limit =>
    refine ⟨fun k p hp => ⟨p, hp, .refl p⟩, fun o ho => ?_⟩
    obtain ⟨o', ho', hreads, -⟩ := (compacted_rows cutoff now limit).2 o ho
    exact ⟨o', ho', hreads⟩
  | restored =>
    refine ⟨fun k p hp => ?_, fun o ho => ⟨o, ho, .refl o⟩⟩
    refine ⟨_, (get?_restoreReports k).trans (congrArg (Option.map _) hp), ?_⟩
    beta_reduce
    split_ifs with hs
    · refine ⟨rfl, rfl, le_rfl, fun hended => absurd ?_ hended, fun _ _ => nofun⟩
      rcases hs with hs | hs <;> rw [hs] <;> decide
    · exact .refl p

/-- Each effect keeps jobs and observations in agreement. -/
lemma Evidenced.effect (h : Evidenced J.reports) (he : Effect J J') : Evidenced J'.reports := by
  cases he with
  | idle | created | updated | deleted | reserved | released | resolved => exact h
  | registered _ _ hreport => exact h.registered hreport
  | observed hchecked hinsert => exact h.observed hchecked hinsert
  | compacted => exact h.compacted _ _ _
  | restored => exact h.restored

/-- Each effect keeps the reports of the jobs apart. -/
lemma Reported.effect (h : Reported J) (he : Effect J J') : Reported J' := by
  have hadvances := he.advances
  have hold : ∀ j ∈ J.registrations, ∃ p, J'.reports.jobs.get? j.reporter = some p ∧
      p.producer = j.producer := by
    intro j hj
    obtain ⟨p, hp, hproducer⟩ := h.report j hj
    obtain ⟨p', hp', hlater⟩ := hadvances.jobs _ p hp
    exact ⟨p', hp', hlater.producer.trans hproducer⟩
  cases he with
  | idle | created | updated | deleted | reserved | released | observed | compacted | restored =>
    exact ⟨hold, h.distinct⟩
  | @resolved s reservation actor now input v hrow hheld =>
    have hmem : ∀ j ∈ J.registrations.modify
        (fun j => j.reservation = reservation ∧ J.Unfinished j)
        (Registration.reconcile now actor input) fun _ => rfl,
        ∃ j₀ ∈ J.registrations, (if j₀.reservation = reservation ∧ J.Unfinished j₀ then
          Registration.reconcile now actor input j₀ else j₀) = j ∧ j.reporter = j₀.reporter ∧
          j.producer = j₀.producer := by
      intro j hj
      obtain ⟨j₀, hj₀, rfl⟩ := Table.mem_modify.1 hj
      refine ⟨j₀, hj₀, rfl, ?_⟩
      split_ifs <;> exact ⟨rfl, rfl⟩
    refine ⟨fun j hj => ?_, fun j hj j' hj' hsame => ?_⟩
    · obtain ⟨j₀, hj₀, -, hreporter, hproducer⟩ := hmem j hj
      rw [hreporter, hproducer]
      exact hold j₀ hj₀
    · obtain ⟨j₀, hj₀, rfl, hreporter, -⟩ := hmem j hj
      obtain ⟨j₁, hj₁, rfl, hreporter', -⟩ := hmem j' hj'
      rw [h.distinct j₀ hj₀ j₁ hj₁ (hreporter.symm.trans (hsame.trans hreporter'))]
  | @registered s registrations reports reporters j₁ v hjob _ hreport =>
    have hmem : ∀ j ∈ registrations, j ∈ J.registrations ∨ j = j₁ := by
      intro j hj
      have hrows : j ∈ registrations.rows := hj
      rwa [Table.rows_of_insert? hjob, List.mem_append, List.mem_singleton] at hrows
    simp only [AgentCoordinator.registerJob, bind_eq_ok, okOr_eq_ok, pure_eq_ok] at hreport
    obtain ⟨jobs, hinsert, rfl⟩ := hreport
    obtain ⟨hfree, hget⟩ := Table.insert?_eq_some hinsert
    have hnew : ∀ j ∈ J.registrations, j.reporter ≠ j₁.reporter := by
      intro j hj heq
      obtain ⟨p, hp, -⟩ := h.report j hj
      rw [heq] at hp
      exact absurd (hfree.symm.trans hp) nofun
    refine ⟨fun j hj => ?_, fun j hj j' hj' hsame => ?_⟩
    · rcases hmem j hj with hj | rfl
      · exact hold j hj
      · exact ⟨_, (hget _).trans (if_pos rfl), rfl⟩
    · rcases hmem j hj with hj | rfl <;> rcases hmem j' hj' with hj' | rfl
      · exact h.distinct j hj j' hj' hsame
      · exact absurd hsame (hnew j hj)
      · exact absurd hsame.symm (hnew j' hj')
      · rfl

end Runs

end Jobs

end AgentCoordinator
