import AgentCoordinator.Decisions
import AgentCoordinator.Library.Batches
import AgentCoordinator.Policy
import AgentCoordinator.Scenario

/-
The timeout of decisions.

A decision waits for its answer while its status is `pending`, and that status looks at the rules
text and the judged fields of its scope. The sweep, and `answer_decision`, look at revisions. And
the sweep reads its batch before it looks at any scope. So the timeout does what it promises
exactly when revisions and content agree on the scope of every decision that waits, and no
decision has a whole batch of decisions before it that the sweep passes over (`timeoutLaw_iff`).
-/

namespace AgentCoordinator

open Guarded Tabular

variable {k k' : Docket} {row row' : Docketed} {d : DecisionRecord} {c : DecisionCycle}

/-! ### Scopes -/

/-- The policy and the affected tasks have the revisions the cycle recorded. -/
def Docket.sameRevisions (k : Docket) (row : Docketed) : Prop :=
  (k.db.projects.get? row.1.project).any (fun p => p.policyRevision = row.2.policyRevision) = true ∧
    ¬ ∃ dt ∈ k.affectedBy row.1.id row.1.currentGeneration, k.taskStale row.1.project dt

instance (k : Docket) : DecidablePred k.sameRevisions :=
  fun row => by unfold Docket.sameRevisions; infer_instance

/-- The rules text and the judged fields are those the cycle was opened under. -/
def Docket.sameContent (k : Docket) (row : Docketed) : Prop :=
  decisionScopeChanged k row.1.id row.1.currentGeneration = .ok false

instance (k : Docket) : DecidablePred k.sameContent :=
  fun row => decidable_of_iff ((decisionScopeChanged k row.1.id row.1.currentGeneration).toOption =
    some false) toOption_eq_some

/-- The scope the sweep accepts. -/
def Docket.scopeCurrent (k : Docket) (row : Docketed) : Prop :=
  ¬ row.2.expired k.db.now ∧ k.sameRevisions row

instance (k : Docket) : DecidablePred k.scopeCurrent :=
  fun row => by unfold Docket.scopeCurrent; infer_instance

lemma ensureDecisionScopeCurrent_eq_ok :
    ensureDecisionScopeCurrent k row.1.project row.1.id row.1.currentGeneration row.2 = .ok () ↔
      k.scopeCurrent row := by
  simp only [ensureDecisionScopeCurrent, bind_eq_ok, refuseIf_eq_ok, okOr_eq_ok,
    Docket.scopeCurrent, Docket.sameRevisions, ne_eq, not_not]
  constructor
  · rintro ⟨-, hexpired, p, hp, -, hpolicy, htasks⟩
    exact ⟨hexpired, by simp [hp, hpolicy], htasks⟩
  · rintro ⟨hexpired, hpolicy, htasks⟩
    obtain ⟨p, hp, hrevision⟩ := (Option.any_eq_true _ _).1 hpolicy
    exact ⟨⟨⟩, hexpired, p, hp, ⟨⟩, by simpa using hrevision, htasks⟩

/-- The view of a decision that other handlers read is stale exactly when its scope changed. -/
theorem decisionStale_scoped {b : Bool} (hd : k.decisions.get? d.id = some d)
    (hc : k.cycles.get? (d.id, d.currentGeneration) = some c)
    (h : decisionScopeChanged k d.id d.currentGeneration = .ok b) :
    k.db.decisionStale (k.scoped d c) = b := by
  simp only [decisionScopeChanged, bind_eq_ok, okOr_eq_ok, pure_eq_ok, hd, hc,
    Option.some.injEq, exists_eq_left'] at h
  obtain ⟨p, hp, rfl⟩ := h
  have hid : p.id = d.project := Table.key_of_get? hp
  simp only [Db.decisionStale, Docket.scoped, hp, Option.any_some, Db.rulesChanged, hid,
    List.any_map]
  rfl

/-! ### Waiting decisions -/

lemma mem_current : row ∈ k.current ↔ k.decisions.get? row.1.id = some row.1 ∧
    k.cycles.get? (answerKey row) = some row.2 := by
  simp only [Docket.current, List.mem_filterMap, Option.map_eq_some_iff]
  constructor
  · rintro ⟨d, hd, c, hc, rfl⟩
    exact ⟨Table.get?_of_mem hd, hc⟩
  · rintro ⟨hd, hc⟩
    exact ⟨row.1, Table.mem_of_get? hd, row.2, hc, rfl⟩

lemma findDecision_of_mem (h : row ∈ k.current) :
    k.findDecision row.1.project row.1.id = some row.1 := by
  simp [Docket.findDecision, (mem_current.1 h).1]

/-- An unanswered decision is pending while it is not expired and its content is the same. -/
lemma decisionStatus_pending_iff (h : row ∈ k.current)
    (hfree : k.answers.get? (answerKey row) = none) :
    decisionStatus k row.1.project row.1.id = .ok .pending ↔
      ¬ row.2.expired k.db.now ∧ k.sameContent row := by
  have hcycle : k.cycles.get? (row.1.id, row.1.currentGeneration) = some row.2 :=
    (mem_current.1 h).2
  have hanswer : k.answers.get? (row.1.id, row.1.currentGeneration) = none := hfree
  simp only [decisionStatus, bind_eq_ok, okOr_eq_ok, pure_eq_ok, findDecision_of_mem h,
    Option.some.injEq, exists_eq_left', hcycle, hanswer, Option.map_none, Option.getD_none,
    Docket.sameContent]
  constructor
  · rintro ⟨stale, hstale, hstatus⟩
    cases stale with
    | true => simp at hstatus
    | false =>
      by_cases hexpired : row.2.expired k.db.now
      · simp [hexpired] at hstatus
      · exact ⟨hexpired, hstale⟩
  · rintro ⟨hexpired, hsame⟩
    exact ⟨false, hsame, by simp [hexpired]⟩

/-- A well-formed answer of the required actor, given directly or relayed, to the current
generation. -/
structure Docket.Suits (k : Docket) (row : Docketed) (actor : Actor) (input : AnswerInput) :
    Prop where
  valid : validateAnswer input = .ok ()
  generation : input.expectedGeneration = row.1.currentGeneration
  required : ∃ authority,
    answerAuthority k.db actor row.1.project row.1.requiredActor input.relay = .ok authority
  session : actor.kind = .agent → actor.session ≠ none
  option : input.answer ∈ row.1.options

/-- Such an answer is accepted exactly when the scope has its revisions. -/
lemma answerDecision_iff {actor : Actor} {input : AnswerInput} (h : row ∈ k.current)
    (hfree : k.answers.get? (answerKey row) = none) (hsuits : k.Suits row actor input) :
    (∃ k', answerDecision k actor row.1.project row.1.id input = .ok k') ↔ k.scopeCurrent row := by
  have hcycle : k.cycles.get? (row.1.id, row.1.currentGeneration) = some row.2 :=
    (mem_current.1 h).2
  obtain ⟨authority, hauthority⟩ := hsuits.required
  rw [← ensureDecisionScopeCurrent_eq_ok]
  simp only [answerDecision, bind_eq_ok, okOr_eq_ok, refuseIf_eq_ok, pure_eq_ok, hsuits.valid,
    findDecision_of_mem h, Option.some.injEq, exists_eq_left', hcycle, hauthority,
    Except.ok.injEq, exists_const, hsuits.generation, hsuits.option]
  constructor
  · rintro ⟨_, -, -, -, _, hscope, -⟩
    exact hscope
  · intro hscope
    obtain ⟨answers, hinsert, -⟩ := Table.insert?_of_free
      (r := givenAnswer k.db.now actor row.1.id row.1.currentGeneration authority input) hfree
    exact ⟨_, trivial, fun hne => hne rfl, fun hnone => hsuits.session hnone.1 hnone.2, ⟨⟩, hscope,
      not_not.2 trivial, answers, hinsert, rfl⟩

/-! ### The rows of the sweep -/

/-- What sweeps leave of a docket: it differs in its answers, its events and its clock. -/
def Docket.swept (k : Docket) (now : Time) (events : List Event) (answers : Table DecisionAnswer) :
    Docket :=
  { k with answers := answers, db := { k.db with now := now, events := events } }

/-- The sweep answers the rows of its batch whose scope is current, and these only. -/
lemma foldlM_timeOutRow (rows : List Docketed) : ∀ (k : Docket) (ids : List Id),
    (rows.map answerKey).Nodup → (∀ row ∈ rows, k.answers.get? (answerKey row) = none) →
    ∃ events answers, rows.foldlM timeOutRow (k, ids) = .ok (k.swept k.db.now events answers,
        ids ++ (rows.filter (fun row => k.scopeCurrent row)).map (·.1.id)) ∧
      answers.rows = k.answers.rows ++
        (rows.filter (fun row => k.scopeCurrent row)).map (timeoutAnswer k.db.now) := by
  induction rows with
  | nil =>
    intro k ids _ _
    exact ⟨k.db.events, k.answers, by simp [Docket.swept, pure, Except.pure], by simp⟩
  | cons row rows ih =>
    intro k ids hnodup hfree
    rw [List.map_cons, List.nodup_cons] at hnodup
    by_cases hscope : k.scopeCurrent row
    · obtain ⟨A, hinsert, hrows⟩ := Table.insert?_of_free
        (r := timeoutAnswer k.db.now row) (hfree row List.mem_cons_self)
      have hstep : timeOutRow (k, ids) row = .ok (k.swept k.db.now (k.db.events ++
          [⟨row.1.createdBy, "decision.timed_out", row.1.id, k.db.now⟩]) A,
          ids ++ [row.1.id]) := by
        simp [timeOutRow, ensureDecisionScopeCurrent_eq_ok.2 hscope, hinsert, okOr, bind,
          Except.bind, pure, Except.pure, Docket.swept]
      have hfree' : ∀ row' ∈ rows, A.get? (answerKey row') = none := by
        intro row' hrow'
        rw [(Table.insert?_eq_some hinsert).2, if_neg]
        · exact hfree row' (List.mem_cons_of_mem _ hrow')
        · exact fun hkey => hnodup.1 (List.mem_map.2 ⟨row', hrow', hkey⟩)
      obtain ⟨events, answers, hrun, hanswers⟩ := ih (k.swept k.db.now _ A) (ids ++ [row.1.id])
        hnodup.2 hfree'
      refine ⟨events, answers, ?_, ?_⟩
      · rw [List.foldlM_cons, hstep]
        refine hrun.trans ?_
        rw [List.filter_cons_of_pos (by simpa using hscope), List.map_cons, List.append_assoc]
        rfl
      · rw [hanswers]
        change A.rows ++ _ = _
        rw [hrows, List.filter_cons_of_pos (by simpa using hscope), List.map_cons,
          List.append_assoc]
        rfl
    · have hstep : timeOutRow (k, ids) row = .ok (k, ids) := by
        cases hensure : ensureDecisionScopeCurrent k row.1.project row.1.id
            row.1.currentGeneration row.2 with
        | error e => simp [timeOutRow, hensure]
        | ok u => exact absurd (ensureDecisionScopeCurrent_eq_ok.1 hensure) hscope
      obtain ⟨events, answers, hrun, hanswers⟩ := ih k ids hnodup.2
        fun row' hrow' => hfree row' (List.mem_cons_of_mem _ hrow')
      refine ⟨events, answers, ?_, ?_⟩
      · rw [List.foldlM_cons, hstep, List.filter_cons_of_neg (by simpa using hscope)]
        exact hrun
      · rw [hanswers, List.filter_cons_of_neg (by simpa using hscope)]

/-- A row comes before another in the sweep's order. -/
def dueBefore (row row' : Docketed) : Prop :=
  row.2.createdAt < row'.2.createdAt ∨
    (row.2.createdAt = row'.2.createdAt ∧ row.1.id < row'.1.id)

instance : DecidableRel dueBefore := fun row row' => by unfold dueBefore; infer_instance

lemma dueBefore_asymm (row row' : Docketed) (h : dueBefore row row') : ¬ dueBefore row' row := by
  unfold dueBefore at *
  rintro (hlt | ⟨heq, hlt⟩) <;> rcases h with hlt' | ⟨heq', hlt'⟩
  · exact absurd (hlt.trans hlt') (lt_irrefl _)
  · exact absurd heq' hlt.ne'
  · exact absurd heq hlt'.ne'
  · exact absurd (hlt.trans hlt') (lt_irrefl _)

lemma createdAt_le (h : dueBefore row row') : row.2.createdAt ≤ row'.2.createdAt := by
  rcases h with hlt | ⟨heq, -⟩
  · exact hlt.le
  · exact heq.le

instance : Std.Total dueOrder where
  total row row' := by
    unfold dueOrder
    rcases lt_trichotomy row.2.createdAt row'.2.createdAt with h | h | h
    · exact .inl (.inl h)
    · rcases Nat.le_total row.1.id row'.1.id with hid | hid
      · exact .inl (.inr ⟨h, hid⟩)
      · exact .inr (.inr ⟨h.symm, hid⟩)
    · exact .inr (.inl h)

instance : IsTrans Docketed dueOrder where
  trans row row' row'' h h' := by
    unfold dueOrder at *
    rcases h with h | ⟨h, hid⟩ <;> rcases h' with h' | ⟨h', hid'⟩
    · exact .inl (h.trans h')
    · exact .inl (h' ▸ h)
    · exact .inl (h ▸ h')
    · exact .inr ⟨h.trans h', Nat.le_trans hid hid'⟩

lemma mem_due : row ∈ k.due ↔ row ∈ k.current ∧ k.isDue row := by
  simp [Docket.due, List.mem_insertionSort]

/-- A decision has one current cycle. -/
lemma eq_of_current (h : row ∈ k.current) (h' : row' ∈ k.current) (hid : row.1.id = row'.1.id) :
    row = row' := by
  obtain ⟨hd, hc⟩ := mem_current.1 h
  obtain ⟨hd', hc'⟩ := mem_current.1 h'
  rw [hid, hd'] at hd
  have hrecord : row'.1 = row.1 := Option.some.inj hd
  rw [answerKey, ← hrecord] at hc
  exact Prod.ext hrecord.symm (Option.some.inj (hc.symm.trans hc'))

lemma nodup_current (k : Docket) : (k.current.map (·.1.id)).Nodup := by
  have hsub : ∀ rows : List DecisionRecord,
      (((rows.filterMap (fun d =>
        (k.cycles.get? (d.id, d.currentGeneration)).map (fun c => (d, c)))).map (·.1.id))).Sublist
        (rows.map DecisionRecord.id) := by
    intro rows
    induction rows with
    | nil => exact List.Sublist.refl _
    | cons d rows ih =>
      rw [List.filterMap_cons]
      cases hc : k.cycles.get? (d.id, d.currentGeneration) with
      | none => exact ih.cons _
      | some c => exact ih.cons_cons _
  exact (hsub _).nodup k.decisions.nodup

/-- The queue of the sweep is strictly sorted. -/
lemma pairwise_due (k : Docket) : k.due.Pairwise dueBefore := by
  have hsorted : k.due.Pairwise dueOrder := List.pairwise_insertionSort dueOrder _
  have hnodup : (k.due.map (·.1.id)).Nodup := by
    have hperm := (List.perm_insertionSort dueOrder
      (k.current.filter (fun row => k.isDue row))).map (·.1.id)
    exact hperm.nodup_iff.2 ((nodup_current k).sublist (List.filter_sublist.map _))
  refine (hsorted.and (List.pairwise_map.1 hnodup)).imp fun {row row'} h => ?_
  rcases h.1 with hlt | ⟨heq, hid⟩
  · exact .inl hlt
  · exact .inr ⟨heq, lt_of_le_of_ne hid h.2⟩

/-- The batch of one sweep. -/
def Docket.batch (k : Docket) : List Docketed := k.due.take sweepBatch

/-- A ready sweep at a safe clock answers the rows of its batch whose scope is current. -/
theorem sweep_ok (hready : k.db.ext.coordinationState = .ready) (hclock : k.db.clockIncident = false) :
    ∃ events answers, sweepTimedOutDecisions k = .ok (k.swept k.db.now events answers,
        (k.batch.filter (fun row => k.scopeCurrent row)).map (·.1.id)) ∧
      answers.rows = k.answers.rows ++
        (k.batch.filter (fun row => k.scopeCurrent row)).map (timeoutAnswer k.db.now) := by
  have hfree : ∀ row ∈ k.batch, k.answers.get? (answerKey row) = none := by
    intro row hrow
    exact Option.isNone_iff_eq_none.1 (mem_due.1 (List.mem_of_mem_take hrow)).2.2.2.2.2
  have hnodup : (k.batch.map answerKey).Nodup := by
    refine (List.pairwise_map.2 ?_)
    refine ((pairwise_due k).sublist (List.take_sublist _ _)).imp_of_mem fun {row row'} hr hr' h => ?_
    intro hkey
    obtain rfl := eq_of_current (mem_due.1 (List.mem_of_mem_take hr)).1
      (mem_due.1 (List.mem_of_mem_take hr')).1 (congrArg Prod.fst hkey)
    exact dueBefore_asymm _ _ h h
  obtain ⟨events, answers, hrun, hanswers⟩ := foldlM_timeOutRow k.batch k [] hnodup hfree
  refine ⟨events, answers, ?_, hanswers⟩
  simp only [sweepTimedOutDecisions, hclock, hready, Bool.false_eq_true, refuseIf, if_true, if_false]
  exact hrun

/-! ### Sweeps one after another -/

/-- The docket at another service time. -/
def Docket.atTime (k : Docket) (now : Time) : Docket := { k with db := { k.db with now := now } }

/-- Sweeps at the given times, with no other operation in between. -/
def sweeps (k : Docket) : List Time → Except String Docket
  | [] => .ok k
  | now :: times => do
    let swept ← sweepTimedOutDecisions (k.atTime now)
    sweeps swept.1 times

/-- The docket after a sweep. -/
def Docket.afterSweep (k : Docket) (now : Time) : Docket :=
  ((sweepTimedOutDecisions (k.atTime now)).toOption.map Prod.fst).getD k

/-- The docket after the first `n` sweeps. -/
def Docket.afterSweeps (k : Docket) (times : Nat → Time) : Nat → Docket
  | 0 => k
  | n + 1 => (k.afterSweeps times n).afterSweep (times n)

/-- The service is ready and its clock is safe. -/
structure Docket.Ready (k : Docket) : Prop where
  state : k.db.ext.coordinationState = .ready
  clock : k.db.clockIncident = false

lemma afterSweep_eq (hready : k.Ready) (now : Time) : ∃ events answers ids,
    sweepTimedOutDecisions (k.atTime now) = .ok (k.swept now events answers, ids) ∧
      k.afterSweep now = k.swept now events answers ∧
      answers.rows = k.answers.rows ++ ((k.atTime now).batch.filter
        (fun row => (k.atTime now).scopeCurrent row)).map (timeoutAnswer now) := by
  obtain ⟨events, answers, hsweep, hanswers⟩ := sweep_ok (k := k.atTime now) hready.state hready.clock
  refine ⟨events, answers, _, hsweep, ?_, hanswers⟩
  rw [Docket.afterSweep, hsweep]
  rfl

lemma afterSweeps_eq (hready : k.Ready) (times : Nat → Time) (n : Nat) :
    ∃ now events answers, k.afterSweeps times n = k.swept now events answers := by
  induction n with
  | zero => exact ⟨k.db.now, k.db.events, k.answers, rfl⟩
  | succ n ih =>
    obtain ⟨now, events, answers, hn⟩ := ih
    have hready' : (k.swept now events answers).Ready := ⟨hready.state, hready.clock⟩
    obtain ⟨events', answers', -, -, hstep, -⟩ := afterSweep_eq hready' (times n)
    refine ⟨times n, events', answers', ?_⟩
    rw [Docket.afterSweeps, hn, hstep]
    rfl

/-- A row is on the docket after the sweeps exactly when it is before them. -/
lemma mem_current_afterSweeps (hready : k.Ready) (times : Nat → Time) (n : Nat) (now : Time) :
    row ∈ ((k.afterSweeps times n).atTime now).current ↔ row ∈ k.current := by
  obtain ⟨_, _, _, hn⟩ := afterSweeps_eq hready times n
  rw [hn]
  exact Iff.rfl

lemma ready_afterSweeps (hready : k.Ready) (times : Nat → Time) (n : Nat) :
    (k.afterSweeps times n).Ready := by
  obtain ⟨_, _, _, hn⟩ := afterSweeps_eq hready times n
  rw [hn]
  exact ⟨hready.state, hready.clock⟩

lemma sweeps_append (times : List Time) (now : Time) (k k' : Docket)
    (h : sweeps k times = .ok k') (hready : k'.Ready) :
    sweeps k (times ++ [now]) = .ok (k'.afterSweep now) := by
  induction times generalizing k with
  | nil =>
    obtain rfl : k = k' := by simpa [sweeps] using h
    obtain ⟨events, answers, ids, hsweep, hafter, -⟩ := afterSweep_eq hready now
    rw [List.nil_append, sweeps, hsweep, hafter]
    rfl
  | cons t times ih =>
    rw [sweeps, bind_eq_ok] at h
    obtain ⟨swept, hsweep, hrest⟩ := h
    rw [List.cons_append, sweeps, hsweep]
    exact ih swept.1 hrest

/-- The sweeps never fail. -/
lemma sweeps_eq (hready : k.Ready) (times : Nat → Time) (n : Nat) :
    sweeps k ((List.range n).map times) = .ok (k.afterSweeps times n) := by
  induction n with
  | zero => rfl
  | succ n ih =>
    rw [List.range_succ, List.map_append, List.map_singleton]
    exact sweeps_append _ _ _ _ ih (ready_afterSweeps hready times n)

/-- Times at which the docket may be swept before any cycle runs out that has not yet. -/
structure Docket.Quiet (k : Docket) (times : Nat → Time) : Prop where
  later : ∀ n, k.db.now ≤ times n
  unexpired : ∀ n, ∀ c ∈ k.cycles, ¬ c.expired k.db.now → ¬ c.expired (times n)

lemma Docket.Quiet.const (k : Docket) : k.Quiet (fun _ => k.db.now) :=
  ⟨fun _ => le_rfl, fun _ _ _ h => h⟩

section Progress

variable {times : Nat → Time} {n : Nat}

lemma scopeCurrent_afterSweeps (hready : k.Ready) (hquiet : k.Quiet times) (h : row ∈ k.current) :
    ((k.afterSweeps times n).atTime (times n)).scopeCurrent row ↔ k.scopeCurrent row := by
  obtain ⟨_, _, _, hn⟩ := afterSweeps_eq hready times n
  rw [hn]
  have hcycle := Table.mem_of_get? (mem_current.1 h).2
  refine and_congr_left fun _ => ⟨fun hfresh hexpired => hfresh ?_, ?_⟩
  · unfold DecisionCycle.expired at hexpired ⊢
    obtain ⟨e, he, hle⟩ := (Option.any_eq_true _ _).1 hexpired
    rw [he]
    exact decide_eq_true ((of_decide_eq_true hle).trans (hquiet.later n))
  · exact hquiet.unexpired n _ hcycle

/-- A sweep answers a row exactly when it is in its batch and its scope is current. -/
lemma free_afterSweep (hready : k.Ready) {now : Time} (h : row ∈ k.current) :
    (k.afterSweep now).answers.get? (answerKey row) = none ↔
      k.answers.get? (answerKey row) = none ∧
        ¬ (row ∈ (k.atTime now).batch ∧ (k.atTime now).scopeCurrent row) := by
  obtain ⟨events, answers, ids, -, hafter, hrows⟩ := afterSweep_eq hready now
  rw [hafter]
  change answers.get? _ = none ↔ _
  rw [Table.get?_eq_none_iff, Table.get?_eq_none_iff, hrows, List.map_append, List.mem_append,
    not_or]
  refine and_congr_right fun _ => not_congr ?_
  simp only [List.map_map, List.mem_map, List.mem_filter, decide_eq_true_eq]
  constructor
  · rintro ⟨row', ⟨hbatch, hscope⟩, hkey⟩
    have hmem : row' ∈ k.current := (mem_due.1 (List.mem_of_mem_take hbatch)).1
    obtain rfl := eq_of_current hmem h (congrArg Prod.fst hkey)
    exact ⟨hbatch, hscope⟩
  · rintro ⟨hbatch, hscope⟩
    exact ⟨row, ⟨hbatch, hscope⟩, rfl⟩

/-- What makes a row due besides waiting for an answer. -/
def Docket.eligible (k : Docket) (row : Docketed) : Prop :=
  row ∈ k.current ∧ row.1.reversible = true ∧ row.1.recommendation ≠ none ∧
    (row.1.requiredActor ≠ .human ∨
      (k.db.ext.principals.get? row.2.openedBy).any (fun o => o.kind = .human) = true)

/-- A row that waited long enough is due at a later sweep unless it is answered. -/
lemma mem_due_afterSweeps (hready : k.Ready) (hquiet : k.Quiet times)
    (hwaited : row.2.createdAt ≤ k.db.now - decisionTimeoutMs) :
    row ∈ ((k.afterSweeps times n).atTime (times n)).due ↔
      k.eligible row ∧ (k.afterSweeps times n).answers.get? (answerKey row) = none := by
  have hwaited' := hwaited.trans (Int.sub_le_sub_right (hquiet.later n) _)
  have hprincipals : (k.afterSweeps times n).db.ext = k.db.ext := by
    obtain ⟨_, _, _, hn⟩ := afterSweeps_eq hready times n
    rw [hn]
    rfl
  rw [mem_due, mem_current_afterSweeps hready]
  constructor
  · rintro ⟨hcurrent, hreversible, hrecommended, -, hopener, hfree⟩
    rw [Docket.atTime, hprincipals] at hopener
    exact ⟨⟨hcurrent, hreversible, hrecommended, hopener⟩, Option.isNone_iff_eq_none.1 hfree⟩
  · rintro ⟨⟨hcurrent, hreversible, hrecommended, hopener⟩, hfree⟩
    refine ⟨hcurrent, hreversible, hrecommended, hwaited', ?_, Option.isNone_iff_eq_none.2 hfree⟩
    rw [Docket.atTime, hprincipals]
    exact hopener

lemma free_afterSweeps (hready : k.Ready) (hquiet : k.Quiet times) (h : row ∈ k.current) :
    (k.afterSweeps times (n + 1)).answers.get? (answerKey row) = none ↔
      (k.afterSweeps times n).answers.get? (answerKey row) = none ∧
        ¬ (row ∈ ((k.afterSweeps times n).atTime (times n)).batch ∧ k.scopeCurrent row) := by
  have hcurrent := (mem_current_afterSweeps hready times n (times n)).2 h
  rw [← scopeCurrent_afterSweeps (n := n) hready hquiet h]
  exact free_afterSweep (ready_afterSweeps hready times n) hcurrent

/-- The sweeps serve their queue in batches. -/
lemma rounds (hready : k.Ready) (hquiet : k.Quiet times) (h : row ∈ k.due) :
    Batches.Rounds dueBefore sweepBatch k.scopeCurrent row
      (fun n => ((k.afterSweeps times n).atTime (times n)).due) where
  sorted n := pairwise_due _
  start := by
    obtain ⟨hcurrent, hreversible, hrecommended, hwaited, hopener, hfree⟩ := mem_due.1 h
    exact (mem_due_afterSweeps hready hquiet hwaited).2
      ⟨⟨hcurrent, hreversible, hrecommended, hopener⟩, Option.isNone_iff_eq_none.1 hfree⟩
  stays n hn hout := by
    obtain ⟨hcurrent, -, -, hwaited, -⟩ := mem_due.1 h
    obtain ⟨heligible, hfree⟩ := (mem_due_afterSweeps hready hquiet hwaited).1 hn
    refine (mem_due_afterSweeps hready hquiet hwaited).2 ⟨heligible, ?_⟩
    exact (free_afterSweeps hready hquiet hcurrent).2 ⟨hfree, fun hbatch => hout hbatch.1⟩
  before n row' hbefore := by
    have hwaited := (createdAt_le hbefore).trans (mem_due.1 h).2.2.2.1
    rw [mem_due_afterSweeps hready hquiet hwaited, mem_due_afterSweeps hready hquiet hwaited]
    constructor
    · rintro ⟨heligible, hfree⟩
      obtain ⟨hfree', hout⟩ := (free_afterSweeps hready hquiet heligible.1).1 hfree
      exact ⟨⟨heligible, hfree'⟩, hout⟩
    · rintro ⟨⟨heligible, hfree⟩, hout⟩
      exact ⟨heligible, (free_afterSweeps hready hquiet heligible.1).2 ⟨hfree, hout⟩⟩

/-- A due row with a current scope is answered at some time exactly when the sweep passes over
less than a batch of those before it. -/
theorem answered_iff (hready : k.Ready) (hquiet : k.Quiet times) (h : row ∈ k.due)
    (hscope : k.scopeCurrent row) :
    (∃ n, (k.afterSweeps times n).answers.get? (answerKey row) ≠ none) ↔
      k.due.countP (fun row' => dueBefore row' row ∧ ¬ k.scopeCurrent row') < sweepBatch := by
  obtain ⟨hcurrent, -, -, hwaited, -, hfree⟩ := mem_due.1 h
  have hrounds := rounds hready hquiet h
  have hcount := Batches.countP_congr (p := fun row' => dueBefore row' row ∧ ¬ k.scopeCurrent row')
    (hrounds.nodup dueBefore_asymm 0) ((pairwise_due k).imp fun {row row'} hlt => by
      rintro rfl
      exact dueBefore_asymm _ _ hlt hlt) fun row' hrow' => by
    have hwaited' := (createdAt_le hrow'.1).trans hwaited
    exact (mem_due_afterSweeps hready hquiet hwaited').trans
      (mem_due_afterSweeps hready (Docket.Quiet.const k) (n := 0) hwaited').symm
  rw [← hcount, ← hrounds.reached_iff dueBefore_asymm]
  constructor
  · rintro ⟨n, hn⟩
    by_contra hnever
    push Not at hnever
    refine hn ?_
    clear hn
    induction n with
    | zero => exact Option.isNone_iff_eq_none.1 hfree
    | succ n ih =>
      exact (free_afterSweeps hready hquiet hcurrent).2 ⟨ih, fun hbatch => hnever n hbatch.1⟩
  · rintro ⟨n, hn⟩
    exact ⟨n + 1, fun hnone =>
      ((free_afterSweeps hready hquiet hcurrent).1 hnone).2 ⟨hn, hscope⟩⟩

end Progress

/-! ### Answers are kept -/

/-- Answers are only ever added. -/
lemma Docket.Step.answers (h : k.Step k') : k.answers.rows <+: k'.answers.rows := by
  cases h with
  | swept _ answered h =>
    simp only [sweepTimedOutDecisions, bind_eq_ok, refuseIf_eq_ok, ite_eq_ok, pure_eq_ok] at h
    obtain ⟨-, -, ⟨-, hrun⟩ | ⟨-, hsame⟩⟩ := h
    · suffices hmain : ∀ (rows : List Docketed) (swept swept' : Docket × List Id),
          rows.foldlM timeOutRow swept = .ok swept' →
          swept.1.answers.rows <+: swept'.1.answers.rows from hmain _ _ _ hrun
      intro rows
      induction rows with
      | nil =>
        intro swept swept' hrun
        obtain rfl : swept = swept' := by simpa [pure, Except.pure] using hrun
        exact List.prefix_rfl
      | cons row rows ih =>
        intro swept swept' hrun
        rw [List.foldlM_cons, bind_eq_ok] at hrun
        obtain ⟨middle, hrow, hrest⟩ := hrun
        refine List.IsPrefix.trans ?_ (ih _ _ hrest)
        cases hscope : ensureDecisionScopeCurrent swept.1 row.1.project row.1.id
            row.1.currentGeneration row.2 with
        | error e =>
          obtain rfl : swept = middle := by simpa [timeOutRow, hscope] using hrow
          exact List.prefix_rfl
        | ok u =>
          simp only [timeOutRow, hscope, bind_eq_ok, okOr_eq_ok, pure_eq_ok] at hrow
          obtain ⟨A, hinsert, rfl⟩ := hrow
          exact ⟨_, (Table.rows_of_insert? hinsert).symm⟩
    · rw [Prod.mk.injEq] at hsame
      rw [← hsame.1]
  | answered auth actor project id input _ ha h =>
    simp only [answerDecision, bind_eq_ok, okOr_eq_ok, pure_eq_ok] at h
    obtain ⟨-, -, d, -, c, -, -, -, authority, -, -, -, -, -, -, -, answers, hinsert, rfl⟩ := h
    exact ⟨_, (Table.rows_of_insert? hinsert).symm⟩
  | created auth actor project input _ ha h =>
    simp only [createDecision, bind_eq_ok, pure_eq_ok] at h
    obtain ⟨-, -, -, -, -, -, -, -, s, -, cycles, -, rfl⟩ := h
    exact List.prefix_rfl
  | reopened auth actor project id generation input _ ha h =>
    simp only [reopenDecision, bind_eq_ok, pure_eq_ok] at h
    obtain ⟨-, -, -, -, d, -, -, -, -, -, -, -, s, -, cycles, -, rfl⟩ := h
    exact List.prefix_rfl
  | elsewhere s => exact List.prefix_rfl

lemma Docket.Steps.answers (h : k.Steps k') : k.answers.rows <+: k'.answers.rows := by
  induction h with
  | refl => exact List.prefix_rfl
  | step _ h' ih => exact ih.trans h'.answers

/-! ### The law of the timeout -/

/-- A decision the timeout is for: reversible, with a recommendation, waiting for 24 hours in its
current generation, opened by a human where it requires one, and pending. -/
structure Docket.Qualifies (k : Docket) (row : Docketed) : Prop where
  current : row ∈ k.current
  reversible : row.1.reversible = true
  recommended : row.1.recommendation ≠ none
  waited : row.2.createdAt ≤ k.db.now - decisionTimeoutMs
  opener : row.1.requiredActor ≠ .human ∨
    (k.db.ext.principals.get? row.2.openedBy).any (fun o => o.kind = .human) = true
  unanswered : k.answers.get? (answerKey row) = none
  pending : decisionStatus k row.1.project row.1.id = .ok .pending

/-- What the timeout of decisions promises. -/
structure Docket.TimeoutLaw (k : Docket) : Prop where
  /-- A sweep answers decisions it is for, with their recommendation, and no others. -/
  only : ∀ k' answered, sweepTimedOutDecisions k = .ok (k', answered) → ∃ rows : List Docketed,
    (∀ row ∈ rows, k.Qualifies row) ∧ answered = rows.map (·.1.id) ∧
      k'.answers.rows = k.answers.rows ++ rows.map (timeoutAnswer k.db.now)
  /-- Sweeps, with no other operation between them, answer every decision they are for. -/
  every : ∀ row, k.Qualifies row → ∀ times, k.Quiet times →
    ∃ n k', sweeps k ((List.range n).map times) = .ok k' ∧ k'.answers.get? (answerKey row) ≠ none
  /-- A decision waits for an answer exactly when its scope is current to the sweep, and exactly
  when an answer of the required actor is accepted. -/
  pending : ∀ row ∈ k.current, k.answers.get? (answerKey row) = none →
    (ensureDecisionScopeCurrent k row.1.project row.1.id row.1.currentGeneration row.2 = .ok () ↔
      decisionStatus k row.1.project row.1.id = .ok .pending) ∧
    ∀ actor input, k.Suits row actor input →
      ((∃ k', answerDecision k actor row.1.project row.1.id input = .ok k') ↔
        decisionStatus k row.1.project row.1.id = .ok .pending)
  /-- In every run, a generation of a decision gets one answer and keeps it. -/
  once : ∀ k', k.Steps k' → k.answers.rows <+: k'.answers.rows ∧
    (k'.answers.rows.map (fun a => (a.decision, a.generation))).Nodup

/-- Every unanswered decision that is not expired has the recorded revisions exactly when it has
the recorded content. -/
def Docket.ScopesAgree (k : Docket) : Prop :=
  ∀ row ∈ k.current, k.answers.get? (answerKey row) = none → ¬ row.2.expired k.db.now →
    (k.sameRevisions row ↔ k.sameContent row)

/-- No decision the timeout is for has a batch of due decisions before it whose scope is not
current. -/
def Docket.Uncrowded (k : Docket) : Prop :=
  ∀ row, k.Qualifies row →
    k.due.countP (fun row' => dueBefore row' row ∧ ¬ k.scopeCurrent row') < sweepBatch

lemma scopeCurrent_iff_pending (hagree : k.ScopesAgree) (h : row ∈ k.current)
    (hfree : k.answers.get? (answerKey row) = none) :
    k.scopeCurrent row ↔ decisionStatus k row.1.project row.1.id = .ok .pending := by
  rw [decisionStatus_pending_iff h hfree]
  exact and_congr_right fun hexpired => hagree row h hfree hexpired

lemma Docket.Qualifies.due (h : k.Qualifies row) : row ∈ k.due :=
  mem_due.2 ⟨h.current, h.reversible, h.recommended, h.waited, h.opener,
    Option.isNone_iff_eq_none.2 h.unanswered⟩

/-- Under the law the revisions of a waiting decision move exactly when its content changes. -/
lemma Docket.TimeoutLaw.scopesAgree (hlaw : k.TimeoutLaw) : k.ScopesAgree := by
  intro row hrow hfree hexpired
  have hpending := (hlaw.pending row hrow hfree).1
  rw [ensureDecisionScopeCurrent_eq_ok, decisionStatus_pending_iff hrow hfree] at hpending
  exact and_congr_right_iff.1 hpending hexpired

/-- At a ready service with a safe clock the timeout does what it promises exactly when revisions
and content agree on the scopes of waiting decisions, and none is behind a whole batch that the
sweep passes over. -/
theorem timeoutLaw_iff (hready : k.Ready) : k.TimeoutLaw ↔ k.ScopesAgree ∧ k.Uncrowded := by
  constructor
  · intro hlaw
    have hagree := hlaw.scopesAgree
    refine ⟨hagree, fun row hrow => ?_⟩
    obtain ⟨n, k', hrun, hanswered⟩ := hlaw.every row hrow _ (Docket.Quiet.const k)
    rw [sweeps_eq hready] at hrun
    obtain rfl := Except.ok.inj hrun
    refine (answered_iff hready (Docket.Quiet.const k) hrow.due ?_).1 ⟨n, hanswered⟩
    exact (scopeCurrent_iff_pending hagree hrow.current hrow.unanswered).2 hrow.pending
  · rintro ⟨hagree, hroom⟩
    refine ⟨?_, ?_, ?_, ?_⟩
    · intro k' answered hsweep
      obtain ⟨events, answers, hsweep', hrows⟩ := sweep_ok hready.state hready.clock
      rw [hsweep'] at hsweep
      obtain ⟨rfl, rfl⟩ := Prod.mk.inj (Except.ok.inj hsweep)
      refine ⟨_, fun row hrow => ?_, rfl, hrows⟩
      rw [List.mem_filter, decide_eq_true_eq] at hrow
      obtain ⟨hcurrent, hreversible, hrecommended, hwaited, hopener, hfree⟩ :=
        mem_due.1 (List.mem_of_mem_take hrow.1)
      have hfree' := Option.isNone_iff_eq_none.1 hfree
      exact ⟨hcurrent, hreversible, hrecommended, hwaited, hopener, hfree',
        (scopeCurrent_iff_pending hagree hcurrent hfree').1 hrow.2⟩
    · intro row hrow times hquiet
      have hscope := (scopeCurrent_iff_pending hagree hrow.current hrow.unanswered).2 hrow.pending
      obtain ⟨n, hn⟩ := (answered_iff hready hquiet hrow.due hscope).2 (hroom row hrow)
      exact ⟨n, _, sweeps_eq hready times n, hn⟩
    · intro row hrow hfree
      rw [ensureDecisionScopeCurrent_eq_ok]
      refine ⟨scopeCurrent_iff_pending hagree hrow hfree, fun actor input hsuits => ?_⟩
      rw [answerDecision_iff hrow hfree hsuits]
      exact scopeCurrent_iff_pending hagree hrow hfree
    · exact fun k' hrun => ⟨hrun.answers, k'.answers.nodup⟩

/-! ### A decision, and a policy update that keeps the rules -/

/-- A reversible question about a task. -/
def question : DecisionInput where
  question := "Rename the module?"
  options := ["yes", "no"]
  requiredActor := .either
  recommendation := some "yes"
  reversible := true
  opening :=
    { rationale := "The name is misleading."
      affected := [⟨1, 1⟩]
      policyRevision := 1
      environment := ""
      conditions := ""
      expiresAt := none }

/-- The operator of the scenario. -/
def asker : Actor := ⟨1, .human, .operator, none, some 1, none⟩

/-- The question, a day after it was asked. -/
def asked : Option Docket :=
  (createDecision ⟨Scenario.service .none, .empty, .empty, [], .empty⟩ asker 1 question).toOption.map
    (fun k => k.atTime (k.db.now + decisionTimeoutMs))

/-- A policy update that changes the lease alone. -/
def longerLease : PolicyInput where
  expectedRevision := 1
  reviewMode := .none
  recoveryMode := .agent
  leaseSeconds := 900
  rules := ""
  provenance := ""
  agentRuleEditing := false
  automaticIntegration := true
  allowSubagentReviews := none
  integrationOwner := none
  maxAttemptSeconds := none
  allowRelayedHumanAnswers := none

/-- The question, after the lease of the project was changed. -/
def askedBefore : Option Docket :=
  asked.bind (fun k => (updatePolicy k.db asker 1 longerLease).toOption.map
    (fun s => { k with db := s }))

set_option maxRecDepth 20000 in
/-- The question of a day ago is answered by the sweep. -/
theorem timeoutLaw_asked : ∃ k : Docket, asked = some k ∧ k.TimeoutLaw := by
  obtain ⟨k, hk, h⟩ := exists_of_any (o := asked) (p := fun k => decide
    (k.db.ext.coordinationState = .ready ∧ k.db.clockIncident = false ∧ k.due.length = 1 ∧
      ∀ row ∈ k.current, k.sameRevisions row ∧ k.sameContent row)) (by decide +kernel)
  obtain ⟨hstate, hclock, hlength, hsame⟩ := of_decide_eq_true h
  refine ⟨k, hk, (timeoutLaw_iff ⟨hstate, hclock⟩).2 ⟨fun row hrow _ _ => ?_, fun row _ => ?_⟩⟩
  · exact iff_of_true (hsame row hrow).1 (hsame row hrow).2
  · refine lt_of_le_of_lt List.countP_le_length ?_
    rw [hlength]
    decide

set_option maxRecDepth 20000 in
/-- After a change of the lease it is still pending, and the sweep passes over it for good. -/
theorem timeoutLaw_fails : ∃ k : Docket, askedBefore = some k ∧ k.Ready ∧ ¬ k.TimeoutLaw := by
  obtain ⟨k, hk, h⟩ := exists_of_any (o := askedBefore) (p := fun k => decide
    (k.db.ext.coordinationState = .ready ∧ k.db.clockIncident = false ∧ ∃ row ∈ k.current,
      k.answers.get? (answerKey row) = none ∧ ¬ row.2.expired k.db.now ∧ ¬ k.sameRevisions row ∧
        k.sameContent row)) (by decide +kernel)
  obtain ⟨hstate, hclock, row, hrow, hfree, hexpired, hrevisions, hcontent⟩ := of_decide_eq_true h
  exact ⟨k, hk, ⟨hstate, hclock⟩, fun hlaw =>
    hrevisions ((hlaw.scopesAgree row hrow hfree hexpired).2 hcontent)⟩

end AgentCoordinator
