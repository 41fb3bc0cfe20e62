import AgentCoordinator.Board.Coherent

/-
Every move keeps a board coherent.

One lemma for each move; together they say that coherence is an invariant of moves, and so of every
sequence of them.
-/

namespace AgentCoordinator

namespace Board

open Maps

variable {b : Board}

/-! ### Tasks -/

lemma Coherent.retask (h : Coherent b) {tasks : Id → Option Task}
    (old : ∀ k t, b.tasks k = some t → ∃ t', tasks k = some t' ∧ b.Retask k t t') :
    Coherent { b with tasks := tasks } where
  toWired :=
    { h.toWired with
      activityTask := by
        intro a wa hwa
        obtain ⟨t, ht, hproject, hkind⟩ := h.activityTask a wa hwa
        obtain ⟨t', ht', hr⟩ := old _ t ht
        exact ⟨t', ht', hr.project.trans hproject, (hr.kind ⟨a, wa, hwa, rfl⟩).trans hkind⟩
      subjectTask := by
        intro k ws hws
        obtain ⟨t, ht, hproject⟩ := h.subjectTask k ws hws
        obtain ⟨t', ht', hr⟩ := old _ t ht
        exact ⟨t', ht', hr.project.trans hproject⟩ }
  __ := h
  asleep := by
    intro a wa ws hwa hkind hws hcurrent hphase
    obtain ⟨hstate, ⟨t, ht, hblocked, howned⟩, hrest⟩ := h.asleep a wa ws hwa hkind hws hcurrent hphase
    obtain ⟨t', ht', hr⟩ := old _ t ht
    obtain ⟨hb, ho⟩ := hr.asleep ⟨a, wa, ws, hwa, hkind, rfl, hws, hcurrent, hphase⟩
    exact ⟨hstate, ⟨t', ht', hb.trans hblocked, ho.trans howned⟩, hrest⟩
  settled := by
    intro k ws t' hws hphase htask ht'
    obtain ⟨t, ht, -⟩ := h.subjectTask k ws hws
    obtain ⟨t'', ht'', hr⟩ := old _ t ht
    obtain rfl : t'' = t' := Option.some.inj (ht''.symm.trans ht')
    have howned := h.settled k ws t hws hphase htask ht
    by_contra hne
    rcases hr.owned (by simpa using hne) with h₁ | h₁ | h₁
    · exact absurd h₁ (by rw [howned]; simp)
    · exact htask h₁
    · exact hphase (h₁ ws hws)

/-! ### Submissions -/

lemma Wired.submit (h : Wired b) {k id : Id} {t : Task} {u : Candidate} {ws : Subject}
    (task : b.tasks k = some t) (fresh : b.submissions id = none) (uTask : u.task = k)
    (code : u.kind = .code → t.kind = .code) (project : ws.project = t.project)
    (same : u.project = ws.project) (current : ws.current = id) :
    Wired
      { b with
        submissions := Function.update b.submissions id (some u)
        subjects := Function.update b.subjects k (some ws) } where
  __ := h
  activitySubmission := by
    intro a wa hwa
    obtain ⟨u', hu', hrest⟩ := h.activitySubmission a wa hwa
    exact ⟨u', update_of_fresh fresh hu', hrest⟩
  activitySubject := by
    intro a wa hwa
    obtain ⟨ws', hws'⟩ := h.activitySubject a wa hwa
    by_cases hk : wa.subjectTask = k
    · exact ⟨ws, by simp [hk]⟩
    · exact ⟨ws', by simpa [hk] using hws'⟩
  subjectTask := by
    intro k' ws' hws'
    rcases update_eq_some.1 hws' with ⟨rfl, rfl⟩ | ⟨-, hold⟩
    · exact ⟨t, task, project.symm⟩
    · exact h.subjectTask k' ws' hold
  subjectSubmission := by
    intro k' ws' hws'
    rcases update_eq_some.1 hws' with ⟨rfl, rfl⟩ | ⟨-, hold⟩
    · exact ⟨u, by simp [current], uTask⟩
    · obtain ⟨u', hu', htask⟩ := h.subjectSubmission k' ws' hold
      exact ⟨u', update_of_fresh fresh hu', htask⟩
  subjectProject := by
    intro k' ws' u' hws' hu'
    rcases update_eq_some.1 hws' with ⟨rfl, rfl⟩ | ⟨-, hold⟩
    · obtain rfl : u' = u := by simpa [current] using hu'.symm
      exact same
    · obtain ⟨u'', hu'', -⟩ := h.subjectSubmission k' ws' hold
      obtain rfl := Option.some.inj (hu'.symm.trans (update_of_fresh fresh hu''))
      exact h.subjectProject k' ws' u' hold hu''
  submissionSubject := by
    intro id' u' hu'
    by_cases hk : u'.task = k
    · exact ⟨ws, by simp [hk]⟩
    · rcases update_eq_some.1 hu' with ⟨-, rfl⟩ | ⟨-, hold⟩
      · exact absurd uTask hk
      · obtain ⟨ws', hws'⟩ := h.submissionSubject id' u' hold
        exact ⟨ws', by simpa [hk] using hws'⟩
  codeTask := by
    intro id' u' hu' hcode
    rcases update_eq_some.1 hu' with ⟨-, rfl⟩ | ⟨-, hold⟩
    · -- a code task is not an activity's: those are general
      rintro ⟨a, wa, hwa, htask⟩
      obtain ⟨t', ht', -, hgeneral⟩ := h.activityTask a wa hwa
      rw [htask, uTask, task] at ht'
      obtain rfl := Option.some.inj ht'
      rw [code hcode] at hgeneral
      exact absurd hgeneral (by simp)
    · exact h.codeTask id' u' hold hcode
  holdActivity := by
    intro hd row hrow
    obtain ⟨wa, u', hwa, hkind, hu', hrest⟩ := h.holdActivity hd row hrow
    exact ⟨wa, u', hwa, hkind, update_of_fresh fresh hu', hrest⟩

lemma Coherent.submit (h : Coherent b) {k id : Id} {t : Task} {u : Candidate} {ws : Subject}
    (out : ∀ ws, b.subjects k = some ws → ws.phase = .revisionNeeded)
    (task : b.tasks k = some t) (owned : t.owned = false) (awake : ¬ b.Asleep k)
    (fresh : b.submissions id = none) (uTask : u.task = k) (standing : u.superseded = false)
    (code : u.kind = .code → t.kind = .code) (project : ws.project = t.project)
    (same : u.project = ws.project) (current : ws.current = id) (phase : ws.phase ≠ .revisionNeeded)
    (integration : ws.phase = .integration → u.kind = .code) :
    Coherent
      { b with
        submissions := Function.update b.submissions id (some u)
        subjects := Function.update b.subjects k (some ws) } where
  toWired := h.toWired.submit task fresh uTask code project same current
  __ := h
  current := by
    intro id' u' hu' hstanding
    rcases update_eq_some.1 hu' with ⟨rfl, rfl⟩ | ⟨-, hold⟩
    · exact ⟨ws, by simp [uTask], current⟩
    · obtain ⟨ws', hws', hcur⟩ := h.current id' u' hold hstanding
      by_cases hk : u'.task = k
      · -- the old submission of this task was superseded
        rw [hk] at hws'
        have hrev := (h.revision k ws' u' hws' (by rw [hcur]; exact hold)).1 (out ws' hws')
        rw [hstanding] at hrev
        exact absurd hrev (by simp)
      · exact ⟨ws', by simpa [hk] using hws', hcur⟩
  revision := by
    intro k' ws' u' hws' hu'
    rcases update_eq_some.1 hws' with ⟨rfl, rfl⟩ | ⟨-, hold⟩
    · rw [current] at hu'
      simp only [Function.update_self, Option.some.injEq] at hu'
      subst hu'
      simp [phase, standing]
    · obtain ⟨u'', hu'', -⟩ := h.subjectSubmission k' ws' hold
      obtain rfl := Option.some.inj ((update_of_fresh fresh hu'').symm.trans hu')
      exact h.revision k' ws' u'' hold hu''
  integrationPhase := by
    intro k' ws' u' hws' hu' hphase
    rcases update_eq_some.1 hws' with ⟨rfl, rfl⟩ | ⟨-, hold⟩
    · rw [current] at hu'
      simp only [Function.update_self, Option.some.injEq] at hu'
      subst hu'
      exact integration hphase
    · obtain ⟨u'', hu'', -⟩ := h.subjectSubmission k' ws' hold
      obtain rfl := Option.some.inj ((update_of_fresh fresh hu'').symm.trans hu')
      exact h.integrationPhase k' ws' u'' hold hu'' hphase
  asleep := by
    intro a wa ws' hwa hkind hws' hcur hphase
    obtain ⟨u', hu', -⟩ := h.activitySubmission a wa hwa
    rcases update_eq_some.1 hws' with ⟨-, rfl⟩ | ⟨-, hold⟩
    · -- the new submission has no activity yet
      rw [← hcur, current, fresh] at hu'
      exact absurd hu' (by simp)
    · obtain ⟨hstate, htask, hnone, hrest⟩ := h.asleep a wa ws' hwa hkind hold hcur hphase
      have hne : wa.task ≠ k := by
        rintro rfl
        exact awake ⟨a, wa, ws', hwa, hkind, rfl, hold, hcur, hphase⟩
      exact ⟨hstate, htask, by simpa [hne] using hnone, hrest⟩
  settled := by
    intro k' ws' t' hws' hphase htask ht'
    rcases update_eq_some.1 hws' with ⟨rfl, rfl⟩ | ⟨-, hold⟩
    · obtain rfl := Option.some.inj (task.symm.trans ht')
      exact owned
    · exact h.settled k' ws' t' hold hphase htask ht'
  completedVerdict := by
    intro a wa hwa hkind hstate
    obtain ⟨v, hv, hsuper⟩ := h.completedVerdict a wa hwa hkind hstate
    refine ⟨v, hv, fun hrejected u' hu' => ?_⟩
    obtain ⟨u'', hu'', -⟩ := h.activitySubmission a wa hwa
    obtain rfl := Option.some.inj ((update_of_fresh fresh hu'').symm.trans hu')
    exact hsuper hrejected u'' hu''

/-! ### Activities change state -/

/-- An activity's task is asleep only when the activity is an integration in review. -/
lemma Wired.not_asleep (h : Wired b) {a : Id} {wa : Activity} (hwa : b.activities a = some wa)
    (hne : wa.kind = .integration → ∀ ws, b.subjects wa.subjectTask = some ws →
      ws.current = wa.submission → ws.phase ≠ .review) : ¬ b.Asleep wa.task := by
  rintro ⟨a', wa', ws, hwa', hkind, htask, hws, hcur, hphase⟩
  obtain rfl := h.ownTask a' a wa' wa hwa' hwa htask
  obtain rfl := Option.some.inj (hwa'.symm.trans hwa)
  exact hne hkind ws hws hcur hphase

/-- The task of a subject does not sleep. -/
lemma Coherent.awake_of_subject (h : Coherent b) {k : Id} {ws : Subject}
    (hws : b.subjects k = some ws) : ¬ b.Asleep k := by
  rintro ⟨a, wa, ws', hwa, hkind, rfl, hws', hcur, hphase⟩
  rw [(h.asleep a wa ws' hwa hkind hws' hcur hphase).2.2.1] at hws
  exact absurd hws (by simp)

lemma Coherent.setState (h : Coherent b) {p : Id → Activity → Prop} [∀ a wa, Decidable (p a wa)]
    (state : ActivityState)
    (live : ∀ a wa, b.activities a = some wa → p a wa → wa.state.Live)
    (awake : ∀ a wa, b.activities a = some wa → p a wa → ¬ b.Asleep wa.task)
    (recovery : state = .recoveryRequired → ∀ a wa, b.activities a = some wa → p a wa →
      b.intended a)
    (completed : state = .completed → ∀ a wa, b.activities a = some wa → p a wa →
      wa.kind = .integration) :
    Coherent { b with activities := b.setState p state } where
  toWired := h.toWired.of_same rfl related_setState (sameCandidates _) (sameSubjects _)
    (sameHolds _) rfl h.reconciledIntent
  __ := h
  reconciledLive := by
    intro a wa' hrec hwa'
    rcases of_alter hwa' with ⟨wa, hwa, hp, rfl⟩ | ⟨hwa, -⟩
    · exact absurd (live a wa hwa hp) (h.reconciledLive a wa hrec hwa)
    · exact h.reconciledLive a wa' hrec hwa
  recoveryIntent := by
    intro a wa' hwa' hstate
    rcases of_alter hwa' with ⟨wa, hwa, hp, rfl⟩ | ⟨hwa, -⟩
    · exact recovery hstate a wa hwa hp
    · exact h.recoveryIntent a wa' hwa hstate
  openUnique := by
    -- an activity that is open now was open before
    have hopen : ∀ a wa', b.setState p state a = some wa' → b.Open a wa' →
        ∃ wa, b.activities a = some wa ∧ SameActivity wa wa' ∧ b.Open a wa := by
      intro a wa' hwa' ho
      rcases of_alter hwa' with ⟨wa, hwa, hp, rfl⟩ | ⟨hwa, -⟩
      · exact ⟨wa, hwa, rfl, .inl (live a wa hwa hp)⟩
      · exact ⟨wa', hwa, rfl, ho⟩
    intro a a' wa wa' hwa hwa' hkind hkind' hsub ho ho'
    obtain ⟨w, hw, hs, hopen₁⟩ := hopen a wa hwa ho
    obtain ⟨w', hw', hs', hopen₂⟩ := hopen a' wa' hwa' ho'
    rw [SameActivity] at hs hs'
    rw [hs] at hkind hsub
    rw [hs'] at hkind' hsub
    exact h.openUnique a a' w w' hw hw' hkind hkind' hsub hopen₁ hopen₂
  asleep := by
    intro a wa' ws hwa' hkind hws hcur hphase
    rcases of_alter hwa' with ⟨wa, hwa, hp, rfl⟩ | ⟨hwa, -⟩
    · exact absurd ⟨a, wa, ws, hwa, hkind, rfl, hws, hcur, hphase⟩ (awake a wa hwa hp)
    · exact h.asleep a wa' ws hwa hkind hws hcur hphase
  locked := by
    intro a ha
    rcases h.locked a ha with ⟨wa, hwa, hstate⟩ | hrest
    · refine .inl ⟨wa, alter_of_neg hwa fun hp => ?_, hstate⟩
      exact absurd (live a wa hwa hp) (by rw [hstate]; decide)
    · exact .inr hrest
  settled := by
    intro k ws t hws hphase htask ht
    exact h.settled k ws t hws hphase (fun ha => htask ((activityTask_iff related_setState).2 ha)) ht
  verdictActivity := by
    intro a v hv
    obtain ⟨wa, hwa, hstate, hrest⟩ := h.verdictActivity a v hv
    refine ⟨wa, alter_of_neg hwa fun hp => ?_, hstate, hrest⟩
    exact absurd (live a wa hwa hp) (by rw [hstate]; decide)
  completedVerdict := by
    intro a wa' hwa' hkind hstate
    rcases of_alter hwa' with ⟨wa, hwa, hp, rfl⟩ | ⟨hwa, -⟩
    · exact absurd (completed hstate a wa hwa hp) hkind
    · exact h.completedVerdict a wa' hwa hkind hstate

/-- A review completes with its verdict; one that rejects has its submission superseded. -/
lemma Coherent.completeReview (h : Coherent b) {a : Id} {wa : Activity} {v : Verdict}
    {k : PrincipalKind} (activity : b.activities a = some wa) (kind : wa.kind ≠ .integration)
    (live : wa.state.Live) (submission : v.submission = wa.submission)
    (reviewer : v.reviewer = some k) (fit : fits wa.kind k)
    (rejected : v.approved = false → ∀ u, b.submissions wa.submission = some u →
      u.superseded = true) :
    Coherent
      { b with
        activities := b.setState (only a) .completed
        verdicts := Function.update b.verdicts a (some v) } := by
  have hat : b.setState (only a) .completed a = some { wa with state := .completed } :=
    alter_of_pos activity rfl
  have hne : ∀ a' wa', a' ≠ a → (b.setState (only a) .completed a' = some wa' ↔
      b.activities a' = some wa') := by
    intro a' wa' ha
    constructor
    · intro h'
      rcases of_alter h' with ⟨_, _, hp, _⟩ | ⟨h', -⟩
      · exact absurd hp ha
      · exact h'
    · exact fun h' => alter_of_neg h' ha
  have hawake : ¬ b.Asleep wa.task := h.not_asleep activity fun hk => absurd hk kind
  exact
    { h with
      toWired := h.toWired.of_same rfl related_setState (sameCandidates _) (sameSubjects _)
        (sameHolds _) rfl h.reconciledIntent
      reconciledLive := by
        intro a' wa' hrec hwa'
        rcases of_alter hwa' with ⟨_, _, _, rfl⟩ | ⟨hwa, -⟩
        · exact (by decide : ¬ ActivityState.completed.Live)
        · exact h.reconciledLive a' wa' hrec hwa
      recoveryIntent := by
        intro a' wa' hwa' hstate
        rcases of_alter hwa' with ⟨_, _, _, rfl⟩ | ⟨hwa, -⟩
        · exact absurd hstate (by simp)
        · exact h.recoveryIntent a' wa' hwa hstate
      openUnique := by
        intro a₁ a₂ w₁ w₂ hw₁ hw₂ hk₁ hk₂ hsub ho₁ ho₂
        have hold : ∀ x w, b.setState (only a) .completed x = some w → w.kind = .integration →
            b.activities x = some w := by
          intro x w hw hk
          rcases of_alter hw with ⟨w₀, hw₀, rfl, rfl⟩ | ⟨hw, -⟩
          · obtain rfl := Option.some.inj (hw₀.symm.trans activity)
            exact absurd hk kind
          · exact hw
        exact h.openUnique a₁ a₂ w₁ w₂ (hold _ _ hw₁ hk₁) (hold _ _ hw₂ hk₂) hk₁ hk₂ hsub ho₁ ho₂
      asleep := by
        intro a' wa' ws hwa' hkind hws hcur hphase
        rcases of_alter hwa' with ⟨w₀, hw₀, rfl, rfl⟩ | ⟨hwa, -⟩
        · obtain rfl := Option.some.inj (hw₀.symm.trans activity)
          exact absurd hkind kind
        · exact h.asleep a' wa' ws hwa hkind hws hcur hphase
      locked := by
        intro a' ha'
        rcases h.locked a' ha' with ⟨wa', hwa', hstate⟩ | hrest
        · refine .inl ⟨wa', (hne a' wa' ?_).2 hwa', hstate⟩
          rintro rfl
          obtain rfl := Option.some.inj (hwa'.symm.trans activity)
          exact absurd live (by rw [hstate]; decide)
        · exact .inr hrest
      settled := by
        intro k' ws t hws hphase htask ht
        exact h.settled k' ws t hws hphase
          (fun ha => htask ((activityTask_iff related_setState).2 ha)) ht
      verdictActivity := by
        intro a' v' hv'
        rcases update_eq_some.1 hv' with ⟨rfl, rfl⟩ | ⟨hx, hv'⟩
        · exact ⟨_, hat, rfl, kind, submission.symm, k, reviewer, fit⟩
        · obtain ⟨wa', hwa', hrest⟩ := h.verdictActivity a' v' hv'
          exact ⟨wa', (hne a' wa' hx).2 hwa', hrest⟩
      completedVerdict := by
        intro a' wa' hwa' hkind hstate
        by_cases hx : a' = a
        · subst hx
          obtain rfl := Option.some.inj (hat.symm.trans hwa')
          exact ⟨v, by simp, rejected⟩
        · obtain ⟨v', hv', hrest⟩ := h.completedVerdict a' wa' ((hne a' wa' hx).1 hwa') hkind hstate
          exact ⟨v', by simpa [hx] using hv', hrest⟩ }

/-! ### Subjects change phase -/

/-- The rows of a board in which activities changed state. -/
lemma of_setState {p : Id → Activity → Prop} [∀ a wa, Decidable (p a wa)] {state : ActivityState}
    {a : Id} {wa' : Activity} (h : b.setState p state a = some wa') :
    ∃ wa, b.activities a = some wa ∧ SameActivity wa wa' ∧
      ((p a wa ∧ wa'.state = state) ∨ (¬ p a wa ∧ wa' = wa)) := by
  rcases of_alter h with ⟨wa, hwa, hp, rfl⟩ | ⟨hwa, hp⟩
  · exact ⟨wa, hwa, rfl, .inl ⟨hp, rfl⟩⟩
  · exact ⟨wa', hwa, rfl, .inr ⟨hp, rfl⟩⟩

/-- The rows of a board in which one submission was superseded. -/
lemma of_supersede {u id : Id} {c' : Candidate} (h : b.supersede u id = some c') :
    ∃ c, b.submissions id = some c ∧
      ((id = u ∧ c'.superseded = true ∧ SameCandidate c c') ∨ (id ≠ u ∧ c' = c)) := by
  rcases of_alter h with ⟨c, hc, hu, rfl⟩ | ⟨hc, hu⟩
  · exact ⟨c, hc, .inl ⟨hu, rfl, rfl⟩⟩
  · exact ⟨c', hc, .inr ⟨hu, rfl⟩⟩

/-- The rows of a board in which holds were released. -/
lemma of_release {p : Id → Prop} [DecidablePred p] {k : Id} {h' : Hold}
    (h : b.release p k = some h') :
    ∃ h₀, b.holds k = some h₀ ∧ h'.activity = h₀.activity ∧
      ((p h₀.activity ∧ h'.held = false) ∨ (¬ p h₀.activity ∧ h' = h₀)) := by
  rcases of_alter h with ⟨h₀, hh, hp, rfl⟩ | ⟨hh, hp⟩
  · exact ⟨h₀, hh, rfl, .inl ⟨hp, rfl⟩⟩
  · exact ⟨h', hh, rfl, .inr ⟨hp, rfl⟩⟩

lemma release_of_neg {p : Id → Prop} [DecidablePred p] {k : Id} {h₀ : Hold}
    (h : b.holds k = some h₀) (hp : ¬ p h₀.activity) : b.release p k = some h₀ :=
  alter_of_neg h hp

lemma setPhase_eq_none {k k' : Id} {phase : Phase} :
    b.setPhase k phase k' = none ↔ b.subjects k' = none := alter_eq_none

/-- The rows of a board in which one subject changed its phase. -/
lemma of_setPhase {k k' : Id} {phase : Phase} {ws' : Subject}
    (h : b.setPhase k phase k' = some ws') :
    ∃ ws, b.subjects k' = some ws ∧ ws'.current = ws.current ∧
      ((k' = k ∧ ws'.phase = phase) ∨ (k' ≠ k ∧ ws' = ws)) := by
  rcases of_alter h with ⟨ws, hws, hk, rfl⟩ | ⟨hws, hk⟩
  · exact ⟨ws, hws, rfl, .inl ⟨hk, rfl⟩⟩
  · exact ⟨ws', hws, rfl, .inr ⟨hk, rfl⟩⟩

lemma Coherent.setPhase (h : Coherent b) {k : Id} {ws : Subject} {u : Candidate} {phase : Phase}
    (subject : b.subjects k = some ws) (submission : b.submissions ws.current = some u)
    (notRevision : ws.phase ≠ .revisionNeeded)
    (next : phase = .done ∨ (u.kind = .code ∧ phase = .integration)) :
    Coherent { b with subjects := b.setPhase k phase } where
  toWired := h.toWired.of_same rfl (sameActivities _) (sameCandidates _) related_setPhase
    (sameHolds _) rfl h.reconciledIntent
  __ := h
  current := by
    intro id u' hu' hstanding
    obtain ⟨ws₀, hws₀, hcur⟩ := h.current id u' hu' hstanding
    obtain ⟨ws', hws', hs⟩ := related_setPhase.new _ ws₀ hws₀
    exact ⟨ws', hws', by rw [hs]; exact hcur⟩
  revision := by
    intro k' ws' u' hws' hu'
    obtain ⟨ws₀, hws₀, hcur, ⟨rfl, hphase⟩ | ⟨-, rfl⟩⟩ := of_setPhase hws'
    · obtain rfl := Option.some.inj (hws₀.symm.trans subject)
      rw [hcur] at hu'
      obtain rfl := Option.some.inj (hu'.symm.trans submission)
      have hold := h.revision k' ws₀ u' hws₀ submission
      have hne : ws'.phase ≠ .revisionNeeded := by
        rw [hphase]
        rcases next with rfl | ⟨-, rfl⟩ <;> simp
      simp only [hne, false_iff]
      exact fun hsuper => notRevision (hold.2 hsuper)
    · exact h.revision k' ws' u' hws₀ hu'
  integrationPhase := by
    intro k' ws' u' hws' hu' hint
    obtain ⟨ws₀, hws₀, hcur, ⟨rfl, hphase⟩ | ⟨-, rfl⟩⟩ := of_setPhase hws'
    · obtain rfl := Option.some.inj (hws₀.symm.trans subject)
      rw [hcur] at hu'
      obtain rfl := Option.some.inj (hu'.symm.trans submission)
      rcases next with rfl | ⟨hcode, -⟩
      · rw [hphase] at hint
        exact absurd hint (by simp)
      · exact hcode
    · exact h.integrationPhase k' ws' u' hws₀ hu' hint
  asleep := by
    intro a wa ws' hwa hkind hws' hcur hreview
    obtain ⟨ws₀, hws₀, hcur₀, ⟨rfl, hphase⟩ | ⟨-, rfl⟩⟩ := of_setPhase hws'
    · rw [hphase] at hreview
      rcases next with rfl | ⟨-, rfl⟩ <;> exact absurd hreview (by simp)
    · obtain ⟨hstate, htask, hnone, hrest⟩ := h.asleep a wa ws' hwa hkind hws₀ hcur hreview
      exact ⟨hstate, htask, setPhase_eq_none.2 hnone, hrest⟩
  settled := by
    intro k' ws' t hws' hphase' htask ht
    obtain ⟨ws₀, hws₀, -, ⟨rfl, -⟩ | ⟨-, rfl⟩⟩ := of_setPhase hws'
    · obtain rfl := Option.some.inj (hws₀.symm.trans subject)
      exact h.settled k' ws₀ t hws₀ notRevision htask ht
    · exact h.settled k' ws' t hws₀ hphase' htask ht

/-- The current submission is superseded, and its subject is up for revision. -/
lemma Coherent.supersede (h : Coherent b) {k : Id} {ws : Subject}
    (subject : b.subjects k = some ws) :
    Coherent
      { b with
        submissions := b.supersede ws.current
        subjects := b.setPhase k .revisionNeeded } where
  toWired := h.toWired.of_same rfl (sameActivities _) related_supersede related_setPhase
    (sameHolds _) rfl h.reconciledIntent
  __ := h
  current := by
    intro id u' hu' hstanding
    obtain ⟨u₀, hu₀, ⟨-, hsuper, -⟩ | ⟨-, rfl⟩⟩ := of_supersede hu'
    · exact absurd hstanding (by simp [hsuper])
    · obtain ⟨ws₀, hws₀, hcur⟩ := h.current id u' hu₀ hstanding
      obtain ⟨ws', hws', hs⟩ := related_setPhase.new _ ws₀ hws₀
      exact ⟨ws', hws', by rw [hs]; exact hcur⟩
  revision := by
    intro k' ws' u' hws' hu'
    obtain ⟨u₀, hu₀, htask⟩ := h.subjectSubmission k ws subject
    obtain ⟨ws₀, hws₀, hcur, ⟨rfl, hphase⟩ | ⟨hk, rfl⟩⟩ := of_setPhase hws'
    · obtain rfl := Option.some.inj (hws₀.symm.trans subject)
      obtain ⟨-, -, ⟨-, hsuper, -⟩ | ⟨hne, -⟩⟩ := of_supersede hu'
      · simp [hphase, hsuper]
      · exact absurd hcur hne
    · obtain ⟨u₁, hu₁, ⟨heq, -, -⟩ | ⟨-, rfl⟩⟩ := of_supersede hu'
      · -- two subjects with this submission are one
        obtain ⟨u₂, hu₂, htask'⟩ := h.subjectSubmission k' ws' hws₀
        rw [heq] at hu₂
        obtain rfl := Option.some.inj (hu₀.symm.trans hu₂)
        exact absurd (htask'.symm.trans htask) hk
      · exact h.revision k' ws' u' hws₀ hu₁
  integrationPhase := by
    intro k' ws' u' hws' hu' hint
    obtain ⟨ws₀, hws₀, hcur, ⟨rfl, hphase⟩ | ⟨-, rfl⟩⟩ := of_setPhase hws'
    · rw [hphase] at hint
      exact absurd hint (by simp)
    · obtain ⟨u₀, hu₀, hs⟩ := related_supersede.old _ u' hu'
      rw [hs]
      exact h.integrationPhase k' ws' u₀ hws₀ hu₀ hint
  asleep := by
    intro a wa ws' hwa hkind hws' hcur hreview
    obtain ⟨ws₀, hws₀, hcur₀, ⟨rfl, hphase⟩ | ⟨-, rfl⟩⟩ := of_setPhase hws'
    · rw [hphase] at hreview
      exact absurd hreview (by simp)
    · obtain ⟨hstate, htask, hnone, hrest⟩ := h.asleep a wa ws' hwa hkind hws₀ hcur hreview
      exact ⟨hstate, htask, setPhase_eq_none.2 hnone, hrest⟩
  settled := by
    intro k' ws' t hws' hphase' htask ht
    obtain ⟨ws₀, hws₀, -, ⟨rfl, hphase⟩ | ⟨-, rfl⟩⟩ := of_setPhase hws'
    · exact absurd hphase hphase'
    · exact h.settled k' ws' t hws₀ hphase' htask ht
  completedVerdict := by
    intro a wa hwa hkind hstate
    obtain ⟨v, hv, hsuper⟩ := h.completedVerdict a wa hwa hkind hstate
    refine ⟨v, hv, fun hrejected u' hu' => ?_⟩
    obtain ⟨u₀, hu₀, ⟨-, hu₁, -⟩ | ⟨-, rfl⟩⟩ := of_supersede hu'
    · exact hu₁
    · exact hsuper hrejected u' hu₀

/-! ### Holds, intents and reconciliations -/

/-- Holds whose activities have no unsettled intent may be released. -/
lemma Coherent.release (h : Coherent b) {p : Id → Prop} [DecidablePred p]
    (settled : ∀ a, p a → b.intended a → b.reconciled a ∨
      ∃ wa, b.activities a = some wa ∧ wa.state = .completed) :
    Coherent { b with holds := b.release p } where
  toWired := h.toWired.of_same rfl (sameActivities _) (sameCandidates _) (sameSubjects _)
    related_release rfl h.reconciledIntent
  __ := h
  targetUnique := by
    intro h₁ h₂ row row' hrow hrow' hheld hheld' hkey hbranch
    obtain ⟨r, hr, -, ⟨-, hx⟩ | ⟨-, rfl⟩⟩ := of_release hrow
    · exact absurd hheld (by simp [hx])
    · obtain ⟨r', hr', -, ⟨-, hx⟩ | ⟨-, rfl⟩⟩ := of_release hrow'
      · exact absurd hheld' (by simp [hx])
      · exact h.targetUnique h₁ h₂ row row' hr hr' hheld hheld' hkey hbranch
  reconciledHold := by
    intro h₁ row hrec hrow
    obtain ⟨r, hr, -, ⟨-, hx⟩ | ⟨-, rfl⟩⟩ := of_release hrow
    · exact hx
    · exact h.reconciledHold h₁ row hrec hr
  asleep := by
    intro a wa ws hwa hkind hws hcur hphase
    obtain ⟨hstate, htask, hnone, hint, hholds⟩ := h.asleep a wa ws hwa hkind hws hcur hphase
    refine ⟨hstate, htask, hnone, hint, fun h₁ row hrow => ?_⟩
    obtain ⟨row₀, hrow₀, hs⟩ := related_release.old h₁ row hrow
    rw [hs]
    exact hholds h₁ row₀ hrow₀
  locked := by
    intro a ha
    rcases h.locked a ha with hcompleted | hrec | ⟨h₁, row, hrow, hact, hheld⟩
    · exact .inl hcompleted
    · exact .inr (.inl hrec)
    · by_cases hp : p a
      · exact (settled a hp ha).elim (fun hrec => .inr (.inl hrec)) .inl
      · exact .inr (.inr ⟨h₁, row, release_of_neg hrow (by rwa [hact]), hact, hheld⟩)

lemma Coherent.intend (h : Coherent b) {a : Id} {wa : Activity}
    (activity : b.activities a = some wa) (kind : wa.kind = .integration) (live : wa.state.Live)
    (awake : ¬ b.Asleep wa.task)
    (held : ∃ h row, b.holds h = some row ∧ row.activity = a ∧ row.held = true) :
    Coherent { b with intended := fun x => x = a ∨ b.intended x } where
  toWired :=
    { h.toWired with
      intentActivity := by
        rintro a' (rfl | ha')
        · exact ⟨wa, activity, kind⟩
        · exact h.intentActivity a' ha'
      reconciledIntent := fun a' ha' => .inr (h.reconciledIntent a' ha') }
  __ := h
  recoveryIntent := fun a' wa' hwa' hstate => .inr (h.recoveryIntent a' wa' hwa' hstate)
  openUnique := by
    -- the activity was open already, being live
    have hopen : ∀ x w, b.activities x = some w →
        Open { b with intended := fun x => x = a ∨ b.intended x } x w → b.Open x w := by
      rintro x w hw (hl | ⟨rfl | hx, hr⟩)
      · exact .inl hl
      · obtain rfl := Option.some.inj (hw.symm.trans activity)
        exact .inl live
      · exact .inr ⟨hx, hr⟩
    intro a₁ a₂ w₁ w₂ hw₁ hw₂ hk₁ hk₂ hsub ho₁ ho₂
    exact h.openUnique a₁ a₂ w₁ w₂ hw₁ hw₂ hk₁ hk₂ hsub (hopen _ _ hw₁ ho₁) (hopen _ _ hw₂ ho₂)
  asleep := by
    intro a' wa' ws hwa' hkind hws hcur hphase
    obtain ⟨hstate, htask, hnone, hint, hholds⟩ := h.asleep a' wa' ws hwa' hkind hws hcur hphase
    refine ⟨hstate, htask, hnone, ?_, hholds⟩
    rintro (rfl | hi)
    · obtain rfl := Option.some.inj (hwa'.symm.trans activity)
      exact awake ⟨a', wa', ws, hwa', hkind, rfl, hws, hcur, hphase⟩
    · exact hint hi
  locked := by
    rintro a' (rfl | ha')
    · exact .inr (.inr held)
    · exact h.locked a' ha'

/-- The intent of an activity that is not live is reconciled, and its hold released. -/
lemma Coherent.settle (h : Coherent b) {a : Id} (intended : b.intended a)
    (closed : ∀ wa, b.activities a = some wa → ¬ wa.state.Live) :
    Coherent
      { b with
        reconciled := fun x => x = a ∨ b.reconciled x
        holds := b.release (· = a) } where
  toWired := h.toWired.of_same rfl (sameActivities _) (sameCandidates _) (sameSubjects _)
    (related_release (b := b) (p := (· = a))) rfl (by
      rintro a' (rfl | ha')
      · exact intended
      · exact h.reconciledIntent a' ha')
  __ := h
  targetUnique := by
    intro h₁ h₂ row row' hrow hrow' hheld hheld' hkey hbranch
    obtain ⟨r, hr, -, ⟨-, hx⟩ | ⟨-, rfl⟩⟩ := of_release (b := b) (p := (· = a)) hrow
    · exact absurd hheld (by simp [hx])
    · obtain ⟨r', hr', -, ⟨-, hx⟩ | ⟨-, rfl⟩⟩ := of_release (b := b) (p := (· = a)) hrow'
      · exact absurd hheld' (by simp [hx])
      · exact h.targetUnique h₁ h₂ row row' hr hr' hheld hheld' hkey hbranch
  reconciledLive := by
    rintro a' wa' (rfl | ha') hwa'
    · exact closed wa' hwa'
    · exact h.reconciledLive a' wa' ha' hwa'
  reconciledHold := by
    intro h₁ row hrec hrow
    obtain ⟨r, hr, -, ⟨-, hx⟩ | ⟨hp, rfl⟩⟩ := of_release (b := b) (p := (· = a)) hrow
    · exact hx
    · exact h.reconciledHold h₁ row (hrec.resolve_left hp) hr
  openUnique := by
    intro a₁ a₂ w₁ w₂ hw₁ hw₂ hk₁ hk₂ hsub ho₁ ho₂
    exact h.openUnique a₁ a₂ w₁ w₂ hw₁ hw₂ hk₁ hk₂ hsub
      (ho₁.imp_right fun ⟨hi, hr⟩ => ⟨hi, fun hx => hr (.inr hx)⟩)
      (ho₂.imp_right fun ⟨hi, hr⟩ => ⟨hi, fun hx => hr (.inr hx)⟩)
  asleep := by
    intro a' wa' ws hwa' hkind hws hcur hphase
    obtain ⟨hstate, htask, hnone, hint, hholds⟩ := h.asleep a' wa' ws hwa' hkind hws hcur hphase
    refine ⟨hstate, htask, hnone, hint, fun h₁ row hrow => ?_⟩
    obtain ⟨row₀, hrow₀, hact, -⟩ := of_release (b := b) (p := (· = a)) hrow
    rw [hact]
    exact hholds h₁ row₀ hrow₀
  locked := by
    intro a' ha'
    rcases h.locked a' ha' with hcompleted | hrec | ⟨h₁, row, hrow, hact, hheld⟩
    · exact .inl hcompleted
    · exact .inr (.inl (.inr hrec))
    · by_cases hx : a' = a
      · exact .inr (.inl (.inl hx))
      · exact .inr (.inr ⟨h₁, row, release_of_neg (b := b) (p := (· = a)) hrow (by rwa [hact]), hact, hheld⟩)

/-! ### New rows -/

lemma Queued.of_same {b' : Board} {a : Id} {wa : Activity} {t : Task} (h : b.Queued a wa t)
    (tasks : b'.tasks = b.tasks)
    (activities : Related SameActivity b.activities b'.activities) : b'.Queued a wa t where
  __ := h
  newActivity := activities.eq_none.2 h.newActivity
  newTask := by
    rw [tasks]
    exact h.newTask
  slot := by
    intro x w hw hs hk
    obtain ⟨w₀, hw₀, hsame⟩ := activities.old x w hw
    rw [hsame] at hs hk ⊢
    exact h.slot x w₀ hw₀ hs hk

lemma Wired.addActivity (h : Wired b) {a : Id} {wa : Activity} {t : Task} {ws : Subject}
    {u : Candidate} (queued : b.Queued a wa t) (subject : b.subjects wa.subjectTask = some ws)
    (current : ws.current = wa.submission) (submission : b.submissions wa.submission = some u)
    (code : wa.kind = .integration → u.kind = .code) :
    Wired
      { b with
        tasks := Function.update b.tasks wa.task (some t)
        activities := Function.update b.activities a (some wa) } where
  __ := h
  activitySubmission := by
    intro a' wa' hwa'
    rcases update_eq_some.1 hwa' with ⟨rfl, rfl⟩ | ⟨-, hold⟩
    · obtain ⟨u', hu', htask⟩ := h.subjectSubmission _ ws subject
      rw [current] at hu'
      obtain rfl := Option.some.inj (submission.symm.trans hu')
      exact ⟨u, submission, htask, code⟩
    · exact h.activitySubmission a' wa' hold
  activitySubject := by
    intro a' wa' hwa'
    rcases update_eq_some.1 hwa' with ⟨rfl, rfl⟩ | ⟨-, hold⟩
    · exact ⟨ws, subject⟩
    · exact h.activitySubject a' wa' hold
  activityTask := by
    intro a' wa' hwa'
    rcases update_eq_some.1 hwa' with ⟨rfl, rfl⟩ | ⟨-, hold⟩
    · exact ⟨t, by simp, queued.project, queued.kind⟩
    · obtain ⟨t', ht', hrest⟩ := h.activityTask a' wa' hold
      exact ⟨t', update_of_fresh queued.newTask ht', hrest⟩
  ownTask := by
    -- the new task is nobody else's
    have hnew : ∀ a' wa', b.activities a' = some wa' → wa'.task ≠ wa.task := by
      intro a' wa' hwa' heq
      obtain ⟨t', ht', -⟩ := h.activityTask a' wa' hwa'
      rw [heq, queued.newTask] at ht'
      exact absurd ht' (by simp)
    intro a₁ a₂ w₁ w₂ hw₁ hw₂ heq
    rcases update_eq_some.1 hw₁ with ⟨rfl, rfl⟩ | ⟨-, hold₁⟩
    · rcases update_eq_some.1 hw₂ with ⟨rfl, rfl⟩ | ⟨-, hold₂⟩
      · rfl
      · exact absurd heq.symm (hnew a₂ w₂ hold₂)
    · rcases update_eq_some.1 hw₂ with ⟨rfl, rfl⟩ | ⟨-, hold₂⟩
      · exact absurd heq (hnew a₁ w₁ hold₁)
      · exact h.ownTask a₁ a₂ w₁ w₂ hold₁ hold₂ heq
  subjectTask := by
    intro k ws' hws'
    obtain ⟨t', ht', hproject⟩ := h.subjectTask k ws' hws'
    exact ⟨t', update_of_fresh queued.newTask ht', hproject⟩
  codeTask := by
    rintro id u' hu' hcode ⟨a', wa', hwa', htask⟩
    rcases update_eq_some.1 hwa' with ⟨rfl, rfl⟩ | ⟨-, hold⟩
    · obtain ⟨ws', hws'⟩ := h.submissionSubject id u' hu'
      obtain ⟨t', ht', -⟩ := h.subjectTask _ ws' hws'
      rw [← htask, queued.newTask] at ht'
      exact absurd ht' (by simp)
    · exact h.codeTask id u' hu' hcode ⟨a', wa', hold, htask⟩
  holdActivity := by
    intro h₁ row hrow
    obtain ⟨wa', u', hwa', hrest⟩ := h.holdActivity h₁ row hrow
    exact ⟨wa', u', update_of_fresh queued.newActivity hwa', hrest⟩
  intentActivity := by
    intro a' ha'
    obtain ⟨wa', hwa', hkind⟩ := h.intentActivity a' ha'
    exact ⟨wa', update_of_fresh queued.newActivity hwa', hkind⟩

lemma Coherent.addActivity (h : Coherent b) {a : Id} {wa : Activity} {t : Task} {ws : Subject}
    {u : Candidate} (queued : b.Queued a wa t) (subject : b.subjects wa.subjectTask = some ws)
    (current : ws.current = wa.submission) (submission : b.submissions wa.submission = some u)
    (integration : wa.kind = .integration → u.kind = .code ∧
      (ws.phase = .review → t.blocked = true) ∧
      ∀ a' wa', b.activities a' = some wa' → wa'.kind = .integration →
        wa'.submission = wa.submission → ¬ b.Open a' wa') :
    Coherent
      { b with
        tasks := Function.update b.tasks wa.task (some t)
        activities := Function.update b.activities a (some wa) } := by
  have hunintended : ¬ b.intended a := by
    intro hi
    obtain ⟨wa', hwa', -⟩ := h.intentActivity a hi
    rw [queued.newActivity] at hwa'
    exact absurd hwa' (by simp)
  have hunsubject : b.subjects wa.task = none := by
    cases hs : b.subjects wa.task with
    | none => rfl
    | some ws' =>
      obtain ⟨t', ht', -⟩ := h.subjectTask _ ws' hs
      rw [queued.newTask] at ht'
      exact absurd ht' (by simp)
  have hold : ∀ k t', b.tasks k = some t' →
      Function.update b.tasks wa.task (some t) k = some t' := fun _ _ ht =>
    update_of_fresh queued.newTask ht
  exact
    { h with
      toWired := h.toWired.addActivity queued subject current submission fun hk =>
        (integration hk).1
      reconciledLive := by
        intro a' wa' hrec hwa'
        rcases update_eq_some.1 hwa' with ⟨rfl, rfl⟩ | ⟨-, hwa'⟩
        · exact absurd (h.reconciledIntent a' hrec) hunintended
        · exact h.reconciledLive a' wa' hrec hwa'
      recoveryIntent := by
        intro a' wa' hwa' hstate
        rcases update_eq_some.1 hwa' with ⟨rfl, rfl⟩ | ⟨-, hwa'⟩
        · exact absurd hstate (by rw [queued.state]; simp)
        · exact h.recoveryIntent a' wa' hwa' hstate
      openUnique := by
        intro a₁ a₂ w₁ w₂ hw₁ hw₂ hk₁ hk₂ hsub ho₁ ho₂
        rcases update_eq_some.1 hw₁ with ⟨rfl, rfl⟩ | ⟨-, hold₁⟩
        · rcases update_eq_some.1 hw₂ with ⟨rfl, rfl⟩ | ⟨-, hold₂⟩
          · rfl
          · exact absurd ho₂ ((integration hk₁).2.2 a₂ w₂ hold₂ hk₂ hsub.symm)
        · rcases update_eq_some.1 hw₂ with ⟨rfl, rfl⟩ | ⟨-, hold₂⟩
          · exact absurd ho₁ ((integration hk₂).2.2 a₁ w₁ hold₁ hk₁ hsub)
          · exact h.openUnique a₁ a₂ w₁ w₂ hold₁ hold₂ hk₁ hk₂ hsub ho₁ ho₂
      asleep := by
        intro a' wa' ws' hwa' hkind hws' hcur hphase
        rcases update_eq_some.1 hwa' with ⟨rfl, rfl⟩ | ⟨-, hwa'⟩
        · obtain rfl := Option.some.inj (hws'.symm.trans subject)
          refine ⟨queued.state, ⟨t, by simp, (integration hkind).2.1 hphase, queued.owned⟩,
            hunsubject, hunintended, fun h₁ row hrow hact => ?_⟩
          obtain ⟨wa₀, u₀, hwa₀, -⟩ := h.holdActivity h₁ row hrow
          rw [hact, queued.newActivity] at hwa₀
          exact absurd hwa₀ (by simp)
        · obtain ⟨hstate, ⟨t', ht', hrest'⟩, hrest⟩ :=
            h.asleep a' wa' ws' hwa' hkind hws' hcur hphase
          exact ⟨hstate, ⟨t', hold _ _ ht', hrest'⟩, hrest⟩
      locked := by
        intro a' ha'
        rcases h.locked a' ha' with ⟨wa', hwa', hstate⟩ | hrest
        · exact .inl ⟨wa', update_of_fresh queued.newActivity hwa', hstate⟩
        · exact .inr hrest
      settled := by
        intro k ws' t' hws' hphase htask ht'
        obtain ⟨t₀, ht₀, -⟩ := h.subjectTask k ws' hws'
        obtain rfl := Option.some.inj ((hold _ _ ht₀).symm.trans ht')
        refine h.settled k ws' t₀ hws' hphase ?_ ht₀
        rintro ⟨a', wa', hwa', rfl⟩
        exact htask ⟨a', wa', update_of_fresh queued.newActivity hwa', rfl⟩
      verdictActivity := by
        intro a' v hv
        obtain ⟨wa', hwa', hrest⟩ := h.verdictActivity a' v hv
        exact ⟨wa', update_of_fresh queued.newActivity hwa', hrest⟩
      completedVerdict := by
        intro a' wa' hwa' hkind hstate
        rcases update_eq_some.1 hwa' with ⟨rfl, rfl⟩ | ⟨-, hwa'⟩
        · exact absurd hstate (by rw [queued.state]; simp)
        · exact h.completedVerdict a' wa' hwa' hkind hstate }

lemma Coherent.addHold (h : Coherent b) {a k : Id} {row : Hold} {wa : Activity} {u : Candidate}
    (activity : b.activities a = some wa) (kind : wa.kind = .integration)
    (awake : ¬ b.Asleep wa.task) (unreconciled : ¬ b.reconciled a)
    (submission : b.submissions wa.submission = some u) (rowActivity : row.activity = a)
    (fresh : b.Fresh k row u)
    (free : ∀ h' row', b.holds h' = some row' → row'.held = true → row'.key = row.key →
      row'.branch ≠ row.branch) :
    Coherent { b with holds := Function.update b.holds k (some row) } where
  toWired :=
    { h.toWired with
      holdActivity := by
        intro h₁ row' hrow'
        rcases update_eq_some.1 hrow' with ⟨rfl, rfl⟩ | ⟨-, hold⟩
        · exact ⟨wa, u, by rw [rowActivity]; exact activity, kind, submission, fresh.key,
            fresh.branch⟩
        · exact h.holdActivity h₁ row' hold
      ownHold := by
        intro h₁ h₂ r₁ r₂ hr₁ hr₂ heq
        rcases update_eq_some.1 hr₁ with ⟨rfl, rfl⟩ | ⟨-, hold₁⟩
        · rcases update_eq_some.1 hr₂ with ⟨rfl, rfl⟩ | ⟨-, hold₂⟩
          · rfl
          · exact absurd heq.symm (fresh.unowned h₂ r₂ hold₂)
        · rcases update_eq_some.1 hr₂ with ⟨rfl, rfl⟩ | ⟨-, hold₂⟩
          · exact absurd heq (fresh.unowned h₁ r₁ hold₁)
          · exact h.ownHold h₁ h₂ r₁ r₂ hold₁ hold₂ heq }
  __ := h
  targetUnique := by
    intro h₁ h₂ r₁ r₂ hr₁ hr₂ hheld₁ hheld₂ hkey hbranch
    rcases update_eq_some.1 hr₁ with ⟨rfl, rfl⟩ | ⟨-, hold₁⟩
    · rcases update_eq_some.1 hr₂ with ⟨rfl, rfl⟩ | ⟨-, hold₂⟩
      · rfl
      · exact absurd hbranch.symm (free h₂ r₂ hold₂ hheld₂ hkey.symm)
    · rcases update_eq_some.1 hr₂ with ⟨rfl, rfl⟩ | ⟨-, hold₂⟩
      · exact absurd hbranch (free h₁ r₁ hold₁ hheld₁ hkey)
      · exact h.targetUnique h₁ h₂ r₁ r₂ hold₁ hold₂ hheld₁ hheld₂ hkey hbranch
  reconciledHold := by
    intro h₁ row' hrec hrow'
    rcases update_eq_some.1 hrow' with ⟨rfl, rfl⟩ | ⟨-, hold⟩
    · rw [rowActivity] at hrec
      exact absurd hrec unreconciled
    · exact h.reconciledHold h₁ row' hrec hold
  asleep := by
    intro a' wa' ws hwa' hkind hws hcur hphase
    obtain ⟨hstate, htask, hnone, hint, hholds⟩ := h.asleep a' wa' ws hwa' hkind hws hcur hphase
    refine ⟨hstate, htask, hnone, hint, fun h₁ row' hrow' => ?_⟩
    rcases update_eq_some.1 hrow' with ⟨rfl, rfl⟩ | ⟨-, hold⟩
    · rw [rowActivity]
      rintro rfl
      obtain rfl := Option.some.inj (hwa'.symm.trans activity)
      exact awake ⟨a, wa', ws, hwa', hkind, rfl, hws, hcur, hphase⟩
    · exact hholds h₁ row' hold
  locked := by
    intro a' ha'
    rcases h.locked a' ha' with hcompleted | hrec | ⟨h₁, row', hrow', hact, hheld⟩
    · exact .inl hcompleted
    · exact .inr (.inl hrec)
    · exact .inr (.inr ⟨h₁, row', update_of_fresh fresh.newHold hrow', hact, hheld⟩)

/-! ### All moves -/

/-- Activities of one submission have one subject. -/
lemma Wired.same_subject (h : Wired b) {a a' : Id} {wa wa' : Activity}
    (hwa : b.activities a = some wa) (hwa' : b.activities a' = some wa')
    (hsub : wa'.submission = wa.submission) : wa'.subjectTask = wa.subjectTask := by
  obtain ⟨u, hu, htask, -⟩ := h.activitySubmission a wa hwa
  obtain ⟨u', hu', htask', -⟩ := h.activitySubmission a' wa' hwa'
  rw [hsub] at hu'
  obtain rfl := Option.some.inj (hu.symm.trans hu')
  exact htask'.symm.trans htask

/-- Nothing of a subject sleeps once the subject has left review. -/
lemma Wired.awake_of_setPhase (h : Wired b) {k : Id} {phase : Phase} (hphase : phase ≠ .review)
    {a : Id} {wa : Activity} (hwa : b.activities a = some wa) (hk : wa.subjectTask = k) :
    ¬ Asleep { b with subjects := b.setPhase k phase } wa.task := by
  rintro ⟨a', wa', ws', hwa', -, htask, hws', -, hreview⟩
  obtain rfl := h.ownTask a' a wa' wa hwa' hwa htask
  obtain rfl := Option.some.inj (hwa'.symm.trans hwa)
  obtain ⟨-, -, -, ⟨-, hp⟩ | ⟨hne, -⟩⟩ := of_setPhase (b := b) hws'
  · exact hphase (hp.symm.trans hreview)
  · exact hne hk

/-- A live integration whose task is awake is not in review. -/
lemma Pinned.notReview {wa : Activity} {ws : Subject} {u : Candidate} (h : b.Pinned wa ws u)
    {a : Id} (activity : b.activities a = some wa) (kind : wa.kind = .integration)
    (awake : ¬ b.Asleep wa.task) : ws.phase ≠ .review := fun hphase =>
  awake ⟨a, wa, ws, activity, kind, rfl, h.subject, h.current, hphase⟩

/-- Every move keeps a board coherent. -/
theorem Coherent.move {b' : Board} {l : Label} (h : Coherent b) (hmove : Move b l b') :
    Coherent b' := by
  cases hmove with
  | retask old => exact h.retask old
  | submit out task owned awake fresh uTask standing code project same current phase integration =>
    exact h.submit out task owned awake fresh uTask standing code project same current phase
      integration
  | enqueue queued pinned review integration others =>
    refine h.addActivity queued pinned.subject pinned.current pinned.submission fun hk => ?_
    obtain ⟨hcode, hphase, hnone⟩ := integration hk
    refine ⟨hcode, fun hreview => ?_, fun a' wa' hwa' hk' hsub => absurd hk' (hnone a' wa' hwa' hsub)⟩
    rcases hphase with hphase | ⟨-, hblocked⟩
    · rw [hphase] at hreview
      exact absurd hreview (by simp)
    · exact hblocked
  | restate _ notCompleted live awake recovery canceled =>
    exact h.setState _ live awake recovery fun hs => absurd hs notCompleted
  | takeHold activity kind live awake pinned rowActivity fresh free =>
    exact h.addHold activity kind awake
      (fun hrec => h.reconciledLive _ _ hrec activity live) pinned.submission rowActivity fresh free
  | intend activity kind live awake held => exact h.intend activity kind live awake held
  | @releaseIntegration a a' wa wa' t ws u activity kind live awake pinned unintended queued same =>
    obtain ⟨hsubject, hsub, hkind⟩ := same
    have hreleased : Coherent { b with holds := b.release (· = a) } :=
      h.release fun x hx hi => absurd (hx ▸ hi) unintended
    have hcanceled : Coherent
        { b with holds := b.release (· = a), activities := b.setState (only a) .canceled } := by
      refine hreleased.setState _ ?_ ?_ (fun hs => absurd hs (by simp)) (fun hs => absurd hs (by simp))
      · rintro x w hw rfl
        obtain rfl := Option.some.inj (hw.symm.trans activity)
        exact live
      · rintro x w hw rfl
        obtain rfl := Option.some.inj (hw.symm.trans activity)
        exact awake
    have hcode : u.kind = .code := by
      obtain ⟨u', hu', -, hcode⟩ := h.activitySubmission a wa activity
      obtain rfl := Option.some.inj (hu'.symm.trans pinned.submission)
      exact hcode kind
    refine hcanceled.addActivity (u := u) ?_ ?_ (pinned.current.trans hsub.symm) ?_ ?_
    · exact queued.of_same rfl (related_setState (b := b))
    · rw [hsubject]
      exact pinned.subject
    · rw [hsub]
      exact pinned.submission
    · intro _
      refine ⟨hcode, fun hreview => absurd hreview (pinned.notReview activity kind awake), ?_⟩
      -- the released integration was the only open one
      intro x w hw hk hs ho
      obtain ⟨w₀, hw₀, hsame, hcase⟩ := of_setState (b := b) (p := only a) hw
      rcases hcase with ⟨rfl, hstate⟩ | ⟨hne, rfl⟩
      · rcases ho with hl | ⟨hi, -⟩
        · exact absurd hl (by rw [hstate]; decide)
        · exact unintended hi
      · exact hne (h.openUnique x a w wa hw₀ activity hk kind (hs.trans hsub) ho (.inl live))
  | approve activity kind live undecided submission approved reviewer fit =>
    exact h.completeReview activity kind live submission reviewer fit fun hr =>
      absurd hr (by rw [approved]; simp)
  | @advance k ws u phase subject submission notRevision next =>
    have hcanceled : Coherent
        { b with activities := b.setState (queuedReviewOf ws.current) .canceled } := by
      refine h.setState _ ?_ ?_ (fun hs => absurd hs (by simp)) (fun hs => absurd hs (by simp))
      · exact fun _ _ _ hp => .inl hp.2.2
      · exact fun _ _ hw hp => h.not_asleep hw fun hk => absurd hk hp.2.1
    refine hcanceled.setPhase subject submission notRevision ?_
    exact next.imp (fun h' => h'.2) id
  | @sendBack a wa v k ws u activity kind live pinned undecided submission approved reviewer fit =>
    have hsuper := h.supersede pinned.subject
    rw [pinned.current] at hsuper
    have hdecided := hsuper.completeReview (v := v) activity kind live submission reviewer fit (by
      intro _ u' hu'
      obtain ⟨_, _, ⟨-, hs, -⟩ | ⟨hne, -⟩⟩ := of_supersede hu'
      · exact hs
      · exact absurd rfl hne)
    refine hdecided.setState (p := liveOf wa.submission (· = a)) _ (fun _ _ _ hp => hp.2.2) ?_
      (fun hs => absurd hs (by simp)) (fun hs => absurd hs (by simp))
    -- the subject is up for revision, so nothing of it sleeps
    intro x w hw hp
    obtain ⟨w₀, hw₀, hsame, -⟩ := of_setState (b := b) (p := only a) hw
    rw [hsame] at hp ⊢
    rintro ⟨a', wa', ws', hwa', hk', htask, hws', hcur, hreview⟩
    obtain ⟨w₁, hw₁, hsame₁, -⟩ := of_setState (b := b) (p := only a) hwa'
    rw [hsame₁] at hk' htask hws' hcur
    exact h.awake_of_setPhase (by simp) hw₀ (h.same_subject activity hw₀ hp.1)
      ⟨a', w₁, ws', hw₁, hk', htask, hws', hcur, hreview⟩
  | @reopen k ws subject notDone settled p _ holds =>
    have hsuper := h.supersede subject
    have hcanceled := hsuper.setState (p := liveOf ws.current fun _ => False) .canceled
      (fun _ _ _ hp => hp.2.2) (by
        intro x w hw hp
        obtain ⟨u, hu, htask, -⟩ := h.activitySubmission x w hw
        obtain ⟨u', hu', htask'⟩ := h.subjectSubmission k ws subject
        rw [hp.1] at hu
        obtain rfl := Option.some.inj (hu.symm.trans hu')
        exact h.awake_of_setPhase (by simp) hw (htask.symm.trans htask'))
      (fun hs => absurd hs (by simp)) (fun hs => absurd hs (by simp))
    refine hcanceled.release (p := p) fun x hx hi => ?_
    obtain ⟨wa, hwa, hsub⟩ := (holds x).1 hx
    exact .inl (settled x wa hwa hsub hi)
  | @reconcile human a a' hid wa wa' t ws u row activity intended unreconciled subject current
      submission agent queued same rowActivity fresh free =>
    obtain ⟨hsubject, hsub, hkind⟩ := same
    obtain ⟨wa₀, hwa₀, hkind₀⟩ := h.intentActivity a intended
    obtain rfl := Option.some.inj (hwa₀.symm.trans activity)
    have hphase : ws.phase ≠ .review := fun hreview =>
      (h.asleep a wa₀ ws activity hkind₀ subject current hreview).2.2.2.1 intended
    have hcode : u.kind = .code := by
      obtain ⟨u', hu', -, hcode⟩ := h.activitySubmission a wa₀ activity
      obtain rfl := Option.some.inj (hu'.symm.trans submission)
      exact hcode hkind₀
    -- the old activity ends if it is live, and its intent is settled
    have hcanceled := h.setState (p := fun x wa => x = a ∧ wa.state.Live) .canceled
      (fun _ _ _ hp => hp.2) (by
        rintro x w hw ⟨rfl, -⟩
        obtain rfl := Option.some.inj (hw.symm.trans activity)
        exact h.not_asleep hw fun _ ws' hws' _ => by
          obtain rfl := Option.some.inj (hws'.symm.trans subject)
          exact hphase)
      (fun hs => absurd hs (by simp)) (fun hs => absurd hs (by simp))
    have hsettled := hcanceled.settle intended (by
      intro w hw hl
      obtain ⟨w₀, hw₀, -, ⟨-, hs⟩ | ⟨hp, rfl⟩⟩ :=
        of_setState (b := b) (p := fun x wa => x = a ∧ wa.state.Live) hw
      · exact absurd hl (by rw [hs]; decide)
      · exact hp ⟨rfl, hl⟩)
    -- the replacement is the only open integration
    have hadded := hsettled.addActivity (a := a') (t := t) (u := u)
      (queued.of_same rfl (related_setState (b := b)))
      (by rw [hsubject]; exact subject) (by rw [hsub]; exact current)
      (by rw [hsub]; exact submission) (by
        intro _
        refine ⟨hcode, fun hreview => absurd hreview hphase, ?_⟩
        intro x w hw hk hs ho
        obtain ⟨w₀, hw₀, hsame, hcase⟩ :=
          of_setState (b := b) (p := fun x wa => x = a ∧ wa.state.Live) hw
        have hopen : b.Open x w₀ := by
          rcases hcase with ⟨hp, -⟩ | ⟨-, rfl⟩
          · exact .inl hp.2
          · exact ho.imp_right fun ⟨hi, hr⟩ => ⟨hi, fun hx => hr (.inr hx)⟩
        rw [hsame] at hk hs
        obtain rfl := h.openUnique x a w₀ wa₀ hw₀ activity hk hkind₀ (hs.trans hsub) hopen
          (.inr ⟨intended, unreconciled⟩)
        rcases ho with hl | ⟨-, hr⟩
        · rcases hcase with ⟨-, hstate⟩ | ⟨hp, rfl⟩
          · exact absurd hl (by rw [hstate]; decide)
          · exact hp ⟨rfl, hl⟩
        · exact hr (.inl rfl))
    have hnew : ¬ (a' = a ∨ b.reconciled a') := by
      rintro (rfl | hr)
      · rw [queued.newActivity] at activity
        exact absurd activity (by simp)
      · obtain ⟨w, hw, -⟩ := h.intentActivity a' (h.reconciledIntent a' hr)
        rw [queued.newActivity] at hw
        exact absurd hw (by simp)
    refine hadded.addHold (a := a') (u := u) (by simp) hkind ?_ hnew
      (by rw [hsub]; exact submission) rowActivity ?_ ?_
    · refine hadded.not_asleep (a := a') (by simp) fun _ ws' hws' _ => ?_
      rw [hsubject] at hws'
      obtain rfl := Option.some.inj (hws'.symm.trans subject)
      exact hphase
    · exact
        { fresh with
          newHold := (related_release (b := b) (p := (· = a))).eq_none.2 fresh.newHold
          unowned := by
            intro h₁ row' hrow'
            obtain ⟨row₀, hrow₀, hact, -⟩ := of_release (b := b) (p := (· = a)) hrow'
            rw [hact]
            exact fresh.unowned h₁ row₀ hrow₀ }
    · intro h₁ row' hrow' hheld hkey hbranch
      obtain ⟨row₀, hrow₀, -, ⟨-, hx⟩ | ⟨hne, rfl⟩⟩ := of_release (b := b) (p := (· = a)) hrow'
      · exact absurd hheld (by rw [hx]; simp)
      · exact hne (free h₁ row' hrow₀ hheld hkey hbranch)
  | @finalize a wa ws u activity kind live awake pinned =>
    have hcompleted := h.setState (p := only a) .completed
      (by
        rintro x w hw rfl
        obtain rfl := Option.some.inj (hw.symm.trans activity)
        exact live)
      (by
        rintro x w hw rfl
        obtain rfl := Option.some.inj (hw.symm.trans activity)
        exact awake)
      (fun hs => absurd hs (by simp))
      (by
        rintro - x w hw rfl
        obtain rfl := Option.some.inj (hw.symm.trans activity)
        exact kind)
    have hreleased := hcompleted.release (p := (· = a)) (by
      rintro x rfl -
      exact .inr ⟨_, alter_of_pos activity rfl, rfl⟩)
    refine hreleased.setPhase (u := u) pinned.subject ?_ pinned.phase (.inl rfl)
    rw [pinned.current]
    exact pinned.submission

end Board

end AgentCoordinator
