import AgentCoordinator.Workflow.Submit
import AgentCoordinator.Refinement.Activity

/-
Submitting: what it does to the board and to the ledger.

The submitting owner's attempt ends, so its task is free when the submission enters the workflow.
Then the required reviews are queued one by one, and for code the integration, whose task is
blocked while there are reviews.
-/

namespace AgentCoordinator

open Guarded Tabular Maps Transition Board Fencing

/-! ### What the guards say -/

/-- What `owned_subject` checks. -/
structure Db.OwnsSubject (s : Db) (actor : Actor) (project attempt : Id) (subject : OwnedSubject) :
    Prop where
  owner : ∃ a, s.attempts.get? attempt = some a ∧ a.task = subject.task.id ∧ a.state = .active ∧
    s.now < a.expiresAt ∧ a.owner = actor.id ∧ some a.session = actor.session ∧
    a.credential = actor.credential
  task : s.tasks.get? subject.task.id = some subject.task
  taskProject : subject.task.project = project
  current : subject.task.currentAttempt = some attempt
  proj : s.projects.get? project = some subject.project

lemma ownedSubject_ok {s : Db} {actor : Actor} {project attempt : Id} {generation : Int}
    {subject : OwnedSubject} (h : ownedSubject s actor project attempt generation = .ok subject) :
    s.OwnsSubject actor project attempt subject := by
  simp only [ownedSubject, bind_eq_ok, okOr_eq_ok, refuseIf_eq_ok, pure_eq_ok, not_or, not_not,
    not_le] at h
  obtain ⟨a, ha, t, ht, p, hp, -, ⟨hproject, htask⟩, ownerSession, hsession, -,
    ⟨howner, hses, hcred, -, hactive, hexp, hcur, -⟩, -, -, -, -, -, -, rfl⟩ := h
  have hid : t.id = a.task := Table.key_of_get? ht
  exact ⟨⟨a, ha, hid.symm, hactive, hexp, howner, by rw [session_ok hsession, hses], hcred⟩,
    hid ▸ ht, htask.trans hproject, hcur, hp⟩

/-- What `submit` does: the previous submission is superseded, and the new one written. -/
lemma submit_ok {s s' : Db} {actor : Actor} {project attempt : Id} {input : SubmissionInput}
    (h : submit s actor project attempt input = .ok s') :
    ∃ subject canonical roster ownerSession s₀, s.OwnsSubject actor project attempt subject ∧
      subject.task.kind = input.kind ∧
      (s.previousSubmission project subject.task.id).any (fun ws => ws.phase ≠ .revisionNeeded)
        = false ∧
      s₀ = (s.previousSubmission project subject.task.id).elim s
        (fun ws => s.supersede ws.currentSubmission) ∧
      (∀ u ∈ s₀.submissions, u.attempt ≠ attempt ∧
        (u.task = subject.task.id → u.supersededAt ≠ none)) ∧
      (input.acAmendment ≠ none →
        neededReviews (s₀.reviewModeFloor subject.task.id subject.project.reviewMode) ≠ []) ∧
      s' = s₀.writeSubmission actor ownerSession attempt subject input canonical roster
        (s₀.reviewModeFloor subject.task.id subject.project.reviewMode) := by
  simp only [submit, bind_eq_ok, refuseIf_eq_ok, pure_eq_ok] at h
  obtain ⟨-, -, -, -, subject, hown, -, -, -, hkind, -, -, -, -, -, -, -, -, -, -, ⟨canonical, roster⟩,
    -, -, hprevious, ownerSession, -, -, hfree, -, hamended, rfl⟩ := h
  refine ⟨subject, canonical, roster, ownerSession, _, ownedSubject_ok hown, not_not.1 hkind,
    by simpa using hprevious, rfl, fun u hu => ⟨fun ha => hfree ⟨u, hu, .inl ha⟩, fun ht hn => ?_⟩,
    fun ha hn => hamended ⟨ha, hn⟩, rfl⟩
  exact hfree ⟨u, hu, .inr ⟨ht, hn⟩⟩

/-! ### Superseding -/

lemma board_supersede {s : Db} (submission : Id) :
    (s.supersede submission).board
      = { s.board with submissions := s.board.supersede submission } := by
  simp only [Db.board, Db.supersede, Board.supersede]
  congr 1
  funext k
  simp only [Table.project, alter, Table.get?_modify]
  cases hk : s.submissions.get? k with
  | none => rfl
  | some u =>
    have hid : u.id = k := Table.key_of_get? hk
    by_cases hu : k = submission <;> cases hs : u.supersededAt <;>
      simp [Submission.row, hid, hu, hs]

/-- A submission that is superseded already stays as it is. -/
lemma supersede_of_superseded {b : Board} {id : Id}
    (h : ∀ u, b.submissions id = some u → u.superseded = true) : b.supersede id = b.submissions := by
  funext k
  unfold Board.supersede alter
  cases hk : b.submissions k with
  | none => rfl
  | some u =>
    by_cases hid : k = id
    · subst hid
      simp [← h u hk]
    · simp [hid]

/-! ### The queue of a new submission -/

section Queue

variable {s s' : Db} {ok : Board → Label → Prop} {b : Board}

/-- The submission is current and has no activity but reviews of other kinds. -/
structure Db.Queueing (s : Db) (task submission : Id) (kinds : List ActivityKind)
    (ws : Subject) (u : Candidate) : Prop where
  subject : s.board.subjects task = some ws
  current : ws.current = submission
  submissionRow : s.board.submissions submission = some u
  standing : u.superseded = false
  phase : ws.phase ≠ .revisionNeeded
  others : ∀ a wa, s.board.activities a = some wa → wa.submission = submission →
    wa.kind ≠ .integration ∧ wa.kind ∉ kinds

lemma Db.Queueing.pinned {task submission : Id} {kinds : List ActivityKind} {ws : Subject}
    {u : Candidate} (h : s.Queueing task submission kinds ws u) {wa : Activity}
    (htask : wa.subjectTask = task) (hsub : wa.submission = submission) :
    s.board.Pinned wa ws u :=
  ⟨by rw [htask]; exact h.subject, by rw [hsub]; exact h.current,
    by rw [hsub]; exact h.submissionRow, h.standing, h.phase⟩

lemma Db.Queueing.slot {task submission : Id} {kinds : List ActivityKind} {ws : Subject}
    {u : Candidate} (h : s.Queueing task submission kinds ws u) {kind : ActivityKind}
    (hkind : kind ∈ kinds ∨ kind = .integration) {n : Nat} :
    ∀ wa ∈ s.workflowActivities, wa.submission = submission → wa.kind = kind → wa.slot < n := by
  intro wa hwa hsub hk
  obtain ⟨hi, hnot⟩ := h.others wa.id wa.row (board_activity (Table.get?_of_mem hwa)) hsub
  rcases hkind with hmem | hint
  · rw [← hk] at hmem
    exact absurd hmem hnot
  · exact absurd (hk.trans hint) hi

/-- The required reviews of a new submission are queued. -/
lemma createActivities_moves (project : Id) {task submission : Id} (title : String) {ws : Subject}
    {u : Candidate} (hok : Permits ok) (kinds : List ActivityKind) :
    ∀ {s : Db}, kinds.Nodup → (∀ kind ∈ kinds, kind ≠ .integration) →
      (kinds ≠ [] → ws.phase = .review) → s.Queueing task submission kinds ws u →
      Moves ok b s.board →
      Moves ok b (s.createActivities project task title submission kinds).board ∧
        (s.createActivities project task title submission kinds).Queueing task submission []
          ws u := by
  induction kinds with
  | nil =>
    intro s _ _ _ hq hm
    exact ⟨hm, hq.subject, hq.current, hq.submissionRow, hq.standing, hq.phase,
      fun a wa hwa hsub => ⟨(hq.others a wa hwa hsub).1, List.not_mem_nil⟩⟩
  | cons kind kinds ih =>
    intro s hnodup hreview hphase hq hm
    obtain ⟨hnot, hnodup'⟩ := List.nodup_cons.1 hnodup
    have hkind := hreview kind List.mem_cons_self
    have hboard := board_createActivity (s := s) project task title submission kind 1
    refine ih hnodup' (fun k hk => hreview k (List.mem_cons_of_mem _ hk))
      (fun _ => hphase (List.cons_ne_nil _ _)) ?_ ?_
    · refine ⟨by rw [hboard]; exact hq.subject, hq.current, by rw [hboard]; exact hq.submissionRow,
        hq.standing, hq.phase, fun a wa hwa hsub => ?_⟩
      rw [hboard] at hwa
      rcases update_eq_some.1 hwa with ⟨-, rfl⟩ | ⟨-, hold⟩
      · exact ⟨hkind, hnot⟩
      · obtain ⟨hi, hn⟩ := hq.others a wa hold hsub
        exact ⟨hi, fun hmem => hn (List.mem_cons_of_mem _ hmem)⟩
    · rw [hboard]
      refine hm.tail (hok.plain _) (Move.enqueue
        (queued_createActivity (hq.slot (.inl List.mem_cons_self)) false) (hq.pinned rfl rfl)
        (fun _ => hphase (List.cons_ne_nil _ _)) (fun hi => absurd hi hkind) ?_)
      intro a wa hwa hsub hk
      exact absurd (List.mem_cons.2 (.inl hk)) (hq.others a wa hwa hsub).2

/-- The integration of a new code submission is queued after its reviews. -/
lemma createIntegration_moves {subject : OwnedSubject} {submission : Id} {pending : Bool}
    {ws : Subject} {u : Candidate} (hok : Permits ok)
    (hq : s.Queueing subject.task.id submission [] ws u)
    (hcode : u.kind = .code)
    (hphase : ws.phase = .integration ∨ (ws.phase = .review ∧ pending = true))
    (hm : Moves ok b s.board) : Moves ok b (s.createIntegration subject submission pending).board := by
  have hothers : ∀ a wa, s.board.activities a = some wa → wa.submission = submission →
      wa.kind ≠ .integration := fun a wa hwa hsub => (hq.others a wa hwa hsub).1
  cases pending with
  | true =>
    rw [Db.createIntegration, if_pos rfl, board_createBlocked]
    exact hm.tail (hok.plain _) (Move.enqueue (queued_createActivity (hq.slot (.inr rfl)) true)
      (hq.pinned rfl rfl) (fun hi => absurd rfl hi)
      (fun _ => ⟨hcode, hphase.imp_right fun h => ⟨h.1, rfl⟩, hothers⟩)
      fun a wa hwa hsub hk => absurd hk (hothers a wa hwa hsub))
  | false =>
    rw [Db.createIntegration, if_neg (by simp), board_createActivity]
    exact hm.tail (hok.plain _) (Move.enqueue (queued_createActivity (hq.slot (.inr rfl)) false)
      (hq.pinned rfl rfl) (fun hi => absurd rfl hi)
      (fun _ => ⟨hcode, .inl (hphase.resolve_right fun h => absurd h.2 (by simp)), hothers⟩)
      fun a wa hwa hsub hk => absurd hk (hothers a wa hwa hsub))

end Queue

/-! ### Submitting -/

section Submit

variable {s s' : Db} {actor : Actor} {project attempt : Id} {input : SubmissionInput}

lemma neededReviews_nodup (mode : ReviewMode) : (neededReviews mode).Nodup := by
  cases mode <;> decide

lemma neededReviews_review (mode : ReviewMode) : ∀ kind ∈ neededReviews mode, kind ≠ .integration := by
  cases mode <;> decide

lemma firstPhase_review {mode : ReviewMode} {kind : WorkKind} (h : neededReviews mode ≠ []) :
    firstPhase mode kind = .review := by simp [firstPhase, h]

lemma firstPhase_ne_revisionNeeded (mode : ReviewMode) (kind : WorkKind) :
    firstPhase mode kind ≠ .revisionNeeded := by
  cases mode <;> cases kind <;> decide

lemma firstPhase_integration {mode : ReviewMode} {kind : WorkKind}
    (h : firstPhase mode kind = .integration) : kind = .code := by
  revert h
  cases mode <;> cases kind <;> decide

/-- The row of the new submission. -/
def candidateRow (subject : OwnedSubject) (input : SubmissionInput) (canonical : Option String) :
    Candidate :=
  ⟨subject.task.id, subject.project.id, input.kind, false, canonical,
    if input.kind = .code then some subject.project.targetBranch else none⟩

/-- Freeing the owner's task, the submission and its subject enter the board. -/
lemma board_enterWorkflow (s : Db) (actor : Actor) (ownerSession attempt : Id)
    (subject : OwnedSubject) (input : SubmissionInput) (canonical : Option String) (roster : Int)
    (mode : ReviewMode) :
    ∃ T, T = s.tasks.modify (fun t => t.id = subject.task.id) (fun t => { t with
        currentAttempt := none
        blockedReason := some "An immutable submission is in the completion workflow." }) ∧
      (s.enterWorkflow actor ownerSession attempt subject input canonical roster mode).board
        = { s.board with
            tasks := T.project Task.row
            submissions := Function.update s.board.submissions s.submissions.fresh
              (some (candidateRow subject input canonical))
            subjects := Function.update s.board.subjects subject.task.id
              (some ⟨subject.project.id, s.submissions.fresh, firstPhase mode input.kind⟩) } := by
  refine ⟨_, rfl, ?_⟩
  simp only [Db.board, Db.enterWorkflow, Db.endSubmittedAttempt, Db.endAttempts,
    Db.recordContributor]
  rw [Table.project_create, Table.project_put]
  rfl

/-- The submission enters the workflow, and none of its activities is queued yet. -/
lemma enterWorkflow_moves {subject : OwnedSubject} (ownerSession : Id) (canonical : Option String)
    (roster : Int) (mode : ReviewMode) {ok : Board → Label → Prop} (hok : Permits ok)
    (hsubmit : ∀ b, ok b (.submit subject.task.id)) (hb : Coherent s.board)
    (hown : s.OwnsSubject actor project attempt subject)
    (hkind : subject.task.kind = input.kind)
    (hout : ∀ ws, s.board.subjects subject.task.id = some ws → ws.phase = .revisionNeeded) :
    Moves ok s.board
        (s.enterWorkflow actor ownerSession attempt subject input canonical roster mode).board ∧
      (s.enterWorkflow actor ownerSession attempt subject input canonical roster mode).Queueing
        subject.task.id s.submissions.fresh (neededReviews mode)
        ⟨subject.project.id, s.submissions.fresh, firstPhase mode input.kind⟩
        (candidateRow subject input canonical) := by
  have hawake : ¬ s.board.Asleep subject.task.id :=
    awake_of_running hb hown.task (.inr (by rw [hown.current]; rfl))
  have hproject : subject.project.id = subject.task.project :=
    (Table.key_of_get? hown.proj).trans hown.taskProject.symm
  obtain ⟨T, hT, hboard⟩ := board_enterWorkflow s actor ownerSession attempt subject input canonical
    roster mode
  have hfree : Moves ok s.board { s with tasks := T }.board := by
    rw [hT]
    exact Moves.retask (.refl _) hok (.modify (.refl _) fun t _ hid =>
      .of_awake rfl rfl (by rw [show t.id = _ from hid]; exact hawake)
        fun h => absurd h (by simp [Task.row]))
  have htask : T.project Task.row subject.task.id
      = some { subject.task.row with blocked := true, owned := false } := by
    rw [hT, Table.project, Table.get?_modify, hown.task]
    simp [Task.row]
  rw [hboard]
  refine ⟨?_, ?_⟩
  · have hmove := @Move.submit { s with tasks := T }.board subject.task.id s.submissions.fresh _
      (candidateRow subject input canonical)
      ⟨subject.project.id, s.submissions.fresh, firstPhase mode input.kind⟩ hout htask rfl hawake
      (Table.project_fresh _) rfl rfl (fun h => hkind.trans h) hproject rfl rfl
      (firstPhase_ne_revisionNeeded _ _) firstPhase_integration
    exact hfree.tail (hsubmit _) hmove
  · refine ⟨by rw [hboard]; exact Function.update_self .., rfl,
      by rw [hboard]; exact Function.update_self .., rfl, firstPhase_ne_revisionNeeded _ _,
      fun a wa hwa hsub => ?_⟩
    -- no activity is of the new submission yet
    rw [hboard] at hwa
    obtain ⟨u, hu, -⟩ := hb.activitySubmission a wa hwa
    rw [hsub, show s.board.submissions s.submissions.fresh = none from Table.project_fresh _] at hu
    exact absurd hu (by simp)

/-- Completing a task that is awake is a move. -/
lemma Moves.completeTask {b : Board} {ok : Board → Label → Prop} {task : Id} (hm : Moves ok b s.board)
    (hok : Permits ok) (hawake : ¬ s.board.Asleep task) :
    Moves ok b (s.completeTask task).board := by
  rw [Db.completeTask, board_readyDependents]
  exact hm.retask hok (.modify (.refl _) fun t _ hid =>
    .of_awake rfl rfl (by rw [show t.id = task from hid]; exact hawake) fun h => h)

/-- Everything `submit` writes. -/
lemma writeSubmission_moves {subject : OwnedSubject} {ownerSession : Id} {canonical : Option String}
    {roster : Int} {mode : ReviewMode} {ok : Board → Label → Prop} (hok : Permits ok)
    (hsubmit : ∀ b, ok b (.submit subject.task.id)) (hb : Coherent s.board)
    (hown : s.OwnsSubject actor project attempt subject)
    (hkind : subject.task.kind = input.kind)
    (hout : ∀ ws, s.board.subjects subject.task.id = some ws → ws.phase = .revisionNeeded) :
    Moves ok s.board
      (s.writeSubmission actor ownerSession attempt subject input canonical roster mode).board := by
  obtain ⟨hm, hq⟩ := enterWorkflow_moves ownerSession canonical roster mode hok hsubmit hb
    hown hkind hout
  obtain ⟨hm, hq⟩ := createActivities_moves subject.project.id subject.task.title hok _
    (neededReviews_nodup mode) (neededReviews_review mode)
    firstPhase_review hq hm
  rw [Db.writeSubmission, board_finish]
  split
  · rename_i hcode
    refine createIntegration_moves hok hq hcode ?_ hm
    by_cases hn : neededReviews mode = []
    · exact .inl (by simp [firstPhase, hn, hcode])
    · exact .inr ⟨firstPhase_review hn, by simpa using hn⟩
  · split
    · exact hm.completeTask hok ((hm.coherent hb).awake_of_subject hq.subject)
    · exact hm

theorem submit_moves {ok : Board → Label → Prop} (hok : Permits ok)
    (hsubmit : ∀ b k t p, s.tasks.get? k = some t → s.projects.get? t.project = some p →
      (∀ ws, s.board.subjects k = some ws → ws.phase = .revisionNeeded) → ok b (.submit k))
    (hb : Coherent s.board)
    (h : submit s actor project attempt input = .ok s') : Moves ok s.board s'.board := by
  obtain ⟨subject, canonical, roster, ownerSession, s₀, hown, hkind, hprevious, hs₀, -, -, rfl⟩ :=
    submit_ok h
  -- a subject of the task is up for revision, and its submission superseded already
  have hout : ∀ ws, s.board.subjects subject.task.id = some ws → ws.phase = .revisionNeeded := by
    intro ws hws
    obtain ⟨t', ht', hproject⟩ := hb.subjectTask _ ws hws
    rw [board_task hown.task] at ht'
    obtain rfl := Option.some.inj ht'
    obtain ⟨r, hr, rfl⟩ := Table.project_eq_some.1 hws
    have hp : r.project = project := hproject.symm.trans hown.taskProject
    change r.phase = .revisionNeeded
    simpa [Db.previousSubmission, hr, hp] using hprevious
  have hboard₀ : s₀.board = s.board ∧ s₀.OwnsSubject actor project attempt subject := by
    rw [hs₀]
    cases hp : s.previousSubmission project subject.task.id with
    | none => exact ⟨rfl, hown⟩
    | some ws =>
      refine ⟨?_, hown.owner, hown.task, hown.taskProject, hown.current, hown.proj⟩
      obtain ⟨hws, -⟩ := Option.filter_eq_some_iff.1 hp
      rw [Option.elim_some, board_supersede, supersede_of_superseded]
      intro u hu
      exact (hb.revision _ _ u (board_subject hws) hu).1 (hout _ (board_subject hws))
  obtain ⟨hboard₀, hown₀⟩ := hboard₀
  have hsubmit' := fun b => hsubmit b _ _ _ hown.task (hown.taskProject ▸ hown.proj) hout
  rw [← hboard₀] at hb hout ⊢
  exact writeSubmission_moves hok hsubmit' hb hown₀ hkind hout

lemma enterWorkflow_settles (actor : Actor) {subject : OwnedSubject} (ownerSession : Id)
    (canonical : Option String) (roster : Int) (mode : ReviewMode) (h : s.Settles s')
    (hquiet : (s'.endAttempts (fun a => a.id = attempt) .submitted input.summary).Quiet
      subject.task.id) :
    s.Settles (s'.enterWorkflow actor ownerSession attempt subject input canonical roster mode) := by
  have hfree : s.Settles (s'.endSubmittedAttempt attempt subject.task.id input.summary) :=
    .setTasks (.endAttempts h (by simp)) (Table.related_modify (fun _ => ⟨rfl, .inl rfl⟩)
      fun t _ hid => ⟨rfl, .inr ⟨rfl, by rw [show t.id = _ from hid]; exact hquiet⟩⟩)
  exact hfree.trans (.of_eq rfl rfl rfl)

lemma Db.Settles.createActivities {submission task project : Id} {title : String}
    {kinds : List ActivityKind} (h : s.Settles s') :
    s.Settles (s'.createActivities project task title submission kinds) := by
  unfold Db.createActivities
  induction kinds generalizing s' with
  | nil => exact h
  | cons kind kinds ih => exact ih (.createActivity h)

lemma Db.Settles.createIntegration {subject : OwnedSubject} {submission : Id} {pending : Bool}
    (h : s.Settles s') : s.Settles (s'.createIntegration subject submission pending) := by
  unfold Db.createIntegration
  split
  · exact .keepTasks (.createActivity h)
      (Table.related_modify (fun _ => ⟨rfl, rfl⟩) fun _ _ _ => ⟨rfl, rfl⟩)
  · exact .createActivity h

lemma Db.Settles.completeTask {task : Id} (h : s.Settles s') : s.Settles (s'.completeTask task) :=
  .readyDependents (.keepTasks h
    (Table.related_modify (fun _ => ⟨rfl, rfl⟩) fun _ _ _ => ⟨rfl, rfl⟩))

theorem submit_settles (hs : s.Sound) (h : submit s actor project attempt input = .ok s') :
    s.Settles s' := by
  obtain ⟨subject, canonical, roster, ownerSession, s₀, hown, -, -, hs₀, -, -, rfl⟩ := submit_ok h
  have hs₀ : s.Settles s₀ ∧ s₀.OwnsSubject actor project attempt subject := by
    rw [hs₀]
    cases s.previousSubmission project subject.task.id with
    | none => exact ⟨.refl s, hown⟩
    | some ws =>
      exact ⟨.of_eq rfl rfl rfl, hown.owner, hown.task, hown.taskProject, hown.current, hown.proj⟩
  obtain ⟨h₀, hown₀⟩ := hs₀
  have hquiet : (s₀.endAttempts (fun a => a.id = attempt) .submitted input.summary).Quiet
      subject.task.id :=
    (hs.settles h₀).quiet_of_current hown₀.task hown₀.current (by simp)
      fun a ha _ => Table.key_of_get? ha
  have henter := enterWorkflow_settles actor ownerSession canonical roster
    (s₀.reviewModeFloor subject.task.id subject.project.reviewMode) h₀ hquiet
  refine .finish ?_
  split
  · exact .createIntegration (.createActivities henter)
  · split
    · exact .completeTask (.createActivities henter)
    · exact .createActivities henter

end Submit

end AgentCoordinator
