import AgentCoordinator.Workflow.Review
import AgentCoordinator.Refinement.Submit

/-
Deciding a review: what it does to the board and to the ledger.

A decision completes its activity and records a verdict. Then the subject is sent back, or moved on
once its reviews are satisfied, or nothing more happens. What the decision does to tasks besides is
done to tasks that are awake: those of the reviews, and those of a submission that has left review.
-/

namespace AgentCoordinator

open Guarded Tabular Maps Transition Board Fencing

/-! ### What the guards say -/

/-- What `ensure_reviewer` checks. -/
structure Db.Reviews (s : Db) (actor : Actor) (project id : Id) (ctx : ActivityContext) :
    Prop extends s.OwnsActivity actor project id ctx where
  review : ctx.activity.kind ≠ .integration
  fit : fits ctx.activity.kind actor.kind

lemma ensureReviewer_ok {s : Db} {actor : Actor} {project id : Id} {input : ReviewInput}
    {ctx : ActivityContext} (h : ensureReviewer s actor project id input = .ok ctx) :
    s.Reviews actor project id ctx := by
  simp only [ensureReviewer, bind_eq_ok, refuseIf_eq_ok, pure_eq_ok] at h
  obtain ⟨raw, -, ctx', hown, -, -, -, hreview, -, hfit, -, -, -, -, rfl⟩ := h
  refine ⟨(ownedActivity_ok hown).1, fun hk => hreview (.inl hk), ?_⟩
  simp only [not_or, not_and, not_not] at hfit
  obtain ⟨hagent, hhuman⟩ := hfit
  unfold fits
  cases hkind : ctx'.activity.kind with
  | agentReview => exact hagent hkind
  | humanReview => exact hhuman hkind
  | eitherReview => trivial
  | integration => trivial

/-- A decision that was recorded: its activity is completed in `s₁`. -/
structure Db.Decides (s : Db) (actor : Actor) (project id : Id) (input : ReviewInput)
    (ctx : ActivityContext) (decision : Decision) (amendment : Option (List String)) (s₁ : Db) :
    Prop extends s.Reviews actor project id ctx where
  outcome : amendmentOutcome s ctx.submission.id input = .ok (decision, amendment)
  recorded : ∃ attempt ownerSession decisions,
    currentAttemptId s ctx.activity.activityTask = .ok attempt ∧
      s.reviewDecisions.insert? (reviewDecision s actor ownerSession attempt ctx decision input)
        = some decisions ∧
      s₁ = { s with reviewDecisions := decisions }.completeReview ctx attempt input.summary

/-- What `review` does. -/
lemma review_ok {s s' : Db} {actor : Actor} {project id : Id} {input : ReviewInput}
    (h : review s actor project id input = .ok s') :
    ∃ ctx decision amendment s₁ s₂, s.Decides actor project id input ctx decision amendment s₁ ∧
      applyDecision s₁ actor project ctx decision amendment = .ok s₂ ∧
      s' = s₂.finish actor "review.decided" ctx.activity.id := by
  simp only [review, bind_eq_ok, okOr_eq_ok, pure_eq_ok] at h
  obtain ⟨-, -, ctx, hreviewer, ⟨decision, amendment⟩, houtcome, attempt, hattempt, ownerSession, -,
    decisions, hinsert, s₂, happly, rfl⟩ := h
  exact ⟨ctx, decision, amendment, _, s₂, ⟨ensureReviewer_ok hreviewer, houtcome, attempt,
    ownerSession, decisions, hattempt, hinsert, rfl⟩, happly, rfl⟩

/-- Only a request for changes, or the rejection of an amendment, sends a submission back. -/
lemma amendmentOutcome_changes {s : Db} {submission : Id} {input : ReviewInput}
    {amendment : Option (List String)}
    (h : amendmentOutcome s submission input = .ok (.changesRequested, amendment)) :
    input.decision = .changesRequested ∨ input.amendmentDecision = some .rejected := by
  simp only [amendmentOutcome, bind_eq_ok, okOr_eq_ok] at h
  obtain ⟨u, -, h⟩ := h
  split at h <;> simp_all [pure_eq_ok]

/-- An effective approval neither requests changes nor rejects an amendment. -/
lemma amendmentOutcome_approved {s : Db} {submission : Id} {input : ReviewInput}
    {amendment : Option (List String)}
    (h : amendmentOutcome s submission input = .ok (.approved, amendment)) :
    input.decision ≠ .changesRequested ∧ input.amendmentDecision ≠ some .rejected := by
  simp only [amendmentOutcome, bind_eq_ok, okOr_eq_ok] at h
  obtain ⟨u, -, h⟩ := h
  split at h <;> simp_all [pure_eq_ok]

/-! ### Recording the decision -/

section Decides

variable {s s₁ : Db} {actor : Actor} {project id : Id} {input : ReviewInput}
  {ctx : ActivityContext} {decision : Decision} {amendment : Option (List String)}

/-- The verdict of a decision. -/
def verdictOf (s : Db) (actor : Actor) (ctx : ActivityContext) (decision : Decision) : Verdict :=
  ⟨ctx.submission.id, decide (decision = .approved), (s.ext.principals.get? actor.id).map (·.kind)⟩

/-- The board of a recorded decision. -/
lemma Db.Decides.board_eq (h : s.Decides actor project id input ctx decision amendment s₁) :
    s.board.verdicts id = none ∧
      s₁.board = { { s with tasks := s₁.tasks }.board with
        activities := s.board.setState (only id) .completed
        verdicts := Function.update s.board.verdicts id
          (some (verdictOf s actor ctx decision)) } := by
  obtain ⟨attempt, ownerSession, decisions, -, hinsert, rfl⟩ := h.recorded
  obtain ⟨hfree, hverdicts⟩ := Table.project_insert? (ReviewDecision.row s.ext) hinsert
  have hid : ctx.activity.id = id := h.toJoins.id_eq
  have hkey : Keyed.key (reviewDecision s actor ownerSession attempt ctx decision input) = id := hid
  rw [hkey] at hfree hverdicts
  have hactivities := congrArg Board.activities (board_completeActivity (s := s) ctx.activity.id)
  have hset : s.board.setState (only ctx.activity.id) .completed
      = s.board.setState (only id) .completed := by rw [hid]
  exact ⟨hfree, Board.ext rfl rfl rfl (hactivities.trans hset) hverdicts rfl rfl rfl⟩

/-- Completing a review frees and finishes its task. -/
lemma Db.Decides.retasks (hb : Coherent s.board)
    (h : s.Decides actor project id input ctx decision amendment s₁) :
    s.board.Retasks s.tasks s₁.tasks := by
  obtain ⟨attempt, ownerSession, decisions, -, -, rfl⟩ := h.recorded
  simp only [Db.completeReview, Db.endAttempts]
  refine .modify (.refl _) fun t _ hid => .of_awake rfl rfl ?_ fun h => absurd h (by simp [Task.row])
  rw [show t.id = _ from hid]
  exact h.toOwnsActivity.awake hb

lemma Db.Decides.settles (hs : s.Sound)
    (h : s.Decides actor project id input ctx decision amendment s₁) : s.Settles s₁ := by
  obtain ⟨attempt, ownerSession, decisions, hattempt, -, rfl⟩ := h.recorded
  have hfree : s.Settles { s.endAttempts (fun a => a.id = attempt) .submitted input.summary with
      tasks := s.tasks.modify (fun t => t.id = ctx.activity.activityTask) (fun t => { t with
        currentAttempt := none
        lifecycle := .done
        blockedReason := none }) } :=
    .setTasks (.endAttempts (.refl s) (by simp)) (Table.related_modify (fun _ => ⟨rfl, .inl rfl⟩)
      fun t _ hid => ⟨rfl, .inr ⟨rfl, by
        rw [show t.id = _ from hid]
        exact h.toOwnsActivity.quiet hs hattempt (by simp)⟩⟩)
  exact hfree.trans (.of_eq rfl rfl rfl)

end Decides

/-! ### Tasks of a submission's activities -/

/-- The task belongs to an activity of the submission. -/
def Board.TaskOf (b : Board) (submission k : Id) : Prop :=
  ∃ a wa, b.activities a = some wa ∧ wa.submission = submission ∧ wa.task = k

lemma Board.TaskOf.of_same {b b' : Board} {submission k : Id} (h : b'.TaskOf submission k)
    (activities : Related SameActivity b.activities b'.activities) : b.TaskOf submission k := by
  obtain ⟨a, wa', hwa', hsub, htask⟩ := h
  obtain ⟨wa, hwa, hsame⟩ := activities.old a wa' hwa'
  rw [hsame] at hsub htask
  exact ⟨a, wa, hwa, hsub, htask⟩

/-- A statement about the tasks of some activities of a submission. -/
lemma board_taskOf {s : Db} {p : WorkflowActivity → Prop} {submission k : Id}
    (hp : ∀ wa, p wa → wa.submission = submission) (h : s.isTaskOf p k) :
    s.board.TaskOf submission k := by
  obtain ⟨wa, hwa, hpwa, htask⟩ := h
  exact ⟨wa.id, wa.row, board_activity (Table.get?_of_mem hwa), hp wa hpwa, htask⟩

/-- Once its subject has left review, none of a submission's tasks sleeps. -/
lemma Board.Wired.awake_of_phase {b : Board} (h : Wired b) {submission k : Id} {u : Candidate}
    {ws : Subject} (hu : b.submissions submission = some u) (hws : b.subjects u.task = some ws)
    (hphase : ws.phase ≠ .review) (hk : b.TaskOf submission k) : ¬ b.Asleep k := by
  obtain ⟨a, wa, hwa, hsub, rfl⟩ := hk
  refine h.not_asleep hwa fun _ ws' hws' _ => ?_
  obtain ⟨u', hu', htask, -⟩ := h.activitySubmission a wa hwa
  rw [hsub, hu] at hu'
  obtain rfl := Option.some.inj hu'
  rw [← htask, hws] at hws'
  obtain rfl := Option.some.inj hws'
  exact hphase

/-- The task of a review never sleeps. -/
lemma Board.Wired.awake_of_review {b : Board} (h : Wired b) {a : Id} {wa : Activity}
    (hwa : b.activities a = some wa) (hkind : wa.kind ≠ .integration) : ¬ b.Asleep wa.task :=
  h.not_asleep hwa fun hk => absurd hk hkind

lemma board_setPhase {s : Db} (task : Id) (phase : Phase) :
    (s.setPhase task phase).board = { s.board with subjects := s.board.setPhase task phase } := by
  simp only [Db.board, Db.setPhase, Board.setPhase]
  have hrow : ∀ ws ∈ s.workflowSubjects, ws.task = task →
      { ws with phase := phase, updatedAt := s.now }.row = { ws.row with phase := phase } :=
    fun _ _ _ => rfl
  rw [Table.project_modify (p := fun ws : WorkflowSubject => ws.task = task)
    (q := fun k _ => k = task) (g := fun ws => { ws with phase := phase }) (fun _ _ => Iff.rfl)
    hrow]

/-! ### Moving on -/

section Advance

variable {s s' : Db} {ok : Board → Label → Prop} {b : Board} {project k submission : Id}

/-- What `advance_approved_subject` does. -/
lemma advanceApprovedSubject_ok (h : advanceApprovedSubject s project k submission = .ok s') :
    ∃ u, s.submissions.get? submission = some u ∧
      ((u.kind = .general ∧ s' = (s.cancelQueuedReviews u).finishSubject k) ∨
        (u.kind ≠ .general ∧ s' = (s.cancelQueuedReviews u).startIntegration k submission)) := by
  simp only [advanceApprovedSubject, bind_eq_ok, okOr_eq_ok, ite_eq_ok, pure_eq_ok] at h
  obtain ⟨u, hu, ⟨hkind, h⟩ | ⟨hkind, h⟩⟩ := h
  · simp only [completeGeneralSubject, bind_eq_ok, pure_eq_ok] at h
    obtain ⟨-, -, -, -, -, -, rfl⟩ := h
    exact ⟨u, hu, .inl ⟨hkind, rfl⟩⟩
  · exact ⟨u, hu, .inr ⟨hkind, h.symm⟩⟩

/-- Canceling the tasks of queued reviews. -/
lemma cancelTasksOf_retasks {p : WorkflowActivity → Prop} [DecidablePred p]
    (hb : Coherent s.board) (hp : ∀ wa ∈ s.workflowActivities, p wa → wa.kind ≠ .integration) :
    s.board.Retasks s.tasks (s.cancelTasksOf p).tasks := by
  simp only [Db.cancelTasksOf]
  refine .modify (.refl _) fun t _ hof => .of_awake rfl rfl ?_ fun h => h
  obtain ⟨wa, hwa, hpwa, htask⟩ := hof
  rw [← htask]
  exact hb.toWired.awake_of_review (board_activity (Table.get?_of_mem hwa)) (hp wa hwa hpwa)

/-- The queued reviews are canceled, and the subject is put in its next phase. -/
lemma setPhase_moves {u : Submission} {ws : WorkflowSubject} {phase : Phase} (hok : Permits ok)
    (hb : Coherent s.board) (hws : s.workflowSubjects.get? k = some ws)
    (hu : s.submissions.get? ws.currentSubmission = some u) (hphase : ws.phase ≠ .revisionNeeded)
    (hadvance : ok s.board (.advance k))
    (next : (u.kind = .general ∧ phase = .done) ∨ (u.kind = .code ∧ phase = .integration)) :
    Moves ok s.board ((s.cancelQueuedReviews u).setPhase k phase).board := by
  obtain ⟨X, hX⟩ : ∃ X, X = s.cancelTasksOf (queuedReview u.id) := ⟨_, rfl⟩
  have hid : u.id = ws.currentSubmission := Table.key_of_get? hu
  have hcanceled : Moves ok s.board X.board := by
    rw [hX]
    exact Moves.retask (.refl _) hok (cancelTasksOf_retasks hb fun _ _ h => h.2.1)
  have hrow : X.board = { s.board with tasks := X.board.tasks } := by rw [hX]; rfl
  have hboard : ((s.cancelQueuedReviews u).setPhase k phase).board = { X.board with
      activities := X.board.setState (queuedReviewOf ws.currentSubmission) .canceled
      subjects := X.board.setPhase k phase } := by
    rw [board_setPhase, Db.cancelQueuedReviews, ← hX, board_cancelActivities _ _
      (q := queuedReviewOf ws.currentSubmission) fun wa _ => ?_]
    · rfl
    · rw [← hid]
      exact ⟨fun h => h.1, fun h => ⟨h, .inl h.2.2⟩⟩
  rw [hboard]
  have hsubject : X.board.subjects k = some ws.row := by
    rw [hrow]
    exact board_subject hws
  have hsubmission : X.board.submissions ws.row.current = some u.row := by
    rw [hrow]
    exact board_submission hu
  exact hcanceled.tail (hrow ▸ hok.tasks _ _ _ hadvance)
    (Move.advance hsubject hsubmission hphase next)

lemma board_subject_setPhase {ws : WorkflowSubject} {phase : Phase}
    (hws : s.workflowSubjects.get? k = some ws) :
    (s.setPhase k phase).board.subjects k = some { ws.row with phase := phase } := by
  rw [board_setPhase]
  exact alter_of_pos (p := fun k' _ => k' = k) (board_subject hws) rfl

/-- The task of the queued integration may start. -/
lemma startIntegration_moves {u : Submission} {ws : WorkflowSubject}
    (hm : Moves ok b (s.setPhase k .integration).board) (hok : Permits ok)
    (hb : Coherent (s.setPhase k .integration).board)
    (hws : s.workflowSubjects.get? k = some ws) (hu : s.submissions.get? submission = some u)
    (htask : u.task = k) : Moves ok b (s.startIntegration k submission).board := by
  refine hm.retask hok (.modify (.refl _) fun t _ hp => .of_awake rfl rfl ?_ fun h => h)
  obtain ⟨wa, hfind, hid⟩ := Option.map_eq_some_iff.1 hp
  have hwa := List.find?_some hfind
  simp only [decide_eq_true_eq] at hwa
  have hsubmission : (s.setPhase k .integration).board.submissions submission = some u.row :=
    board_submission hu
  refine hb.toWired.awake_of_phase hsubmission
    (by rw [show u.row.task = k from htask]; exact board_subject_setPhase hws) (by simp) ?_
  exact ⟨wa.id, wa.row, board_activity (Table.get?_of_mem (List.mem_of_find?_eq_some hfind)),
    hwa.1, hid⟩

theorem advanceApprovedSubject_moves {ws : WorkflowSubject} (hok : Permits ok)
    (hb : Coherent s.board) (hws : s.workflowSubjects.get? k = some ws)
    (hcurrent : ws.currentSubmission = submission) (hphase : ws.phase ≠ .revisionNeeded)
    (hadvance : ok s.board (.advance k))
    (h : advanceApprovedSubject s project k submission = .ok s') : Moves ok s.board s'.board := by
  subst hcurrent
  obtain ⟨u, hu, ⟨hkind, rfl⟩ | ⟨hkind, rfl⟩⟩ := advanceApprovedSubject_ok h
  · have hdone := setPhase_moves hok hb hws hu hphase hadvance (.inl ⟨hkind, rfl⟩)
    exact hdone.completeTask hok ((hdone.coherent hb).awake_of_subject
      (board_subject_setPhase (s := s.cancelQueuedReviews u) hws))
  · have hcode : u.kind = .code := by
      cases hk : u.kind with
      | code => rfl
      | general => exact absurd hk hkind
    obtain ⟨u', hu', htask⟩ := hb.subjectSubmission k _ (board_subject hws)
    obtain rfl := Option.some.inj ((board_submission hu).symm.trans hu')
    have hnext := setPhase_moves hok hb hws hu hphase hadvance (.inr ⟨hcode, rfl⟩)
    exact startIntegration_moves hnext hok (hnext.coherent hb) hws hu htask

lemma Db.Settles.setPhase {task : Id} {phase : Phase} (h : s.Settles s') :
    s.Settles (s'.setPhase task phase) := h.trans (.of_eq rfl rfl rfl)

lemma Db.Settles.startIntegration {submission : Id} (h : s.Settles s') :
    s.Settles (s'.startIntegration k submission) :=
  .keepTasks (.setPhase h) (Table.related_modify (fun _ => ⟨rfl, rfl⟩) fun _ _ _ => ⟨rfl, rfl⟩)

theorem advanceApprovedSubject_settles (h : advanceApprovedSubject s project k submission = .ok s') :
    s.Settles s' := by
  obtain ⟨u, -, ⟨-, rfl⟩ | ⟨-, rfl⟩⟩ := advanceApprovedSubject_ok h
  · exact .completeTask (.setPhase (.cancelActivities (.cancelTasksOf (.refl s))))
  · exact .startIntegration (.cancelActivities (.cancelTasksOf (.refl s)))

end Advance

/-! ### Applying an accepted amendment -/

section Amend

variable {s s' : Db} {project task submission : Id}

lemma saveTaskRevision_ok (h : saveTaskRevision s project task = .ok s') :
    ∃ revisions, s' = { s with taskRevisions := revisions } := by
  simp only [saveTaskRevision, bind_eq_ok, pure_eq_ok] at h
  obtain ⟨-, -, revisions, -, rfl⟩ := h
  exact ⟨revisions, rfl⟩

/-- A write of judged fields, with the revision of the task it records. -/
lemma saveTaskRevision_of_judged {T : Table Task}
    (h : saveTaskRevision { s with tasks := T } project task = .ok s')
    (hT : Related (fun t t' => t'.row = t.row ∧ t'.generation = t.generation ∧
      t'.currentAttempt = t.currentAttempt) s.tasks.get? T.get?) :
    s'.board = s.board ∧ s.Settles s' ∧ s'.workflowSubjects = s.workflowSubjects := by
  obtain ⟨revisions, rfl⟩ := saveTaskRevision_ok h
  refine ⟨?_, ?_, rfl⟩
  · exact board_tasks_of_same (T := T) ⟨fun k t' ht' => (hT.old k t' ht').imp fun _ h => ⟨h.1, h.2.1⟩,
      fun k t ht => (hT.new k t ht).imp fun _ h => ⟨h.1, h.2.1⟩⟩
  · have hkeep : s.Settles { s with tasks := T } :=
      .keepTasks (.refl s) ⟨fun k t' ht' => (hT.old k t' ht').imp fun _ h => ⟨h.1, h.2.2⟩,
        fun k t ht => (hT.new k t ht).imp fun _ h => ⟨h.1, h.2.2⟩⟩
    exact hkeep.trans (.of_eq rfl rfl rfl)

/-- An accepted amendment changes judged fields and pins, which the board does not show. -/
lemma applyAccepted_ok {amendment : Option (List String)}
    (h : applyAccepted s project task submission amendment = .ok s') :
    s'.board = s.board ∧ s.Settles s' ∧ s'.workflowSubjects = s.workflowSubjects := by
  cases amendment with
  | none =>
    obtain rfl := pure_eq_ok.1 h
    exact ⟨rfl, .refl s, rfl⟩
  | some criteria =>
    simp only [applyAccepted, applyAmendment, bind_eq_ok, okOr_eq_ok, ite_eq_ok, pure_eq_ok] at h
    obtain ⟨t, -, s₁, hamend, t', -, rfl⟩ := h
    have hs₁ : s₁.board = s.board ∧ s.Settles s₁ ∧ s₁.workflowSubjects = s.workflowSubjects := by
      rcases hamend with ⟨-, hsave⟩ | ⟨-, rfl⟩
      · exact saveTaskRevision_of_judged hsave
          (Table.related_modify (fun _ => ⟨rfl, rfl, rfl⟩) fun _ _ _ => ⟨rfl, rfl, rfl⟩)
      · exact ⟨rfl, .refl _, rfl⟩
    obtain ⟨hboard, hsettles, hsubjects⟩ := hs₁
    refine ⟨?_, hsettles.trans (.of_eq rfl rfl rfl), hsubjects⟩
    rw [← hboard]
    simp only [Db.board]
    have hrow : ∀ u ∈ s₁.submissions, u.id = submission →
        { u with taskDigest := some t'.digest }.row = u.row := fun _ _ _ => rfl
    rw [Table.project_modify_of_same (p := fun u : Submission => u.id = submission) hrow]

end Amend

/-! ### Sending back -/

section SendBack

variable {s s₁ s₂ : Db} {submission except actor : Id}

/-- Activities that keep everything but their states. -/
lemma related_activities {s' : Db} (h : Related (fun wa wa' => SameActivity wa.row wa'.row)
    s.workflowActivities.get? s'.workflowActivities.get?) :
    Related SameActivity s.board.activities s'.board.activities where
  old a w' hw' := by
    obtain ⟨wa', hwa', rfl⟩ := Table.project_eq_some.1 hw'
    obtain ⟨wa, hwa, hsame⟩ := h.old a wa' hwa'
    exact ⟨wa.row, board_activity hwa, hsame⟩
  new a w hw := by
    obtain ⟨wa, hwa, rfl⟩ := Table.project_eq_some.1 hw
    obtain ⟨wa', hwa', hsame⟩ := h.new a wa hwa
    exact ⟨wa'.row, board_activity hwa', hsame⟩

lemma related_cancelActivities {p : WorkflowActivity → Prop} [DecidablePred p] (actor : Id)
    {why : CancelReason} :
    Related SameActivity s.board.activities (s.cancelActivities p actor why).board.activities := by
  refine related_activities ?_
  simp only [Db.cancelActivities]
  exact Table.related_modify (fun _ => rfl) fun _ _ _ => rfl

lemma tasks_cancelActivities {p : WorkflowActivity → Prop} [DecidablePred p] {why : CancelReason} :
    (s.cancelActivities p actor why).tasks = s.tasks := rfl

/-- Canceling the other activities touches only tasks of the submission's activities. -/
lemma cancelOthers_retasks {b : Board} {T : Table Task} (h : b.Retasks T s.tasks)
    (hawake : ∀ k, s.board.TaskOf submission k → ¬ b.Asleep k) :
    b.Retasks T (s.cancelOthers submission except actor).tasks := by
  have hother : ∀ state wa, otherActivity submission except state wa → wa.submission = submission :=
    fun _ _ h => h.1
  obtain ⟨why, hwhy⟩ : ∃ why : CancelReason,
    why = ⟨"changes_requested", "A review requested changes to this submission."⟩ := ⟨_, rfl⟩
  simp only [Db.cancelOthers, ← hwhy, Db.cancelTasksOf]
  refine .modify ?_ fun t _ hp => .of_awake rfl rfl (hawake _ ?_) fun h => h
  · simp only [Db.endAttempts, tasks_cancelActivities]
    refine .modify h fun t _ hp => .of_awake rfl rfl (hawake _ ?_) fun h => absurd h (by simp [Task.row])
    exact (board_taskOf (hother _) hp).of_same (related_cancelActivities actor)
  · exact ((board_taskOf (hother _) hp).of_same (related_cancelActivities actor)).of_same
      (related_cancelActivities actor)

/-- Ending the current attempts of some activities' tasks leaves those tasks quiet: an active
attempt is the current one of its task. -/
lemma quiet_of_isTaskOf (hs : s.Sound) {p : WorkflowActivity → Prop} [DecidablePred p] {k : Id}
    {state : AttemptState} {outcome : String} (hstate : state ≠ .active) (hk : s.isTaskOf p k) :
    (s.endAttempts (fun a => s.isCurrentOf p a.id ∧ a.state = .active) state outcome).Quiet k := by
  refine quiet_endAttempts hstate fun id a ha htask hactive => ⟨?_, hactive⟩
  obtain ⟨wa, hwa, hp, htaskOf⟩ := hk
  obtain ⟨t, ht, hcurrent, -⟩ := hs.current ha hactive
  refine ⟨wa, hwa, hp, ?_⟩
  rw [htaskOf, ← htask, ht, Option.bind_some, hcurrent, show a.id = id from Table.key_of_get? ha]

/-- The attempts of the other active activities end before their tasks are freed. -/
lemma cancelOthers_settles (hs : s₁.Sound) (h : s.Settles s₁) :
    s.Settles (s₁.cancelOthers submission except actor) := by
  obtain ⟨why, hwhy⟩ : ∃ why : CancelReason,
    why = ⟨"changes_requested", "A review requested changes to this submission."⟩ := ⟨_, rfl⟩
  simp only [Db.cancelOthers, ← hwhy]
  obtain ⟨X, hX⟩ : ∃ X, X = s₁.cancelActivities (otherActivity submission except .queued) actor why :=
    ⟨_, rfl⟩
  rw [← hX]
  have hXs : s.Settles X := hX ▸ h.cancelActivities
  have hsound : X.Sound := hs.settles (hX ▸ (Db.Settles.refl s₁).cancelActivities)
  exact .cancelTasksOf (.cancelActivities (.setTasks (.endAttempts hXs (by simp))
    (Table.related_modify (fun _ => ⟨rfl, .inl rfl⟩) fun t ht hp =>
      ⟨rfl, .inr ⟨rfl, quiet_of_isTaskOf hsound (by simp) hp⟩⟩)))

/-- The other activity, on the board. -/
def otherOf (submission except : Id) (state : ActivityState) (a : Id) (wa : Activity) : Prop :=
  wa.submission = submission ∧ a ≠ except ∧ wa.state = state

instance (submission except : Id) (state : ActivityState) (a : Id) (wa : Activity) :
    Decidable (otherOf submission except state a wa) := by
  unfold otherOf; infer_instance

lemma board_cancelOther {state : ActivityState} {why : CancelReason} (hlive : state.Live) :
    (s.cancelActivities (otherActivity submission except state) actor why).board
      = { s.board with activities := s.board.setState (otherOf submission except state) .canceled } :=
  board_cancelActivities _ _ fun wa _ =>
    ⟨fun h => h.1, fun h => ⟨h, by rw [show wa.row.state = state from h.2.2]; exact hlive⟩⟩

/-- Canceling the queued ones and then the active ones cancels the live ones. -/
lemma setState_others {b : Board} :
    alter (b.setState (otherOf submission except .queued) .canceled)
        (otherOf submission except .active) (fun wa => { wa with state := .canceled })
      = alter b.activities (liveOf submission (· = except))
        fun wa => { wa with state := .canceled } := by
  funext a
  unfold Board.setState alter
  cases b.activities a with
  | none => rfl
  | some wa =>
    cases hstate : wa.state <;> by_cases hsub : wa.submission = submission <;>
      by_cases hid : a = except <;>
        simp [otherOf, liveOf, ActivityState.Live, hstate, hsub, hid]

lemma board_cancelTasksOf {p : WorkflowActivity → Prop} [DecidablePred p] :
    (s.cancelTasksOf p).board = { s.board with tasks := (s.cancelTasksOf p).board.tasks } := rfl

lemma board_cancelOthers (submission except actor : Id) :
    (s.cancelOthers submission except actor).board = { s.board with
      tasks := (s.cancelOthers submission except actor).board.tasks
      activities := alter s.board.activities (liveOf submission (· = except))
        fun wa => { wa with state := .canceled } } := by
  obtain ⟨why, hwhy⟩ : ∃ why : CancelReason,
    why = ⟨"changes_requested", "A review requested changes to this submission."⟩ := ⟨_, rfl⟩
  obtain ⟨X, hX⟩ : ∃ X, X = s.cancelActivities (otherActivity submission except .queued) actor why :=
    ⟨_, rfl⟩
  simp only [Db.cancelOthers, ← hwhy, ← hX]
  -- the writes between the two cancellations touch only tasks and attempts
  have hlast : ∀ Y : Db, Y.board = { X.board with tasks := Y.board.tasks } →
      ((Y.cancelActivities (otherActivity submission except .active) actor why).cancelTasksOf
        (otherActivity submission except .canceled)).board
      = { s.board with
          tasks := ((Y.cancelActivities (otherActivity submission except .active) actor
            why).cancelTasksOf (otherActivity submission except .canceled)).board.tasks
          activities := alter s.board.activities (liveOf submission (· = except))
            fun wa => { wa with state := .canceled } } := by
    intro Y hY
    rw [board_cancelTasksOf, board_cancelOther (.inr rfl), ← setState_others, Board.setState, hY, hX,
      board_cancelOther (.inl rfl)]
  exact hlast _ rfl

/-- The board after the writes of a request for changes, but for the tasks. -/
lemma board_sendBack {actor : Actor} {ctx : ActivityContext} :
    (s.sendBack actor ctx).board = { s.board with
      tasks := (s.sendBack actor ctx).board.tasks
      submissions := s.board.supersede ctx.submission.id
      subjects := s.board.setPhase ctx.activity.subjectTask .revisionNeeded
      activities := alter s.board.activities (liveOf ctx.submission.id (· = ctx.activity.id))
        fun wa => { wa with state := .canceled } } := by
  obtain ⟨X, hX⟩ : ∃ X, X = (s.supersede ctx.submission.id).setPhase ctx.activity.subjectTask
    .revisionNeeded := ⟨_, rfl⟩
  have hcancel := board_cancelOthers (s := X) ctx.submission.id ctx.activity.id actor.id
  obtain ⟨Y, hY⟩ : ∃ Y, Y = X.cancelOthers ctx.submission.id ctx.activity.id actor.id := ⟨_, rfl⟩
  rw [← hY] at hcancel
  simp only [Db.sendBack, ← hX, ← hY]
  have hX' : X.board = { s.board with
      submissions := s.board.supersede ctx.submission.id
      subjects := s.board.setPhase ctx.activity.subjectTask .revisionNeeded } := by
    rw [hX, board_setPhase, board_supersede]
    rfl
  rw [hX'] at hcancel
  have hfinal := fun T : Id → Option Board.Task =>
    congrArg (fun b : Board => { b with tasks := T }) hcancel
  exact hfinal _

lemma rejectMechanical_ok {s' : Db} {project task : Id}
    (h : rejectMechanical s project task = .ok s') :
    s' = s ∨ ∃ revisions, s' = { s with
      tasks := s.tasks.modify (fun t => t.id = task) (fun t => { t with
        lifecycle := .canceled
        blockedReason := none
        revision := t.revision + 1 })
      taskRevisions := revisions } := by
  simp only [rejectMechanical, ite_eq_ok, pure_eq_ok] at h
  rcases h with ⟨-, h⟩ | ⟨-, h⟩
  · obtain ⟨revisions, rfl⟩ := saveTaskRevision_ok h
    exact .inr ⟨revisions, rfl⟩
  · exact .inl h.symm

end SendBack

/-! ### Deciding -/

section Review

variable {s s' s₁ s₂ : Db} {actor : Actor} {project id : Id} {input : ReviewInput}
  {ctx : ActivityContext} {amendment : Option (List String)} {ok : Board → Label → Prop}

/-- A request for changes. -/
lemma sendBack_moves (hok : Permits ok) (hb : Coherent s.board)
    (hactor : ∃ p, s.ext.principals.get? actor.id = some p ∧ p.kind = actor.kind)
    (h : s.Decides actor project id input ctx .changesRequested amendment s₁)
    (hsend : ok s.board (.sendBack id))
    (hreject : rejectMechanical (s₁.sendBack actor ctx) project ctx.activity.subjectTask = .ok s₂) :
    Moves ok s.board s₂.board := by
  obtain ⟨hundecided, hboard₁⟩ := h.board_eq
  obtain ⟨p, hp, hkind⟩ := hactor
  have hid : ctx.activity.id = id := h.toJoins.id_eq
  have hsub : ctx.submission.id = ctx.activity.submission := h.toJoins.submission_id
  have hpinned := h.toJoins.pinned h.toCurrent
  -- the task of the review is freed, and then the submission is sent back
  have hfree : Moves ok s.board { s with tasks := s₁.tasks }.board :=
    Moves.retask (.refl _) hok (h.retasks hb)
  obtain ⟨Y, hY⟩ : ∃ Y, Y = s₁.sendBack actor ctx := ⟨_, rfl⟩
  have hboard : Y.board = { s.board with
      tasks := Y.board.tasks
      submissions := s.board.supersede ctx.activity.submission
      subjects := s.board.setPhase ctx.activity.subjectTask .revisionNeeded
      activities := alter (s.board.setState (only id) .completed)
        (liveOf ctx.activity.submission (· = id)) fun wa => { wa with state := .canceled }
      verdicts := Function.update s.board.verdicts id
        (some (verdictOf s actor ctx .changesRequested)) } := by
    rw [hY, board_sendBack, hboard₁, hid, hsub]
    rfl
  have hboard' := congrArg (fun b : Board => { b with tasks := s₁.tasks.project Task.row }) hboard
  have hback : Moves ok s.board { Y with tasks := s₁.tasks }.board :=
    (congrArg (Moves ok s.board) hboard').mpr (hfree.tail (hok.tasks _ _ _ hsend) (Move.sendBack
      (b := { s with tasks := s₁.tasks }.board) (a := id) (k := actor.kind)
      (v := verdictOf s actor ctx .changesRequested) h.toJoins.board_activity h.review h.live
      ⟨hpinned.subject, hpinned.current, hpinned.submission, hpinned.standing, hpinned.phase⟩
      hundecided hsub rfl (by simp [verdictOf, hp, hkind]) h.fit))
  -- the submission has left review, so all its tasks are awake
  have hcoherent := hback.coherent hb
  have hsubject : { Y with tasks := s₁.tasks }.board.subjects ctx.activity.subjectTask
      = some { ctx.subject.row with phase := .revisionNeeded } := by
    refine (congrFun (congrArg Board.subjects hboard') _).trans ?_
    exact alter_of_pos (p := fun k' _ => k' = _) h.toJoins.board_subject rfl
  have hrelated : Related SameActivity s₁.board.activities Y.board.activities := by
    rw [hY, board_sendBack]
    exact Related.alter (fun _ => rfl) fun _ => rfl
  have hsubmission : { Y with tasks := s₁.tasks }.board.submissions ctx.submission.id
      = some { ctx.submission.row with superseded := true } := by
    refine (congrFun (congrArg Board.submissions hboard') _).trans ?_
    exact alter_of_pos (p := fun u' _ => u' = _) (hsub ▸ h.toJoins.board_submission) hsub
  obtain ⟨u, hu, htask, -⟩ := hb.activitySubmission id _ h.toJoins.board_activity
  obtain rfl := Option.some.inj (h.toJoins.board_submission.symm.trans hu)
  have hsubject' := (congrArg { Y with tasks := s₁.tasks }.board.subjects htask).trans hsubject
  have hawake : ∀ k, s₁.board.TaskOf ctx.submission.id k →
      ¬ { Y with tasks := s₁.tasks }.board.Asleep k := fun k hk =>
    hcoherent.toWired.awake_of_phase hsubmission hsubject' (by simp)
      (hk.of_same (hrelated.symm fun _ _ h => h.symm))
  have hawake' := hcoherent.awake_of_subject hsubject
  have hretask : { Y with tasks := s₁.tasks }.board.Retasks s₁.tasks Y.tasks := by
    obtain ⟨Z, hZ⟩ : ∃ Z, Z = { Y with tasks := s₁.tasks }.board := ⟨_, rfl⟩
    rw [← hZ] at hawake hawake' ⊢
    rw [hY]
    simp only [Db.sendBack]
    exact .modify (cancelOthers_retasks (.refl _) hawake) fun t _ hid => .of_awake rfl rfl
      (by rw [show t.id = _ from hid]; exact hawake') fun h => h
  rw [← hY] at hreject
  obtain rfl | ⟨revisions, rfl⟩ := rejectMechanical_ok hreject
  · exact hback.retask hok hretask
  · exact hback.retask hok (.modify hretask fun t _ hid => .of_awake rfl rfl
      (by rw [show t.id = _ from hid]; exact hawake') fun h => h)

/-- An approval, up to moving on. -/
lemma approve_moves (hok : Permits ok) (hb : Coherent s.board)
    (happrove : ok s.board (.approve id))
    (hactor : ∃ p, s.ext.principals.get? actor.id = some p ∧ p.kind = actor.kind)
    (h : s.Decides actor project id input ctx .approved amendment s₁) :
    Moves ok s.board s₁.board := by
  obtain ⟨hundecided, hboard₁⟩ := h.board_eq
  obtain ⟨p, hp, hkind⟩ := hactor
  have hfree : Moves ok s.board { s with tasks := s₁.tasks }.board :=
    Moves.retask (.refl _) hok (h.retasks hb)
  have hactivity : { s with tasks := s₁.tasks }.board.activities id = some ctx.activity.row :=
    h.toJoins.board_activity
  have hsub : (verdictOf s actor ctx .approved).submission = ctx.activity.row.submission :=
    h.toJoins.submission_id
  rw [hboard₁]
  exact hfree.tail (hok.tasks _ _ _ happrove) (Move.approve (b := { s with tasks := s₁.tasks }.board)
    (k := actor.kind) (v := verdictOf s actor ctx .approved) hactivity h.review h.live hundecided hsub
    rfl (by simp [verdictOf, hp, hkind]) h.fit)

theorem review_moves (hok : Permits ok) (hb : Coherent s.board)
    (hactor : ∃ p, s.ext.principals.get? actor.id = some p ∧ p.kind = actor.kind)
    (hsend : (input.decision = .changesRequested ∨ input.amendmentDecision = some .rejected) →
      ok s.board (.sendBack id))
    (hadvance : ∀ ctx amendment s₁, s.Decides actor project id input ctx .approved amendment s₁ →
      approvalsSatisfied s₁ ctx.submission.id = .ok true →
      ok s₁.board (.advance ctx.activity.subjectTask))
    (happrove : ok s.board (.approve id))
    (h : review s actor project id input = .ok s') : Moves ok s.board s'.board := by
  obtain ⟨ctx, decision, amendment, s₁, s₂, hdecides, happly, rfl⟩ := review_ok h
  rw [board_finish]
  cases decision with
  | changesRequested =>
    simp only [applyDecision, bind_eq_ok] at happly
    obtain ⟨-, -, hreject⟩ := happly
    exact sendBack_moves hok hb hactor hdecides (hsend (amendmentOutcome_changes hdecides.outcome))
      hreject
  | approved =>
    have happrove := approve_moves hok hb happrove hactor hdecides
    simp only [applyDecision, bind_eq_ok, ite_eq_ok, pure_eq_ok] at happly
    obtain ⟨satisfied, hsatisfied, ⟨rfl, s₂', hamend, happly⟩ | ⟨-, rfl⟩⟩ := happly
    · obtain ⟨hboard, -, hsubjects⟩ := applyAccepted_ok hamend
      rw [← hboard] at happrove
      have hsubject : s₂'.workflowSubjects.get? ctx.activity.subjectTask = some ctx.subject := by
        rw [hsubjects]
        obtain ⟨attempt, ownerSession, decisions, -, -, rfl⟩ := hdecides.recorded
        exact hdecides.subject
      refine happrove.trans (advanceApprovedSubject_moves hok (happrove.coherent hb) hsubject
        hdecides.current.symm hdecides.notRevision ?_ happly)
      rw [hboard]
      exact hadvance ctx amendment s₁ hdecides hsatisfied
    · exact happrove

theorem review_settles (hs : s.Sound) (h : review s actor project id input = .ok s') :
    s.Settles s' := by
  obtain ⟨ctx, decision, amendment, s₁, s₂, hdecides, happly, rfl⟩ := review_ok h
  have h₁ := hdecides.settles hs
  refine .finish ?_
  cases decision with
  | changesRequested =>
    simp only [applyDecision, bind_eq_ok] at happly
    obtain ⟨-, -, hreject⟩ := happly
    obtain ⟨X, hX⟩ : ∃ X, X = (s₁.supersede ctx.submission.id).setPhase ctx.activity.subjectTask
      .revisionNeeded := ⟨_, rfl⟩
    have hXs : s₁.Settles X := hX ▸ .of_eq rfl rfl rfl
    have hback : s.Settles (s₁.sendBack actor ctx) := by
      simp only [Db.sendBack, ← hX]
      exact .keepTasks (cancelOthers_settles ((hs.settles h₁).settles hXs) (h₁.trans hXs))
        (Table.related_modify (fun _ => ⟨rfl, rfl⟩) fun _ _ _ => ⟨rfl, rfl⟩)
    obtain ⟨Y, hY⟩ : ∃ Y, Y = s₁.sendBack actor ctx := ⟨_, rfl⟩
    rw [← hY] at hback hreject
    obtain rfl | ⟨revisions, rfl⟩ := rejectMechanical_ok hreject
    · exact hback
    · have hkeep := hback.keepTasks (T := Y.tasks.modify (fun t => t.id = ctx.activity.subjectTask)
        (fun t => { t with
          lifecycle := .canceled
          blockedReason := none
          revision := t.revision + 1 }))
        (Table.related_modify (fun _ => ⟨rfl, rfl⟩) fun _ _ _ => ⟨rfl, rfl⟩)
      exact hkeep.trans (.of_eq rfl rfl rfl)
  | approved =>
    simp only [applyDecision, bind_eq_ok, ite_eq_ok, pure_eq_ok] at happly
    obtain ⟨satisfied, -, ⟨-, s₂', hamend, happly⟩ | ⟨-, rfl⟩⟩ := happly
    · exact (h₁.trans (applyAccepted_ok hamend).2.1).trans (advanceApprovedSubject_settles happly)
    · exact h₁

end Review

end AgentCoordinator
