import AgentCoordinator.Workflow.Reopen
import AgentCoordinator.Refinement.Reconcile

/-
Reopening a submission: what it does to the board and to the ledger.

A deferred revise changes nothing here. Otherwise the submission is superseded, its activities are
canceled, their attempts end, and its holds are released; its intents were all settled before.
-/

namespace AgentCoordinator

open Guarded Tabular Maps Transition Board Fencing

section Reopen

variable {s s' : Db} {actor : Actor} {project task : Id} {input : ReopenSubmissionInput}
  {ok : Board → Label → Prop}

/-- What `reopen` does: it records the revise for later, or sends the subject back. -/
lemma reopen_ok (h : reopen s actor project task input = .ok s') :
    (∃ requests, s' = { s with ext := { s.ext with reviseRequests := requests } }.finish actor
        "submission.revise_deferred" input.submission) ∨
      ∃ ws, s.workflowSubjects.get? task = some ws ∧ ws.currentSubmission = input.submission ∧
        ws.phase ≠ .done ∧ ¬ s.publicationEffects input.submission ∧
        s' = (s.sendToRevision actor task input).finish actor "submission.reopened"
          input.submission := by
  simp only [reopen, bind_eq_ok, okOr_eq_ok, refuseIf_eq_ok, not_not] at h
  obtain ⟨-, -, ws, hws, -, hcurrent, -, hphase, -, -, h⟩ := h
  split at h
  · simp only [deferRevise, bind_eq_ok, refuseIf_eq_ok, pure_eq_ok] at h
    obtain ⟨s₁, ⟨-, -, rfl⟩, rfl⟩ := h
    exact .inl ⟨_, rfl⟩
  · simp only [supersedeSubmission, bind_eq_ok, refuseIf_eq_ok, pure_eq_ok] at h
    obtain ⟨-, heffects, -, -, s₁, ⟨-, -, -, -, rfl⟩, rfl⟩ := h
    exact .inr ⟨ws, (Option.filter_eq_some_iff.1 hws).1, hcurrent, hphase, heffects, rfl⟩

/-- The writes of a reopen, but for the tasks. -/
lemma board_sendToRevision (s : Db) (actor : Actor) (task : Id) (input : ReopenSubmissionInput) :
    ∃ (p : Id → Prop) (_ : DecidablePred p),
      (∀ a, p a ↔ ∃ wa, s.board.activities a = some wa ∧ wa.submission = input.submission) ∧
      (s.sendToRevision actor task input).board = { s.board with
        tasks := (s.sendToRevision actor task input).board.tasks
        submissions := s.board.supersede input.submission
        subjects := s.board.setPhase task .revisionNeeded
        activities := s.board.setState (liveOf input.submission fun _ => False) .canceled
        holds := s.board.release p } := by
  obtain ⟨X, hX⟩ : ∃ X, X = (((s.endActivityAttempts input.submission).supersede
    input.submission).setPhase task .revisionNeeded).cancelActivities
      (ofSubmission input.submission) actor.id (supersedeReason input) := ⟨_, rfl⟩
  have hXboard : X.board = { s.board with
      tasks := X.board.tasks
      submissions := s.board.supersede input.submission
      subjects := s.board.setPhase task .revisionNeeded
      activities := s.board.setState (liveOf input.submission fun _ => False) .canceled } := by
    rw [hX, board_cancelActivities _ _ (p := ofSubmission input.submission)
      (q := liveOf input.submission fun _ => False) fun _ _ => ⟨fun h => ⟨h.1, id, h.2⟩, fun h => ⟨h.1, h.2.2⟩⟩, board_setPhase, board_supersede]
    rfl
  obtain ⟨Y, hY⟩ : ∃ Y, Y = X.cancelTasksOf (canceledOf input.submission) := ⟨_, rfl⟩
  have hYboard : Y.board = { X.board with tasks := Y.board.tasks } := by
    rw [hY, ← board_cancelTasksOf]
  refine ⟨fun a => (Y.workflowActivities.get? a).any (fun wa => wa.submission = input.submission)
    = true, fun a => inferInstance, fun a => ?_, ?_⟩
  · have hrelated : Related SameActivity s.board.activities Y.board.activities := by
      rw [hYboard, hXboard]
      exact related_setState
    beta_reduce
    rw [Option.any_eq_true]
    constructor
    · rintro ⟨wa', hwa', hsub⟩
      obtain ⟨wa, hwa, hsame⟩ := hrelated.old a wa'.row (board_activity hwa')
      exact ⟨wa, hwa, by
        rw [show wa.submission = wa'.submission from (congrArg Activity.submission hsame).symm]
        simpa using hsub⟩
    · rintro ⟨wa, hwa, hsub⟩
      obtain ⟨w', hw', hsame⟩ := hrelated.new a wa hwa
      obtain ⟨wa', hwa', rfl⟩ := Table.project_eq_some.1 hw'
      exact ⟨wa', hwa', by
        rw [show wa'.submission = wa.submission from congrArg Activity.submission hsame]
        simpa using hsub⟩
  · have hrelease := board_releaseHolds (s := Y) (p := fun a =>
      (Y.workflowActivities.get? a).any (fun wa => wa.submission = input.submission) = true)
      actor.id input.reason
    rw [hYboard, hXboard] at hrelease
    have hfinal := fun T : Id → Option Board.Task =>
      congrArg (fun b : Board => { b with tasks := T }) hrelease
    have hsend : s.sendToRevision actor task input = { Y.releaseHolds (fun a =>
        (Y.workflowActivities.get? a).any (fun wa => wa.submission = input.submission) = true)
          actor.id input.reason with
        tasks := (s.sendToRevision actor task input).tasks } := by
      rw [hY, hX]
      rfl
    rw [hsend]
    exact hfinal _

lemma tasks_releaseHolds {p : Id → Prop} [DecidablePred p] {actor : Id} {reason : String} :
    (s.releaseHolds p actor reason).tasks = s.tasks := rfl

/-- A reopen touches the tasks of the submission's activities, and the subject's task. -/
lemma sendToRevision_retasks {b : Board}
    (hawake : ∀ k, s.board.TaskOf input.submission k → ¬ b.Asleep k) (htask : ¬ b.Asleep task) :
    b.Retasks s.tasks (s.sendToRevision actor task input).tasks := by
  obtain ⟨X, hX⟩ : ∃ X, X = ((s.endActivityAttempts input.submission).supersede
    input.submission).setPhase task .revisionNeeded := ⟨_, rfl⟩
  have hXtasks : b.Retasks s.tasks X.tasks := by
    rw [hX]
    simp only [Db.setPhase, Db.supersede, Db.endActivityAttempts]
    exact .modify (.refl _) fun t _ hp => .of_awake rfl rfl
      (hawake _ (board_taskOf (fun _ h => h) hp)) fun h => absurd h (by simp [Task.row])
  have hXactivities : X.board.activities = s.board.activities := by rw [hX]; rfl
  simp only [Db.sendToRevision, ← hX, tasks_releaseHolds]
  refine .modify ?_ fun t _ hid =>
    .of_awake rfl rfl (by rw [show t.id = task from hid]; exact htask) fun h => h
  simp only [Db.cancelTasksOf]
  refine .modify hXtasks fun t _ hp => .of_awake rfl rfl (hawake _ ?_) fun h => h
  have hk := (board_taskOf (fun _ h => h.1) hp).of_same (related_cancelActivities actor.id)
  obtain ⟨a, wa, hwa, hrest⟩ := hk
  exact ⟨a, wa, hXactivities ▸ hwa, hrest⟩

theorem reopen_moves (hok : Permits ok) (hb : Coherent s.board)
    (h : reopen s actor project task input = .ok s') : Moves ok s.board s'.board := by
  obtain ⟨requests, rfl⟩ | ⟨ws, hws, hcurrent, hphase, heffects, rfl⟩ := reopen_ok h
  · exact .refl _
  rw [board_finish]
  obtain ⟨p, _, hp, hboard⟩ := board_sendToRevision s actor task input
  obtain ⟨Y, hY⟩ : ∃ Y, Y = s.sendToRevision actor task input := ⟨_, rfl⟩
  rw [← hY] at hboard ⊢
  have hfinal := fun T : Id → Option Board.Task =>
    congrArg (fun b : Board => { b with tasks := T }) hboard
  have hsettled : ∀ a wa, s.board.activities a = some wa → wa.submission = input.submission →
      s.board.intended a → s.board.reconciled a := by
    intro a w hw hsub hintended
    by_contra hrec
    obtain ⟨wa, hwa, rfl⟩ := Table.project_eq_some.1 hw
    refine heffects ⟨wa, Table.mem_of_get? hwa, hsub, ?_, ?_⟩
    · rw [show wa.id = a from Table.key_of_get? hwa]
      exact hintended
    · rw [show wa.id = a from Table.key_of_get? hwa, Option.all_eq_true]
      intro pr hpr
      exact absurd (show (s.publicationReconciliations.get? a).isSome = true by rw [hpr]; rfl) hrec
  -- the submission goes back first, and then its tasks change, which are all awake
  have hback : Moves ok s.board { Y with tasks := s.tasks }.board := by
    have hmove := Move.reopen (b := s.board) (p := p) (board_subject hws) hphase
      (fun a wa hwa hsub => hsettled a wa hwa (hsub.trans hcurrent))
      (fun a => (hp a).trans (by rw [show ws.row.current = input.submission from hcurrent]))
    rw [show ws.row.current = input.submission from hcurrent] at hmove
    refine (congrArg (Moves ok s.board) (hfinal _)).mpr (.single (hok.plain _) ?_)
    exact hmove
  have hcoherent := hback.coherent hb
  have hsubject : { Y with tasks := s.tasks }.board.subjects task
      = some { ws.row with phase := .revisionNeeded } := by
    refine (congrFun (congrArg Board.subjects hboard) task).trans ?_
    exact alter_of_pos (p := fun k' _ => k' = task) (board_subject hws) rfl
  obtain ⟨u, hu, htask⟩ := hb.subjectSubmission task _ (board_subject hws)
  rw [show ws.row.current = input.submission from hcurrent] at hu
  have hsubmission : { Y with tasks := s.tasks }.board.submissions input.submission
      = some { u with superseded := true } := by
    refine (congrFun (congrArg Board.submissions hboard) _).trans ?_
    exact alter_of_pos (p := fun u' _ => u' = input.submission) hu rfl
  have hrelated : Related SameActivity { Y with tasks := s.tasks }.board.activities
      s.board.activities := by
    have h : Related SameActivity s.board.activities { Y with tasks := s.tasks }.board.activities := by
      have hactivities := congrArg Board.activities hboard
      exact (congrArg (Related SameActivity s.board.activities) hactivities).mpr related_setState
    exact h.symm fun _ _ h => h.symm
  have hsubject' := (congrArg { Y with tasks := s.tasks }.board.subjects htask).trans hsubject
  have hretask : { Y with tasks := s.tasks }.board.Retasks s.tasks Y.tasks := by
    have hawake := hcoherent.awake_of_subject hsubject
    have hother := fun k (hk : s.board.TaskOf input.submission k) =>
      hcoherent.toWired.awake_of_phase hsubmission hsubject' (by simp) (hk.of_same hrelated)
    generalize { Y with tasks := s.tasks }.board = b at hawake hother ⊢
    rw [hY]
    exact sendToRevision_retasks hother hawake
  exact hback.retask hok hretask

lemma endActivityAttempts_settles (hs : s.Sound) (submission : Id) :
    s.Settles (s.endActivityAttempts submission) :=
  .setTasks (.endAttempts (.refl s) (by simp)) (Table.related_modify (fun _ => ⟨rfl, .inl rfl⟩)
    fun _ _ hp => ⟨rfl, .inr ⟨rfl, quiet_of_isTaskOf hs (by simp) hp⟩⟩)

theorem reopen_settles (hs : s.Sound) (h : reopen s actor project task input = .ok s') :
    s.Settles s' := by
  obtain ⟨requests, rfl⟩ | ⟨ws, -, -, -, -, rfl⟩ := reopen_ok h
  · exact .of_eq rfl rfl rfl
  have hend := endActivityAttempts_settles hs input.submission
  have hsend : s.Settles (((s.endActivityAttempts input.submission).supersede
      input.submission).setPhase task .revisionNeeded) := hend.trans (.of_eq rfl rfl rfl)
  exact .finish (.keepTasks (.releaseHolds (.cancelTasksOf (.cancelActivities hsend)))
    (Table.related_modify (fun _ => ⟨rfl, rfl⟩) fun _ _ _ => ⟨rfl, rfl⟩))

end Reopen

end AgentCoordinator
