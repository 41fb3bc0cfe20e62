import AgentCoordinator.Workflow.Integration
import AgentCoordinator.Refinement.Review

/-
Publishing an integration: what it does to the board and to the ledger.

An intent is recorded while the target is held. An outcome other than `published` parks the
activity, and finalizing completes the activity with its subject and releases the hold; both free
tasks none of whose attempts is active any more.
-/

namespace AgentCoordinator

open Guarded Tabular Maps Transition Board Fencing

section Integration

variable {s s' : Db} {actor : Actor} {project id : Id} {ctx : ActivityContext}
  {ok : Board → Label → Prop}

/-! ### Authorization -/

lemma authorizeIntegration_ok {input : IntegrationAuthorizationInput}
    (h : authorizeIntegration s actor project id input = .ok s') :
    ∃ ctx, s' = (s.writeAuthorization actor ctx).finish actor "integration.authorized"
      ctx.activity.id := by
  simp only [authorizeIntegration, bind_eq_ok, refuseIf_eq_ok, pure_eq_ok] at h
  obtain ⟨-, -, -, -, ctx, -, -, -, -, -, -, -, -, -, -, -, -, -, -, -, -, -, rfl⟩ := h
  exact ⟨ctx, rfl⟩

theorem authorizeIntegration_board {input : IntegrationAuthorizationInput}
    (h : authorizeIntegration s actor project id input = .ok s') : s'.board = s.board := by
  obtain ⟨ctx, rfl⟩ := authorizeIntegration_ok h
  rfl

theorem authorizeIntegration_settles {input : IntegrationAuthorizationInput}
    (h : authorizeIntegration s actor project id input = .ok s') : s.Settles s' := by
  obtain ⟨ctx, rfl⟩ := authorizeIntegration_ok h
  exact .of_eq rfl rfl rfl

/-! ### Intent -/

/-- What `publication_intent` checks and does. -/
lemma publicationIntent_ok {input : PublicationIntentInput}
    (h : publicationIntent s actor project id input = .ok s') :
    ∃ ctx attempt intents, s.OwnsActivity actor project id ctx ∧ ctx.activity.kind = .integration ∧
      currentAttemptId s ctx.activity.activityTask = .ok attempt ∧ s.holdsTarget ctx.activity.id ∧
      s.publicationIntents.insert? (newIntent s actor ctx attempt input) = some intents ∧
      s' = { s with publicationIntents := intents }.finish actor "integration.publication_intended"
        ctx.activity.id := by
  simp only [publicationIntent, bind_eq_ok, okOr_eq_ok, refuseIf_eq_ok, pure_eq_ok, not_not] at h
  obtain ⟨-, -, -, -, -, -, -, -, ctx, hown, -, -, -, -, -, -, -, -, -, -, attempt, hattempt, -, -,
    -, hheld, intents, hintents, rfl⟩ := h
  obtain ⟨hown, hkind⟩ := ownedActivity_ok hown
  exact ⟨ctx, attempt, intents, hown, hkind, hattempt, hheld, hintents, rfl⟩

theorem publicationIntent_moves {input : PublicationIntentInput} (hb : Coherent s.board)
    (hintend : ok s.board (.intend id)) (h : publicationIntent s actor project id input = .ok s') :
    Moves ok s.board s'.board := by
  obtain ⟨ctx, attempt, intents, hown, hkind, -, hheld, hintents, rfl⟩ := publicationIntent_ok h
  have hid : ctx.activity.id = id := hown.toJoins.id_eq
  have hboard : { s with publicationIntents := intents }.board
      = { s.board with intended := fun x => x = id ∨ s.board.intended x } := by
    refine Board.ext rfl rfl rfl rfl rfl rfl (funext fun x => propext ?_) rfl
    have hget := (Table.insert?_eq_some hintents).2 x
    rw [show Keyed.key (newIntent s actor ctx attempt input) = id from hid] at hget
    change (intents.get? x).isSome = true ↔ x = id ∨ (s.publicationIntents.get? x).isSome = true
    rw [hget]
    by_cases hx : x = id <;> simp [hx]
  rw [board_finish, hboard]
  exact .single hintend (Move.intend hown.toJoins.board_activity hkind hown.live
    (hown.awake hb) (hid ▸ board_held_iff.2 hheld))

theorem publicationIntent_settles {input : PublicationIntentInput}
    (h : publicationIntent s actor project id input = .ok s') : s.Settles s' := by
  obtain ⟨ctx, attempt, intents, -, -, -, -, -, rfl⟩ := publicationIntent_ok h
  exact .of_eq rfl rfl rfl

/-! ### Outcome -/

/-- What `integration_result` checks and does. -/
lemma integrationResult_ok {input : IntegrationResultInput}
    (h : integrationResult s actor project id input = .ok s') :
    ∃ ctx intent results s₁, s.OwnsActivity actor project id ctx ∧
      s.publicationIntents.get? ctx.activity.id = some intent ∧
      currentAttemptId s ctx.activity.activityTask = .ok intent.attempt ∧
      s₁ = { s with integrationResults := results } ∧
      s' = (if input.publicationState ≠ .published then
          s₁.parkForRecovery ctx intent.attempt input.summary else s₁).finish actor
        "integration.result_recorded" ctx.activity.id := by
  simp only [integrationResult, bind_eq_ok, okOr_eq_ok, refuseIf_eq_ok, pure_eq_ok, not_not] at h
  obtain ⟨-, -, -, -, -, -, -, -, ctx, hown, -, -, -, -, intent, hintent, -, -, attempt, hattempt, -,
    rfl, -, -, results, -, rfl⟩ := h
  exact ⟨ctx, intent, results, _, (ownedActivity_ok hown).1, hintent, hattempt, rfl, rfl⟩

theorem integrationResult_moves {input : IntegrationResultInput} (hok : Permits ok)
    (hb : Coherent s.board) (h : integrationResult s actor project id input = .ok s') :
    Moves ok s.board s'.board := by
  obtain ⟨ctx, intent, results, s₁, hown, hintent, -, hs₁, rfl⟩ := integrationResult_ok h
  have hboard : s₁.board = s.board := by rw [hs₁]; rfl
  rw [board_finish]
  split
  · have hid : ctx.activity.id = id := hown.toJoins.id_eq
    have hstate := fun T : Id → Option Board.Task => congrArg (fun b : Board => { b with tasks := T })
      (board_setActivityState (s := s) ctx.activity.id .recoveryRequired)
    rw [hs₁]
    refine (congrArg (Moves ok s.board) (hstate _)).mpr (restateOwned_moves (T := s.tasks.modify
      (fun t => t.id = ctx.activity.activityTask) (fun t => { t with
        currentAttempt := none
        blockedReason := some "Publication outcome requires human reconciliation." })) hok hb hown
      (.modify (.refl _) fun t _ hid => .of_awake rfl rfl ?_ fun h => absurd h (by simp [Task.row]))
      (by simp) (by simp) fun _ => ?_)
    · rw [show t.id = _ from hid]
      exact hown.awake hb
    · rw [← hid]
      change (s.publicationIntents.get? ctx.activity.id).isSome = true
      rw [hintent]
      rfl
  · rw [hboard]
    exact .refl _

theorem integrationResult_settles {input : IntegrationResultInput} (hs : s.Sound)
    (h : integrationResult s actor project id input = .ok s') : s.Settles s' := by
  obtain ⟨ctx, intent, results, s₁, hown, -, hattempt, hs₁, rfl⟩ := integrationResult_ok h
  have h₁ : s.Settles s₁ := hs₁ ▸ .of_eq rfl rfl rfl
  have hquiet : (s₁.endAttempts (fun a => a.id = intent.attempt) .blocked input.summary).Quiet
      ctx.activity.activityTask := by
    rw [hs₁]
    exact hown.quiet hs hattempt (by simp)
  refine .finish ?_
  split
  · exact .setTasks (.endAttempts (.setActivityState h₁) (by simp)) (Table.related_modify
      (fun _ => ⟨rfl, .inl rfl⟩) fun t _ hid => ⟨rfl, .inr ⟨rfl, by
        rw [show t.id = _ from hid]
        exact hquiet⟩⟩)
  · exact h₁

/-! ### Finalizing -/

/-- What `finalize` checks and does. -/
lemma finalize_ok {input : FinalizeIntegrationInput}
    (h : finalize s actor project id input = .ok s') :
    ∃ ctx attempt, s.OwnsActivity actor project id ctx ∧ ctx.activity.kind = .integration ∧
      approvalsSatisfied s ctx.submission.id = .ok true ∧
      currentAttemptId s ctx.activity.activityTask = .ok attempt ∧
      s' = (s.completeIntegration actor ctx attempt).finish actor "integration.completed"
        ctx.activity.id := by
  simp only [finalize, bind_eq_ok, okOr_eq_ok, refuseIf_eq_ok, pure_eq_ok] at h
  obtain ⟨-, -, -, -, ctx, hown, -, -, -, -, satisfied, hsatisfied, -, hyes, -, -, -, -, -, -, -, -,
    -, -, -, -, -, -, attempt, hattempt, rfl⟩ := h
  obtain ⟨hown, hkind⟩ := ownedActivity_ok hown
  refine ⟨ctx, attempt, hown, hkind, ?_, hattempt, rfl⟩
  rwa [Bool.eq_true_of_not_eq_false hyes] at hsatisfied

theorem finalize_moves {input : FinalizeIntegrationInput} (hok : Permits ok)
    (hb : Coherent s.board) (hfinal : ok s.board (.finalize id))
    (h : finalize s actor project id input = .ok s') : Moves ok s.board s'.board := by
  obtain ⟨ctx, attempt, hown, hkind, -, -, rfl⟩ := finalize_ok h
  have hid : ctx.activity.id = id := hown.toJoins.id_eq
  have hpinned := hown.toJoins.pinned hown.toCurrent
  obtain ⟨T, hT⟩ : ∃ T, T = s.tasks.modify
      (fun t => t.id = ctx.activity.activityTask ∨ t.id = ctx.activity.subjectTask)
      (fun t => { t with lifecycle := .done, currentAttempt := none, blockedReason := none }) :=
    ⟨_, rfl⟩
  have hfree : Moves ok s.board { s with tasks := T }.board := by
    refine Moves.retask (.refl _) hok (hT ▸ .modify (.refl _) fun t _ hid => .of_awake rfl rfl ?_
      fun h => absurd h (by simp [Task.row]))
    rcases hid with hid | hid
    · rw [hid]
      exact hown.awake hb
    · rw [hid]
      exact hb.awake_of_subject hown.toJoins.board_subject
  obtain ⟨X, hX⟩ : ∃ X : Db, X = { s.endAttempts (fun a => a.id = attempt) .submitted
      "Exact integrated result validated." with
        tasks := T
        workflowActivities := s.workflowActivities.modify (fun wa => wa.id = ctx.activity.id)
          (fun wa => { wa with state := .completed, completedAt := some s.now }) } := ⟨_, rfl⟩
  have hboard : X.board = { { s with tasks := T }.board with
      activities := s.board.setState (only id) .completed } := by
    have hactivities := congrArg Board.activities (board_completeActivity (s := s) ctx.activity.id)
    have hset : s.board.setState (only ctx.activity.id) .completed
        = s.board.setState (only id) .completed := by rw [hid]
    rw [hX]
    exact Board.ext rfl rfl rfl (hactivities.trans hset) rfl rfl rfl rfl
  have hcomplete : s.completeIntegration actor ctx attempt
      = ((X.setPhase ctx.activity.subjectTask .done).releaseHolds (fun a => a = ctx.activity.id)
        actor.id "Exact integrated result completed.").readyDependents ctx.activity.subjectTask := by
    rw [hX, hT]
    rfl
  rw [board_finish, hcomplete, board_readyDependents, board_releaseHolds, board_setPhase, hboard, hid]
  exact hfree.tail (hok.tasks _ _ _ hfinal) (Move.finalize (b := { s with tasks := T }.board)
    hown.toJoins.board_activity hkind hown.live (fun h => hown.awake hb (h.of_eq rfl rfl))
    ⟨hpinned.subject, hpinned.current, hpinned.submission, hpinned.standing, hpinned.phase⟩)

theorem finalize_settles {input : FinalizeIntegrationInput} (hs : s.Sound) (hb : Coherent s.board)
    (h : finalize s actor project id input = .ok s') : s.Settles s' := by
  obtain ⟨ctx, attempt, hown, hkind, -, hattempt, rfl⟩ := finalize_ok h
  have hactivity : (s.endAttempts (fun a => a.id = attempt) .submitted
      "Exact integrated result validated.").Quiet ctx.activity.activityTask :=
    hown.quiet hs hattempt (by simp)
  -- nobody owns the subject's task while its code submission is in the workflow
  have hsubject : s.Quiet ctx.activity.subjectTask := by
    obtain ⟨u, hu, htask, hcode⟩ := hb.activitySubmission id _ hown.toJoins.board_activity
    have hnot : ¬ s.board.ActivityTask ctx.activity.subjectTask := by
      have hordinary := hb.codeTask _ u hu (hcode hkind)
      rwa [htask] at hordinary
    have hunowned := hb.settled _ _ _ hown.toJoins.board_subject hown.notRevision hnot
      (board_task hown.task)
    refine hs.quiet_of_unowned hown.task ?_
    simpa [Task.row] using hunowned
  have hend : s.Settles (s.endAttempts (fun a => a.id = attempt) .submitted
      "Exact integrated result validated.") := .endAttempts (.refl s) (by simp)
  have hfree := hend.setTasks (T := s.tasks.modify
    (fun t => t.id = ctx.activity.activityTask ∨ t.id = ctx.activity.subjectTask)
    (fun t => { t with lifecycle := .done, currentAttempt := none, blockedReason := none }))
    (Table.related_modify (fun _ => ⟨rfl, .inl rfl⟩) fun t _ hid => ⟨rfl, .inr ⟨rfl, by
      rcases hid with hid | hid
      · rw [hid]
        exact hactivity
      · rw [hid]
        exact hsubject.settles hend⟩⟩)
  exact .finish (.readyDependents (hfree.trans (.of_eq rfl rfl rfl)))

end Integration

end AgentCoordinator
