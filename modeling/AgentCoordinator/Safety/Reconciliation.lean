import AgentCoordinator.Safety.Ownership

/-
Reconciliation by an agent.

An accepted reconciliation leaves one live integration of the submission, the replacement, which
holds the target, and its observation is one of the two that the intent allows. It overrides no
live owner exactly when no attempt of the integration other than the one its intent names is
active: the liveness test looks at that attempt alone.
-/

namespace AgentCoordinator

open Guarded Tabular Transition Board Scenario

/-- What an agent's reconciliation of activity `id` may do. -/
structure Db.ReconciledByAgent (s s' : Db) (id : Id) (input : AgentPublicationReconciliationInput) :
    Prop where
  /-- No owner of the integration was live. -/
  unowned : ∀ wa, s.workflowActivities.get? id = some wa → ∀ a ∈ s.attempts,
    a.task = wa.activityTask → a.state = .active → s.now < a.expiresAt →
      a.ownerAuthorized s.ext s.now = false
  /-- One integration of the submission is live, and it holds the target. -/
  replaced : ∀ wa, s.workflowActivities.get? id = some wa → ∃ wa' ∈ s'.workflowActivities,
    wa'.id ≠ id ∧ (∃ r ∈ s'.integrationHolds, r.activity = wa'.id ∧ r.state = .held) ∧
      ∀ x ∈ s'.workflowActivities,
        (x.kind = .integration ∧ x.submission = wa.submission ∧ x.state.Live) ↔ x = wa'
  /-- No attempt of the integration is active any more. -/
  ended : ∀ wa, s.workflowActivities.get? id = some wa → ∀ a ∈ s'.attempts,
    a.task = wa.activityTask → a.state ≠ .active
  /-- The observation was the intended result, or the target before the publication. -/
  observed : ∃ intent, s.publicationIntents.get? id = some intent ∧
    ((input.disposition = .published ∧ input.observedTargetRevision = intent.resultRevision ∧
        input.observedTargetTree = intent.resultTree) ∨
      (input.disposition = .notPublished ∧
        input.observedTargetRevision = intent.observedTargetRevision ∧
        input.observedTargetTree = intent.observedTargetTree))

section Replacement

variable {s s' : Db} {actor : Actor} {project id : Id} {ctx : ActivityContext} {reason : String}
  {why : CancelReason}

/-- The replacement is queued and holds the target. -/
lemma replaceActivity_replaces (h : replaceActivity s actor project ctx reason why = .ok s') :
    s'.attempts = s.attempts ∧ ∃ wa' ∈ s'.workflowActivities,
      s.workflowActivities.get? wa'.id = none ∧ wa'.kind = .integration ∧
      wa'.submission = ctx.submission.id ∧ wa'.state = .queued ∧
      ∃ r ∈ s'.integrationHolds, r.activity = wa'.id ∧ r.state = .held := by
  obtain ⟨X, key, branch, hX, -, -, hinsert⟩ := replaceActivity_ok h
  obtain ⟨-, rfl⟩ := insertHold_ok hinsert
  have hfresh : s.workflowActivities.get? X.workflowActivities.fresh = none := by
    have hnone := Table.get?_fresh X.workflowActivities
    generalize X.workflowActivities.fresh = k at hnone ⊢
    rw [hX] at hnone
    simp only [Db.endIntegration, Db.cancelActivities, Table.get?_modify] at hnone
    exact Option.map_eq_none_iff.1 hnone
  obtain ⟨wa', hwa'⟩ : ∃ wa', wa' = queuedActivity X project ctx.subjectTask.id ctx.submission.id
      X.tasks.fresh .integration (X.nextSlot ctx.submission.id .integration)
      X.workflowActivities.fresh := ⟨_, rfl⟩
  have hid : wa'.id = X.workflowActivities.fresh := by rw [hwa']; rfl
  refine ⟨by rw [hX]; rfl, wa', ?_, by rw [hid]; exact hfresh, by rw [hwa']; rfl, by rw [hwa']; rfl,
    by rw [hwa']; rfl, ?_⟩
  · refine Table.mem_of_get? (k := X.workflowActivities.fresh) ?_
    simp only [Db.replaceIntegration, Db.createActivity, Table.get?_create, if_true, hwa']
  · refine ⟨_, Table.mem_of_get? (k := X.integrationHolds.fresh)
      (r := heldHold X X.workflowActivities.fresh key branch actor.id X.integrationHolds.fresh) ?_,
      hid.symm, rfl⟩
    change (X.integrationHolds.create _).get? X.integrationHolds.fresh = _
    rw [Table.get?_create, if_pos rfl]
    rfl

end Replacement

section Reconciled

variable {s s' : Db} {project id : Id} {input : AgentPublicationReconciliationInput}

/-- An active, unexpired and authorized attempt counts as a live producer. -/
lemma producerLive_of_authorized {a : Attempt} (ha : s.attempts.get? a.id = some a)
    (hactive : a.state = .active) (hexp : s.now < a.expiresAt)
    (hauthorized : a.ownerAuthorized s.ext s.now = true) : s.producerLive a.id = true := by
  rw [Attempt.ownerAuthorized, Bool.and_eq_true] at hauthorized
  rw [Db.producerLive, ha, Option.any_some, Bool.and_eq_true, Bool.and_eq_true]
  exact ⟨⟨by simpa using hactive, by simpa using hexp⟩, hauthorized.2⟩

/-- The attempts that a reconciliation by an agent leaves active. -/
lemma agentReconcilePublication_attempts {actor : Actor}
    (h : agentReconcilePublication s actor project id input = .ok s') :
    ∃ intent, s.publicationIntents.get? id = some intent ∧ ∀ x a',
      s'.attempts.get? x = some a' ∧ a'.state = .active ↔
        s.attempts.get? x = some a' ∧ a'.state = .active ∧ a'.id ≠ intent.attempt := by
  obtain ⟨ctx, intent, reconciliations, s₁, s₂, reason, why, hr, -, hs₁, hreplace, rfl⟩ :=
    agentReconcilePublication_ok h
  refine ⟨intent, hr.toJoins.id_eq ▸ hr.recorded, fun x a' => ?_⟩
  have hattempts := (replaceActivity_replaces hreplace).1
  change s₂.attempts.get? x = some a' ∧ _ ↔ _
  simp only [hattempts, hs₁, Db.endAttempts, Table.get?_modify]
  constructor
  · rintro ⟨hget, hactive⟩
    obtain ⟨a, ha, rfl⟩ := Option.map_eq_some_iff.1 hget
    by_cases hp : a.id = intent.attempt ∧ a.state = .active
    · rw [if_pos hp] at hactive
      exact absurd hactive (by simp)
    · rw [if_neg hp] at hactive ⊢
      exact ⟨ha, hactive, fun hid => hp ⟨hid, hactive⟩⟩
  · rintro ⟨ha, hactive, hne⟩
    exact ⟨by rw [ha, Option.map_some, if_neg fun hp => hne hp.1], hactive⟩

/-- An accepted reconciliation overrides no live owner, and leaves one live integration that holds
the target, exactly when the intent names every active attempt of the integration. A refused one
changes nothing. -/
theorem reconciled_by_agent (hs : Reachable anyStep s) (auth : Auth) (project id : Id)
    (input : AgentPublicationReconciliationInput) :
    (∀ s', serve s auth (.agentReconcilePublication project id input) = .ok s' →
      (s.ReconciledByAgent s' id input ↔ s.IntentOwned id)) ∧
    ∀ e, serve s auth (.agentReconcilePublication project id input) = .error e →
      ∀ s', AgentCoordinator.Step s (.request auth (.agentReconcilePublication project id input)) s' →
        s' = s := by
  constructor
  · intro s' hserve
    have hb := (hs.step trivial (.accepted hserve)).coherent
    obtain ⟨actor, -, -, hhandle⟩ := serve_ok hserve
    obtain ⟨intent, hintent, hattempts⟩ := agentReconcilePublication_attempts hhandle
    obtain ⟨ctx, intent', reconciliations, s₁, s₂, reason, why, hr, -, hs₁, hreplace, rfl⟩ :=
      agentReconcilePublication_ok hhandle
    have hid : ctx.activity.id = id := hr.toJoins.id_eq
    have hctx : s.workflowActivities.get? id = some ctx.activity := hr.activity
    obtain rfl : intent' = intent :=
      Option.some.inj ((hid ▸ hr.recorded).symm.trans hintent)
    constructor
    · -- an active attempt that the intent does not name stays active
      intro hrec wa hwa pi hpi a ha htask hactive
      obtain rfl := Option.some.inj (hpi.symm.trans hintent)
      by_contra hne
      have hkept := (hattempts a.id a).2 ⟨Table.get?_of_mem ha, hactive, hne⟩
      exact hrec.ended wa hwa a (Table.mem_of_get? hkept.1) htask hactive
    · intro howned
      have hnamed := fun a ha htask hactive => howned ctx.activity hctx intent' hintent a ha htask
        hactive
      refine ⟨fun wa hwa a ha htask hactive hexp => ?_, fun wa hwa => ?_,
        fun wa hwa a ha htask hactive => ?_, intent', hintent, ?_⟩
      · obtain rfl := Option.some.inj (hwa.symm.trans hctx)
        by_contra hauthorized
        refine hr.producer (.inl ?_)
        rw [← hnamed a ha htask hactive]
        exact producerLive_of_authorized (Table.get?_of_mem ha) hactive hexp
          (by simpa using hauthorized)
      · obtain rfl := Option.some.inj (hwa.symm.trans hctx)
        obtain ⟨-, wa', hmem, hnew, hkind, hsubmission, hstate, hold⟩ :=
          replaceActivity_replaces hreplace
        rw [hr.toJoins.submission_id] at hsubmission
        refine ⟨wa', hmem, ?_, hold, fun x hx => ⟨fun ⟨hxkind, hxsub, hlive⟩ => ?_, ?_⟩⟩
        · rintro heq
          rw [heq, hs₁] at hnew
          exact absurd (hnew.symm.trans hctx) (by simp)
        · have hrow := board_activity (Table.get?_of_mem hx)
          have hrow' := board_activity (Table.get?_of_mem hmem)
          have heq := hb.openUnique _ _ _ _ hrow hrow' hxkind hkind (hxsub.trans hsubmission.symm)
            (.inl hlive) (.inl (.inl hstate))
          exact Table.eq_of_get? (Table.get?_of_mem hmem) hx heq
        · rintro rfl
          exact ⟨hkind, hsubmission, .inl hstate⟩
      · obtain rfl := Option.some.inj (hwa.symm.trans hctx)
        obtain ⟨hbefore, -, hne⟩ := (hattempts a.id a).1 ⟨Table.get?_of_mem ha, hactive⟩
        exact hne (hnamed a (Table.mem_of_get? hbefore) htask hactive)
      · have htarget := hr.target
        have hmoved := hr.disposition
        rw [expectedTarget] at htarget
        cases hd : input.disposition with
        | published =>
          rw [hd, if_pos rfl, Prod.mk.injEq] at htarget
          exact .inl ⟨rfl, htarget⟩
        | notPublished =>
          rw [hd, if_neg (by simp), Prod.mk.injEq] at htarget
          exact .inr ⟨rfl, htarget⟩
        | targetMoved => exact absurd hd hmoved
  · intro e he s' hstep
    cases hstep with
    | accepted hserve => exact absurd (he.symm.trans hserve) (by simp)
    | refused => rfl

end Reconciled

/-! ### Replays -/

/-- An integration whose owner let its lease run out after recording an intent. -/
def abandoned : List Happening :=
  [claims 2 1, submitsCode 2 1, takes (agent 3) 1 1 1, decides (agent 3) 1 .approved,
    takes (agent 2) 2 1 1, intends 2 2 1, .wait 600000]

/-- What an agent reports of the publication of the second activity. -/
def unpublished : AgentPublicationReconciliationInput where
  submission := 1
  attempt := 3
  generation := 1
  disposition := .notPublished
  observedTargetRevision := base
  observedTargetTree := base
  canonicalRepositoryKey := "repository"
  targetBranch := "main"
  observedAt := 601000
  localJournalVerified := true
  publisherStopped := true
  evidence := "The branch did not move."

set_option maxRecDepth 20000 in
theorem reconciled_by_agent_replayed : ∃ s s', replay anyStep (service .agent) abandoned = some s ∧
    serve s (agent 2) (.agentReconcilePublication 1 2 unpublished) = .ok s' ∧ s.IntentOwned 2 ∧
      s.ReconciledByAgent s' 2 unpublished := by
  obtain ⟨s, hs, hp⟩ := exists_of_any (o := replay anyStep (service .agent) abandoned)
    (p := fun s => (serve s (agent 2) (.agentReconcilePublication 1 2 unpublished)).toOption.isSome
      && decide (s.IntentOwned 2)) (by decide +kernel)
  rw [Bool.and_eq_true, decide_eq_true_iff, Option.isSome_iff_exists] at hp
  obtain ⟨⟨s', hs'⟩, howned⟩ := hp
  have hserve := toOption_eq_some.1 hs'
  exact ⟨s, s', hs, hserve, howned, ((reconciled_by_agent
    (replay_reachable (service_initial _) hs) _ _ _ _).1 s' hserve).2 howned⟩

set_option maxRecDepth 20000 in
/-- A reconciliation by an agent is accepted while somebody else owns the integration. -/
theorem reconciled_over_owner : ¬ ∀ (s s' : Db) (auth : Auth) (project id : Id)
    (input : AgentPublicationReconciliationInput), Reachable anyStep s →
      serve s auth (.agentReconcilePublication project id input) = .ok s' →
        s.ReconciledByAgent s' id input := by
  intro h
  obtain ⟨s, hs, hp⟩ := exists_of_any (o := replay anyStep (service .agent) takenOver)
    (p := fun s => (serve s (agent 2) (.agentReconcilePublication 1 2 unpublished)).toOption.isSome
      && (s.workflowActivities.get? 2).any (fun wa => (s.attempts.get? 4).any (fun a =>
        a.task = wa.activityTask && a.state = .active && a.expiresAt > s.now &&
          a.ownerAuthorized s.ext s.now))) (by decide +kernel)
  simp only [Bool.and_eq_true, decide_eq_true_iff, Option.any_eq_true,
    Option.isSome_iff_exists] at hp
  obtain ⟨⟨s', hs'⟩, wa, hwa, a, ha, ⟨⟨htask, hactive⟩, hexp⟩, hauthorized⟩ := hp
  have hrec := h s s' (agent 2) 1 2 unpublished (replay_reachable (service_initial _) hs)
    (toOption_eq_some.1 hs')
  have hunauthorized := hrec.unowned wa hwa a (Table.mem_of_get? ha) htask hactive hexp
  exact absurd (hauthorized.symm.trans hunauthorized) (by simp)

end AgentCoordinator
