import AgentCoordinator.Workflow.Reconcile
import AgentCoordinator.Refinement.Integration

/-
Reconciling a publication: what it does to the board and to the ledger.

Both reconciliations settle an intent, end the integration and put a replacement in its place. They
differ in whose attempt they end: a human's ends the current attempt of the activity's task, an
agent's the attempt that the intent names.
-/

namespace AgentCoordinator

open Guarded Tabular Maps Transition Board Fencing

section Reconcile

variable {s₀ s s' : Db} {actor : Actor} {project id : Id} {ctx : ActivityContext}
  {ok : Board → Label → Prop} {reason : String} {why : CancelReason}

/-! ### The replacement -/

/-- The integration ended: its hold released, itself canceled and its task freed. -/
def Db.endIntegration (s : Db) (actor : Actor) (ctx : ActivityContext) (reason : String)
    (why : CancelReason) : Db :=
  { (s.releaseHolds (fun a => a = ctx.activity.id) actor.id reason).cancelActivities
      (fun wa => wa.id = ctx.activity.id) actor.id why with
    tasks := s.tasks.modify (fun t => t.id = ctx.activity.activityTask) (Task.closed .canceled)
      (Task.key_closed .canceled) }

/-- What the replacement of an integration checks and writes. -/
lemma replaceActivity_ok (h : replaceActivity s actor project ctx reason why = .ok s') :
    ∃ X key branch, X = s.endIntegration actor ctx reason why ∧
      ctx.submission.canonicalRepositoryKey = some key ∧
      ctx.submission.targetBranch = some branch ∧
      (X.replaceIntegration ctx project).insertHold X.workflowActivities.fresh key branch actor.id
        .recordConflict = .ok s' := by
  simp only [replaceActivity, bind_eq_ok, okOr_eq_ok] at h
  obtain ⟨key, hkey, branch, hbranch, h⟩ := h
  exact ⟨_, key, branch, rfl, hkey, hbranch, h⟩

/-- The task of an intended integration is awake. -/
lemma Board.Coherent.awake_of_intended {b : Board} (hb : Coherent b) {a : Id} {wa : Activity}
    (hwa : b.activities a = some wa) (hintended : b.intended a) : ¬ b.Asleep wa.task := by
  refine hb.toWired.not_asleep hwa fun hkind ws hws hcur hphase => ?_
  exact (hb.asleep a wa ws hwa hkind hws hcur hphase).2.2.2.1 hintended

/-- Settling an intent and replacing its integration is a move. -/
lemma replaceActivity_moves {human : Bool} (hok : Permits ok) (hb : Coherent s₀.board)
    (hboard : s.board = { s₀.board with reconciled := fun x => x = id ∨ s₀.board.reconciled x })
    (htasks : s.tasks = s₀.tasks) (hj : ctx.Joins s₀ project id) (hintended : s₀.board.intended id)
    (hunreconciled : ¬ s₀.board.reconciled id)
    (hcurrent : ctx.submission.id = ctx.subject.currentSubmission)
    (hagent : human = false → ctx.activity.state ∈ [ActivityState.active, .recoveryRequired] ∧
      ∃ h row, s₀.board.holds h = some row ∧ row.activity = id ∧ row.held = true)
    (hrec : ok s₀.board (.reconcile human id))
    (h : replaceActivity s actor project ctx reason why = .ok s') : Moves ok s₀.board s'.board := by
  obtain ⟨X, key, branch, hX, hkey, hbranch, hinsert⟩ := replaceActivity_ok h
  have hid : ctx.activity.id = id := hj.id_eq
  obtain ⟨T, hT⟩ : ∃ T, T = s.tasks.modify (fun t => t.id = ctx.activity.activityTask)
    (Task.closed .canceled) (Task.key_closed .canceled) := ⟨_, rfl⟩
  have hawake := hb.awake_of_intended hj.board_activity hintended
  have hfree : Moves ok s₀.board { s₀ with tasks := T }.board := by
    rw [hT, htasks]
    exact Moves.retask (.refl _) hok (.modify (.refl _) fun t _ hid => .of_awake rfl rfl
      (by rw [show t.id = _ from hid]; exact hawake) fun h => absurd h (by simp [Task.row]))
  obtain ⟨b, hb₁⟩ : ∃ b, b = { s₀ with tasks := T }.board := ⟨_, rfl⟩
  have hXboard : X.board = { b with
      reconciled := fun x => x = id ∨ b.reconciled x
      holds := b.release (· = id)
      activities := b.setState (fun x wa => x = id ∧ wa.state.Live) .canceled } := by
    have hend := board_endIntegration (s := s) ctx.activity.id actor.id reason why T
    rw [hX, Db.endIntegration, ← hT, hend, hboard, hid, hb₁]
    rfl
  rw [← hb₁] at hfree
  obtain ⟨hunheld, rfl⟩ := insertHold_ok hinsert
  have hrelated : Related SameActivity X.board.activities b.activities := by
    rw [hXboard]
    exact related_setState.symm fun _ _ h => h.symm
  have hqueued : b.Queued X.workflowActivities.fresh _ _ :=
    (queued_replacement X ctx project).of_same (by rw [hXboard]) hrelated
  -- the holds of `b` are those of `X` before the release
  have hholds : X.board.holds = b.release (· = id) := by rw [hXboard]
  have hfresh : b.Fresh X.integrationHolds.fresh ⟨X.workflowActivities.fresh, key, branch, true⟩
      ctx.submission.row := by
    refine ⟨?_, rfl, hkey, hbranch, fun k row hrow => ?_⟩
    · rw [← (related_release (b := b) (p := (· = id))).eq_none, ← hholds]
      exact Table.project_fresh _
    · obtain ⟨row', hrow', hsame⟩ := (related_release (b := b) (p := (· = id))).new k row hrow
      rw [← hholds] at hrow'
      obtain ⟨r, hr, rfl⟩ := Table.project_eq_some.1 hrow'
      have hactivity := (hunheld r (Table.mem_of_get? hr)).1
      rwa [show r.activity = row.activity from congrArg Hold.activity hsame] at hactivity
  have hfreeTarget : ∀ k row, b.holds k = some row → row.held = true → row.key = key →
      row.branch = branch → row.activity = id := by
    intro k row hrow hheld hk hbr
    by_contra hne
    have hrow' : X.board.holds k = some row := by
      rw [hholds]
      exact release_of_neg hrow hne
    obtain ⟨r, hr, rfl⟩ := Table.project_eq_some.1 hrow'
    exact (hunheld r (Table.mem_of_get? hr)).2 hk hbr (by simpa [IntegrationHold.row] using hheld)
  have hactivity : b.activities id = some ctx.activity.row := hb₁ ▸ hj.board_activity
  have hintended' : b.intended id := hb₁ ▸ hintended
  have hunreconciled' : ¬ b.reconciled id := hb₁ ▸ hunreconciled
  have hsubject : b.subjects ctx.activity.row.subjectTask = some ctx.subject.row :=
    hb₁ ▸ hj.board_subject
  have hsubmission : b.submissions ctx.activity.row.submission = some ctx.submission.row :=
    hb₁ ▸ hj.board_submission
  have hagent' : human = false → ctx.activity.row.state ∈ [ActivityState.active, .recoveryRequired] ∧
      ∃ h row, b.holds h = some row ∧ row.activity = id ∧ row.held = true := hb₁ ▸ hagent
  have hrec' : ok b (.reconcile human id) := hb₁ ▸ hok.tasks _ _ _ hrec
  rw [board_createHold, Db.replaceIntegration, board_createActivity, hXboard]
  exact hfree.tail hrec' (Move.reconcile hactivity hintended' hunreconciled' hsubject
    (hcurrent.symm.trans hj.submission_id) hsubmission hagent' hqueued
    ⟨hj.task_id, hj.submission_id, rfl⟩ rfl hfresh hfreeTarget)

/-- The replacement settles, once the reconciled activity's task is quiet. -/
lemma replaceActivity_settles (hs : s₀.Settles s) (hquiet : s.Quiet ctx.activity.activityTask)
    (h : replaceActivity s actor project ctx reason why = .ok s') : s₀.Settles s' := by
  obtain ⟨X, key, branch, hX, -, -, hinsert⟩ := replaceActivity_ok h
  have hend : s₀.Settles X := by
    rw [hX]
    exact .setTasks (.cancelActivities (.releaseHolds hs)) (Table.related_modify
      (fun _ => ⟨rfl, .inl rfl⟩) fun t _ hid => ⟨rfl, .inr ⟨rfl, by
        rw [show t.id = _ from hid]
        exact hquiet⟩⟩)
  obtain ⟨-, rfl⟩ := insertHold_ok hinsert
  have hcreate : s₀.Settles (X.replaceIntegration ctx project) := .createActivity hend
  exact hcreate.trans (.of_eq rfl rfl rfl)

/-! ### The two reconciliations -/

/-- The intent is unsettled, and the reconciliation that was inserted settles it. -/
lemma insertReconciliation_ok {ctx : ActivityContext} {disposition : Disposition}
    {target tree : String} {reconciliations : Table PublicationReconciliation}
    (hid : ctx.activity.id = id)
    (h : s.publicationReconciliations.insert? (newReconciliation s actor ctx disposition target tree)
      = some reconciliations) :
    ¬ s.board.reconciled id ∧ { s with publicationReconciliations := reconciliations }.board
      = { s.board with reconciled := fun x => x = id ∨ s.board.reconciled x } := by
  obtain ⟨hfree, hget⟩ := Table.insert?_eq_some h
  rw [show Keyed.key (newReconciliation s actor ctx disposition target tree) = id from hid]
    at hfree hget
  constructor
  · intro hrec
    change (s.publicationReconciliations.get? id).isSome = true at hrec
    rw [hfree] at hrec
    exact absurd hrec (by simp)
  · refine Board.ext rfl rfl rfl rfl rfl rfl rfl (funext fun x => propext ?_)
    change (reconciliations.get? x).isSome = true ↔
      x = id ∨ (s.publicationReconciliations.get? x).isSome = true
    rw [hget x]
    by_cases hx : x = id <;> simp [hx]

lemma board_intended_of {activity : Id} {intent : PublicationIntent}
    (h : s.publicationIntents.get? activity = some intent) : s.board.intended activity := by
  change (s.publicationIntents.get? activity).isSome = true
  rw [h]
  rfl

/-- What a human's reconciliation checks and does. -/
lemma reconcilePublication_ok {input : PublicationReconciliationInput}
    (h : reconcilePublication s actor project id input = .ok s') :
    ∃ ctx intent reconciliations s₁ s₂ reason why, ctx.Joins s project id ∧
      ctx.submission.id = ctx.subject.currentSubmission ∧
      s.publicationIntents.get? ctx.activity.id = some intent ∧
      s.publicationReconciliations.insert? (newReconciliation s actor ctx input.disposition
        input.observedTargetRevision input.observedTargetTree) = some reconciliations ∧
      s₁ = { s with publicationReconciliations := reconciliations }.endAttempts (fun a =>
        (s.tasks.get? ctx.activity.activityTask).bind (·.currentAttempt) = some a.id ∧
          a.state = AttemptState.active) .canceled
        "Publication reconciled by a human; replacement integration required." ∧
      replaceActivity s₁ actor project ctx reason why = .ok s₂ ∧
      s' = s₂.finish actor "integration.publication_reconciled" ctx.activity.id := by
  simp only [reconcilePublication, bind_eq_ok, okOr_eq_ok, refuseIf_eq_ok, pure_eq_ok] at h
  obtain ⟨-, -, -, -, -, -, -, -, ctx, hctx, -, -, -, hcurrent, intent, hintent, -, -, -, -, -, -, -,
    -, reconciliations, hinsert, s₂, hreplace, rfl⟩ := h
  exact ⟨ctx, intent, reconciliations, _, s₂, _, _, joins_of_activityContext hctx,
    not_not.1 fun hne => hcurrent (.inr hne), hintent, hinsert, rfl, hreplace, rfl⟩

theorem reconcilePublication_moves {input : PublicationReconciliationInput} (hok : Permits ok)
    (hb : Coherent s.board) (hrec : ok s.board (.reconcile true id))
    (h : reconcilePublication s actor project id input = .ok s') : Moves ok s.board s'.board := by
  obtain ⟨ctx, intent, reconciliations, s₁, s₂, reason, why, hj, hcurrent, hintent, hinsert, hs₁,
    hreplace, rfl⟩ := reconcilePublication_ok h
  obtain ⟨hfree, hboard⟩ := insertReconciliation_ok hj.id_eq hinsert
  rw [hj.id_eq] at hintent
  have hboard₁ := (congrArg Db.board hs₁).trans hboard
  have htasks : s₁.tasks = s.tasks := by rw [hs₁]; rfl
  rw [board_finish]
  exact replaceActivity_moves hok hb hboard₁ htasks hj (board_intended_of hintent) hfree hcurrent
    (fun h => absurd h (by simp)) hrec hreplace

theorem reconcilePublication_settles {input : PublicationReconciliationInput} (hs : s.Sound)
    (h : reconcilePublication s actor project id input = .ok s') : s.Settles s' := by
  obtain ⟨ctx, intent, reconciliations, s₁, s₂, reason, why, hj, -, -, -, hs₁, hreplace, rfl⟩ :=
    reconcilePublication_ok h
  have hrec : s.Settles { s with publicationReconciliations := reconciliations } :=
    .of_eq rfl rfl rfl
  have hend : s.Settles s₁ := hs₁ ▸ hrec.endAttempts (by simp)
  refine .finish (replaceActivity_settles hend ?_ hreplace)
  -- the attempt that ends is the current one, so no other is active
  rw [hs₁]
  refine quiet_endAttempts (by simp) fun x a ha htask hactive => ⟨?_, hactive⟩
  obtain ⟨t, ht, hcur, -⟩ := hs.current ha hactive
  rw [← htask, ht, Option.bind_some, hcur, show a.id = x from Table.key_of_get? ha]

/-- What an agent's reconciliation checks. -/
structure Db.Reconcilable (s : Db) (project id : Id) (input : AgentPublicationReconciliationInput)
    (ctx : ActivityContext) (intent : PublicationIntent) : Prop extends ctx.Joins s project id where
  disposition : input.disposition ≠ .targetMoved
  current : ctx.submission.id = ctx.subject.currentSubmission
  kind : ctx.activity.kind = .integration
  state : ctx.activity.state ∈ [ActivityState.active, .recoveryRequired]
  recorded : s.publicationIntents.get? ctx.activity.id = some intent
  producer : ¬ s.producerUncertain intent.attempt
  target : (input.observedTargetRevision, input.observedTargetTree)
    = expectedTarget intent input.disposition
  held : s.holdsTarget ctx.activity.id

lemma ensureAgentReconcilable_ok {input : AgentPublicationReconciliationInput} {r : Unit}
    (h : ensureAgentReconcilable s project ctx input = .ok r) :
    ctx.submission.id = ctx.subject.currentSubmission ∧ ctx.activity.kind = .integration ∧
      ctx.activity.state ∈ [ActivityState.active, .recoveryRequired] := by
  simp only [ensureAgentReconcilable, bind_eq_ok, refuseIf_eq_ok, not_or, not_not] at h
  obtain ⟨-, -, -, ⟨-, hcurrent⟩, -, -, -, -, -, -, -, hkind, -⟩ := h
  exact ⟨hcurrent, hkind⟩

lemma ensureObservation_ok {input : AgentPublicationReconciliationInput} {intent : PublicationIntent}
    (h : ensureObservation s project ctx input = .ok intent) :
    s.publicationIntents.get? ctx.activity.id = some intent ∧
      ¬ s.producerUncertain intent.attempt ∧
      (input.observedTargetRevision, input.observedTargetTree)
        = expectedTarget intent input.disposition ∧ s.holdsTarget ctx.activity.id := by
  simp only [ensureObservation, bind_eq_ok, okOr_eq_ok, refuseIf_eq_ok, pure_eq_ok, not_not] at h
  obtain ⟨intent, hintent, -, -, -, hproducer, -, -, -, htarget, -, hheld, rfl⟩ := h
  exact ⟨(Option.filter_eq_some_iff.1 hintent).1, hproducer, htarget, hheld⟩

/-- What an agent's reconciliation does. -/
lemma agentReconcilePublication_ok {input : AgentPublicationReconciliationInput}
    (h : agentReconcilePublication s actor project id input = .ok s') :
    ∃ ctx intent reconciliations s₁ s₂ reason why, s.Reconcilable project id input ctx intent ∧
      s.publicationReconciliations.insert? (newReconciliation s actor ctx input.disposition
        input.observedTargetRevision input.observedTargetTree) = some reconciliations ∧
      s₁ = { s with publicationReconciliations := reconciliations }.endAttempts
        (fun a => a.id = intent.attempt ∧ a.state = AttemptState.active) .canceled
        ("Publication reconciled by an agent from exact durable intent and fresh remote " ++
          "evidence; replacement integration required.") ∧
      replaceActivity s₁ actor project ctx reason why = .ok s₂ ∧
      s' = s₂.finish actor "integration.publication_reconciled" ctx.activity.id := by
  simp only [agentReconcilePublication, bind_eq_ok, okOr_eq_ok, refuseIf_eq_ok, pure_eq_ok] at h
  obtain ⟨_, hvalid, -, -, -, -, ctx, hctx, _, hreconcilable, intent, hobserved, reconciliations,
    hinsert, s₂, hreplace, rfl⟩ := h
  obtain ⟨hcurrent, hkind, hstate⟩ := ensureAgentReconcilable_ok hreconcilable
  obtain ⟨hintent, hproducer, htarget, hheld⟩ := ensureObservation_ok hobserved
  simp only [validateAgentReconciliation, bind_eq_ok, refuseIf_eq_ok] at hvalid
  obtain ⟨-, hdisposition, -⟩ := hvalid
  exact ⟨ctx, intent, reconciliations, _, s₂, _, _, ⟨joins_of_activityContext hctx, hdisposition,
    hcurrent, hkind, hstate, hintent, hproducer, htarget, hheld⟩, hinsert, rfl, hreplace, rfl⟩

theorem agentReconcilePublication_moves {input : AgentPublicationReconciliationInput}
    (hok : Permits ok) (hb : Coherent s.board) (hrec : ok s.board (.reconcile false id))
    (h : agentReconcilePublication s actor project id input = .ok s') :
    Moves ok s.board s'.board := by
  obtain ⟨ctx, intent, reconciliations, s₁, s₂, reason, why, hr, hinsert, hs₁, hreplace, rfl⟩ :=
    agentReconcilePublication_ok h
  obtain ⟨hfree, hboard⟩ := insertReconciliation_ok hr.toJoins.id_eq hinsert
  have hintended := board_intended_of hr.recorded
  have hheld := board_held_iff.2 hr.held
  rw [hr.toJoins.id_eq] at hintended hheld
  have hboard₁ := (congrArg Db.board hs₁).trans hboard
  have htasks : s₁.tasks = s.tasks := by rw [hs₁]; rfl
  rw [board_finish]
  exact replaceActivity_moves hok hb hboard₁ htasks hr.toJoins hintended hfree hr.current
    (fun _ => ⟨hr.state, hheld⟩) hrec hreplace

/-- The attempt that the intent names is the only one of the activity's task that may be active. -/
def Db.IntentOwned (s : Db) (id : Id) : Prop :=
  ∀ wa ∈ s.workflowActivities.get? id, ∀ intent ∈ s.publicationIntents.get? id,
    ∀ a ∈ s.attempts, a.task = wa.activityTask → a.state = .active → a.id = intent.attempt

instance (s : Db) (id : Id) : Decidable (s.IntentOwned id) := by
  unfold Db.IntentOwned; infer_instance

theorem agentReconcilePublication_settles {input : AgentPublicationReconciliationInput}
    (howned : s.IntentOwned id) (h : agentReconcilePublication s actor project id input = .ok s') :
    s.Settles s' := by
  obtain ⟨ctx, intent, reconciliations, s₁, s₂, reason, why, hr, hinsert, hs₁, hreplace, rfl⟩ :=
    agentReconcilePublication_ok h
  have hrec : s.Settles { s with publicationReconciliations := reconciliations } :=
    .of_eq rfl rfl rfl
  have hend : s.Settles s₁ := hs₁ ▸ hrec.endAttempts (by simp)
  refine .finish (replaceActivity_settles hend ?_ hreplace)
  rw [hs₁]
  refine quiet_endAttempts (by simp) fun x a ha htask hactive => ⟨?_, hactive⟩
  exact howned ctx.activity hr.activity intent (hr.toJoins.id_eq ▸ hr.recorded) a
    (Table.mem_of_get? ha) htask hactive

end Reconcile

end AgentCoordinator
