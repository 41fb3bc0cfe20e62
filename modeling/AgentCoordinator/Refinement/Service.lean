import AgentCoordinator.Refinement.Policy
import AgentCoordinator.Service

/-
Every step of the service is a run of moves and a transfer of ownership.

`Request.Permitted ok` lists the moves of a request that are not plain; under it an accepted
request is a run of moves that satisfy `ok`. What the rest of the service does between two requests
changes tasks at most. So what moves preserve holds in every reachable state.
-/

namespace AgentCoordinator

open Guarded Tabular Maps Transition Board Fencing

/-! ### Requests -/

/-- The moves of a request that are not plain satisfy `ok`. -/
def Request.Permitted (ok : Board → Label → Prop) (s s' : Db) (actor : Actor) : Request → Prop
  | .submit .. => ∀ b k t p, s.tasks.get? k = some t → s.projects.get? t.project = some p →
      (∀ ws, s.board.subjects k = some ws → ws.phase = .revisionNeeded) → ok b (.submit k)
  | .publicationIntent _ id _ => ok s.board (.intend id)
  | .review project id input =>
    ((input.decision = .changesRequested ∨ input.amendmentDecision = some .rejected) →
      ok s.board (.sendBack id)) ∧
    (∀ ctx amendment s₁, s.Decides actor project id input ctx .approved amendment s₁ →
      approvalsSatisfied s₁ ctx.submission.id = .ok true →
        ok s₁.board (.advance ctx.activity.subjectTask)) ∧
    ok s.board (.approve id)
  | .reconcilePublication _ id _ => ok s.board (.reconcile true id)
  | .agentReconcilePublication _ id _ => ok s.board (.reconcile false id)
  | .finalize _ id _ => ok s.board (.finalize id)
  | .updatePolicy .. => (∀ b, ok b .dismiss) ∧
    ∀ ws, ws ∈ s.workflowSubjects → ws.phase = .review →
      s'.ReviewsApproved ws.currentSubmission → ∀ b w, Coherent b → b.subjects ws.task = some w →
      w.phase = .review → (∀ x v, b.activities x = some v → v.submission = w.current →
        v.kind ≠ .integration → v.state ≠ .active) → ok b (.advance ws.task)
  | _ => True

/-- The caller has an account of its kind. -/
def Actor.Known (actor : Actor) (x : External) : Prop :=
  ∃ p, x.principals.get? actor.id = some p ∧ p.kind = actor.kind

lemma serve_ok {s s' : Db} {auth : Auth} {req : Request} (h : serve s auth req = .ok s') :
    ∃ actor, begin s auth req = .ok actor ∧ actor.Known s.ext ∧ req.handle s actor = .ok s' := by
  simp only [serve, bind_eq_ok] at h
  obtain ⟨actor, hbegin, hhandle⟩ := h
  refine ⟨actor, hbegin, ?_, hhandle⟩
  simp only [begin, bind_eq_ok, pure_eq_ok] at hbegin
  obtain ⟨actor', hverify, -, -, -, -, -, -, -, -, rfl⟩ := hbegin
  exact Auth.kind_of_verify hverify

section Request

variable {s s' : Db} {actor : Actor} {ok : Board → Label → Prop}

/-- An accepted request is a run of moves. -/
theorem Request.handle_moves {req : Request} (hok : Permits ok) (hb : Coherent s.board)
    (hactor : actor.Known s.ext) (hpermitted : req.Permitted ok s s' actor)
    (h : req.handle s actor = .ok s') : Moves ok s.board s'.board := by
  cases req with
  | claim => exact claim_moves hok hb h
  | renew => exact renew_board h ▸ .refl _
  | checkpoint => exact checkpoint_board h ▸ .refl _
  | release => exact release_moves hok hb h
  | recoveryResolution => exact recoveryResolution_board h ▸ .refl _
  | submit => exact submit_moves hok hpermitted hb h
  | reopen => exact reopen_moves hok hb h
  | claimActivity => exact claimActivity_moves hok hb h
  | releaseActivity => exact releaseActivity_moves hok hb h
  | review => exact review_moves hok hb hactor hpermitted.1 hpermitted.2.1 hpermitted.2.2 h
  | authorizeIntegration => exact authorizeIntegration_board h ▸ .refl _
  | publicationIntent => exact publicationIntent_moves hb hpermitted h
  | integrationResult => exact integrationResult_moves hok hb h
  | reconcilePublication => exact reconcilePublication_moves hok hb hpermitted h
  | agentReconcilePublication => exact agentReconcilePublication_moves hok hb hpermitted h
  | finalize => exact finalize_moves hok hb hpermitted h
  | updatePolicy => exact updatePolicy_moves hok hb hpermitted.1 hpermitted.2 h

/-- A reconciliation by an agent ends the attempt that still owns the integration. -/
def Request.SparesOwners (s : Db) : Request → Prop
  | .agentReconcilePublication _ id _ => s.IntentOwned id
  | _ => True

instance (s : Db) (req : Request) : Decidable (req.SparesOwners s) := by
  rcases req <;> (dsimp only [Request.SparesOwners]; infer_instance)

/-- An accepted request transfers ownership soundly. -/
theorem Request.handle_transfers {req : Request} (hs : s.Sound) (hb : Coherent s.board)
    (hspares : req.SparesOwners s) (h : req.handle s actor = .ok s') : s.Transfers s' := by
  cases req with
  | claim => exact claim_transfers h
  | renew => exact .settles (renew_settles h)
  | checkpoint => exact .settles (checkpoint_settles h)
  | release => exact .settles (release_settles hs h)
  | recoveryResolution => exact .settles (recoveryResolution_settles h)
  | submit => exact .settles (submit_settles hs h)
  | reopen => exact .settles (reopen_settles hs h)
  | claimActivity => exact claimActivity_transfers h
  | releaseActivity => exact .settles (releaseActivity_settles hs h)
  | review => exact .settles (review_settles hs h)
  | authorizeIntegration => exact .settles (authorizeIntegration_settles h)
  | publicationIntent => exact .settles (publicationIntent_settles h)
  | integrationResult => exact .settles (integrationResult_settles hs h)
  | reconcilePublication => exact .settles (reconcilePublication_settles hs h)
  | agentReconcilePublication => exact .settles (agentReconcilePublication_settles hspares h)
  | finalize => exact .settles (finalize_settles hs hb h)
  | updatePolicy => exact .settles (updatePolicy_settles h)

end Request

/-! ### The rest of the service -/

section Rest

variable {s s' : Db}

/-- What the rest of the service does to tasks is a move. -/
theorem Environment.moves {ok : Board → Label → Prop} (hok : Permits ok) (hb : Coherent s.board)
    (h : Environment s s') : Moves ok s.board s'.board := by
  have hverdicts : s'.board.verdicts = s.board.verdicts := by
    funext a
    simp only [Db.board, h.reviewDecisions, Table.project]
    cases hrd : s.reviewDecisions.get? a with
    | none => rfl
    | some rd =>
      -- the reviewer has an account already, whose kind stays
      obtain ⟨-, -, -, -, -, k, hk, -⟩ := hb.verdictActivity a _ (Table.project_of_get? hrd)
      obtain ⟨p, hp, -⟩ := Option.map_eq_some_iff.1 hk
      obtain ⟨p', hp', hkind⟩ := h.principals _ p hp
      simp [ReviewDecision.row, hp, hp', hkind]
  have hboard : s'.board = { s.board with tasks := s'.board.tasks } := by
    refine Board.ext rfl ?_ ?_ ?_ hverdicts ?_ ?_ ?_
    · simp only [Db.board, h.submissions]
    · simp only [Db.board, h.workflowSubjects]
    · simp only [Db.board, h.workflowActivities]
    · simp only [Db.board, h.integrationHolds]
    · simp only [Db.board, h.publicationIntents]
    · simp only [Db.board, h.publicationReconciliations]
  rw [hboard]
  refine hok.move (.retask fun k t ht => ?_)
  obtain ⟨t, hget, rfl⟩ := Table.project_eq_some.1 ht
  obtain ⟨t', ht', hkeeps⟩ := h.tasks k t hget
  have hid : t.id = k := Table.key_of_get? hget
  have howned : t'.row.owned = t.row.owned := congrArg Option.isSome hkeeps.currentAttempt
  have hactivity : s.board.ActivityTask k → t'.kind = t.kind ∧ t'.blockedReason = t.blockedReason :=
    fun ha => hkeeps.activity (hid ▸ board_activityTask_iff.1 ha)
  exact ⟨t'.row, board_task ht', hkeeps.project, fun ha => (hactivity ha).1, fun ha =>
    ⟨congrArg Option.isSome (hactivity ha.activityTask).2, howned⟩, fun ho => .inl (howned ▸ ho)⟩

lemma board_detectRollback (now : Time) : (s.detectRollback now).board = s.board := rfl

lemma board_reconcileClock (now : Time) : (s.reconcileClock now).board = s.board := rfl

lemma board_invalidateDecision (activity : Id) : (s.invalidateDecision activity).board = s.board := by
  have hverdicts : (s.invalidateDecision activity).board.verdicts = s.board.verdicts := by
    simp only [Db.board, Db.invalidateDecision]
    exact Table.project_modify_of_same fun _ _ _ => rfl
  exact Board.ext rfl rfl rfl rfl hverdicts rfl rfl rfl

/-- Between two requests, no attempt changes and no task changes its owner. -/
theorem Environment.settles (h : Environment s s') : s.ledger.Settles s'.ledger := by
  have htasks : s.Settles { s with tasks := s'.tasks } :=
    { clock := rfl
      attempts := .refl SameAttempt.refl _
      tasks := fun k t ht => by
        obtain ⟨t', ht', hkeeps⟩ := h.tasks k t ht
        exact ⟨t', ht', hkeeps.generation, .inl hkeeps.currentAttempt⟩
      newTasks := h.newTasks }
  have hledger : s'.ledger = { s with tasks := s'.tasks }.ledger := by
    simp only [Db.ledger, h.attempts]
  rw [hledger]
  exact htasks.ledger

/-- A clock rollback ends every attempt. -/
theorem detectRollback_settles (now : Time) : s.ledger.Settles (s.detectRollback now).ledger := by
  have hattempts : s.Settles { s with attempts := (s.detectRollback now).attempts } := by
    refine .of_attempts ?_
    simp only [Db.detectRollback]
    exact Table.related_modify .refl fun _ _ _ =>
      ⟨rfl, rfl, ⟨rfl, rfl, rfl⟩, fun ha => absurd ha (by simp), .inl rfl⟩
  exact hattempts.ledger

end Rest

/-! ### Steps -/

section Steps

variable {s s' : Db} {i : Action}

/-- The moves of a step satisfy `ok`, if those of its request do. -/
def Action.Permitted (ok : Board → Label → Prop) (s s' : Db) : Action → Prop
  | .request auth req => ∀ actor, begin s auth req = .ok actor → req.Permitted ok s s' actor
  | _ => True

theorem Step.moves {ok : Board → Label → Prop} (hok : Permits ok) (hb : Coherent s.board)
    (h : Step s i s') (hpermitted : (∃ auth req, i = .request auth req ∧ serve s auth req = .ok s') →
      i.Permitted ok s s') : Moves ok s.board s'.board := by
  cases h with
  | @accepted _ auth req hserve =>
    obtain ⟨actor, hbegin, hactor, hhandle⟩ := serve_ok hserve
    exact req.handle_moves hok hb hactor (hpermitted ⟨auth, req, rfl, hserve⟩ actor hbegin) hhandle
  | refused => exact .refl _
  | environment henv => exact henv.moves hok hb
  | clockRollback => exact .refl _
  | clockReconciled => exact .refl _
  | invalidateDecision => exact board_invalidateDecision _ ▸ .refl _

/-- A reconciliation by an agent spares the owner of the integration. -/
def sparesOwners (s : Db) : Action → Prop
  | .request _ req => req.SparesOwners s
  | _ => True

instance (s : Db) (i : Action) : Decidable (sparesOwners s i) := by
  rcases i <;> (dsimp only [sparesOwners]; infer_instance)

theorem Step.steps (hs : s.Sound) (hb : Coherent s.board) (hspares : sparesOwners s i)
    (h : Step s i s') : Ledger.Steps s.ledger s'.ledger := by
  cases h with
  | accepted hserve =>
    obtain ⟨actor, -, -, hhandle⟩ := serve_ok hserve
    exact (Request.handle_transfers hs hb hspares hhandle).steps
  | refused => exact .refl
  | environment henv => exact .single (.settle henv.settles)
  | clockRollback => exact .single (.settle (detectRollback_settles _))
  | clockReconciled => exact .refl
  | invalidateDecision => exact .refl

/-- A step keeps the board coherent. -/
theorem Step.coherent (hb : Coherent s.board) (h : Step s i s') : Coherent s'.board := by
  refine Moves.coherent (h.moves permits_any hb fun _ => ?_) hb
  cases i with
  | request auth req =>
    intro actor _
    cases req <;> simp [Request.Permitted]
  | _ => trivial

end Steps

/-! ### Reachable states -/

section Reachable

variable {s : Db}

/-- At first there is no workflow. -/
lemma Initial.board_eq (h : Initial s) : s.board =
    { tasks := s.board.tasks
      submissions := fun _ => none
      subjects := fun _ => none
      activities := fun _ => none
      verdicts := fun _ => none
      holds := fun _ => none
      intended := fun _ => False
      reconciled := fun _ => False } := by
  refine Board.ext rfl ?_ ?_ ?_ ?_ ?_ ?_ ?_ <;> funext x
  · simp [Db.board, h.submissions, Table.project]
  · simp [Db.board, h.workflowSubjects, Table.project]
  · simp [Db.board, h.workflowActivities, Table.project]
  · simp [Db.board, h.reviewDecisions, Table.project]
  · simp [Db.board, h.integrationHolds, Table.project]
  · simp [Db.board, h.publicationIntents]
  · simp [Db.board, h.publicationReconciliations]

lemma Initial.coherent (h : Initial s) : Coherent s.board := by
  rw [h.board_eq]
  constructor <;> first | (constructor <;> simp [Board.ActivityTask]) | simp [Board.ActivityTask]

/-- At first nobody owns anything. -/
lemma Initial.sound (h : Initial s) : s.Sound where
  lock g l hl := by simp [Db.ledger, h.attempts, Table.project] at hl
  distinct g g' l l' hl := by simp [Db.ledger, h.attempts, Table.project] at hl
  active g l k hl := by simp [Db.ledger, h.attempts, Table.project] at hl
  held k lock g hlock hholder := by
    obtain ⟨t, ht, rfl⟩ := Table.project_eq_some.1 hlock
    rw [h.tasks k t ht] at hholder
    exact absurd hholder (by simp)

/-- Every reachable board is coherent. -/
theorem Reachable.coherent {ok : Db → Action → Prop} (h : Reachable ok s) : Coherent s.board :=
  h.invariant (I := fun s => Coherent s.board) (fun _ => Initial.coherent)
    fun _ _ _ hb _ hstep => hstep.coherent hb

/-- Ownership is sound as long as reconciliations by agents spare the owners. -/
theorem Reachable.sound {ok : Db → Action → Prop} (hspares : ∀ s i, ok s i → sparesOwners s i)
    (h : Reachable ok s) : s.Sound := by
  have hboth : Coherent s.board ∧ s.Sound :=
    h.invariant (I := fun s => Coherent s.board ∧ s.Sound) (fun _ h₀ => ⟨h₀.coherent, h₀.sound⟩)
      fun s i _ hI hok hstep => ⟨hstep.coherent hI.1,
        Ledger.Sound.steps hI.2 (hstep.steps hI.2 hI.1 (hspares s i hok))⟩
  exact hboth.2

/-- What the moves of the board preserve holds in every reachable state. -/
theorem Reachable.board_invariant {ok : Db → Action → Prop} {okb : Board → Label → Prop}
    {I : Board → Prop} (hokb : Permits okb)
    (hpermitted : ∀ s i s', Coherent s.board → I s.board → ok s i → Step s i s' →
      i.Permitted okb s s')
    (hinit : ∀ s, Initial s → I s.board)
    (hmove : ∀ b l b', Coherent b → I b → okb b l → Move b l b' → I b') (h : Reachable ok s) :
    I s.board := by
  have hboth : Coherent s.board ∧ I s.board := by
    refine h.invariant (I := fun s => Coherent s.board ∧ I s.board)
      (fun s h₀ => ⟨h₀.coherent, hinit s h₀⟩) fun s i s' hI hok hstep => ?_
    have hmoves := hstep.moves hokb hI.1 fun _ => hpermitted s i s' hI.1 hI.2 hok hstep
    refine Run.invariant (I := fun b => Coherent b ∧ I b) (fun b l b' hb hl hm => ?_) hmoves hI
    exact ⟨hb.1.move hm, hmove b l b' hb.1 hb.2 hl hm⟩
  exact hboth.2

end Reachable

end AgentCoordinator
