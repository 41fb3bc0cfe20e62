import AgentCoordinator.Refinement.Service

/-
What requests leave alone.

Projects, accounts and reverts decide which reviews a submission needs and who may give them. Of
the requests only a policy update writes any of them, and it writes the policy of one project.
-/

namespace AgentCoordinator

open Guarded Tabular

/-- The projects, and what the rest of the service knows of accounts and reverts. -/
def Db.setting (s : Db) : Table Project × Table Principal × Table TaskRevert :=
  (s.projects, s.ext.principals, s.ext.reverts)

/-- The setting, and the decisions. -/
def Db.frame (s : Db) : (Table Project × Table Principal × Table TaskRevert) × Table ReviewDecision :=
  (s.setting, s.reviewDecisions)

section Setting

variable {s s' : Db} {actor : Actor}

lemma finish_frame (kind : String) (record : Id) :
    (s.finish actor kind record).frame = s.frame := rfl

lemma endAttempts_frame (p : Attempt → Prop) [DecidablePred p] (state : AttemptState)
    (outcome : String) : (s.endAttempts p state outcome).frame = s.frame := rfl

lemma cancelActivities_frame (p : WorkflowActivity → Prop) [DecidablePred p] (by_ : Id)
    (why : CancelReason) : (s.cancelActivities p by_ why).frame = s.frame := rfl

lemma cancelTasksOf_frame (p : WorkflowActivity → Prop) [DecidablePred p] :
    (s.cancelTasksOf p).frame = s.frame := rfl

lemma releaseHolds_frame (p : Id → Prop) [DecidablePred p] (by_ : Id) (reason : String) :
    (s.releaseHolds p by_ reason).frame = s.frame := rfl

lemma setTasks_frame (T : Table Task) : { s with tasks := T }.frame = s.frame := rfl

lemma sendBack_frame (ctx : ActivityContext) : (s.sendBack actor ctx).frame = s.frame := by
  simp only [Db.sendBack, Db.cancelOthers, setTasks_frame, cancelTasksOf_frame,
    cancelActivities_frame, endAttempts_frame]
  rfl

lemma sendToRevision_frame (task : Id) (input : ReopenSubmissionInput) :
    (s.sendToRevision actor task input).frame = s.frame := by
  unfold Db.sendToRevision
  refine (setTasks_frame _).trans ((releaseHolds_frame _ _ _).trans
    ((cancelTasksOf_frame _).trans ((cancelActivities_frame _ _ _).trans ?_)))
  rfl

lemma grantAttempt_frame {g : Grant} (h : s.grantAttempt g = .ok s') : s'.frame = s.frame := by
  obtain ⟨-, rfl⟩ := grantAttempt_ok h
  rfl

lemma insertHold_frame {activity : Id} {key branch : String} {holder : Id} {taken : AppError}
    (h : s.insertHold activity key branch holder taken = .ok s') : s'.frame = s.frame := by
  obtain ⟨-, rfl⟩ := insertHold_ok h
  rfl

lemma claim_frame {project : Id} {input : ClaimInput} (h : claim s actor project input = .ok s') :
    s'.frame = s.frame := by
  obtain rfl | ⟨t, g, s₁, ownerSession, -, -, -, hgrant, rfl⟩ := claim_ok h
  · rfl
  · exact (finish_frame _ _).trans ((grantAttempt_frame hgrant).trans
      (endAttempts_frame _ _ _))

lemma claimActivity_frame {project id : Id} {input : ActivityClaimInput}
    (h : claimActivity s actor project id input = .ok s') : s'.frame = s.frame := by
  obtain ⟨ctx, task, g, s₁, s₂, s₃, -, -, -, -, h₁, h₂, -, -, h₃, rfl⟩ := claimActivity_ok h
  have hexpire : s₁.frame = s.frame := by
    obtain rfl | ⟨previous, -, -, rfl⟩ := expirePrevious_ok h₁ <;> rfl
  have hhold : s₂.frame = s₁.frame := by
    obtain ⟨-, h₂⟩ | ⟨-, rfl⟩ := h₂
    · obtain ⟨rfl, -⟩ | ⟨key, branch, -, -, h₂⟩ := acquireHold_ok h₂
      · rfl
      · exact insertHold_frame h₂
    · rfl
  exact (grantAttempt_frame h₃).trans (hhold.trans hexpire)

lemma createActivities_frame {project subjectTask submission : Id} {title : String}
    (kinds : List ActivityKind) :
    (s.createActivities project subjectTask title submission kinds).frame = s.frame := by
  unfold Db.createActivities
  induction kinds generalizing s with
  | nil => rfl
  | cons kind kinds ih => exact ih

lemma submit_frame {project attempt : Id} {input : SubmissionInput}
    (h : submit s actor project attempt input = .ok s') : s'.frame = s.frame := by
  obtain ⟨subject, canonical, roster, ownerSession, s₀, -, -, -, hs₀, -, -, rfl⟩ := submit_ok h
  have hprevious : s₀.frame = s.frame := by
    rw [hs₀]
    cases s.previousSubmission project subject.task.id <;> rfl
  refine Eq.trans ?_ hprevious
  have hqueue : ((s₀.enterWorkflow actor ownerSession attempt subject input canonical roster
      (s₀.reviewModeFloor subject.task.id subject.project.reviewMode)).createActivities
        subject.project.id subject.task.id subject.task.title s₀.submissions.fresh
        (neededReviews (s₀.reviewModeFloor subject.task.id subject.project.reviewMode))).frame
      = s₀.frame := createActivities_frame _
  simp only [Db.writeSubmission]
  split
  · unfold Db.createIntegration
    split <;> exact hqueue
  · split <;> exact hqueue

lemma advanceApprovedSubject_frame {project task submission : Id}
    (h : advanceApprovedSubject s project task submission = .ok s') : s'.frame = s.frame := by
  obtain ⟨u, -, ⟨-, rfl⟩ | ⟨-, rfl⟩⟩ := advanceApprovedSubject_ok h <;> rfl

lemma applyAccepted_frame {project task submission : Id} {amendment : Option (List String)}
    (h : applyAccepted s project task submission amendment = .ok s') :
    s'.frame = s.frame := by
  cases amendment with
  | none => rw [pure_eq_ok.1 h]
  | some criteria =>
    simp only [applyAccepted, applyAmendment, bind_eq_ok, okOr_eq_ok, ite_eq_ok, pure_eq_ok] at h
    obtain ⟨t, -, s₁, ⟨-, hsave⟩ | ⟨-, rfl⟩, t', -, rfl⟩ := h
    · obtain ⟨revisions, rfl⟩ := saveTaskRevision_ok hsave
      rfl
    · rfl

lemma replaceActivity_frame {project : Id} {ctx : ActivityContext} {reason : String}
    {why : CancelReason} (h : replaceActivity s actor project ctx reason why = .ok s') :
    s'.frame = s.frame := by
  obtain ⟨X, key, branch, hX, -, -, hinsert⟩ := replaceActivity_ok h
  refine (insertHold_frame hinsert).trans ?_
  rw [hX]
  rfl

/-- A request other than a review or a policy update writes no project, account, revert or
decision. -/
theorem Request.handle_frame {req : Request} (h : req.handle s actor = .ok s')
    (hreview : ∀ project id input, req ≠ .review project id input)
    (hpolicy : ∀ project input, req ≠ .updatePolicy project input) : s'.frame = s.frame := by
  cases req with
  | claim => exact claim_frame h
  | renew =>
    obtain ⟨a, expires, -, rfl⟩ := renew_ok h
    rfl
  | checkpoint =>
    obtain ⟨a, contributors, -, rfl⟩ := checkpoint_ok h
    rfl
  | release =>
    obtain ⟨a, t, s₁, -, -, -, rfl, rfl⟩ := release_ok h
    rfl
  | recoveryResolution =>
    rw [recoveryResolution_ok h]
    rfl
  | submit => exact submit_frame h
  | reopen =>
    obtain ⟨requests, rfl⟩ | ⟨ws, -, -, -, -, rfl⟩ := reopen_ok h
    · rfl
    · exact (finish_frame _ _).trans (sendToRevision_frame _ _)
  | claimActivity => exact claimActivity_frame h
  | releaseActivity =>
    obtain ⟨ctx, attempt, s₁, -, -, -, hs₁, rfl⟩ := releaseActivity_ok h
    have hrequeue : s₁.frame = s.frame := by rw [hs₁]; rfl
    rw [finish_frame, ← hrequeue]
    split <;> rfl
  | review => exact absurd rfl (hreview _ _ _)
  | authorizeIntegration =>
    obtain ⟨ctx, rfl⟩ := authorizeIntegration_ok h
    rfl
  | publicationIntent =>
    obtain ⟨ctx, attempt, intents, -, -, -, -, -, rfl⟩ := publicationIntent_ok h
    rfl
  | integrationResult =>
    obtain ⟨ctx, intent, results, s₁, -, -, -, rfl, rfl⟩ := integrationResult_ok h
    split <;> rfl
  | reconcilePublication =>
    obtain ⟨ctx, intent, reconciliations, s₁, s₂, reason, why, -, -, -, -, hs₁, hreplace, rfl⟩ :=
      reconcilePublication_ok h
    have hended : s₁.frame = s.frame := by rw [hs₁]; rfl
    exact (finish_frame _ _).trans ((replaceActivity_frame hreplace).trans hended)
  | agentReconcilePublication =>
    obtain ⟨ctx, intent, reconciliations, s₁, s₂, reason, why, -, -, hs₁, hreplace, rfl⟩ :=
      agentReconcilePublication_ok h
    have hended : s₁.frame = s.frame := by rw [hs₁]; rfl
    exact (finish_frame _ _).trans ((replaceActivity_frame hreplace).trans hended)
  | finalize =>
    obtain ⟨ctx, attempt, -, -, -, -, rfl⟩ := finalize_ok h
    rfl
  | updatePolicy => exact absurd rfl (hpolicy _ _)

lemma review_setting {project id : Id} {input : ReviewInput}
    (h : review s actor project id input = .ok s') : s'.setting = s.setting := by
  obtain ⟨ctx, decision, amendment, s₁, s₂, hdecides, happly, rfl⟩ := review_ok h
  have hrecorded : s₁.setting = s.setting := by
    obtain ⟨attempt, ownerSession, decisions, -, -, rfl⟩ := hdecides.recorded
    rfl
  refine Eq.trans (b := s₁.setting) ?_ hrecorded
  cases decision with
  | changesRequested =>
    simp only [applyDecision, bind_eq_ok] at happly
    obtain ⟨-, -, hreject⟩ := happly
    have hback : (s₁.sendBack actor ctx).frame = s₁.frame := sendBack_frame ctx
    generalize s₁.sendBack actor ctx = Y at hreject hback
    have hreject' : s₂.setting = Y.setting := by
      obtain rfl | ⟨revisions, rfl⟩ := rejectMechanical_ok hreject <;> rfl
    exact hreject'.trans (congrArg Prod.fst hback)
  | approved =>
    simp only [applyDecision, bind_eq_ok, ite_eq_ok, pure_eq_ok] at happly
    obtain ⟨satisfied, -, ⟨-, s₂', hamend, happly⟩ | ⟨-, rfl⟩⟩ := happly
    · exact congrArg Prod.fst ((advanceApprovedSubject_frame happly).trans
        (applyAccepted_frame hamend))
    · rfl

/-- A request other than a policy update writes no project, account or revert. -/
theorem Request.handle_setting {req : Request} (h : req.handle s actor = .ok s')
    (hpolicy : ∀ project input, req ≠ .updatePolicy project input) : s'.setting = s.setting := by
  by_cases hreview : ∃ project id input, req = .review project id input
  · obtain ⟨project, id, input, rfl⟩ := hreview
    exact review_setting h
  · exact congrArg Prod.fst (Request.handle_frame h
      (fun project id input heq => hreview ⟨project, id, input, heq⟩) hpolicy)

end Setting

/-! ### Projects last -/

section Projects

variable {s s' : Db} {i : Action}

/-- A project, once there, stays. -/
lemma Step.project (hb : Board.Coherent s.board) (h : Step s i s') {id : Id} {p : Project}
    (hp : s.projects.get? id = some p) : ∃ p', s'.projects.get? id = some p' := by
  cases h with
  | @accepted _ auth req hserve =>
    obtain ⟨actor, -, -, hhandle⟩ := serve_ok hserve
    by_cases hpolicy : ∃ project input, req = .updatePolicy project input
    · obtain ⟨project, input, rfl⟩ := hpolicy
      obtain ⟨s₁, revisions, rfl, -, hall⟩ := updatePolicy_reconciled hb hhandle
      rw [hall.same.projects]
      simp [hp]
    · have hsame := congrArg Prod.fst (Request.handle_setting hhandle
        fun project input heq => hpolicy ⟨project, input, heq⟩)
      exact ⟨p, (congrArg (·.get? id) hsame).trans hp⟩
  | environment henv =>
    obtain ⟨p', hp', -⟩ := henv.projects id p hp
    exact ⟨p', hp'⟩
  | refused | clockRollback | clockReconciled | invalidateDecision => exact ⟨p, hp⟩

end Projects

end AgentCoordinator
