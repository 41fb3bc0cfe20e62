import AgentCoordinator.Refinement.Service

/-
Who extends a lease.

A lease is extended by the `renew` of its own session and by nothing else that callers request:
the other handlers end attempts, free tasks and grant new attempts, but the lease of an attempt
that exists stays what it was.
-/

namespace AgentCoordinator

open Guarded Tabular Maps

/-- The lease of an attempt, and the session that holds it. -/
def Attempt.lease (a : Attempt) : Time × Id := (a.expiresAt, a.session)

/-- The leases, by attempt. -/
def Db.leases (s : Db) : Id → Option (Time × Id) := s.attempts.project Attempt.lease

section Leases

variable {s s' : Db} {id : Id} {l : Time × Id}

lemma leases_of_attempts (h : s'.attempts = s.attempts) : s'.leases = s.leases := by
  rw [Db.leases, h, Db.leases]

lemma leases_endAttempts {p : Attempt → Prop} [DecidablePred p] {state : AttemptState}
    {outcome : String} : (s.endAttempts p state outcome).leases = s.leases := by
  simp only [Db.leases, Db.endAttempts]
  exact Table.project_modify_of_same fun _ _ _ => rfl

lemma leases_addCheckpoint {attempt : Id} {revision : Option String} :
    (s.addCheckpoint attempt revision).leases = s.leases := by
  simp only [Db.leases, Db.addCheckpoint]
  exact Table.project_modify_of_same fun _ _ _ => rfl

/-- A grant adds a lease. -/
lemma leases_grantAttempt {g : Grant} (h : s.grantAttempt g = .ok s') (hl : s.leases id = some l) :
    s'.leases id = some l := by
  obtain ⟨-, rfl⟩ := grantAttempt_ok h
  obtain ⟨a, ha, rfl⟩ := Table.project_eq_some.1 hl
  refine Table.project_of_get? ?_
  rw [Table.get?_create, if_neg (Table.ne_fresh ha)]
  exact ha

end Leases

/-! ### The handlers -/

section Handlers

variable {s s' : Db} {actor : Actor} {project id k : Id} {l : Time × Id}

lemma claim_leases {input : ClaimInput} (h : claim s actor project input = .ok s')
    (hl : s.leases k = some l) : s'.leases k = some l := by
  obtain rfl | ⟨t, g, s₁, ownerSession, -, -, -, hgrant, rfl⟩ := claim_ok h
  · exact hl
  · have h₁ : s₁.leases k = some l :=
      leases_grantAttempt hgrant ((congrFun leases_endAttempts k).trans hl)
    exact h₁

lemma checkpoint_leases {input : CheckpointInput}
    (h : checkpoint s actor project id input = .ok s') : s'.leases = s.leases := by
  obtain ⟨a, contributors, -, rfl⟩ := checkpoint_ok h
  simp only [Db.leases, Db.finish, Db.addCheckpoint]
  exact Table.project_modify_of_same fun _ _ _ => rfl

lemma release_leases {input : ReleaseInput} (h : release s actor project id input = .ok s') :
    s'.leases = s.leases := by
  obtain ⟨a, t, s₁, -, -, -, hs₁, rfl⟩ := release_ok h
  change s₁.leases = s.leases
  rw [hs₁, leases_endAttempts, leases_addCheckpoint]

lemma recoveryResolution_leases {input : RecoveryInput}
    (h : recoveryResolution s actor project id input = .ok s') : s'.leases = s.leases := by
  have hcheckpoint : (s.addCheckpoint id none).leases = s.leases := leases_addCheckpoint
  rw [recoveryResolution_ok h, ← hcheckpoint]
  simp only [Db.leases, Db.finish]
  exact Table.project_modify_of_same fun _ _ _ => rfl

lemma createActivities_attempts {submission task : Id} {title : String}
    {kinds : List ActivityKind} {s : Db} :
    (s.createActivities project task title submission kinds).attempts = s.attempts := by
  unfold Db.createActivities
  induction kinds generalizing s with
  | nil => rfl
  | cons kind kinds ih => exact ih

lemma completeTask_attempts {task : Id} : (s.completeTask task).attempts = s.attempts := rfl

lemma submit_leases {attempt : Id} {input : SubmissionInput}
    (h : submit s actor project attempt input = .ok s') : s'.leases = s.leases := by
  obtain ⟨subject, canonical, roster, ownerSession, s₀, -, -, -, hs₀, -, -, rfl⟩ := submit_ok h
  have h₀ : s₀.leases = s.leases := by
    rw [hs₀]
    cases s.previousSubmission project subject.task.id <;> rfl
  obtain ⟨mode, hmode⟩ : ∃ mode,
      mode = s₀.reviewModeFloor subject.task.id subject.project.reviewMode := ⟨_, rfl⟩
  rw [← hmode]
  have henter : (s₀.enterWorkflow actor ownerSession attempt subject input canonical roster
      mode).leases = s₀.leases := by
    simp only [Db.leases, Db.enterWorkflow, Db.endSubmittedAttempt, Db.endAttempts]
    exact Table.project_modify_of_same fun _ _ _ => rfl
  rw [← h₀, ← henter]
  unfold Db.writeSubmission
  simp only [Db.finish]
  split
  · unfold Db.createIntegration
    split <;> exact leases_of_attempts createActivities_attempts
  · split <;> exact leases_of_attempts createActivities_attempts

lemma reopen_leases {task : Id} {input : ReopenSubmissionInput}
    (h : reopen s actor project task input = .ok s') : s'.leases = s.leases := by
  obtain ⟨requests, rfl⟩ | ⟨ws, -, -, -, -, rfl⟩ := reopen_ok h
  · rfl
  · simp only [Db.leases, Db.finish, Db.sendToRevision, Db.releaseHolds, Db.cancelTasksOf,
      Db.cancelActivities, Db.setPhase, Db.supersede, Db.endActivityAttempts, Db.endAttempts]
    exact Table.project_modify_of_same fun _ _ _ => rfl

lemma claimActivity_leases {input : ActivityClaimInput}
    (h : claimActivity s actor project id input = .ok s') (hl : s.leases k = some l) :
    s'.leases k = some l := by
  obtain ⟨ctx, task, g, s₁, s₂, s₃, -, -, -, -, h₁, h₂, -, -, h₃, rfl⟩ := claimActivity_ok h
  have hs₁ : s₁.leases = s.leases := by
    obtain rfl | ⟨previous, -, -, rfl⟩ := expirePrevious_ok h₁
    · rfl
    · exact leases_endAttempts
  have hs₂ : s₂.leases = s₁.leases := by
    rcases h₂ with ⟨-, h₂⟩ | ⟨-, rfl⟩
    · obtain ⟨rfl, -⟩ | ⟨_, _, -, -, h₂⟩ := acquireHold_ok h₂
      · rfl
      · obtain ⟨-, rfl⟩ := insertHold_ok h₂
        rfl
    · rfl
  change s₃.leases k = some l
  exact leases_grantAttempt h₃ (by rw [hs₂, hs₁, hl])

lemma releaseActivity_leases {input : ActivityReleaseInput}
    (h : releaseActivity s actor project id input = .ok s') : s'.leases = s.leases := by
  obtain ⟨ctx, attempt, s₁, -, -, -, hs₁, rfl⟩ := releaseActivity_ok h
  have hrequeue : s₁.leases = s.leases := by
    rw [hs₁]
    simp only [Db.leases, Db.requeueActivity, Db.setActivityState, Db.endAttempts]
    exact Table.project_modify_of_same fun _ _ _ => rfl
  split <;> exact hrequeue

lemma advanceApprovedSubject_leases {task submission : Id}
    (h : advanceApprovedSubject s project task submission = .ok s') :
    s'.leases = s.leases := by
  obtain ⟨u, -, ⟨-, rfl⟩ | ⟨-, rfl⟩⟩ := advanceApprovedSubject_ok h <;> rfl

lemma applyAccepted_leases {task submission : Id} {amendment : Option (List String)}
    (h : applyAccepted s project task submission amendment = .ok s') :
    s'.leases = s.leases := by
  cases amendment with
  | none => rw [pure_eq_ok.1 h]
  | some criteria =>
    simp only [applyAccepted, applyAmendment, bind_eq_ok, okOr_eq_ok, ite_eq_ok, pure_eq_ok] at h
    obtain ⟨t, -, s₁, ⟨-, hsave⟩ | ⟨-, rfl⟩, t', -, rfl⟩ := h
    · obtain ⟨revisions, rfl⟩ := saveTaskRevision_ok hsave
      rfl
    · rfl

lemma review_leases {input : ReviewInput} (h : review s actor project id input = .ok s') :
    s'.leases = s.leases := by
  obtain ⟨ctx, decision, amendment, s₁, s₂, hdecides, happly, rfl⟩ := review_ok h
  obtain ⟨attempt, ownerSession, decisions, -, -, hs₁⟩ := hdecides.recorded
  have h₁ : s₁.leases = s.leases := by
    rw [hs₁]
    simp only [Db.leases, Db.completeReview, Db.endAttempts]
    exact Table.project_modify_of_same fun _ _ _ => rfl
  change s₂.leases = s.leases
  rw [← h₁]
  cases decision with
  | changesRequested =>
    simp only [applyDecision, bind_eq_ok] at happly
    obtain ⟨-, -, hreject⟩ := happly
    have hback : (s₁.sendBack actor ctx).leases = s₁.leases := by
      simp only [Db.leases, Db.sendBack, Db.cancelOthers, Db.cancelTasksOf, Db.cancelActivities,
        Db.endAttempts, Db.setPhase, Db.supersede]
      exact Table.project_modify_of_same fun _ _ _ => rfl
    rw [← hback]
    obtain rfl | ⟨revisions, rfl⟩ := rejectMechanical_ok hreject <;> rfl
  | approved =>
    simp only [applyDecision, bind_eq_ok, ite_eq_ok, pure_eq_ok] at happly
    obtain ⟨satisfied, -, ⟨-, s₂', hamend, happly⟩ | ⟨-, rfl⟩⟩ := happly
    · exact (advanceApprovedSubject_leases happly).trans (applyAccepted_leases hamend)
    · rfl

lemma integrationResult_leases {input : IntegrationResultInput}
    (h : integrationResult s actor project id input = .ok s') : s'.leases = s.leases := by
  obtain ⟨ctx, intent, results, s₁, -, -, -, rfl, rfl⟩ := integrationResult_ok h
  split
  · simp only [Db.leases, Db.finish, Db.parkForRecovery, Db.setActivityState, Db.endAttempts]
    exact Table.project_modify_of_same fun _ _ _ => rfl
  · rfl

lemma replaceActivity_leases {ctx : ActivityContext} {reason : String} {why : CancelReason}
    (h : replaceActivity s actor project ctx reason why = .ok s') : s'.leases = s.leases := by
  obtain ⟨X, key, branch, rfl, -, -, hinsert⟩ := replaceActivity_ok h
  obtain ⟨-, rfl⟩ := insertHold_ok hinsert
  rfl

lemma reconcilePublication_leases {input : PublicationReconciliationInput}
    (h : reconcilePublication s actor project id input = .ok s') : s'.leases = s.leases := by
  obtain ⟨ctx, intent, reconciliations, s₁, s₂, reason, why, -, -, -, -, rfl, hreplace, rfl⟩ :=
    reconcilePublication_ok h
  exact (replaceActivity_leases hreplace).trans leases_endAttempts

lemma agentReconcilePublication_leases {input : AgentPublicationReconciliationInput}
    (h : agentReconcilePublication s actor project id input = .ok s') : s'.leases = s.leases := by
  obtain ⟨ctx, intent, reconciliations, s₁, s₂, reason, why, -, -, rfl, hreplace, rfl⟩ :=
    agentReconcilePublication_ok h
  exact (replaceActivity_leases hreplace).trans leases_endAttempts

lemma finalize_leases {input : FinalizeIntegrationInput}
    (h : finalize s actor project id input = .ok s') : s'.leases = s.leases := by
  obtain ⟨ctx, attempt, -, -, -, -, rfl⟩ := finalize_ok h
  simp only [Db.leases, Db.finish, Db.completeIntegration, Db.readyDependents, Db.releaseHolds,
    Db.setPhase, Db.endAttempts]
  exact Table.project_modify_of_same fun _ _ _ => rfl

lemma addMissingReviews_leases {r : ReviewSubject} {required : List ActivityKind} {s : Db} :
    (s.addMissingReviews r required).leases = s.leases := by
  unfold Db.addMissingReviews
  induction required generalizing s with
  | nil => rfl
  | cons kind required ih =>
    refine ih.trans ?_
    simp only [Db.addMissingReview]
    split <;> rfl

lemma reconcileSubject_leases {r : ReviewSubject} (h : reconcileSubject s actor r = .ok s') :
    s'.leases = s.leases := by
  obtain ⟨s₂, changed, hcases, rfl⟩ := reconcileSubject_ok h
  have hrecord : (s₂.recordReconciled actor r changed).leases = s₂.leases := by
    simp only [Db.recordReconciled]
    split <;> rfl
  have hcancel : (s.cancelUnrequiredReviews r.submission (s.subjectKinds r)).leases = s.leases :=
    rfl
  rw [hrecord, ← hcancel]
  cases hcases with
  | stays => rfl
  | advances _ _ _ hadvance => exact advanceApprovedSubject_leases hadvance
  | adds => exact addMissingReviews_leases

lemma updatePolicy_leases {input : PolicyInput}
    (h : updatePolicy s actor project input = .ok s') : s'.leases = s.leases := by
  obtain ⟨current, s₁, -, -, hwrite, rfl⟩ := updatePolicy_ok h
  obtain ⟨revisions, rfl⟩ := writePolicy_ok hwrite
  have hloop : ∀ (rs : List ReviewSubject) (x : Db),
      (rs.foldl (fun s r => s.reconcileInSavepoint actor r) x).leases = x.leases := by
    intro rs
    induction rs with
    | nil => exact fun _ => rfl
    | cons r rs ih =>
      intro x
      refine (ih (x.reconcileInSavepoint actor r)).trans ?_
      unfold Db.reconcileInSavepoint
      cases hres : reconcileSubject x actor r with
      | ok s₂ => exact reconcileSubject_leases hres
      | error e => rfl
  exact hloop _ _

/-- Every request but `renew` leaves the leases there are as they are. -/
theorem Request.handle_leases {req : Request} (h : req.handle s actor = .ok s')
    (hrenew : ∀ project id generation, req ≠ .renew project id generation)
    (hl : s.leases k = some l) : s'.leases k = some l := by
  cases req with
  | claim => exact claim_leases h hl
  | renew project id generation => exact absurd rfl (hrenew project id generation)
  | checkpoint => exact checkpoint_leases h ▸ hl
  | release => exact release_leases h ▸ hl
  | recoveryResolution => exact recoveryResolution_leases h ▸ hl
  | submit => exact submit_leases h ▸ hl
  | reopen => exact reopen_leases h ▸ hl
  | claimActivity => exact claimActivity_leases h hl
  | releaseActivity => exact releaseActivity_leases h ▸ hl
  | review => exact review_leases h ▸ hl
  | authorizeIntegration =>
    obtain ⟨ctx, rfl⟩ := authorizeIntegration_ok h
    exact hl
  | publicationIntent =>
    obtain ⟨ctx, attempt, intents, -, -, -, -, -, rfl⟩ := publicationIntent_ok h
    exact hl
  | integrationResult => exact integrationResult_leases h ▸ hl
  | reconcilePublication => exact reconcilePublication_leases h ▸ hl
  | agentReconcilePublication => exact agentReconcilePublication_leases h ▸ hl
  | finalize => exact finalize_leases h ▸ hl
  | updatePolicy => exact updatePolicy_leases h ▸ hl

/-- `renew` is for the lease of the caller's own session. -/
lemma renew_leases {generation : Int} (h : renew s actor project id generation = .ok s')
    (hl : s.leases k = some l) (hother : actor.session ≠ some l.2) : s'.leases k = some l := by
  obtain ⟨a, expires, hown, rfl⟩ := renew_ok h
  obtain ⟨a', ha', rfl⟩ := Table.project_eq_some.1 hl
  by_cases hk : k = id
  · rw [hk, hown.attempt] at ha'
    obtain rfl := Option.some.inj ha'
    exact absurd hown.owner.2.1.symm hother
  · refine Table.project_of_get? ?_
    simp only [Db.finish, Table.get?_modify, ha', Option.map_some]
    rw [if_neg (show ¬ a'.id = id from fun hid => hk ((Table.key_of_get? ha').symm.trans hid))]

/-- The session asks for nothing itself. -/
def silentStep (session : Id) (s : Db) : Action → Prop
  | .request auth _ => ∀ actor, auth.verify s.ext s.now = .ok actor → actor.session ≠ some session
  | _ => True

/-- A step in which the session is silent leaves its leases as they are. -/
theorem Step.leases {i : Action} (h : Step s i s') (hl : s.leases k = some l)
    (hsilent : silentStep l.2 s i) : s'.leases k = some l := by
  cases h with
  | @accepted _ auth req hserve =>
    obtain ⟨actor, hbegin, -, hhandle⟩ := serve_ok hserve
    simp only [begin, bind_eq_ok, pure_eq_ok] at hbegin
    obtain ⟨actor', hverify, -, -, -, -, -, -, -, -, rfl⟩ := hbegin
    by_cases hrenew : ∃ project id generation, req = .renew project id generation
    · obtain ⟨project, id, generation, rfl⟩ := hrenew
      exact renew_leases hhandle hl (hsilent actor' hverify)
    · exact Request.handle_leases hhandle
        (fun project id generation heq => hrenew ⟨project, id, generation, heq⟩) hl
  | refused => exact hl
  | environment henv => rw [leases_of_attempts henv.attempts, hl]
  | @clockRollback now =>
    have hsame : (s.detectRollback now).leases = s.leases := by
      simp only [Db.leases, Db.detectRollback]
      exact Table.project_modify_of_same fun _ _ _ => rfl
    rw [hsame, hl]
  | clockReconciled => exact hl
  | invalidateDecision => exact hl

end Handlers

end AgentCoordinator
