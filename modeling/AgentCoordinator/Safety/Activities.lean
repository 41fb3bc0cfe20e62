import AgentCoordinator.Board.Stranded
import AgentCoordinator.Refinement.Approvals
import AgentCoordinator.Safety.Completion

/-
No stranded activities.

An activity that was replaced, or whose submission is superseded, or whose subject is done or up
for revision, is over, in every run whose steps strand nothing: reconciliations of integrations
that wait for a recovery, requests for changes while one waits, and completions while another
review goes on all leave activities behind.
-/

namespace AgentCoordinator

open Guarded Tabular Transition Board Scenario

/-- The kind of account a request authenticates. -/
def Auth.kind : Auth → PrincipalKind
  | .bearer .. => .agent
  | .browser .. => .human

/-- One more approval of this kind satisfies the reviews of the submission: they are judged by the
mode in force while the submission is in review, and are satisfied afterwards. -/
def Db.approvalSuffices (s : Db) (u : Submission) (k : PrincipalKind) : Prop :=
  s.currentPhase u.id = some .review → ∀ p ∈ s.projects.get? u.project,
    reviewsSatisfied (requiredReviewKinds (s.reviewModeFloor u.task p.reviewMode))
      (s.approvers u.id ++ [k]) = true

instance (s : Db) (u : Submission) (k : PrincipalKind) : Decidable (s.approvalSuffices u k) := by
  unfold Db.approvalSuffices; infer_instance

/-- The step leaves no activity behind that nothing will end. -/
def strandsNothing (s : Db) : Action → Prop
  | .request _ (.reconcilePublication _ id _) => ∀ wa ∈ s.workflowActivities.get? id,
    wa.state ≠ .recoveryRequired ∧
      ∀ ws ∈ s.workflowSubjects.get? wa.subjectTask, ws.phase = .integration
  | .request _ (.agentReconcilePublication _ id _) =>
    ∀ wa ∈ s.workflowActivities.get? id, wa.state ≠ .recoveryRequired
  | .request auth (.review _ id input) => ∀ wa ∈ s.workflowActivities.get? id,
    (input.sendsBack → ∀ w ∈ s.workflowActivities, w.submission = wa.submission →
      w.state ≠ .recoveryRequired) ∧
    (¬ input.sendsBack → ∀ u ∈ s.submissions.get? wa.submission, u.kind = .general →
      s.approvalSuffices u auth.kind → ∀ w ∈ s.workflowActivities, w.submission = wa.submission →
        w.id ≠ id → w.state ≠ .active)
  | .request _ (.finalize _ id _) => ∀ wa ∈ s.workflowActivities.get? id,
    ∀ w ∈ s.workflowActivities, w.submission = wa.submission → w.kind ≠ .integration →
      ¬ w.state.Live
  | _ => True

instance (s : Db) (i : Action) : Decidable (strandsNothing s i) := by
  rcases i with ⟨auth, req⟩ | _ | _ | _ | _
  · rcases req <;> (dsimp only [strandsNothing]; infer_instance)
  all_goals exact instDecidableTrue

section Run

variable {s s' : Db} {i : Action}

lemma begin_kind {auth : Auth} {req : Request} {actor : Actor} (h : begin s auth req = .ok actor) :
    actor.kind = auth.kind ∧ actor.Known s.ext := by
  simp only [begin, bind_eq_ok, pure_eq_ok] at h
  obtain ⟨actor', hverify, -, -, -, -, -, -, -, -, rfl⟩ := h
  refine ⟨?_, Auth.kind_of_verify hverify⟩
  cases auth with
  | bearer credential session =>
    simp only [Auth.verify, bind_eq_ok, okOr_eq_ok, refuseIf_eq_ok, pure_eq_ok, not_or,
      not_not] at hverify
    obtain ⟨c, _, p, _, -, ⟨-, -, -, hkind, -⟩, -, -, rfl⟩ := hverify
    exact hkind
  | browser session =>
    simp only [Auth.verify, bind_eq_ok, okOr_eq_ok, refuseIf_eq_ok, pure_eq_ok, not_or,
      not_not] at hverify
    obtain ⟨b, _, p, _, -, ⟨-, -, -, hkind⟩, rfl⟩ := hverify
    exact hkind

/-- An approval that is enough afterwards would suffice before. -/
lemma Db.Decides.approvalSuffices {s₁ : Db} {actor : Actor} {project id : Id} {input : ReviewInput}
    {ctx : ActivityContext} {amendment : Option (List String)}
    (hactor : actor.Known s.ext)
    (h : s.Decides actor project id input ctx .approved amendment s₁)
    (hsatisfied : approvalsSatisfied s₁ ctx.submission.id = .ok true) :
    s.approvalSuffices ctx.submission actor.kind := by
  have happrovers := h.approvers_eq hactor
  obtain ⟨attempt, ownerSession, decisions, -, hinsert, rfl⟩ := h.recorded
  intro hphase p hp
  simp only [approvalsSatisfied, bind_eq_ok, okOr_eq_ok, pure_eq_ok] at hsatisfied
  obtain ⟨u, hu, p', hp', hsat⟩ := hsatisfied
  have hu' : s.submissions.get? ctx.submission.id = some ctx.submission := by
    rw [show ctx.submission.id = ctx.activity.submission from Table.key_of_get? h.submission]
    exact h.submission
  obtain rfl : ctx.submission = u := Option.some.inj (hu'.symm.trans hu)
  obtain rfl : p = p' := Option.some.inj (hp.symm.trans hp')
  rw [happrovers, Db.requiredReviews] at hsat
  split at hsat
  · exact hsat
  · rename_i hnot
    exact absurd hphase hnot

/-- Steps that strand nothing make only moves that strand nothing. -/
lemma strandsNothing.permitted (h : strandsNothing s i) : i.Permitted StrandsNothing s s' := by
  cases i with
  | request auth req =>
    intro actor hbegin
    obtain ⟨hkind, hactor⟩ := begin_kind hbegin
    cases req with
    | review project id input =>
      refine ⟨fun hsends wa x w hwa hw hsub => ?_, fun ctx amendment s₁ hdecides hsat => ?_,
        trivial⟩
      · obtain ⟨wa, hget, rfl⟩ := Table.project_eq_some.1 hwa
        obtain ⟨w, hw', rfl⟩ := Table.project_eq_some.1 hw
        exact (h wa hget).1 hsends w (Table.mem_of_get? hw') hsub
      · have hsuffices := hdecides.approvalSuffices hactor hsat
        rw [hkind] at hsuffices
        have hplain : ¬ input.sendsBack := fun hsends =>
          hsends.elim (amendmentOutcome_approved hdecides.outcome).1
            (amendmentOutcome_approved hdecides.outcome).2
        obtain ⟨-, hboard⟩ := hdecides.board_eq
        intro ws c x w hws hc hgeneral hw hsub hstate
        rw [hboard] at hws hc hw
        rcases of_setState (b := s.board) (p := only id) hw with ⟨w₀, hw₀, hsame, hcase⟩
        rcases hcase with ⟨-, hdone⟩ | ⟨hne, rfl⟩
        · rw [hdone] at hstate
          exact absurd hstate (by simp)
        obtain ⟨w', hw', rfl⟩ := Table.project_eq_some.1 hw₀
        have hcurrent : ws.current = ctx.activity.submission := by
          obtain rfl := Option.some.inj (hws.symm.trans hdecides.toJoins.board_subject)
          exact hdecides.toCurrent.current.symm.trans (Table.key_of_get? hdecides.submission)
        obtain rfl : ctx.submission.row = c := by
          rw [hcurrent] at hc
          exact Option.some.inj (hdecides.toJoins.board_submission.symm.trans hc)
        refine (h ctx.activity hdecides.activity).2 hplain ctx.submission hdecides.submission
          hgeneral hsuffices w' (Table.mem_of_get? hw') (hsub.trans hcurrent) ?_ hstate
        rw [show w'.id = x from Table.key_of_get? hw']
        exact hne
    | reconcilePublication project id input =>
      intro w hw
      obtain ⟨wa, hwa, rfl⟩ := Table.project_eq_some.1 hw
      refine ⟨(h wa hwa).1, fun _ ws hws => ?_⟩
      obtain ⟨ws, hget, rfl⟩ := Table.project_eq_some.1 hws
      exact (h wa hwa).2 ws hget
    | agentReconcilePublication project id input =>
      intro w hw
      obtain ⟨wa, hwa, rfl⟩ := Table.project_eq_some.1 hw
      exact ⟨h wa hwa, fun hh => absurd hh (by simp)⟩
    | finalize project id input =>
      intro wa x w hwa hw hsub hk
      obtain ⟨wa, hget, rfl⟩ := Table.project_eq_some.1 hwa
      obtain ⟨w, hw', rfl⟩ := Table.project_eq_some.1 hw
      exact h wa hget w (Table.mem_of_get? hw') hsub hk
    | updatePolicy project input =>
      refine ⟨fun _ => trivial, fun ws _ _ _ b w hb hw _ hquiet w₁ u x v hw₁ hu hgeneral hv hsub => ?_⟩
      obtain rfl := Option.some.inj (hw.symm.trans hw₁)
      refine hquiet x v hv hsub fun hintegration => ?_
      -- general work has no integration
      obtain ⟨u', hu', -, hcode⟩ := hb.activitySubmission x v hv
      rw [hsub] at hu'
      obtain rfl := Option.some.inj (hu.symm.trans hu')
      rw [hcode hintegration] at hgeneral
      exact absurd hgeneral (by simp)
    | _ => simp [Request.Permitted, StrandsNothing]
  | _ => trivial

end Run

end AgentCoordinator
