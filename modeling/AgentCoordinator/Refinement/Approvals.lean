import AgentCoordinator.Approvals
import AgentCoordinator.Refinement.Policy

/-
Approvals on record.

A recorded approval joins the approvers of its submission. While a submission stands, every review
of it that completed did approve it, so its completed reviews are matched by its approvers, unless
a decision was invalidated.
-/

namespace AgentCoordinator

open Guarded Tabular Board

/-- The standing approvals of a submission. -/
def standingApproval (submission : Id) (rd : ReviewDecision) : Prop :=
  rd.submission = submission ∧ rd.decision = .approved ∧ rd.invalidatedAt = none

instance (submission : Id) : DecidablePred (standingApproval submission) :=
  fun _ => by unfold standingApproval; infer_instance

/-- The account kind of a decision's reviewer. -/
def Db.reviewerKind (s : Db) (rd : ReviewDecision) : Option PrincipalKind :=
  (s.ext.principals.get? rd.reviewer).map (·.kind)

section Counting

variable {s : Db} {submission : Id}

lemma approvers_eq : s.approvers submission
    = (s.reviewDecisions.filter (standingApproval submission)).filterMap s.reviewerKind := rfl

end Counting

/-! ### Completed reviews are approved -/

section Completed

variable {s : Db} {submission : Id}

/-- A completed review of a standing submission approved it. -/
lemma approval_of_completed (hb : Coherent s.board) {u : Submission}
    (hu : s.submissions.get? submission = some u) (hstanding : u.supersededAt = none)
    {wa : WorkflowActivity} (hwa : wa ∈ s.workflowActivities) (hsub : wa.submission = submission)
    (hkind : wa.kind ≠ .integration) (hstate : wa.state = .completed) :
    ∃ rd ∈ s.reviewDecisions, Keyed.key rd = wa.id ∧ rd.submission = submission ∧
      rd.decision = .approved ∧ ∃ k, s.reviewerKind rd = some k ∧ fits wa.kind k := by
  have hrow : s.board.activities wa.id = some wa.row := board_activity (Table.get?_of_mem hwa)
  obtain ⟨v, hv, happroved⟩ := hb.completedVerdict wa.id _ hrow hkind hstate
  obtain ⟨w, hw, -, -, hvsub, k, hk, hfits⟩ := hb.verdictActivity wa.id v hv
  rw [hrow] at hw
  obtain rfl := Option.some.inj hw
  obtain ⟨rd, hrd, rfl⟩ := Table.project_eq_some.1 hv
  refine ⟨rd, Table.mem_of_get? hrd, Table.key_of_get? hrd, hvsub.symm.trans hsub, ?_, k, hk, hfits⟩
  by_contra hdecision
  have hsuperseded := happroved (by simp [ReviewDecision.row, hdecision]) u.row
    (by rw [show wa.row.submission = submission from hsub]; exact board_submission hu)
  simp [Submission.row, hstanding] at hsuperseded

end Completed

/-! ### Recording an approval -/

section Decides

variable {s s₁ : Db} {actor : Actor} {project id : Id} {input : ReviewInput}
  {ctx : ActivityContext} {amendment : Option (List String)}

/-- The approver joins the approvers of the submission. -/
lemma Db.Decides.approvers_eq (hactor : ∃ p, s.ext.principals.get? actor.id = some p ∧ p.kind = actor.kind)
    (h : s.Decides actor project id input ctx .approved amendment s₁) :
    s₁.approvers ctx.submission.id = s.approvers ctx.submission.id ++ [actor.kind] := by
  obtain ⟨attempt, ownerSession, decisions, -, hinsert, rfl⟩ := h.recorded
  obtain ⟨p, hp, hkind⟩ := hactor
  have hrows : decisions.rows = s.reviewDecisions.rows ++
      [reviewDecision s actor ownerSession attempt ctx .approved input] := by
    unfold Table.insert? at hinsert
    split at hinsert
    · exact absurd hinsert (by simp)
    · rw [← Option.some.inj hinsert]
  rw [AgentCoordinator.approvers_eq, AgentCoordinator.approvers_eq]
  unfold Table.filter
  change (decisions.rows.filter _).filterMap s.reviewerKind = _
  rw [hrows, List.filter_append, List.filterMap_append]
  simp [standingApproval, reviewDecision, Db.reviewerKind, hp, hkind]

end Decides

end AgentCoordinator
