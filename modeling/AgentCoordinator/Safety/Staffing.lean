import AgentCoordinator.Safety.Reviews

/-
Subjects in review have reviewers.

While a subject is in review some review of its submission is queued or active, and one that its
approvals lack, as long as every policy update leaves a review that is active or still required to
each amended submission whose approvals satisfy the new mode: such a subject does not move on by
itself, yet its queued reviews that are no longer required are canceled.
-/

namespace AgentCoordinator

open Guarded Tabular Transition Board Scenario

/-! ### What a subject in review has -/

/-- The kinds of review that the subject needs under the policy of its project. -/
def Db.neededKinds (s : Db) (ws : WorkflowSubject) (p : Project) : List ActivityKind :=
  requiredReviewKinds (s.reviewModeFloor ws.task p.reviewMode)

/-- A review of the submission is queued or active. -/
def Db.Watched (s : Db) (submission : Id) : Prop :=
  ∃ wa ∈ s.workflowActivities, wa.submission = submission ∧ wa.kind ≠ .integration ∧ wa.state.Live

/-- A review is queued or active; and one of a kind that the approvals lack, while they do not
satisfy the project's mode. -/
structure Db.Staffed (s : Db) (ws : WorkflowSubject) : Prop where
  watched : s.Watched ws.currentSubmission
  missing : ∀ p, s.projects.get? ws.project = some p →
    ¬ reviewsSatisfied (s.neededKinds ws p) (s.approvers ws.currentSubmission) = true →
      ∃ kind ∈ s.neededKinds ws p, (∀ k ∈ s.approvers ws.currentSubmission, ¬ fits kind k) ∧
        ∃ wa ∈ s.workflowActivities, wa.submission = ws.currentSubmission ∧ wa.kind = kind ∧
          wa.state.Live

/-- A satisfied submission is watched, and every needed kind of another has an activity. -/
structure Db.Attended (s : Db) (submission : Id) (needed : List ActivityKind) : Prop where
  satisfied : reviewsSatisfied needed (s.approvers submission) = true → s.Watched submission
  missing : ¬ reviewsSatisfied needed (s.approvers submission) = true →
    ∀ kind ∈ needed, s.hasReview submission kind

/-- No decision was invalidated. -/
def Db.NoneInvalidated (s : Db) : Prop := ∀ rd ∈ s.reviewDecisions, rd.invalidatedAt = none

section Staffed

variable {s : Db} {k : Id} {ws : WorkflowSubject}

/-- The submission of a subject in review stands. -/
lemma standing_of_review (hb : Coherent s.board) (hws : s.workflowSubjects.get? k = some ws)
    (hphase : ws.phase = .review) :
    ∃ u, s.submissions.get? ws.currentSubmission = some u ∧ u.supersededAt = none := by
  obtain ⟨c, hc, -⟩ := hb.subjectSubmission k _ (board_subject hws)
  have hstanding := (hb.revision k _ c (board_subject hws) hc).not.1
    (by rw [show ws.row.phase = .review from hphase]; simp)
  obtain ⟨u, hu, rfl⟩ := Table.project_eq_some.1 hc
  exact ⟨u, hu, by simpa [Submission.row] using hstanding⟩

/-- A review that no approval fits has not completed, so it is live. -/
lemma live_of_unfit (hb : Coherent s.board) (hvalid : s.NoneInvalidated)
    (hws : s.workflowSubjects.get? k = some ws) (hphase : ws.phase = .review)
    {wa : WorkflowActivity} (hwa : wa ∈ s.workflowActivities)
    (hsub : wa.submission = ws.currentSubmission) (hkind : wa.kind ≠ .integration)
    (hrun : wa.state ≠ .canceled)
    (hunfit : ∀ k ∈ s.approvers ws.currentSubmission, ¬ fits wa.kind k) : wa.state.Live := by
  cases hstate : wa.state with
  | queued => exact .inl rfl
  | active => exact .inr rfl
  | canceled => exact absurd hstate hrun
  | recoveryRequired =>
    have hrow : s.board.activities wa.id = some wa.row := board_activity (Table.get?_of_mem hwa)
    obtain ⟨w, hw, hk⟩ := hb.intentActivity _ (hb.recoveryIntent _ _ hrow hstate)
    obtain rfl := Option.some.inj (hrow.symm.trans hw)
    exact absurd hk hkind
  | completed =>
    obtain ⟨u, hu, hstanding⟩ := standing_of_review hb hws hphase
    obtain ⟨rd, hrd, -, hrsub, hdecision, c, hc, hfits⟩ :=
      approval_of_completed hb hu hstanding hwa hsub hkind hstate
    refine absurd hfits (hunfit c (List.mem_filterMap.2 ⟨rd, ?_, hc⟩))
    exact Table.mem_filter.2 ⟨hrd, hrsub, hdecision, hvalid rd hrd⟩

/-- Attended subjects are staffed. -/
theorem Db.Attended.staffed (hb : Coherent s.board) (hvalid : s.NoneInvalidated)
    (hws : s.workflowSubjects.get? k = some ws) (hphase : ws.phase = .review)
    (hproject : ∃ p, s.projects.get? ws.project = some p)
    (h : ∀ p, s.projects.get? ws.project = some p →
      s.Attended ws.currentSubmission (s.neededKinds ws p)) : s.Staffed ws := by
  have hmissing : ∀ p, s.projects.get? ws.project = some p →
      ¬ reviewsSatisfied (s.neededKinds ws p) (s.approvers ws.currentSubmission) = true →
        ∃ kind ∈ s.neededKinds ws p, (∀ k ∈ s.approvers ws.currentSubmission, ¬ fits kind k) ∧
          ∃ wa ∈ s.workflowActivities, wa.submission = ws.currentSubmission ∧ wa.kind = kind ∧
            wa.state.Live := by
    intro p hp hunsatisfied
    obtain ⟨kind, hkind, hunfit⟩ := exists_unfit hunsatisfied
    obtain ⟨wa, hwa, hsub, rfl, hrun⟩ := (h p hp).missing hunsatisfied kind hkind
    exact ⟨wa.kind, hkind, hunfit, wa, hwa, hsub, rfl, live_of_unfit hb hvalid hws hphase hwa hsub
      (requiredReviewKinds_review _ _ hkind) hrun hunfit⟩
  refine ⟨?_, hmissing⟩
  obtain ⟨p, hp⟩ := hproject
  by_cases hsat : reviewsSatisfied (s.neededKinds ws p) (s.approvers ws.currentSubmission) = true
  · exact (h p hp).satisfied hsat
  · obtain ⟨kind, hkind, -, wa, hwa, hsub, rfl, hlive⟩ := hmissing p hp hsat
    exact ⟨wa, hwa, hsub, requiredReviewKinds_review _ _ hkind, hlive⟩

end Staffed

/-! ### Reconciling subjects -/

/-- The activities of other submissions stay as they are. -/
def Db.KeepsOthers (s s' : Db) (submission : Id) : Prop :=
  ∀ wa ∈ s.workflowActivities, wa.submission ≠ submission → wa ∈ s'.workflowActivities

/-- The row reads the submission's task, and the review mode of its project. -/
def Db.Pins (s : Db) (r : ReviewSubject) : Prop :=
  ∃ u p, s.submissions.get? r.submission = some u ∧ s.projects.get? u.project = some p ∧
    u.task = r.task ∧ p.reviewMode = r.reviewMode

/-- The reconciled row says what the tables say. -/
structure Db.Reads (s : Db) (r : ReviewSubject) : Prop where
  inReview : s.InReview r
  watched : s.Watched r.submission
  pins : s.Pins r
  /-- An amended submission whose approvals suffice keeps a review that is active or needed. -/
  amended : r.amended = true →
    reviewsSatisfied (s.subjectKinds r) (s.approvers r.submission) = true →
      ∃ wa ∈ s.workflowActivities, wa.submission = r.submission ∧ wa.kind ≠ .integration ∧
        (wa.state = .active ∨ (wa.state = .queued ∧ wa.kind ∈ s.subjectKinds r))

section Reconcile

variable {s s' : Db} {actor : Actor} {r r' : ReviewSubject}

lemma Db.SameEvidence.approvers (h : s.SameEvidence s') (submission : Id) :
    s'.approvers submission = s.approvers submission := by
  simp only [Db.approvers, h.decisions, h.ext]

lemma Db.SameEvidence.subjectKinds (h : s.SameEvidence s') (r : ReviewSubject) :
    s'.subjectKinds r = s.subjectKinds r := by
  simp only [Db.subjectKinds, Db.reviewModeFloor, h.ext]

/-- Activities that stay keep an attended submission attended. -/
lemma Db.Attended.of_kept {submission : Id} {needed : List ActivityKind}
    (h : s.Attended submission needed) (approvers : s'.approvers submission = s.approvers submission)
    (kept : ∀ wa ∈ s.workflowActivities, wa.submission = submission → wa ∈ s'.workflowActivities) :
    s'.Attended submission needed := by
  constructor
  · intro hsat
    obtain ⟨wa, hwa, hsub, hrest⟩ := h.satisfied (approvers ▸ hsat)
    exact ⟨wa, kept wa hwa hsub, hsub, hrest⟩
  · intro hsat kind hkind
    obtain ⟨wa, hwa, hsub, hrest⟩ := h.missing (approvers ▸ hsat) kind hkind
    exact ⟨wa, kept wa hwa hsub, hsub, hrest⟩

/-- `approvals_satisfied` of a submission in review, by the mode the row reads. -/
lemma Db.Pins.approvalsSatisfied_eq (hb : Coherent s.board) (hin : s.InReview r)
    (hpins : s.Pins r) : approvalsSatisfied s r.submission
      = .ok (reviewsSatisfied (s.subjectKinds r) (s.approvers r.submission)) := by
  obtain ⟨ws, hws, -, hcurrent, hphase⟩ := hin
  obtain ⟨u, p, hu, hp, htask, hmode⟩ := hpins
  have hreview := currentPhase_eq hb hws
  rw [hcurrent, hphase] at hreview
  have hid : u.id = r.submission := Table.key_of_get? hu
  simp only [approvalsSatisfied, bind_eq_ok, okOr_eq_ok, pure_eq_ok]
  refine ⟨u, hu, p, hp, ?_⟩
  rw [Db.requiredReviews, hid, if_pos hreview, htask, hmode]
  rfl

lemma Db.Pins.of_same (h : s.Pins r) (same : s.SameEvidence s') : s'.Pins r := by
  unfold Db.Pins
  rw [same.submissions, same.projects]
  exact h

/-- What the rows of one subject read does not change when another is reconciled. -/
lemma Db.Reads.of_other (hr : s.Reads r) (same : s.SameEvidence s')
    (subjects : s'.workflowSubjects.get? r.task = s.workflowSubjects.get? r.task)
    (kept : ∀ wa ∈ s.workflowActivities, wa.submission = r.submission →
      wa ∈ s'.workflowActivities) : s'.Reads r where
  inReview := hr.inReview.of_eq subjects
  watched := by
    obtain ⟨wa, hwa, hsub, hrest⟩ := hr.watched
    exact ⟨wa, kept wa hwa hsub, hsub, hrest⟩
  pins := hr.pins.of_same same
  amended ha hsat := by
    rw [same.subjectKinds, same.approvers] at hsat
    obtain ⟨wa, hwa, hsub, hrest⟩ := hr.amended ha hsat
    exact ⟨wa, kept wa hwa hsub, hsub, by rw [same.subjectKinds]; exact hrest⟩

/-- Different subjects have different submissions. -/
lemma Db.Reads.submission_ne (hr : s.Reads r) (hr' : s.Reads r') (hne : r.task ≠ r'.task) :
    r'.submission ≠ r.submission := by
  obtain ⟨u, -, hu, -, htask, -⟩ := hr.pins
  obtain ⟨u', -, hu', -, htask', -⟩ := hr'.pins
  intro heq
  rw [heq, hu] at hu'
  obtain rfl := Option.some.inj hu'
  exact hne (htask.symm.trans htask')

lemma mem_createActivity {project task submission : Id} {title : String} {kind : ActivityKind}
    {slot : Nat} {wa : WorkflowActivity} :
    wa ∈ (s.createActivity project task title submission kind slot).workflowActivities ↔
      wa ∈ s.workflowActivities ∨ wa = queuedActivity s project task submission s.tasks.fresh kind
        slot s.workflowActivities.fresh := by
  simp only [Db.createActivity, Table.mem_create]

lemma mem_cancelActivities_of_neg {p : WorkflowActivity → Prop} [DecidablePred p] {by_ : Id}
    {why : CancelReason} {wa : WorkflowActivity} (h : wa ∈ s.workflowActivities) (hp : ¬ p wa) :
    wa ∈ (s.cancelActivities p by_ why).workflowActivities := by
  simp only [Db.cancelActivities, Table.mem_modify]
  exact ⟨wa, h, if_neg fun hpw => hp hpw.1⟩

lemma mem_cancelUnrequiredReviews_of_neg {submission : Id} {required : List ActivityKind}
    {wa : WorkflowActivity} (h : wa ∈ s.workflowActivities)
    (hp : ¬ unrequiredReview submission required wa) :
    wa ∈ (s.cancelUnrequiredReviews submission required).workflowActivities := by
  simp only [Db.cancelUnrequiredReviews, Table.mem_modify]
  exact ⟨wa, h, if_neg hp⟩

/-- Queueing what is missing only adds activities, and leaves no needed kind without one. -/
lemma addMissingReviews_has (required : List ActivityKind) : ∀ {s : Db},
    (∀ wa ∈ s.workflowActivities, wa ∈ (s.addMissingReviews r required).workflowActivities) ∧
      ∀ kind ∈ required, (s.addMissingReviews r required).hasReview r.submission kind := by
  induction required with
  | nil => exact ⟨fun _ h => h, fun _ h => absurd h List.not_mem_nil⟩
  | cons kind required ih =>
    intro s
    have hone : (∀ wa ∈ s.workflowActivities, wa ∈ (s.addMissingReview r kind).workflowActivities) ∧
        (s.addMissingReview r kind).hasReview r.submission kind := by
      unfold Db.addMissingReview
      split
      · rename_i hhas
        exact ⟨fun _ h => h, hhas⟩
      · exact ⟨fun wa hwa => mem_createActivity.2 (.inl hwa), _, mem_createActivity.2 (.inr rfl), rfl,
          rfl, by simp [queuedActivity]⟩
    obtain ⟨hkept, hall⟩ := ih (s := s.addMissingReview r kind)
    refine ⟨fun wa hwa => hkept wa (hone.1 wa hwa), fun kind' hkind' => ?_⟩
    rcases List.mem_cons.1 hkind' with rfl | hmem
    · obtain ⟨wa, hwa, hrest⟩ := hone.2
      exact ⟨wa, hkept wa hwa, hrest⟩
    · exact hall kind' hmem

/-- Moving on cancels reviews of its own submission only. -/
lemma advanceApprovedSubject_keepsOthers {project task submission : Id}
    (h : advanceApprovedSubject s project task submission = .ok s') :
    s.KeepsOthers s' submission := by
  obtain ⟨u, hu, hcase⟩ := advanceApprovedSubject_ok h
  intro wa hwa hne
  have hkept : wa ∈ (s.cancelQueuedReviews u).workflowActivities :=
    mem_cancelActivities_of_neg hwa fun hp => hne (hp.1.trans (Table.key_of_get? hu))
  obtain ⟨-, rfl⟩ | ⟨-, rfl⟩ := hcase <;> exact hkept

/-- A reconciled subject that is still in review is attended. -/
lemma reconcileInSavepoint_attended (actor : Actor) (hb : Coherent s.board) (hr : s.Reads r) :
    s.KeepsOthers (s.reconcileInSavepoint actor r) r.submission ∧
      ((s.reconcileInSavepoint actor r).InReview r →
        (s.reconcileInSavepoint actor r).Attended r.submission
          ((s.reconcileInSavepoint actor r).subjectKinds r)) := by
  obtain ⟨hcancel, hcanceled⟩ := cancelUnrequiredReviews_eq (s := s) r.submission (s.subjectKinds r)
  have hb₁ := (cancelUnrequiredReviews_moves permits_any (fun _ => trivial) hb r.submission
    (s.subjectKinds r)).coherent hb
  have hothers : s.KeepsOthers (s.cancelUnrequiredReviews r.submission (s.subjectKinds r))
      r.submission := fun wa hwa hne => mem_cancelUnrequiredReviews_of_neg hwa fun hp => hne hp.1
  -- a review that is active or needed is not canceled
  have hneeded : ∀ wa ∈ s.workflowActivities, wa.state ≠ .queued ∨ wa.kind ∈ s.subjectKinds r →
      wa ∈ (s.cancelUnrequiredReviews r.submission (s.subjectKinds r)).workflowActivities :=
    fun wa hwa hor => mem_cancelUnrequiredReviews_of_neg hwa fun hp =>
      hor.elim (fun hstate => hstate hp.2.1) fun hkind => hp.2.2.2 hkind
  have hr₁ : (s.cancelUnrequiredReviews r.submission (s.subjectKinds r)).InReview r :=
    hr.inReview.of_eq (by rw [hcanceled])
  have happrovals := Db.Pins.approvalsSatisfied_eq hb₁ hr₁ (hr.pins.of_same hcancel)
  rw [hcancel.subjectKinds, hcancel.approvers] at happrovals
  unfold Db.reconcileInSavepoint
  cases hres : reconcileSubject s actor r with
  | error e =>
    refine ⟨fun wa hwa _ => hwa, fun _ => ⟨fun _ => hr.watched, fun hunsat => ?_⟩⟩
    -- only a subject that moves on can be refused
    rw [Bool.eq_false_iff.2 hunsat] at happrovals
    simp only [reconcileSubject, happrovals, bind, Except.bind] at hres
    exact absurd hres (by simp [pure, Except.pure])
  | ok s' =>
    obtain ⟨s₂, changed, hcases, rfl⟩ := reconcileSubject_ok hres
    obtain ⟨-, hrecord, hrecorded⟩ := recordReconciled_eq s₂ actor r changed
    have hactivities : (s₂.recordReconciled actor r changed).workflowActivities
        = s₂.workflowActivities := by
      unfold Db.recordReconciled
      split <;> rfl
    have hdone : s.SameEvidence s₂ → s.KeepsOthers s₂ r.submission →
        (s₂.InReview r → s₂.Attended r.submission (s.subjectKinds r)) →
        s.KeepsOthers (s₂.recordReconciled actor r changed) r.submission ∧
          ((s₂.recordReconciled actor r changed).InReview r →
            (s₂.recordReconciled actor r changed).Attended r.submission
              ((s₂.recordReconciled actor r changed).subjectKinds r)) := by
      intro hsame hkept hattended
      refine ⟨fun wa hwa hne => hactivities ▸ hkept wa hwa hne, fun hin => ?_⟩
      rw [(hsame.trans hrecord).subjectKinds]
      exact (hattended (hin.of_eq (by rw [hrecorded]))).of_kept (hrecord.approvers _)
        fun wa hwa _ => hactivities ▸ hwa
    cases hcases with
    | stays happroved why =>
      have hsatisfied := Except.ok.inj (happrovals.symm.trans happroved)
      refine hdone hcancel hothers fun _ => ⟨fun hsat => ?_, fun hunsat => ?_⟩
      · rcases why with hamended | ⟨wa, hwa, hsub, hkind, hactive⟩
        · obtain ⟨wa, hwa, hsub, hkind, hstate⟩ := hr.amended hamended hsatisfied
          refine ⟨wa, hneeded wa hwa ?_, hsub, hkind, ?_⟩
          · exact hstate.imp (fun ha => by rw [ha]; simp) And.right
          · exact hstate.elim .inr fun hq => .inl hq.1
        · exact ⟨wa, hwa, hsub, hkind, .inr hactive⟩
      · rw [hcancel.approvers] at hunsat
        exact absurd hsatisfied hunsat
    | advances happroved plain quiet hadvance =>
      obtain ⟨hsame, phase, hphase, hsubjects⟩ := advanceApprovedSubject_eq hadvance
      refine hdone (hcancel.trans hsame) (fun wa hwa hne =>
        advanceApprovedSubject_keepsOthers hadvance wa (hothers wa hwa hne) hne) fun hin => ?_
      -- the subject has left review
      obtain ⟨ws, hws, -, -, hreview⟩ := hr.inReview
      obtain ⟨ws', hws', -, -, hreview'⟩ := hin
      have htask : ws.task = r.task := Table.key_of_get? hws
      rw [hsubjects] at hws'
      simp only [Db.setPhase, Table.get?_modify, hcanceled, hws, Option.map_some,
        Option.some.injEq, if_pos htask] at hws'
      rw [← hws'] at hreview'
      rcases hphase with rfl | rfl <;> simp at hreview'
    | adds hunapproved =>
      obtain ⟨hkept, hall⟩ := addMissingReviews_has (r := r) (s.subjectKinds r)
        (s := s.cancelUnrequiredReviews r.submission (s.subjectKinds r))
      obtain ⟨-, hsame, -⟩ := addMissingReviews_moves permits_any (s.subjectKinds r)
        (requiredReviewKinds_review _) hb₁ hr₁
      refine hdone (hcancel.trans hsame) (fun wa hwa hne => hkept wa (hothers wa hwa hne))
        fun _ => ⟨fun hsat => ?_, fun _ => hall⟩
      rw [(hcancel.trans hsame).approvers,
        Except.ok.inj (happrovals.symm.trans hunapproved)] at hsat
      exact absurd hsat (by simp)

/-- After the reconciliation of a list of subjects each of them that is still in review is
attended, and nothing changed for the submissions of others. -/
lemma reconcileAll_attended (actor : Actor) (rs : List ReviewSubject) :
    ∀ {s : Db}, rs.Pairwise (fun r r' => r.task ≠ r'.task) → Coherent s.board →
      (∀ r ∈ rs, s.Reads r) →
      (∀ wa ∈ s.workflowActivities, (∀ r ∈ rs, wa.submission ≠ r.submission) →
        wa ∈ (rs.foldl (fun s r => s.reconcileInSavepoint actor r) s).workflowActivities) ∧
      ∀ r ∈ rs, (rs.foldl (fun s r => s.reconcileInSavepoint actor r) s).InReview r →
        (rs.foldl (fun s r => s.reconcileInSavepoint actor r) s).Attended r.submission
          ((rs.foldl (fun s r => s.reconcileInSavepoint actor r) s).subjectKinds r) := by
  induction rs with
  | nil => exact fun _ _ _ => ⟨fun _ h _ => h, fun _ h => absurd h List.not_mem_nil⟩
  | cons r rs ih =>
    intro s hdistinct hb hreads
    obtain ⟨hne, hdistinct'⟩ := List.pairwise_cons.1 hdistinct
    have hr := hreads r List.mem_cons_self
    obtain ⟨hothers, hattended⟩ := reconcileInSavepoint_attended actor hb hr
    have hone := (reconcileAll_moves actor permits_any (fun _ => trivial) [r]
      (List.pairwise_singleton _ r) hb (fun r' hr' => (hreads r' (by
        rw [List.mem_singleton.1 hr']; exact List.mem_cons_self)).inReview)
      fun _ _ _ _ _ _ _ _ _ => trivial)
    rw [List.foldl_cons, List.foldl_nil] at hone
    rw [List.foldl_cons]
    generalize s.reconcileInSavepoint actor r = s₁ at *
    obtain ⟨hmoves, hsame, hsubjects⟩ := hone
    have hb₁ := hmoves.coherent hb
    have hreads' : ∀ r' ∈ rs, s₁.Reads r' := by
      intro r' hr'
      have hr'' := hreads r' (List.mem_cons_of_mem _ hr')
      have hsub := hr.submission_ne hr'' (hne r' hr')
      refine hr''.of_other hsame ?_ fun wa hwa hwsub => hothers wa hwa (hwsub ▸ hsub)
      rcases hsubjects r'.task with hkept | ⟨r₁, hr₁, htask, -⟩
      · exact hkept
      · rw [List.mem_singleton.1 hr₁] at htask
        exact absurd htask (hne r' hr')
    obtain ⟨hkept, hall⟩ := ih hdistinct' hb₁ hreads'
    have hrest := (reconcileAll_moves actor permits_any (fun _ => trivial) rs hdistinct' hb₁
      (fun r' hr' => (hreads' r' hr').inReview) fun _ _ _ _ _ _ _ _ _ => trivial).2
    generalize rs.foldl (fun s r => s.reconcileInSavepoint actor r) s₁ = s₂ at *
    refine ⟨fun wa hwa hother => hkept wa (hothers wa hwa (hother r List.mem_cons_self))
      fun r' hr' => hother r' (List.mem_cons_of_mem _ hr'), fun r' hr' hin => ?_⟩
    rcases List.mem_cons.1 hr' with rfl | hmem
    · -- the others leave the first one as it is
      rw [hrest.same.subjectKinds]
      refine (hattended (hin.of_eq ?_)).of_kept (hrest.same.approvers _) fun wa hwa hsub =>
        hkept wa hwa fun r₁ hr₁ => hsub ▸ ((hr.submission_ne (hreads r₁
          (List.mem_cons_of_mem _ hr₁)) (hne r₁ hr₁)).symm)
      rcases hrest.subjects r'.task with hsubj | ⟨r₁, hr₁, htask, -⟩
      · exact hsubj.symm
      · exact absurd htask.symm (hne r₁ hr₁)
    · exact hall r' hmem hin

end Reconcile

/-! ### Policy updates -/

/-- No decision is invalidated, and a policy update leaves a review that is active, or queued and
still required, to each amended submission in review whose approvals satisfy the new mode. -/
def sparesAmended (s : Db) : Action → Prop
  | .request _ (.updatePolicy project input) =>
    ∀ ws ∈ s.workflowSubjects, ws.phase = .review → ws.project = project →
      ∀ u ∈ s.submissions.get? ws.currentSubmission, u.acAmendment.isSome = true →
        reviewsSatisfied (requiredReviewKinds (s.reviewModeFloor ws.task input.reviewMode))
            (s.approvers ws.currentSubmission) = true →
          ∃ wa ∈ s.workflowActivities, wa.submission = ws.currentSubmission ∧
            wa.kind ≠ .integration ∧ (wa.state = .active ∨ (wa.state = .queued ∧
              wa.kind ∈ requiredReviewKinds (s.reviewModeFloor ws.task input.reviewMode)))
  | .invalidateDecision _ => False
  | _ => True

instance (s : Db) (i : Action) : Decidable (sparesAmended s i) := by
  rcases i with ⟨auth, req⟩ | _ | _ | _ | _
  · rcases req <;> (dsimp only [sparesAmended]; infer_instance)
  all_goals dsimp only [sparesAmended]; infer_instance

/-- Every subject in review is attended. -/
def Db.AllAttended (s : Db) : Prop :=
  ∀ k ws p, s.workflowSubjects.get? k = some ws → ws.phase = .review →
    s.projects.get? ws.project = some p →
      s.Attended ws.currentSubmission (s.neededKinds ws p)

section Policy

variable {s s' : Db} {actor : Actor} {project : Id} {input : PolicyInput}

/-- The rows that a policy update reads. -/
lemma reads_of_mem {auth : Auth} {s₁ : Db} {revisions : Table PolicyRevision}
    (hb : Coherent s.board) (hhoused : s.Housed) (hvalid : s.NoneInvalidated)
    (hall : s.AllAttended) (hspares : sparesAmended s (.request auth (.updatePolicy project input)))
    (hs₁ : s₁ = { s with
      projects := s.projects.modify (fun p => p.id = project) (fun p => p.withPolicy input)
      policyRevisions := revisions }) {r : ReviewSubject} (hr : r ∈ s₁.reviewSubjects project) :
    s₁.Reads r := by
  have hin := inReview_of_mem hr
  obtain ⟨ws, t, p, u, hmem, hphase, hproject, -, hp, hu, rfl⟩ := mem_reviewSubjects hr
  subst hs₁
  have hws : s.workflowSubjects.get? ws.task = some ws := Table.get?_of_mem hmem
  obtain ⟨p₀, hp₀⟩ := hhoused ws.task ws hws
  -- the row has the new mode
  have hmode : p.reviewMode = input.reviewMode := by
    simp only [Table.get?_modify, hp₀, Option.map_some, Option.some.injEq] at hp
    have hid : p₀.id = project := (Table.key_of_get? hp₀).trans hproject
    rw [if_pos hid] at hp
    rw [← hp]
    rfl
  obtain ⟨c, hc, htask⟩ := hb.subjectSubmission _ _ (board_subject hws)
  have hcproject := hb.subjectProject _ _ c (board_subject hws) hc
  have hu' : s.submissions.get? ws.currentSubmission = some u := hu
  obtain rfl : u.row = c := Option.some.inj ((board_submission hu').symm.trans hc)
  refine ⟨hin, ?_, ⟨u, p, hu, ?_, htask, rfl⟩, fun hamended hsat => ?_⟩
  · exact (Db.Attended.staffed hb hvalid hws hphase ⟨p₀, hp₀⟩
      fun p hp => hall _ ws p hws hphase hp).watched
  · rw [show u.project = ws.project from hcproject]
    exact hp
  · have hkinds : requiredReviewKinds (s.reviewModeFloor ws.task p.reviewMode)
        = requiredReviewKinds (s.reviewModeFloor ws.task input.reviewMode) := by rw [hmode]
    have hkept := hspares ws hmem hphase hproject u hu' hamended (hkinds ▸ hsat)
    rw [← hkinds] at hkept
    exact hkept

/-- A policy update reads every subject in review of its project. -/
lemma exists_reviewSubject {k : Id} {ws : WorkflowSubject} {p : Project} (hb : Coherent s.board)
    (hws : s.workflowSubjects.get? k = some ws) (hphase : ws.phase = .review)
    (hproject : ws.project = project) (hp : s.projects.get? ws.project = some p) :
    ∃ r ∈ s.reviewSubjects project, r.task = k ∧ r.submission = ws.currentSubmission ∧
      r.reviewMode = p.reviewMode ∧ r.project = project := by
  have hid : ws.task = k := Table.key_of_get? hws
  obtain ⟨row, hrow, -⟩ := hb.subjectTask k _ (board_subject hws)
  obtain ⟨t, ht, -⟩ := Table.project_eq_some.1 hrow
  obtain ⟨c, hc, -⟩ := hb.subjectSubmission k _ (board_subject hws)
  obtain ⟨u, hu, -⟩ := Table.project_eq_some.1 hc
  have hu' : s.submissions.get? ws.currentSubmission = some u := hu
  refine ⟨⟨ws.project, ws.task, ws.currentSubmission, t.title, p.reviewMode, u.acAmendment.isSome⟩,
    List.mem_filterMap.2 ⟨ws, Table.mem_filter.2 ⟨Table.mem_of_get? hws, hphase, hproject⟩, ?_⟩,
    hid, rfl, rfl, hproject⟩
  simp [hid, ht, hp, hu']

/-- A policy update that spares amended submissions leaves every subject in review attended. -/
theorem updatePolicy_attended {auth : Auth} (hb : Coherent s.board) (hhoused : s.Housed)
    (hvalid : s.NoneInvalidated) (hall : s.AllAttended)
    (hspares : sparesAmended s (.request auth (.updatePolicy project input)))
    (h : updatePolicy s actor project input = .ok s') : s'.AllAttended ∧ s'.NoneInvalidated := by
  obtain ⟨current, s₁, -, -, hwrite, hs'⟩ := updatePolicy_ok h
  obtain ⟨revisions, hs₁⟩ := writePolicy_ok hwrite
  have hboard : s₁.board = s.board := by rw [hs₁]; rfl
  have hb₁ : Coherent s₁.board := hboard ▸ hb
  have hreads : ∀ r ∈ s₁.reviewSubjects project, s₁.Reads r :=
    fun r hr => reads_of_mem hb hhoused hvalid hall hspares hs₁ hr
  obtain ⟨hkept, hdone⟩ := reconcileAll_attended actor (s₁.reviewSubjects project)
    (reviewSubjects_distinct s₁ project) hb₁ hreads
  have hok : Permits fun _ l => ∀ k, l ≠ .submit k := ⟨fun _ => by simp, fun _ _ _ h => h⟩
  obtain ⟨hmoves, hsame, -⟩ := reconcileAll_moves actor hok (fun _ => by simp) (s₁.reviewSubjects project)
    (reviewSubjects_distinct s₁ project) hb₁ (fun r hr => inReview_of_mem hr)
    fun _ _ _ _ _ _ _ _ _ => by simp
  have hs₂ : s' = (s₁.reconcileRequiredReviews actor project).finish actor "policy.updated"
    project := hs'
  unfold Db.reconcileRequiredReviews at hs₂
  generalize (s₁.reviewSubjects project).foldl (fun s r => s.reconcileInSavepoint actor r) s₁ = s₂
    at *
  have hreviews : s₂.reviewDecisions = s.reviewDecisions := hsame.decisions.trans (by rw [hs₁])
  refine ⟨fun k ws p hws hphase hp => ?_, fun rd hrd => hvalid rd ?_⟩
  · rw [hs₂] at hws hp
    -- the subject was in review before, under the same submission
    obtain ⟨ws₀, hws₀, hrow⟩ : ∃ ws₀, s₁.workflowSubjects.get? k = some ws₀ ∧ ws₀.row = ws.row := by
      have hwas := hmoves.invariant (I := fun x => x.subjects k = some ws.row →
        s₁.board.subjects k = some ws.row) (fun _ _ _ hI hl hm hx =>
          hI (hm.was_in_review hx hphase (hl k))) id (board_subject (s := s₂) hws)
      exact Table.project_eq_some.1 hwas
    have hphase₀ : ws₀.phase = .review := (congrArg Subject.phase hrow).trans hphase
    have hcurrent₀ : ws₀.currentSubmission = ws.currentSubmission := congrArg Subject.current hrow
    have hproject₀ : ws₀.project = ws.project := congrArg Subject.project hrow
    have htask₀ : ws₀.task = ws.task :=
      (Table.key_of_get? hws₀).trans (Table.key_of_get? hws).symm
    have hp₁ : s₁.projects.get? ws₀.project = some p := by
      rw [hproject₀, ← hsame.projects]
      exact hp
    have hneeded : s'.neededKinds ws p = s₁.neededKinds ws₀ p := by
      rw [hs₂]
      simp only [Db.neededKinds, Db.reviewModeFloor, htask₀, Db.finish, hsame.ext]
    have hfinish : s'.workflowActivities = s₂.workflowActivities := by rw [hs₂]; rfl
    have happrovers : ∀ c, s'.approvers c = s₁.approvers c := fun c => by
      rw [hs₂]
      exact hsame.approvers c
    rw [hneeded, ← hcurrent₀]
    by_cases hproject : ws.project = project
    · -- the update reconciled the subject
      obtain ⟨r, hr, htask, hsubmission, hmode, hrproject⟩ := exists_reviewSubject hb₁ hws₀ hphase₀
        (hproject₀.trans hproject) hp₁
      have hdone' := hdone r hr ⟨ws, by rw [htask]; exact hws,
        hrproject.symm ▸ hproject, hcurrent₀.symm.trans hsubmission.symm, hphase⟩
      have hkinds : s₂.subjectKinds r = s₁.neededKinds ws₀ p := by
        rw [hsame.subjectKinds, Db.subjectKinds, Db.neededKinds, htask, hmode,
          show ws₀.task = k from Table.key_of_get? hws₀]
      rw [hsubmission, hkinds] at hdone'
      exact hdone'.of_kept ((happrovers _).trans (hsame.approvers _).symm)
        fun wa hwa _ => hfinish ▸ hwa
    · -- the update left the subject alone
      have hws' : s.workflowSubjects.get? k = some ws₀ := by rw [hs₁] at hws₀; exact hws₀
      have hp₀ : s.projects.get? ws₀.project = some p := by
        rw [hs₁] at hp₁
        simp only [Table.get?_modify] at hp₁
        obtain ⟨p₀, hp₀, rfl⟩ := Option.map_eq_some_iff.1 hp₁
        have hid : p₀.id ≠ project := by
          rw [show p₀.id = ws₀.project from Table.key_of_get? hp₀, hproject₀]
          exact hproject
        rw [if_neg hid]
        exact hp₀
      have hsame₁ : s₁.neededKinds ws₀ p = s.neededKinds ws₀ p := by rw [hs₁]; rfl
      rw [hsame₁]
      refine (hall k ws₀ p hws' hphase₀ hp₀).of_kept ((happrovers _).trans (by rw [hs₁]; rfl))
        fun wa hwa hsub => hfinish ▸ hkept wa (by rw [hs₁]; exact hwa) fun r hr heq => ?_
      obtain ⟨u, -, hu, -, htask, -⟩ := (hreads r hr).pins
      obtain ⟨c, hc, hctask⟩ := hb₁.subjectSubmission k _ (board_subject hws₀)
      rw [← heq, hsub] at hu
      obtain rfl := Option.some.inj ((board_submission hu).symm.trans hc)
      obtain ⟨ws₁, t₁, p₁, u₁, hmem, -, hproject₁, -, -, -, hr₁⟩ := mem_reviewSubjects hr
      have hws₁ := Table.get?_of_mem hmem
      have htask₁ : r.task = ws₁.task := by rw [hr₁]
      rw [show Keyed.key ws₁ = k from htask₁.symm.trans (htask.symm.trans hctask), hws₀] at hws₁
      obtain rfl := Option.some.inj hws₁
      exact hproject (hproject₀.symm.trans hproject₁)
  · rw [hs₂] at hrd
    rw [← hreviews]
    exact hrd

end Policy

/-! ### Subjects that stay in review -/

section Kept

variable {s s' : Db} {ok : Board → Label → Prop} {k : Id}

/-- A subject in review at the end of a run without dismissals and submissions of its task was in
review all along, and its reviews were not canceled. -/
lemma Moves.reviews_kept {b b' : Board} {w : Subject} (h : Moves ok b b') (hb : Coherent b)
    (hok : ∀ b l, ok b l → l ≠ .dismiss ∧ l ≠ .submit k) (hw : b'.subjects k = some w)
    (hphase : w.phase = .review) :
    b.subjects k = some w ∧ ∀ a wa, b.activities a = some wa → wa.submission = w.current →
      wa.kind ≠ .integration → wa.state ≠ .canceled →
        ∃ wa', b'.activities a = some wa' ∧ SameActivity wa wa' ∧ wa'.state ≠ .canceled ∧
          ((∀ b l, ok b l → l ≠ .approve a) → wa.state.Live → wa'.state.Live) := by
  induction h with
  | refl => exact ⟨hw, fun a wa hwa _ _ hrun => ⟨wa, hwa, rfl, hrun, fun _ => id⟩⟩
  | @tail b₁ b₂ l hrun hl hm ih =>
    obtain ⟨hdismiss, hsubmit⟩ := hok _ _ hl
    have hb₁ := Moves.coherent hrun hb
    have hw₁ := hm.was_in_review hw hphase hsubmit
    obtain ⟨hw₀, hkept⟩ := ih hw₁
    refine ⟨hw₀, fun a wa hwa hsub hkind hrun => ?_⟩
    obtain ⟨wa₁, hwa₁, hsame₁, hrun₁, hlive₁⟩ := hkept a wa hwa hsub hkind hrun
    obtain ⟨wa₂, hwa₂, hsame₂, hrun₂, hlive₂⟩ := hm.review_kept hb₁ hdismiss hw₁ hphase hw hwa₁
      (by rw [hsame₁]; exact hsub) (by rw [hsame₁]; exact hkind) hrun₁
    exact ⟨wa₂, hwa₂, by rw [SameActivity, hsame₂, hsame₁], hrun₂,
      fun hne hlive => hlive₂ (hne _ _ hl) (hlive₁ hne hlive)⟩

/-- What happened to the reviews of a subject that stays in review. -/
structure Db.Stays (s s' : Db) (ws ws' : WorkflowSubject) (approves : Id → Prop) : Prop where
  same : ws'.row = ws.row
  task : ws'.task = ws.task
  has : ∀ kind, kind ≠ .integration → s.hasReview ws.currentSubmission kind →
    s'.hasReview ws.currentSubmission kind
  watched : (∀ wa ∈ s.workflowActivities, wa.submission = ws.currentSubmission →
    ¬ approves wa.id) → s.Watched ws.currentSubmission → s'.Watched ws.currentSubmission

lemma stays_of_moves {approves : Id → Prop} (h : Moves ok s.board s'.board)
    (hb : Coherent s.board) (hok : ∀ b l, ok b l → l ≠ .dismiss ∧ l ≠ .submit k)
    (happrove : ∀ a, ¬ approves a → ∀ b l, ok b l → l ≠ .approve a) {ws' : WorkflowSubject}
    (hws' : s'.workflowSubjects.get? k = some ws') (hphase : ws'.phase = .review) :
    ∃ ws, s.workflowSubjects.get? k = some ws ∧ s.Stays s' ws ws' approves := by
  obtain ⟨hw, hkept⟩ := Moves.reviews_kept h hb hok (board_subject hws') hphase
  obtain ⟨ws, hws, hrow⟩ := Table.project_eq_some.1 hw
  have hcurrent : ws'.currentSubmission = ws.currentSubmission :=
    (congrArg Subject.current hrow).symm
  have hone : ∀ wa ∈ s.workflowActivities, wa.submission = ws.currentSubmission →
      wa.kind ≠ .integration → wa.state ≠ .canceled → ∃ wa' ∈ s'.workflowActivities,
        wa'.submission = wa.submission ∧ wa'.kind = wa.kind ∧ wa'.state ≠ .canceled ∧
          (¬ approves wa.id → wa.state.Live → wa'.state.Live) := by
    intro wa hwa hsub hkind hrun
    obtain ⟨w', hw', hsame, hrun', hlive⟩ := hkept wa.id wa.row
      (board_activity (Table.get?_of_mem hwa)) (hsub.trans hcurrent.symm) hkind hrun
    obtain ⟨wa', hwa', rfl⟩ := Table.project_eq_some.1 hw'
    exact ⟨wa', Table.mem_of_get? hwa', congrArg Activity.submission hsame,
      congrArg Activity.kind hsame, hrun', fun hne => hlive (happrove _ hne)⟩
  refine ⟨ws, hws, hrow.symm, (Table.key_of_get? hws').trans (Table.key_of_get? hws).symm,
    fun kind hkind ⟨wa, hwa, hsub, hk, hrun⟩ => ?_, fun hnone ⟨wa, hwa, hsub, hkind, hlive⟩ => ?_⟩
  · obtain ⟨wa', hwa', hsub', hk', hrun', -⟩ := hone wa hwa hsub (hk ▸ hkind) hrun
    exact ⟨wa', hwa', hsub'.trans hsub, hk'.trans hk, hrun'⟩
  · have hrun : wa.state ≠ .canceled := by
      intro hc
      rw [hc] at hlive
      exact absurd hlive (by decide)
    obtain ⟨wa', hwa', hsub', hk', -, hlive'⟩ := hone wa hwa hsub hkind hrun
    exact ⟨wa', hwa', hsub'.trans hsub, by rw [hk']; exact hkind, hlive' (hnone wa hwa hsub) hlive⟩

/-- The setting decides which reviews are needed. -/
lemma neededKinds_of_setting {ws ws' : WorkflowSubject} {p : Project}
    (setting : s'.setting = s.setting) (task : ws'.task = ws.task) :
    s'.neededKinds ws' p = s.neededKinds ws p := by
  have hreverts : s'.ext.reverts = s.ext.reverts := congrArg (fun x => x.2.2) setting
  simp only [Db.neededKinds, Db.reviewModeFloor, hreverts, task]

lemma projects_of_setting (setting : s'.setting = s.setting) : s'.projects = s.projects :=
  congrArg Prod.fst setting

/-- The setting and the decisions are all that approvers depend on. -/
lemma approvers_of_frame (frame : s'.frame = s.frame) (submission : Id) :
    s'.approvers submission = s.approvers submission := by
  have hprincipals : s'.ext.principals = s.ext.principals := congrArg (fun x => x.1.2.1) frame
  have hdecisions : s'.reviewDecisions = s.reviewDecisions := congrArg Prod.snd frame
  simp only [Db.approvers, hprincipals, hdecisions]

/-- A subject that stays in review while nothing is decided stays attended. -/
lemma Db.Stays.attended {ws ws' : WorkflowSubject} {p : Project} {approves : Id → Prop}
    (h : s.Stays s' ws ws' approves) (needed : s'.neededKinds ws' p = s.neededKinds ws p)
    (approvers : s'.approvers ws.currentSubmission = s.approvers ws.currentSubmission)
    (undecided : ∀ wa ∈ s.workflowActivities, wa.submission = ws.currentSubmission →
      ¬ approves wa.id)
    (hattended : s.Attended ws.currentSubmission (s.neededKinds ws p)) :
    s'.Attended ws'.currentSubmission (s'.neededKinds ws' p) := by
  have hcurrent : ws'.currentSubmission = ws.currentSubmission := congrArg Subject.current h.same
  rw [hcurrent, needed]
  refine ⟨fun hsat => ?_, fun hsat kind hkind => ?_⟩
  · exact h.watched undecided (hattended.satisfied (approvers ▸ hsat))
  · exact h.has kind (requiredReviewKinds_review _ _ hkind)
      (hattended.missing (approvers ▸ hsat) kind hkind)

end Kept

/-! ### New submissions -/

section Submit

variable {s s' : Db} {actor : Actor} {project attempt : Id} {input : SubmissionInput}

/-- A queued activity of each kind; nothing else changes but tasks. -/
lemma createActivities_has {task submission : Id} {title : String} (kinds : List ActivityKind) :
    ∀ {s : Db}, (s.createActivities project task title submission kinds).workflowSubjects
        = s.workflowSubjects ∧
      (∀ wa ∈ s.workflowActivities,
        wa ∈ (s.createActivities project task title submission kinds).workflowActivities) ∧
      ∀ kind ∈ kinds, (s.createActivities project task title submission kinds).hasReview submission
        kind := by
  induction kinds with
  | nil => exact ⟨rfl, fun _ h => h, fun _ h => absurd h List.not_mem_nil⟩
  | cons kind kinds ih =>
    intro s
    obtain ⟨hsubjects, hkept, hall⟩ := ih (s := s.createActivity project task title submission kind 1)
    refine ⟨hsubjects, fun wa hwa => hkept wa (mem_createActivity.2 (.inl hwa)),
      fun kind' hkind' => ?_⟩
    rcases List.mem_cons.1 hkind' with rfl | hmem
    · exact ⟨_, hkept _ (mem_createActivity.2 (.inr rfl)), rfl, rfl, by simp [queuedActivity]⟩
    · exact hall kind' hmem

/-- The subject of a submission is put in its first phase, with the reviews that its mode needs. -/
lemma writeSubmission_has {ownerSession : Id} {subject : OwnedSubject} {canonical : Option String}
    {roster : Int} {mode : ReviewMode}
    (h : s' = s.writeSubmission actor ownerSession attempt subject input canonical roster mode) :
    s'.workflowSubjects = s.workflowSubjects.put ⟨subject.task.id, subject.project.id,
        s.submissions.fresh, firstPhase mode input.kind, s.now⟩ ∧
      ∀ kind ∈ neededReviews mode, s'.hasReview s.submissions.fresh kind := by
  obtain ⟨X, hX⟩ : ∃ X, X = s.enterWorkflow actor ownerSession attempt subject input canonical
    roster mode := ⟨_, rfl⟩
  have hput : X.workflowSubjects = s.workflowSubjects.put ⟨subject.task.id, subject.project.id,
      s.submissions.fresh, firstPhase mode input.kind, s.now⟩ := by rw [hX]; rfl
  obtain ⟨Y, hY⟩ : ∃ Y, Y = X.createActivities subject.project.id subject.task.id
    subject.task.title s.submissions.fresh (neededReviews mode) := ⟨_, rfl⟩
  obtain ⟨hsubjects, hall⟩ : Y.workflowSubjects = X.workflowSubjects ∧
      ∀ kind ∈ neededReviews mode, Y.hasReview s.submissions.fresh kind := by
    rw [hY]
    exact ⟨(createActivities_has _).1, (createActivities_has _).2.2⟩
  rw [← hput, ← hsubjects, h]
  simp only [Db.writeSubmission, ← hX, ← hY]
  split
  · refine ⟨?_, fun kind hkind => ?_⟩
    · unfold Db.createIntegration
      split <;> rfl
    · obtain ⟨wa, hwa, hrest⟩ := hall kind hkind
      refine ⟨wa, ?_, hrest⟩
      have hcreated : wa ∈ (Y.createActivity subject.project.id subject.task.id
          subject.task.title s.submissions.fresh .integration 1).workflowActivities :=
        mem_createActivity.2 (.inl hwa)
      unfold Db.createIntegration
      split <;> exact hcreated
  · split <;> exact ⟨rfl, hall⟩

/-- The reviews that a mode asks for at submission are those it requires. -/
lemma mem_neededReviews {mode : ReviewMode} {kind : ActivityKind} :
    kind ∈ requiredReviewKinds mode → kind ∈ neededReviews mode := by
  cases mode <;> simp [requiredReviewKinds, neededReviews]

lemma firstPhase_eq_review {mode : ReviewMode} {kind : WorkKind}
    (h : firstPhase mode kind = .review) : reviewsSatisfied (requiredReviewKinds mode) [] = false := by
  revert h
  cases mode <;> cases kind <;> decide

/-- A submission without rows has no decisions. -/
lemma approvers_of_fresh (hb : Coherent s.board) {submission : Id}
    (h : s.submissions.get? submission = none) : s.approvers submission = [] := by
  unfold Db.approvers
  rw [List.filterMap_eq_nil_iff]
  intro rd hrd
  obtain ⟨hmem, hsub, -⟩ := Table.mem_filter.1 hrd
  obtain ⟨w, hw, -, -, hvsub, -⟩ := hb.verdictActivity _ _
    (Table.project_of_get? (π := ReviewDecision.row s.ext) (Table.get?_of_mem hmem))
  obtain ⟨u, hu, -⟩ := hb.activitySubmission _ w hw
  obtain ⟨c, hc, -⟩ := Table.project_eq_some.1 hu
  rw [show w.submission = submission from hvsub.trans hsub, h] at hc
  exact absurd hc (by simp)

/-- A newly submitted subject in review is attended. -/
lemma submit_attended {k : Id} {ws' : WorkflowSubject} {p : Project} (hb : Coherent s.board)
    (hws' : s'.workflowSubjects.get? k = some ws') (hphase : ws'.phase = .review)
    (hnew : ∀ ws, s.workflowSubjects.get? k = some ws → ws.phase ≠ .review)
    (hp : s'.projects.get? ws'.project = some p)
    (h : submit s actor project attempt input = .ok s') :
    s'.Attended ws'.currentSubmission (s'.neededKinds ws' p) := by
  have hframe := submit_frame h
  obtain ⟨subject, canonical, roster, ownerSession, s₀, hown, -, -, hs₀, -, -, hs'⟩ := submit_ok h
  obtain ⟨hput, hhas⟩ := writeSubmission_has hs'
  obtain ⟨hsubjects, hfresh, hreverts⟩ : s₀.workflowSubjects = s.workflowSubjects ∧
      s.submissions.get? s₀.submissions.fresh = none ∧ s₀.ext.reverts = s.ext.reverts := by
    have hnone := Table.get?_fresh s₀.submissions
    generalize s₀.submissions.fresh = f at hnone ⊢
    rw [hs₀] at hnone ⊢
    cases hprevious : s.previousSubmission project subject.task.id with
    | none => exact ⟨rfl, by rw [hprevious] at hnone; exact hnone, rfl⟩
    | some ws =>
      rw [hprevious] at hnone
      simp only [Option.elim_some, Db.supersede, Table.get?_modify] at hnone
      exact ⟨rfl, Option.map_eq_none_iff.1 hnone, rfl⟩
  rw [hput, Table.get?_put, hsubjects] at hws'
  split at hws'
  · obtain rfl := Option.some.inj hws'
    -- its project is the one whose mode the submission read
    have hsame : s'.projects = s.projects := congrArg (fun x => x.1.1) hframe
    have hproj := hown.proj
    have hid : subject.project.id = project := Table.key_of_get? hproj
    obtain rfl : subject.project = p :=
      Option.some.inj (hproj.symm.trans ((congrArg s.projects.get? hid).symm.trans (hsame ▸ hp)))
    have hreverts' : s'.ext.reverts = s₀.ext.reverts :=
      (congrArg (fun x => x.1.2.2) hframe).trans hreverts.symm
    have hneeded : s'.neededKinds ⟨subject.task.id, subject.project.id, s₀.submissions.fresh,
        firstPhase (s₀.reviewModeFloor subject.task.id subject.project.reviewMode) input.kind,
        s₀.now⟩ subject.project = requiredReviewKinds
          (s₀.reviewModeFloor subject.task.id subject.project.reviewMode) := by
      simp only [Db.neededKinds, Db.reviewModeFloor, hreverts']
    have happrovers : s'.approvers s₀.submissions.fresh = [] :=
      (approvers_of_frame hframe _).trans (approvers_of_fresh hb hfresh)
    rw [hneeded]
    refine ⟨fun hsat => ?_, fun _ kind hkind => hhas kind (mem_neededReviews hkind)⟩
    rw [happrovers, firstPhase_eq_review hphase] at hsat
    exact absurd hsat (by simp)
  · exact absurd hphase (hnew ws' hws')

end Submit

/-! ### Decisions -/

section Review

variable {s s' : Db} {actor : Actor} {project id : Id} {input : ReviewInput}

/-- A recorded decision is no approval of another submission. -/
lemma Db.Decides.approvers_other {ctx : ActivityContext} {decision : Decision}
    {amendment : Option (List String)} {s₁ : Db} {submission : Id}
    (h : s.Decides actor project id input ctx decision amendment s₁)
    (hne : submission ≠ ctx.submission.id) : s₁.approvers submission = s.approvers submission := by
  obtain ⟨attempt, ownerSession, decisions, -, hinsert, rfl⟩ := h.recorded
  have hrows : decisions.rows = s.reviewDecisions.rows ++
      [reviewDecision s actor ownerSession attempt ctx decision input] := by
    unfold Table.insert? at hinsert
    split at hinsert
    · exact absurd hinsert (by simp)
    · rw [← Option.some.inj hinsert]
  rw [AgentCoordinator.approvers_eq, AgentCoordinator.approvers_eq]
  unfold Table.filter
  change (decisions.rows.filter _).filterMap s.reviewerKind = _
  rw [hrows, List.filter_append, List.filterMap_append]
  simp [standingApproval, reviewDecision, hne.symm]

lemma Db.Decides.noneInvalidated {ctx : ActivityContext} {decision : Decision}
    {amendment : Option (List String)} {s₁ : Db}
    (h : s.Decides actor project id input ctx decision amendment s₁) (hvalid : s.NoneInvalidated) :
    s₁.NoneInvalidated := by
  obtain ⟨attempt, ownerSession, decisions, -, hinsert, rfl⟩ := h.recorded
  intro rd hrd
  have hget := (Table.insert?_eq_some hinsert).2 (Keyed.key rd)
  rw [show decisions.get? (Keyed.key rd) = some rd from Table.get?_of_mem hrd] at hget
  split at hget
  · rw [Option.some.inj hget]
    rfl
  · exact hvalid rd (Table.mem_of_get? hget.symm)

/-- Deciding a review leaves its subject in review only if the approvals still do not suffice. -/
lemma review_undecided (h : review s actor project id input = .ok s') :
    ∃ ctx decision amendment s₁, s.Decides actor project id input ctx decision amendment s₁ ∧
      s'.reviewDecisions = s₁.reviewDecisions ∧
      ((decision = .approved ∧ approvalsSatisfied s₁ ctx.submission.id = .ok false) ∨
        ∀ w, s'.workflowSubjects.get? ctx.activity.subjectTask = some w → w.phase ≠ .review) := by
  obtain ⟨ctx, decision, amendment, s₁, s₂, hdecides, happly, rfl⟩ := review_ok h
  have hset : ∀ (x : Db) phase, phase ≠ .review →
      s₂.workflowSubjects = (x.setPhase ctx.activity.subjectTask phase).workflowSubjects →
      ∀ w, s₂.workflowSubjects.get? ctx.activity.subjectTask = some w → w.phase ≠ .review := by
    intro x phase hne hsubjects w hw
    rw [hsubjects] at hw
    simp only [Db.setPhase, Table.get?_modify] at hw
    obtain ⟨w₀, hw₀, rfl⟩ := Option.map_eq_some_iff.1 hw
    have htask : w₀.task = ctx.activity.subjectTask := Table.key_of_get? hw₀
    rw [if_pos htask]
    exact hne
  cases decision with
  | changesRequested =>
    simp only [applyDecision, bind_eq_ok] at happly
    obtain ⟨-, -, hreject⟩ := happly
    obtain ⟨hframe, hback⟩ : (s₁.sendBack actor ctx).frame = s₁.frame ∧
        (s₁.sendBack actor ctx).workflowSubjects = ((s₁.supersede ctx.submission.id).setPhase
          ctx.activity.subjectTask .revisionNeeded).workflowSubjects := ⟨sendBack_frame ctx, rfl⟩
    generalize s₁.sendBack actor ctx = Y at hreject hframe hback
    have hdecisions : Y.reviewDecisions = s₁.reviewDecisions := congrArg Prod.snd hframe
    obtain ⟨hsubjects, hsame⟩ : s₂.workflowSubjects = Y.workflowSubjects ∧
        s₂.reviewDecisions = Y.reviewDecisions := by
      obtain rfl | ⟨revisions, rfl⟩ := rejectMechanical_ok hreject <;> exact ⟨rfl, rfl⟩
    exact ⟨ctx, _, amendment, s₁, hdecides, hsame.trans hdecisions,
      .inr (hset _ _ (by simp) (hsubjects.trans hback))⟩
  | approved =>
    simp only [applyDecision, bind_eq_ok, ite_eq_ok, pure_eq_ok] at happly
    obtain ⟨satisfied, hsatisfied, ⟨-, s₂', hamend, happly⟩ | ⟨hnot, rfl⟩⟩ := happly
    · obtain ⟨hsame, phase, hphase, hsubjects⟩ := advanceApprovedSubject_eq happly
      have hdecisions := (applyAccepted_evidence hamend).1
      exact ⟨ctx, _, amendment, s₁, hdecides, hsame.decisions.trans hdecisions,
        .inr (hset _ phase (by rcases hphase with rfl | rfl <;> simp) hsubjects)⟩
    · refine ⟨ctx, _, amendment, s₁, hdecides, rfl, .inl ⟨rfl, ?_⟩⟩
      rw [hsatisfied, Bool.eq_false_of_not_eq_true hnot]

/-- Deciding a review leaves every subject in review attended. -/
theorem review_attended (hb : Coherent s.board) (hactor : actor.Known s.ext)
    (hvalid : s.NoneInvalidated) (hall : s.AllAttended)
    (h : review s actor project id input = .ok s') : s'.AllAttended ∧ s'.NoneInvalidated := by
  have hsetting := review_setting h
  have hok : Permits fun _ l => (l ≠ .dismiss ∧ ∀ k, l ≠ .submit k) ∧ ∀ a, l = .approve a → a = id :=
    ⟨fun _ => by simp, fun _ _ _ h => h⟩
  have hmoves := review_moves hok hb hactor (fun _ => by simp) (fun _ _ _ _ _ => by simp)
    (by simp) h
  obtain ⟨ctx, decision, amendment, s₁, hdecides, hdecisions, houtcome⟩ := review_undecided h
  have happrovers : ∀ c, s'.approvers c = s₁.approvers c := fun c => by
    have hprincipals : s'.ext.principals = s.ext.principals :=
      congrArg (fun x => x.2.1) hsetting
    obtain ⟨attempt, ownerSession, decisions, -, -, rfl⟩ := hdecides.recorded
    simp only [Db.approvers, hdecisions, hprincipals]
    rfl
  refine ⟨fun k ws' p hws' hphase hp => ?_, fun rd hrd =>
    hdecides.noneInvalidated hvalid rd (hdecisions ▸ hrd)⟩
  have hothers : ∀ a, ¬ a = id → ∀ (_ : Board) (l : Label), ((l ≠ .dismiss ∧ ∀ k, l ≠ .submit k) ∧
      ∀ a, l = .approve a → a = id) → l ≠ .approve a :=
    fun a hne _ _ hl heq => hne (hl.2 a heq)
  obtain ⟨ws, hws, hstays⟩ := stays_of_moves hmoves hb (fun _ _ hl => ⟨hl.1.1, hl.1.2 k⟩) hothers
    hws' hphase
  have hproject : ws'.project = ws.project := congrArg Subject.project hstays.same
  have hp₀ : s.projects.get? ws.project = some p := by
    rw [← hproject, ← projects_of_setting hsetting]
    exact hp
  have hphase₀ : ws.phase = .review := (congrArg Subject.phase hstays.same).symm.trans hphase
  have hneeded : s'.neededKinds ws' p = s.neededKinds ws p :=
    neededKinds_of_setting hsetting hstays.task
  have hattended := hall k ws p hws hphase₀ hp₀
  by_cases hcurrent : ws.currentSubmission = ctx.submission.id
  · -- the decided submission: its approvals still do not suffice
    have hk : k = ctx.activity.subjectTask := by
      obtain ⟨c, hc, htask⟩ := hb.subjectSubmission k _ (board_subject hws)
      obtain ⟨c', hc', htask'⟩ := hb.subjectSubmission _ _ hdecides.toJoins.board_subject
      rw [show ws.row.current = ctx.subject.row.current from
        hcurrent.trans hdecides.toCurrent.current] at hc
      obtain rfl := Option.some.inj (hc.symm.trans hc')
      exact htask.symm.trans htask'
    rcases houtcome with ⟨rfl, hunsatisfied⟩ | hleft
    · have hb₁ := (approve_moves permits_any hb trivial hactor hdecides).coherent hb
      have hws₁ : s₁.workflowSubjects.get? k = some ws := by
        obtain ⟨attempt, ownerSession, decisions, -, -, rfl⟩ := hdecides.recorded
        exact hws
      have hunapproved : ¬ reviewsSatisfied (s.neededKinds ws p)
          (s₁.approvers ws.currentSubmission) = true := by
        intro hsat
        have happroved : s₁.ReviewsApproved ws.currentSubmission := by
          obtain ⟨c, hc, htask⟩ := hb.subjectSubmission k _ (board_subject hws)
          have hcproject := hb.subjectProject k _ c (board_subject hws) hc
          obtain ⟨u, hu, rfl⟩ := Table.project_eq_some.1 hc
          refine ⟨u, p, ?_, ?_, ?_⟩
          · obtain ⟨attempt, ownerSession, decisions, -, -, rfl⟩ := hdecides.recorded
            exact hu
          · rw [show u.project = ws.project from hcproject]
            obtain ⟨attempt, ownerSession, decisions, -, -, rfl⟩ := hdecides.recorded
            exact hp₀
          · rw [show u.task = ws.task from htask.trans (Table.key_of_get? hws).symm]
            obtain ⟨attempt, ownerSession, decisions, -, -, rfl⟩ := hdecides.recorded
            exact hsat
        have hok := (approvalsSatisfied_review hb₁ hws₁ hphase₀).2 happroved
        rw [hcurrent, hunsatisfied] at hok
        exact absurd (Except.ok.inj hok) (by simp)
      -- an approval more never hurts, so they did not suffice before
      have hbefore : ¬ reviewsSatisfied (s.neededKinds ws p)
          (s.approvers ws.currentSubmission) = true := fun hsat => hunapproved (by
        rw [hcurrent, hdecides.approvers_eq hactor]
        exact reviewsSatisfied_append (hcurrent ▸ hsat) _)
      have hcur : ws'.currentSubmission = ws.currentSubmission :=
        congrArg Subject.current hstays.same
      rw [hcur, hneeded]
      refine ⟨fun hsat => absurd hsat ?_, fun _ kind hkind =>
        hstays.has kind (requiredReviewKinds_review _ _ hkind) (hattended.missing hbefore kind hkind)⟩
      rw [happrovers]
      exact hunapproved
    · exact absurd hphase (hleft ws' (hk ▸ hws'))
  · -- another submission
    refine hstays.attended hneeded ((happrovers _).trans (hdecides.approvers_other hcurrent))
      (fun wa hwa hsub heq => hcurrent ?_) hattended
    have hactivity : s.workflowActivities.get? id = some ctx.activity := hdecides.activity
    rw [← heq, show s.workflowActivities.get? wa.id = some wa from Table.get?_of_mem hwa]
      at hactivity
    rw [← hsub, Option.some.inj hactivity]
    exact hdecides.toJoins.submission_id.symm

end Review

/-! ### Steps and runs -/

section Runs

variable {s s' : Db} {i : Action} {actor : Actor}

/-- A request that neither decides nor changes the policy leaves every subject in review
attended. -/
lemma Request.attended {req : Request} (hb : Coherent s.board) (hactor : actor.Known s.ext)
    (hall : s.AllAttended) (hreview : ∀ project id input, req ≠ .review project id input)
    (hpolicy : ∀ project input, req ≠ .updatePolicy project input)
    (h : req.handle s actor = .ok s') : s'.AllAttended := by
  have hframe := Request.handle_frame h hreview hpolicy
  intro k ws' p hws' hphase hp
  by_cases hsubmit : (∃ project attempt input, req = .submit project attempt input) ∧
      ∀ ws, s.workflowSubjects.get? k = some ws → ws.phase ≠ .review
  · obtain ⟨⟨project, attempt, input, rfl⟩, hnew⟩ := hsubmit
    exact submit_attended hb hws' hphase hnew hp h
  · have hok : Permits fun _ l => (l ≠ .dismiss ∧ l ≠ .submit k) ∧ ∀ a, l ≠ .approve a :=
      ⟨fun _ => by simp, fun _ _ _ h => h⟩
    have hmoves := req.handle_moves hok hb hactor ?_ h
    · have hnothing : ∀ a, ¬ False → ∀ (_ : Board) (l : Label), ((l ≠ .dismiss ∧ l ≠ .submit k) ∧
          ∀ a, l ≠ .approve a) → l ≠ .approve a := fun a _ _ _ hl => hl.2 a
      obtain ⟨ws, hws, hstays⟩ := stays_of_moves hmoves hb (fun _ _ hl => hl.1) hnothing hws' hphase
      have hsetting : s'.setting = s.setting := congrArg Prod.fst hframe
      have hproject : ws'.project = ws.project := congrArg Subject.project hstays.same
      have hp₀ : s.projects.get? ws.project = some p := by
        rw [← hproject, ← projects_of_setting hsetting]
        exact hp
      have hphase₀ : ws.phase = .review := (congrArg Subject.phase hstays.same).symm.trans hphase
      exact hstays.attended (neededKinds_of_setting hsetting hstays.task)
        (approvers_of_frame hframe _) (fun _ _ _ => id) (hall k ws p hws hphase₀ hp₀)
    · cases req with
      | submit project attempt input =>
        intro b k' t p' _ _ hout
        refine ⟨⟨by simp, fun heq => hsubmit ⟨⟨_, _, _, rfl⟩, fun ws hws hreview => ?_⟩⟩, by simp⟩
        exact notSubmitted hws hreview hout heq
      | review project id input => exact absurd rfl (hreview project id input)
      | updatePolicy project input => exact absurd rfl (hpolicy project input)
      | _ => simp [Request.Permitted]

/-- Accounts keep their kind, so the rest of the service leaves approvals as they are. -/
lemma Environment.approvers (hb : Coherent s.board) (h : Environment s s') (submission : Id) :
    s'.approvers submission = s.approvers submission := by
  unfold Db.approvers
  rw [h.reviewDecisions]
  refine List.filterMap_congr fun rd hrd => ?_
  obtain ⟨-, -, -, -, -, k, hk, -⟩ := hb.verdictActivity _ _
    (Table.project_of_get? (π := ReviewDecision.row s.ext)
      (Table.get?_of_mem (Table.mem_filter.1 hrd).1))
  obtain ⟨p, hp, -⟩ := Option.map_eq_some_iff.1 hk
  obtain ⟨p', hp', hkind⟩ := h.principals _ p hp
  rw [hp, hp', Option.map_some, Option.map_some, hkind]

lemma Environment.attended (hb : Coherent s.board) (hhoused : s.Housed) (hall : s.AllAttended)
    (h : Environment s s') : s'.AllAttended := by
  intro k ws p' hws hphase hp'
  rw [h.workflowSubjects] at hws
  obtain ⟨p, hp⟩ := hhoused k ws hws
  obtain ⟨p'', hp'', hmode⟩ := h.projects _ p hp
  obtain rfl := Option.some.inj (hp'.symm.trans hp'')
  have hid : ws.task = k := Table.key_of_get? hws
  have hneeded : s'.neededKinds ws p' = s.neededKinds ws p := by
    rw [Db.neededKinds, Db.neededKinds, hmode, hid, h.reverts k ws hws hphase]
  rw [hneeded]
  exact (hall k ws p hws hphase hp).of_kept (h.approvers hb _)
    fun wa hwa _ => h.workflowActivities ▸ hwa

/-- A step that spares amended submissions leaves every subject in review attended. -/
theorem Step.attended (hb : Coherent s.board) (hhoused : s.Housed) (hvalid : s.NoneInvalidated)
    (hall : s.AllAttended) (hspares : sparesAmended s i) (h : Step s i s') :
    s'.AllAttended ∧ s'.NoneInvalidated := by
  cases h with
  | @accepted _ auth req hserve =>
    obtain ⟨actor, -, hactor, hhandle⟩ := serve_ok hserve
    by_cases hpolicy : ∃ project input, req = .updatePolicy project input
    · obtain ⟨project, input, rfl⟩ := hpolicy
      exact updatePolicy_attended hb hhoused hvalid hall hspares hhandle
    by_cases hreview : ∃ project id input, req = .review project id input
    · obtain ⟨project, id, input, rfl⟩ := hreview
      exact review_attended hb hactor hvalid hall hhandle
    have hnoReview : ∀ project id input, req ≠ .review project id input :=
      fun project id input heq => hreview ⟨project, id, input, heq⟩
    have hnoPolicy : ∀ project input, req ≠ .updatePolicy project input :=
      fun project input heq => hpolicy ⟨project, input, heq⟩
    have hdecisions : s'.reviewDecisions = s.reviewDecisions :=
      congrArg Prod.snd (Request.handle_frame hhandle hnoReview hnoPolicy)
    exact ⟨Request.attended hb hactor hall hnoReview hnoPolicy hhandle,
      fun rd hrd => hvalid rd (hdecisions ▸ hrd)⟩
  | environment henv =>
    exact ⟨henv.attended hb hhoused hall, fun rd hrd => hvalid rd (henv.reviewDecisions ▸ hrd)⟩
  | refused => exact ⟨hall, hvalid⟩
  | clockRollback | clockReconciled =>
    exact ⟨fun k ws p hws hphase hp =>
      (hall k ws p hws hphase hp).of_kept rfl fun _ hwa _ => hwa, hvalid⟩
  | invalidateDecision => exact absurd hspares (by simp [sparesAmended])

/-- Every reachable subject in review is attended. -/
lemma Reachable.attended (h : Reachable sparesAmended s) : s.AllAttended ∧ s.NoneInvalidated := by
  have hall : (Coherent s.board ∧ s.Housed) ∧ s.AllAttended ∧ s.NoneInvalidated :=
    h.invariant (I := fun s => (Coherent s.board ∧ s.Housed) ∧ s.AllAttended ∧ s.NoneInvalidated)
      (fun s h₀ => ⟨⟨h₀.coherent, fun k ws hws => by simp [h₀.workflowSubjects] at hws⟩,
        fun k ws p hws => by simp [h₀.workflowSubjects] at hws,
        fun rd hrd => by simp [h₀.reviewDecisions] at hrd⟩)
      fun _ _ _ hI hok hstep => ⟨⟨hstep.coherent hI.1.1, hstep.housed hI.1.1 hI.1.2⟩,
        hstep.attended hI.1.1 hI.1.2 hI.2.2 hI.2.1 hok⟩
  exact hall.2

/-- Policy changes strand no candidate, as long as they spare amended submissions. -/
theorem review_staffed {ws : WorkflowSubject} (hs : Reachable sparesAmended s)
    (hws : ws ∈ s.workflowSubjects) (hphase : ws.phase = .review) : s.Staffed ws := by
  obtain ⟨hall, hvalid⟩ := hs.attended
  have hget := Table.get?_of_mem hws
  exact Db.Attended.staffed hs.coherent hvalid hget hphase (hs.housed _ ws hget)
    fun p hp => hall _ ws p hget hphase hp

end Runs

/-! ### Replays -/

/-- A submission that asks to amend the acceptance criteria is in review. -/
def amendedWork : List Happening :=
  [claims 2 2, submitsGeneral 2 1 (some ⟨[], ["It names its sources."], "It has sources."⟩)]

set_option maxRecDepth 20000 in
theorem review_staffed_replayed : ∃ s ws, replay sparesAmended (service .agent)
    (amendedWork ++ [changesMode 1 .both]) = some s ∧ ws ∈ s.workflowSubjects ∧
      ws.phase = .review ∧ s.Staffed ws := by
  obtain ⟨s, hs, hp⟩ := exists_of_any (o := replay sparesAmended (service .agent)
    (amendedWork ++ [changesMode 1 .both]))
    (p := fun s => (s.workflowSubjects.get? 2).any (fun ws => ws.phase = .review))
    (by decide +kernel)
  obtain ⟨ws, hws, hphase⟩ := (Option.any_eq_true _ _).1 hp
  have hmem := Table.mem_of_get? hws
  exact ⟨s, ws, hs, hmem, of_decide_eq_true hphase, review_staffed
    (replay_reachable (service_initial _) hs) hmem (of_decide_eq_true hphase)⟩

set_option maxRecDepth 20000 in
/-- An amended submission whose project gives up reviews stays in review with nobody to review
it. -/
theorem review_stranded : ¬ ∀ (s : Db) (ws : WorkflowSubject), Reachable anyStep s →
    ws ∈ s.workflowSubjects → ws.phase = .review → s.Staffed ws := by
  intro h
  obtain ⟨s, hs, hp⟩ := exists_of_any (o := replay anyStep (service .agent)
    (amendedWork ++ [changesMode 1 .none]))
    (p := fun s => (s.workflowSubjects.get? 2).any (fun ws => ws.phase = .review) &&
      s.workflowActivities.rows.all (fun wa => wa.state = .canceled)) (by decide +kernel)
  rw [Bool.and_eq_true, Option.any_eq_true, List.all_eq_true] at hp
  obtain ⟨⟨ws, hws, hphase⟩, hcanceled⟩ := hp
  obtain ⟨wa, hwa, -, -, hlive⟩ := (h s ws (replay_reachable (service_initial _) hs)
    (Table.mem_of_get? hws) (of_decide_eq_true hphase)).watched
  rw [of_decide_eq_true (hcanceled wa hwa)] at hlive
  exact absurd hlive (by decide)

end AgentCoordinator
