import AgentCoordinator.Policy
import AgentCoordinator.Refinement.Reopen

/-
Changing a policy: what it does to the board and to the ledger.

The new policy itself shows nowhere on the board. Each subject in review is then brought up to it in
a savepoint: queued reviews are canceled, or missing ones are queued, or the subject moves on. The
subjects of the list are different ones, so each is still in review when its turn comes.
-/

namespace AgentCoordinator

open Guarded Tabular Maps Transition Board Fencing

/-! ### Subjects in review -/

/-- The subject is in review, with the submission the reconciliation read. -/
def Db.InReview (s : Db) (r : ReviewSubject) : Prop :=
  ∃ ws, s.workflowSubjects.get? r.task = some ws ∧ ws.project = r.project ∧
    ws.currentSubmission = r.submission ∧ ws.phase = .review

lemma Db.InReview.of_eq {s s' : Db} {r : ReviewSubject} (h : s.InReview r)
    (subjects : s'.workflowSubjects.get? r.task = s.workflowSubjects.get? r.task) :
    s'.InReview r := by
  obtain ⟨ws, hws, hrest⟩ := h
  exact ⟨ws, subjects.trans hws, hrest⟩

/-- What decides which reviews are needed, and which approvals there are. -/
structure Db.SameEvidence (s s' : Db) : Prop where
  now : s'.now = s.now
  decisions : s'.reviewDecisions = s.reviewDecisions
  projects : s'.projects = s.projects
  ext : s'.ext = s.ext
  submissions : s'.submissions = s.submissions

lemma Db.SameEvidence.refl (s : Db) : s.SameEvidence s := ⟨rfl, rfl, rfl, rfl, rfl⟩

lemma Db.SameEvidence.symm {s s' : Db} (h : s.SameEvidence s') : s'.SameEvidence s :=
  ⟨h.now.symm, h.decisions.symm, h.projects.symm, h.ext.symm, h.submissions.symm⟩

lemma Db.SameEvidence.trans {s s' s'' : Db} (h : s.SameEvidence s') (h' : s'.SameEvidence s'') :
    s.SameEvidence s'' :=
  ⟨h'.now.trans h.now, h'.decisions.trans h.decisions, h'.projects.trans h.projects,
    h'.ext.trans h.ext, h'.submissions.trans h.submissions⟩

/-- The reviews that the submission needs while it is in review are approved. -/
def Db.ReviewsApproved (s : Db) (submission : Id) : Prop :=
  ∃ u p, s.submissions.get? submission = some u ∧ s.projects.get? u.project = some p ∧
    reviewsSatisfied (requiredReviewKinds (s.reviewModeFloor u.task p.reviewMode))
      (s.approvers submission) = true

lemma Db.ReviewsApproved.of_same {s s' : Db} {submission : Id} (h : s.ReviewsApproved submission)
    (hs : s.SameEvidence s') : s'.ReviewsApproved submission := by
  obtain ⟨u, p, hu, hp, hsat⟩ := h
  refine ⟨u, p, by rw [hs.submissions]; exact hu, by rw [hs.projects]; exact hp, ?_⟩
  simp only [Db.reviewModeFloor, Db.approvers, hs.decisions, hs.ext] at hsat ⊢
  exact hsat

section Current

variable {s : Db} {k : Id} {ws : WorkflowSubject}

/-- A submission is the current one of at most one subject. -/
lemma currentPhase_eq (hb : Coherent s.board) (hws : s.workflowSubjects.get? k = some ws) :
    s.currentPhase ws.currentSubmission = some ws.phase := by
  have hmem : ws ∈ s.workflowSubjects.rows := Table.mem_of_get? hws
  unfold Db.currentPhase
  cases hfind : s.workflowSubjects.rows.find?
      (fun x => decide (x.currentSubmission = ws.currentSubmission)) with
  | none => exact absurd (List.find?_eq_none.1 hfind ws hmem) (by simp)
  | some w =>
    have hw := Table.get?_of_mem (t := s.workflowSubjects) (List.mem_of_find?_eq_some hfind)
    have hcur : w.currentSubmission = ws.currentSubmission := by
      simpa using List.find?_some hfind
    obtain ⟨u, hu, htask⟩ := hb.subjectSubmission k _ (board_subject hws)
    obtain ⟨u', hu', htask'⟩ := hb.subjectSubmission _ _ (board_subject hw)
    rw [show w.row.current = ws.row.current from hcur] at hu'
    obtain rfl := Option.some.inj (hu.symm.trans hu')
    rw [htask.symm.trans htask', hw] at hws
    rw [Option.some.inj hws]
    rfl

/-- While a submission is in review, `approvals_satisfied` looks at the mode in force. -/
lemma approvalsSatisfied_review (hb : Coherent s.board) (hws : s.workflowSubjects.get? k = some ws)
    (hphase : ws.phase = .review) :
    approvalsSatisfied s ws.currentSubmission = .ok true ↔
      s.ReviewsApproved ws.currentSubmission := by
  have hcurrent := currentPhase_eq hb hws
  simp only [approvalsSatisfied, bind_eq_ok, okOr_eq_ok, pure_eq_ok, Db.ReviewsApproved]
  constructor
  · rintro ⟨u, hu, p, hp, hsat⟩
    rw [Db.requiredReviews, show u.id = ws.currentSubmission from Table.key_of_get? hu, hcurrent,
      if_pos (by rw [hphase])] at hsat
    exact ⟨u, p, hu, hp, hsat⟩
  · rintro ⟨u, p, hu, hp, hsat⟩
    refine ⟨u, hu, p, hp, ?_⟩
    rw [Db.requiredReviews, show u.id = ws.currentSubmission from Table.key_of_get? hu, hcurrent,
      if_pos (by rw [hphase])]
    exact hsat

end Current

/-! ### One subject -/

section Subject

variable {s s' : Db} {actor : Actor} {r : ReviewSubject} {ok : Board → Label → Prop}

lemma recordReconciled_eq (s : Db) (actor : Actor) (r : ReviewSubject) (changed : Bool) :
    (s.recordReconciled actor r changed).board = s.board ∧
      s.SameEvidence (s.recordReconciled actor r changed) ∧
      (s.recordReconciled actor r changed).workflowSubjects = s.workflowSubjects := by
  unfold Db.recordReconciled
  split
  · exact ⟨rfl, ⟨rfl, rfl, rfl, rfl, rfl⟩, rfl⟩
  · exact ⟨rfl, .refl s, rfl⟩

/-- What `reconcile_subject` does after it has canceled what is not required. -/
inductive Reconciles (s₁ : Db) (r : ReviewSubject) (required : List ActivityKind) : Db → Prop
  | stays (approved : approvalsSatisfied s₁ r.submission = .ok true)
      (why : r.amended = true ∨ s₁.reviewActive r.submission) : Reconciles s₁ r required s₁
  | advances {s' : Db} (approved : approvalsSatisfied s₁ r.submission = .ok true)
      (plain : r.amended = false) (quiet : ¬ s₁.reviewActive r.submission)
      (advance : advanceApprovedSubject s₁ r.project r.task r.submission = .ok s') :
      Reconciles s₁ r required s'
  | adds (unapproved : approvalsSatisfied s₁ r.submission = .ok false) :
      Reconciles s₁ r required (s₁.addMissingReviews r required)

lemma reconcileSubject_ok (h : reconcileSubject s actor r = .ok s') :
    ∃ s₂ changed, Reconciles (s.cancelUnrequiredReviews r.submission (s.subjectKinds r)) r
      (s.subjectKinds r) s₂ ∧ s' = s₂.recordReconciled actor r changed := by
  simp only [reconcileSubject, bind_eq_ok] at h
  obtain ⟨satisfied, hsat, h⟩ := h
  cases satisfied with
  | false =>
    simp only [Bool.false_eq_true, if_false, pure_eq_ok] at h
    exact ⟨_, _, .adds hsat, h.symm⟩
  | true =>
    simp only [if_true] at h
    cases hamended : r.amended with
    | true =>
      simp only [hamended, if_true, pure_eq_ok] at h
      exact ⟨_, _, .stays hsat (.inl hamended), h.symm⟩
    | false =>
      simp only [hamended, Bool.false_eq_true, if_false, bind_eq_ok, pure_eq_ok, advanceIfQuiet,
        ite_eq_ok] at h
      obtain ⟨s₂, ⟨hactive, rfl⟩ | ⟨hquiet, hadvance⟩, h⟩ := h
      · exact ⟨_, _, .stays hsat (.inr hactive), h.symm⟩
      · exact ⟨_, _, .advances hsat hamended hquiet hadvance, h.symm⟩

lemma requiredReviewKinds_review (mode : ReviewMode) :
    ∀ kind ∈ requiredReviewKinds mode, kind ≠ .integration := by
  cases mode <;> decide

/-! ### Canceling what is not required -/

/-- The queued reviews of the submission of other kinds, on the board. -/
def unrequiredReviewOf (submission : Id) (required : List ActivityKind) (_ : Id) (wa : Activity) :
    Prop :=
  wa.submission = submission ∧ wa.state = .queued ∧ wa.kind ≠ .integration ∧ wa.kind ∉ required

instance (submission : Id) (required : List ActivityKind) (a : Id) (wa : Activity) :
    Decidable (unrequiredReviewOf submission required a wa) := by
  unfold unrequiredReviewOf; infer_instance

lemma cancelUnrequiredReviews_eq (submission : Id) (required : List ActivityKind) :
    s.SameEvidence (s.cancelUnrequiredReviews submission required) ∧
      (s.cancelUnrequiredReviews submission required).workflowSubjects = s.workflowSubjects :=
  ⟨⟨rfl, rfl, rfl, rfl, rfl⟩, rfl⟩

lemma cancelUnrequiredReviews_moves (hok : Permits ok) (hdismiss : ∀ b, ok b .dismiss)
    (hb : Coherent s.board) (submission : Id) (required : List ActivityKind) :
    Moves ok s.board (s.cancelUnrequiredReviews submission required).board := by
  obtain ⟨X, hX⟩ : ∃ X, X = s.cancelTasksOf (unrequiredReview submission required) := ⟨_, rfl⟩
  have hcanceled : Moves ok s.board X.board := by
    rw [hX]
    exact Moves.retask (.refl _) hok (cancelTasksOf_retasks hb fun _ _ h => h.2.2.1)
  have hboard : (s.cancelUnrequiredReviews submission required).board = { X.board with
      activities := X.board.setState (unrequiredReviewOf submission required) .canceled } := by
    simp only [Db.cancelUnrequiredReviews, ← hX]
    exact board_activities_modify (fun _ _ => Iff.rfl) fun _ _ _ => rfl
  rw [hboard]
  refine hcanceled.tail (hdismiss _) (Move.restate rfl (by simp) (fun a wa _ h => .inl h.2.1)
    (fun a wa hwa h => ?_) (fun h => absurd h (by simp)) fun _ a wa _ h => h.2.2.1)
  exact (hcanceled.coherent hb).toWired.awake_of_review hwa h.2.2.1

/-! ### Adding what is missing -/

lemma addMissingReview_eq (kind : ActivityKind) :
    s.SameEvidence (s.addMissingReview r kind) ∧
      (s.addMissingReview r kind).workflowSubjects = s.workflowSubjects := by
  unfold Db.addMissingReview
  split
  · exact ⟨.refl s, rfl⟩
  · exact ⟨⟨rfl, rfl, rfl, rfl, rfl⟩, rfl⟩

lemma addMissingReview_moves {kind : ActivityKind} (hok : Permits ok) (hb : Coherent s.board)
    (hr : s.InReview r) (hkind : kind ≠ .integration) :
    Moves ok s.board (s.addMissingReview r kind).board := by
  unfold Db.addMissingReview
  split
  · exact .refl _
  rename_i hmissing
  obtain ⟨ws, hws, hproject, hcurrent, hphase⟩ := hr
  obtain ⟨u, hu, -⟩ := hb.subjectSubmission r.task _ (board_subject hws)
  have hstanding : u.superseded = false := by
    have hrevision := hb.revision r.task _ u (board_subject hws) hu
    cases hsup : u.superseded with
    | false => rfl
    | true =>
      rw [show ws.row.phase = .review from hphase] at hrevision
      exact absurd (hrevision.2 hsup) (by simp)
  rw [board_createActivity]
  refine .single (hok.plain _) (Move.enqueue (queued_createActivity
    (fun _ hwa hsub hk => slot_lt_nextSlot hwa hsub hk) false)
    ⟨board_subject hws, hcurrent, by rw [← hcurrent]; exact hu, hstanding, ?_⟩ (fun _ => hphase)
    (fun hi => absurd hi hkind) fun a wa' hwa' hsub hk => ?_)
  · rw [show ws.row.phase = .review from hphase]
    simp
  · -- every activity of this kind is canceled
    obtain ⟨wa, hwa, rfl⟩ := Table.project_eq_some.1 hwa'
    by_contra hstate
    exact hmissing ⟨wa, Table.mem_of_get? hwa, hsub, hk, hstate⟩

/-- Queueing the missing reviews. -/
lemma addMissingReviews_moves (hok : Permits ok) (required : List ActivityKind) :
    ∀ {s : Db}, (∀ kind ∈ required, kind ≠ .integration) → Coherent s.board → s.InReview r →
      Moves ok s.board (s.addMissingReviews r required).board ∧
        s.SameEvidence (s.addMissingReviews r required) ∧
        (s.addMissingReviews r required).workflowSubjects = s.workflowSubjects := by
  induction required with
  | nil => exact fun _ _ _ => ⟨.refl _, .refl _, rfl⟩
  | cons kind required ih =>
    intro s hreview hb hr
    have hadd := addMissingReview_moves hok hb hr (hreview kind List.mem_cons_self)
    obtain ⟨hsame, hsubjects⟩ := addMissingReview_eq (s := s) (r := r) kind
    obtain ⟨hm, hsame', hsubjects'⟩ := ih (fun k hk => hreview k (List.mem_cons_of_mem _ hk))
      (hadd.coherent hb) (hr.of_eq (by rw [hsubjects]))
    exact ⟨hadd.trans hm, hsame.trans hsame', hsubjects'.trans hsubjects⟩

/-! ### One savepoint -/

/-- Moving on writes no evidence, and only the phase of its subject. -/
lemma advanceApprovedSubject_eq {project task submission : Id}
    (h : advanceApprovedSubject s project task submission = .ok s') :
    s.SameEvidence s' ∧ ∃ phase, (phase = .done ∨ phase = .integration) ∧
      s'.workflowSubjects = (s.setPhase task phase).workflowSubjects := by
  obtain ⟨u, -, ⟨-, rfl⟩ | ⟨-, rfl⟩⟩ := advanceApprovedSubject_ok h
  · exact ⟨⟨rfl, rfl, rfl, rfl, rfl⟩, .done, .inl rfl, rfl⟩
  · exact ⟨⟨rfl, rfl, rfl, rfl, rfl⟩, .integration, .inr rfl, rfl⟩

lemma get?_setPhase_of_ne {task k : Id} {phase : Phase} (hne : k ≠ task) :
    (s.setPhase task phase).workflowSubjects.get? k = s.workflowSubjects.get? k := by
  simp only [Db.setPhase, Table.get?_modify]
  cases hk : s.workflowSubjects.get? k with
  | none => rfl
  | some ws =>
    have htask : ws.task ≠ task := by rwa [show ws.task = k from Table.key_of_get? hk]
    simp [htask]

/-- The reconciled subject stays, or moves on with its reviews approved. -/
structure Db.Reconciled (s : Db) (r : ReviewSubject) (s' : Db) : Prop where
  same : s.SameEvidence s'
  others : ∀ k, k ≠ r.task → s'.workflowSubjects.get? k = s.workflowSubjects.get? k
  subject : s'.workflowSubjects.get? r.task = s.workflowSubjects.get? r.task ∨
    s.ReviewsApproved r.submission

lemma reconcileSubject_reconciled (hb : Coherent s.board) (hr : s.InReview r)
    (h : reconcileSubject s actor r = .ok s') : s.Reconciled r s' := by
  obtain ⟨s₂, changed, hcases, rfl⟩ := reconcileSubject_ok h
  obtain ⟨-, hrecord, hrecorded⟩ := recordReconciled_eq s₂ actor r changed
  obtain ⟨hcancel, hcanceled⟩ := cancelUnrequiredReviews_eq (s := s) r.submission (s.subjectKinds r)
  have hmoves := cancelUnrequiredReviews_moves permits_any (fun _ => trivial) hb r.submission (s.subjectKinds r)
  generalize s.cancelUnrequiredReviews r.submission (s.subjectKinds r) = s₁ at *
  have hb₁ := hmoves.coherent hb
  have hr₁ : s₁.InReview r := hr.of_eq (by rw [hcanceled])
  cases hcases with
  | stays =>
    exact ⟨hcancel.trans hrecord, fun k _ => by rw [hrecorded, hcanceled],
      .inl (by rw [hrecorded, hcanceled])⟩
  | adds =>
    obtain ⟨-, hsame, hsubjects⟩ := addMissingReviews_moves permits_any (s.subjectKinds r)
      (requiredReviewKinds_review _) hb₁ hr₁
    exact ⟨(hcancel.trans hsame).trans hrecord, fun k _ => by rw [hrecorded, hsubjects, hcanceled],
      .inl (by rw [hrecorded, hsubjects, hcanceled])⟩
  | advances happroved _ _ hadvance =>
    obtain ⟨hsame, phase, -, hsubjects⟩ := advanceApprovedSubject_eq hadvance
    obtain ⟨ws, hws, -, hcurrent, hphase⟩ := hr₁
    refine ⟨(hcancel.trans hsame).trans hrecord, fun k hk => ?_, .inr ?_⟩
    · rw [hrecorded, hsubjects, get?_setPhase_of_ne hk, hcanceled]
    · rw [← hcurrent] at happroved ⊢
      exact ((approvalsSatisfied_review hb₁ hws hphase).1 happroved).of_same hcancel.symm

/-- Reconciling one subject is a run of moves. Its subject moves on only once its reviews are
approved and none of them is active. -/
lemma reconcileSubject_moves (hok : Permits ok) (hdismiss : ∀ b, ok b .dismiss)
    (hb : Coherent s.board) (hr : s.InReview r)
    (hadvance : s.ReviewsApproved r.submission → ∀ b ws, Coherent b →
      b.subjects r.task = some ws → ws.phase = .review →
      (∀ x w, b.activities x = some w → w.submission = ws.current → w.kind ≠ .integration →
        w.state ≠ .active) → ok b (.advance r.task))
    (h : reconcileSubject s actor r = .ok s') : Moves ok s.board s'.board := by
  obtain ⟨s₂, changed, hcases, rfl⟩ := reconcileSubject_ok h
  rw [(recordReconciled_eq s₂ actor r changed).1]
  obtain ⟨hcancel, hcanceled⟩ := cancelUnrequiredReviews_eq (s := s) r.submission (s.subjectKinds r)
  have hmoves := cancelUnrequiredReviews_moves hok hdismiss hb r.submission (s.subjectKinds r)
  generalize s.cancelUnrequiredReviews r.submission (s.subjectKinds r) = s₁ at *
  have hb₁ := hmoves.coherent hb
  have hr₁ : s₁.InReview r := hr.of_eq (by rw [hcanceled])
  cases hcases with
  | stays => exact hmoves
  | adds =>
    exact hmoves.trans (addMissingReviews_moves hok _ (requiredReviewKinds_review _) hb₁ hr₁).1
  | advances happroved _ hquiet hnext =>
    obtain ⟨ws, hws, -, hcurrent, hphase⟩ := hr₁
    have happroved' : s.ReviewsApproved r.submission := by
      rw [← hcurrent] at happroved ⊢
      exact ((approvalsSatisfied_review hb₁ hws hphase).1 happroved).of_same hcancel.symm
    refine hmoves.trans (advanceApprovedSubject_moves hok hb₁ hws hcurrent
      (by rw [hphase]; simp) ?_ hnext)
    refine hadvance happroved' _ _ hb₁ (board_subject hws) hphase fun x w hw hsub hkind hstate => ?_
    obtain ⟨wa, hwa, rfl⟩ := Table.project_eq_some.1 hw
    exact hquiet ⟨wa, Table.mem_of_get? hwa, hsub.trans hcurrent, hkind, hstate⟩

lemma reconcileSubject_settles (h : reconcileSubject s actor r = .ok s') : s.Settles s' := by
  obtain ⟨s₂, changed, hcases, rfl⟩ := reconcileSubject_ok h
  have hcancel : s.Settles (s.cancelUnrequiredReviews r.submission (s.subjectKinds r)) :=
    (Db.Settles.cancelTasksOf (.refl s)).trans (.of_eq rfl rfl rfl)
  have hrecord : s₂.Settles (s₂.recordReconciled actor r changed) := by
    unfold Db.recordReconciled
    split
    · exact .finish (.refl _)
    · exact .refl _
  refine (hcancel.trans ?_).trans hrecord
  generalize s.cancelUnrequiredReviews r.submission (s.subjectKinds r) = s₁ at *
  cases hcases with
  | stays => exact .refl _
  | advances _ _ _ hadvance => exact advanceApprovedSubject_settles hadvance
  | adds =>
    have hadd : ∀ (required : List ActivityKind) (x : Db), x.Settles (x.addMissingReviews r required) := by
      intro required
      induction required with
      | nil => exact fun x => .refl x
      | cons kind required ih =>
        intro x
        refine Db.Settles.trans ?_ (ih (x.addMissingReview r kind))
        unfold Db.addMissingReview
        split
        · exact .refl _
        · exact .createActivity (.refl _)
    exact hadd _ _

end Subject

/-! ### Every subject -/

section Loop

variable {s s' : Db} {actor : Actor} {project : Id} {ok : Board → Label → Prop}

lemma Db.ReviewsApproved.of_same_iff {submission : Id} (h : s.SameEvidence s') :
    s'.ReviewsApproved submission ↔ s.ReviewsApproved submission :=
  ⟨fun ha => ha.of_same h.symm, fun ha => ha.of_same h⟩

/-- What the reconciliation of some subjects leaves alone. -/
structure Db.AllReconciled (s : Db) (rs : List ReviewSubject) (s' : Db) : Prop where
  same : s.SameEvidence s'
  subjects : ∀ k, s'.workflowSubjects.get? k = s.workflowSubjects.get? k ∨
    ∃ r ∈ rs, r.task = k ∧ s.ReviewsApproved r.submission

lemma reconcileAll_moves (actor : Actor) (hok : Permits ok) (hdismiss : ∀ b, ok b .dismiss)
    (rs : List ReviewSubject) :
    ∀ {s : Db}, rs.Pairwise (fun r r' => r.task ≠ r'.task) → Coherent s.board →
      (∀ r ∈ rs, s.InReview r) →
      (∀ r ∈ rs, s.ReviewsApproved r.submission → ∀ b ws, Coherent b →
        b.subjects r.task = some ws → ws.phase = .review →
        (∀ x w, b.activities x = some w → w.submission = ws.current → w.kind ≠ .integration →
          w.state ≠ .active) → ok b (.advance r.task)) →
      Moves ok s.board (rs.foldl (fun s r => s.reconcileInSavepoint actor r) s).board ∧
        s.AllReconciled rs (rs.foldl (fun s r => s.reconcileInSavepoint actor r) s) := by
  induction rs with
  | nil => exact fun _ _ _ _ => ⟨.refl _, .refl _, fun _ => .inl rfl⟩
  | cons r rs ih =>
    intro s hdistinct hb hin hadvance
    obtain ⟨hne, hdistinct'⟩ := List.pairwise_cons.1 hdistinct
    have hr := hin r List.mem_cons_self
    have hone : Moves ok s.board (s.reconcileInSavepoint actor r).board ∧
        s.Reconciled r (s.reconcileInSavepoint actor r) := by
      unfold Db.reconcileInSavepoint
      cases hres : reconcileSubject s actor r with
      | ok s₁ => exact ⟨reconcileSubject_moves hok hdismiss hb hr (hadvance r List.mem_cons_self) hres,
          reconcileSubject_reconciled hb hr hres⟩
      | error e => exact ⟨.refl _, .refl s, fun _ _ => rfl, .inl rfl⟩
    obtain ⟨hmoves, hone⟩ := hone
    rw [List.foldl_cons]
    generalize s.reconcileInSavepoint actor r = s₁ at *
    obtain ⟨hmoves', hall⟩ := ih hdistinct' (hmoves.coherent hb)
      (fun r' hr' => (hin r' (List.mem_cons_of_mem _ hr')).of_eq (hone.others _ (hne r' hr').symm))
      fun r' hr' happroved => hadvance r' (List.mem_cons_of_mem _ hr')
        (happroved.of_same hone.same.symm)
    refine ⟨hmoves.trans hmoves', hone.same.trans hall.same, fun k => ?_⟩
    rcases hall.subjects k with hsame | ⟨r', hr', hk, happroved⟩
    · by_cases hk : k = r.task
      · subst hk
        exact hone.subject.imp (fun h => hsame.trans h)
          fun h => ⟨r, List.mem_cons_self, rfl, h⟩
      · exact .inl (hsame.trans (hone.others k hk))
    · exact .inr ⟨r', List.mem_cons_of_mem _ hr', hk, happroved.of_same hone.same.symm⟩

/-- One row of the query reads one subject in review. -/
lemma mem_reviewSubjects {r : ReviewSubject} (h : r ∈ s.reviewSubjects project) :
    ∃ ws t p u, ws ∈ s.workflowSubjects ∧ ws.phase = .review ∧ ws.project = project ∧
      s.tasks.get? ws.task = some t ∧ s.projects.get? ws.project = some p ∧
      s.submissions.get? ws.currentSubmission = some u ∧
      r = ⟨ws.project, ws.task, ws.currentSubmission, t.title, p.reviewMode,
        u.acAmendment.isSome⟩ := by
  obtain ⟨ws, hws, hr⟩ := List.mem_filterMap.1 h
  obtain ⟨hmem, hphase, hproject⟩ := Table.mem_filter.1 hws
  simp only [Option.bind_eq_bind, Option.bind_eq_some_iff, Option.pure_def,
    Option.some.injEq] at hr
  obtain ⟨t, ht, p, hp, u, hu, rfl⟩ := hr
  exact ⟨ws, t, p, u, hmem, hphase, hproject, ht, hp, hu, rfl⟩

lemma inReview_of_mem {r : ReviewSubject} (h : r ∈ s.reviewSubjects project) : s.InReview r := by
  obtain ⟨ws, t, p, u, hmem, hphase, -, -, -, -, rfl⟩ := mem_reviewSubjects h
  exact ⟨ws, Table.get?_of_mem hmem, rfl, rfl, hphase⟩

/-- The rows of the query are about different subjects. -/
lemma reviewSubjects_distinct (s : Db) (project : Id) :
    (s.reviewSubjects project).Pairwise (fun r r' => r.task ≠ r'.task) := by
  unfold Db.reviewSubjects
  rw [List.pairwise_filterMap]
  have hkeys : s.workflowSubjects.rows.Pairwise (fun ws ws' => ws.task ≠ ws'.task) := by
    rw [← List.pairwise_map (f := fun ws : WorkflowSubject => ws.task)]
    exact s.workflowSubjects.nodup
  refine (hkeys.filter _).imp fun hne r hr r' hr' => ?_
  simp only [Option.bind_eq_bind, Option.bind_eq_some_iff, Option.pure_def,
    Option.some.injEq] at hr hr'
  obtain ⟨t, ht, p, hp, u, hu, rfl⟩ := hr
  obtain ⟨t', ht', p', hp', u', hu', rfl⟩ := hr'
  exact hne

/-! ### The update -/

/-- What `update_policy` does. -/
lemma updatePolicy_ok {input : PolicyInput} (h : updatePolicy s actor project input = .ok s') :
    ∃ current s₁, s.projects.get? project = some current ∧ ¬ s.policyHeld project ∧
      writePolicy s actor project current input = .ok s₁ ∧
      s' = (s₁.reconcileRequiredReviews actor project).finish actor "policy.updated" project := by
  simp only [updatePolicy, bind_eq_ok, okOr_eq_ok, refuseIf_eq_ok, pure_eq_ok] at h
  obtain ⟨-, -, current, hcurrent, -, -, -, -, -, -, -, hheld, s₁, hwrite, rfl⟩ := h
  exact ⟨current, s₁, hcurrent, hheld, hwrite, rfl⟩

/-- The policy itself is a row of its project and a row of its history. -/
lemma writePolicy_ok {current : Project} {input : PolicyInput} {s₁ : Db}
    (h : writePolicy s actor project current input = .ok s₁) :
    ∃ revisions, s₁ = { s with
      projects := s.projects.modify (fun p => p.id = project) (fun p => p.withPolicy input)
      policyRevisions := revisions } := by
  simp only [writePolicy, bind_eq_ok, okOr_eq_ok, pure_eq_ok] at h
  obtain ⟨revisions, -, rfl⟩ := h
  exact ⟨revisions, rfl⟩

/-- What a policy update leaves alone once the policy is written. -/
lemma updatePolicy_reconciled {input : PolicyInput} (hb : Coherent s.board)
    (h : updatePolicy s actor project input = .ok s') :
    ∃ s₁ revisions, s₁ = { s with
        projects := s.projects.modify (fun p => p.id = project) (fun p => p.withPolicy input)
        policyRevisions := revisions } ∧
      s' = (s₁.reconcileRequiredReviews actor project).finish actor "policy.updated" project ∧
      s₁.AllReconciled (s₁.reviewSubjects project) s' := by
  obtain ⟨current, s₁, -, -, hwrite, rfl⟩ := updatePolicy_ok h
  obtain ⟨revisions, hs₁⟩ := writePolicy_ok hwrite
  have hboard : s₁.board = s.board := by rw [hs₁]; rfl
  have hall := (reconcileAll_moves actor permits_any (fun _ => trivial) (s₁.reviewSubjects project)
    (reviewSubjects_distinct s₁ project) (hboard ▸ hb) (fun r => inReview_of_mem)
    fun _ _ _ _ _ _ _ _ _ => trivial).2
  exact ⟨s₁, revisions, hs₁, rfl, ⟨hall.same.now, hall.same.decisions, hall.same.projects,
    hall.same.ext, hall.same.submissions⟩, hall.subjects⟩

/-- A policy update is a run of moves. A subject in review moves on only once its reviews are
approved under the new policy, and none of them is active. -/
theorem updatePolicy_moves {input : PolicyInput} (hok : Permits ok) (hb : Coherent s.board)
    (hdismiss : ∀ b, ok b .dismiss)
    (hadvance : ∀ ws, ws ∈ s.workflowSubjects → ws.phase = .review →
      s'.ReviewsApproved ws.currentSubmission → ∀ b w, Coherent b → b.subjects ws.task = some w →
      w.phase = .review → (∀ x v, b.activities x = some v → v.submission = w.current →
        v.kind ≠ .integration → v.state ≠ .active) → ok b (.advance ws.task))
    (h : updatePolicy s actor project input = .ok s') : Moves ok s.board s'.board := by
  obtain ⟨s₁, revisions, hs₁, hs', hall⟩ := updatePolicy_reconciled hb h
  have hboard : s₁.board = s.board := by rw [hs₁]; rfl
  have hsubjects : s₁.workflowSubjects = s.workflowSubjects := by rw [hs₁]
  have hrun : Moves ok s₁.board (s₁.reconcileRequiredReviews actor project).board := by
    refine (reconcileAll_moves actor hok hdismiss (s₁.reviewSubjects project)
      (reviewSubjects_distinct s₁ project) (hboard ▸ hb) (fun r => inReview_of_mem)
      fun r hr happroved => ?_).1
    obtain ⟨ws, t, p, u, hmem, hphase, -, -, -, -, rfl⟩ := mem_reviewSubjects hr
    exact hadvance ws (hsubjects ▸ hmem) hphase (happroved.of_same hall.same)
  rw [hs', board_finish, ← hboard]
  exact hrun

theorem updatePolicy_settles {input : PolicyInput}
    (h : updatePolicy s actor project input = .ok s') : s.Settles s' := by
  obtain ⟨current, s₁, -, -, hwrite, rfl⟩ := updatePolicy_ok h
  obtain ⟨revisions, hs₁⟩ := writePolicy_ok hwrite
  have hloop : ∀ (rs : List ReviewSubject) (x : Db),
      x.Settles (rs.foldl (fun s r => s.reconcileInSavepoint actor r) x) := by
    intro rs
    induction rs with
    | nil => exact fun x => .refl x
    | cons r rs ih =>
      intro x
      refine Db.Settles.trans ?_ (ih (x.reconcileInSavepoint actor r))
      unfold Db.reconcileInSavepoint
      cases hres : reconcileSubject x actor r with
      | ok s₂ => exact reconcileSubject_settles hres
      | error e => exact .refl x
  have hwritten : s.Settles s₁ := by
    rw [hs₁]
    exact .of_eq rfl rfl rfl
  exact .finish (hwritten.trans (hloop _ _))

end Loop

end AgentCoordinator
