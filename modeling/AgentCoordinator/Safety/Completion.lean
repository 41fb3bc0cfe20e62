import AgentCoordinator.Refinement.Service
import AgentCoordinator.Scenario

/-
Completed work stays completed.

A completed subject keeps its phase and its submission, and gets no activity and no held hold,
in every run without a reconciliation of completed work and without a late decision that sends
completed work back or on to an integration. Such late decisions exist: a review that was active
when the subject was done may still be decided.
-/

namespace AgentCoordinator

open Tabular Transition Board Scenario

/-- What a run leaves alone of a completed subject. -/
structure Db.KeepsCompleted (s s' : Db) (k : Id) (ws : WorkflowSubject) : Prop where
  phase : ∃ ws', s'.workflowSubjects.get? k = some ws' ∧ ws'.phase = .done ∧
    ws'.currentSubmission = ws.currentSubmission
  submission : ∀ u, s.submissions.get? ws.currentSubmission = some u →
    ∃ u', s'.submissions.get? ws.currentSubmission = some u' ∧
      u'.supersededAt.isSome = u.supersededAt.isSome
  activities : ∀ a wa', s'.workflowActivities.get? a = some wa' → wa'.subjectTask = k →
    ∃ wa, s.workflowActivities.get? a = some wa
  holds : ∀ h r' wa', s'.integrationHolds.get? h = some r' → r'.state = .held →
    s'.workflowActivities.get? r'.activity = some wa' → wa'.subjectTask = k →
      ∃ r, s.integrationHolds.get? h = some r ∧ r.state = .held ∧ r.activity = r'.activity

/-- The decision sends its submission back. -/
def ReviewInput.sendsBack (input : ReviewInput) : Prop :=
  input.decision = .changesRequested ∨ input.amendmentDecision = some .rejected

instance (input : ReviewInput) : Decidable input.sendsBack :=
  inferInstanceAs (Decidable (_ ∨ _))

/-- No human reconciles a publication of completed work, and a late decision about completed work
approves general work. -/
def sparesCompleted (s : Db) : Action → Prop
  | .request _ (.reconcilePublication _ id _) =>
    ∀ wa ∈ s.workflowActivities.get? id, ∀ ws ∈ s.workflowSubjects.get? wa.subjectTask,
      ws.phase ≠ .done
  | .request _ (.review _ id input) =>
    ∀ wa ∈ s.workflowActivities.get? id, ∀ ws ∈ s.workflowSubjects.get? wa.subjectTask,
      ws.phase = .done → ¬ input.sendsBack ∧
        ∀ u ∈ s.submissions.get? ws.currentSubmission, u.kind = .general
  | _ => True

instance (s : Db) (i : Action) : Decidable (sparesCompleted s i) := by
  rcases i with ⟨auth, req⟩ | _ | _ | _ | _
  · rcases req <;> (dsimp only [sparesCompleted]; infer_instance)
  all_goals exact instDecidableTrue

lemma permits_leavesDone : Permits LeavesDone :=
  ⟨fun _ => trivial, fun _ l _ h => by cases l <;> exact h⟩

section Run

variable {s s' : Db} {i : Action}

/-- Steps that spare completed work make only moves that leave it done. -/
lemma sparesCompleted.permitted (h : sparesCompleted s i) : i.Permitted LeavesDone s s' := by
  cases i with
  | request auth req =>
    intro actor hbegin
    cases req with
    | review project id input =>
      refine ⟨fun hsends w ws hw hws hdone => ?_,
        fun ctx amendment s₁ hdecides _ ws u hws hu hdone => ?_, trivial⟩
      · obtain ⟨wa, hwa, rfl⟩ := Table.project_eq_some.1 hw
        obtain ⟨ws, hget, rfl⟩ := Table.project_eq_some.1 hws
        exact (h wa hwa ws hget hdone).1 hsends
      · obtain ⟨-, hboard⟩ := hdecides.board_eq
        rw [hboard] at hws hu
        obtain ⟨ws, hget, rfl⟩ := Table.project_eq_some.1 hws
        obtain ⟨u, hu', rfl⟩ := Table.project_eq_some.1 hu
        exact (h ctx.activity hdecides.activity ws hget hdone).2 u hu'
    | reconcilePublication project id input =>
      intro w ws hw hws
      obtain ⟨wa, hwa, rfl⟩ := Table.project_eq_some.1 hw
      obtain ⟨ws, hget, rfl⟩ := Table.project_eq_some.1 hws
      exact h wa hwa ws hget
    | updatePolicy project input =>
      refine ⟨fun _ => trivial, fun ws _ _ _ b w _ hw hphase _ w' u hw' _ hdone => ?_⟩
      rw [hw] at hw'
      obtain rfl := Option.some.inj hw'
      rw [hphase] at hdone
      exact absurd hdone (by simp)
    | _ => simp [Request.Permitted, LeavesDone]
  | _ => trivial

lemma Initial.finished (h : Initial s) : Finished s.board := by
  intro a wa ws hwa
  rw [h.board_eq] at hwa
  exact absurd hwa (by simp)

/-- Completed subjects have no open integration, as long as completed work is spared. -/
lemma Reachable.finished (h : Reachable sparesCompleted s) : Finished s.board :=
  h.board_invariant permits_leavesDone (fun _ _ _ _ _ hok _ => sparesCompleted.permitted hok)
    (fun _ => Initial.finished) fun _ _ _ hb hf hok hm => hf.move hb hok.reconcilesUnfinished hm

/-- A run of moves that spares completed work leaves every completed subject alone. -/
lemma Moves.undisturbed {b b' : Board} {k : Id} {ws : Subject} (h : Moves LeavesDone b b')
    (hb : Coherent b) (hf : Finished b) (hws : b.subjects k = some ws) (hdone : ws.phase = .done) :
    Undisturbed b b' k ws := by
  have hall : Coherent b' ∧ Finished b' ∧ Undisturbed b b' k ws := by
    refine Run.invariant (I := fun x => Coherent x ∧ Finished x ∧ Undisturbed b x k ws)
      (fun x l x' hx hok hm => ?_) h ⟨hb, hf, .refl hws⟩
    obtain ⟨hbx, hfx, hux⟩ := hx
    exact ⟨hbx.move hm, hfx.move hbx hok.reconcilesUnfinished hm,
      hux.trans (hm.undisturbed hbx hfx hok hux.subject hdone)⟩
  exact hall.2.2

/-- What the board says of a completed subject, the tables say. -/
lemma keepsCompleted_of_undisturbed {k : Id} {ws : WorkflowSubject}
    (h : Undisturbed s.board s'.board k ws.row) (hdone : ws.phase = .done) :
    s.KeepsCompleted s' k ws where
  phase := by
    obtain ⟨ws', hws', hrow⟩ := Table.project_eq_some.1 h.subject
    exact ⟨ws', hws', (congrArg Subject.phase hrow).trans hdone, congrArg Subject.current hrow⟩
  submission u hu := by
    obtain ⟨u', hu', hrow⟩ := Table.project_eq_some.1 (h.submission _ (board_submission hu))
    exact ⟨u', hu', congrArg Candidate.superseded hrow⟩
  activities a wa' hwa' hk := by
    obtain ⟨w, hw, -⟩ := h.activities a _ (board_activity hwa') hk
    obtain ⟨wa, hwa, -⟩ := Table.project_eq_some.1 hw
    exact ⟨wa, hwa⟩
  holds x r' wa' hr' hheld hwa' hk := by
    obtain ⟨r, hr, hrow⟩ := Table.project_eq_some.1 (h.holds x _ _ (Table.project_of_get? hr')
      (by simpa [IntegrationHold.row] using hheld) (board_activity hwa') hk)
    refine ⟨r, hr, ?_, congrArg Hold.activity hrow⟩
    have hheld' := congrArg Hold.held hrow
    simpa [IntegrationHold.row, hheld] using hheld'

/-- Completion is terminal in runs that spare completed work. -/
theorem completion_terminal {k : Id} {ws : WorkflowSubject} (hs : Reachable sparesCompleted s)
    (hrun : Run AgentCoordinator.Step sparesCompleted s s')
    (hws : s.workflowSubjects.get? k = some ws)
    (hdone : ws.phase = .done) : s.KeepsCompleted s' k ws := by
  refine keepsCompleted_of_undisturbed ?_ hdone
  obtain ⟨s₀, h₀, hrun₀⟩ := hs
  have hall : Reachable sparesCompleted s' ∧ Undisturbed s.board s'.board k ws.row := by
    refine Run.invariant (I := fun x => Reachable sparesCompleted x ∧
      Undisturbed s.board x.board k ws.row) (fun x i x' hx hok hstep => ?_) hrun
      ⟨⟨s₀, h₀, hrun₀⟩, .refl (board_subject hws)⟩
    obtain ⟨hreach, hu⟩ := hx
    have hmoves := hstep.moves permits_leavesDone hreach.coherent fun _ =>
      sparesCompleted.permitted hok
    exact ⟨hreach.step hok hstep,
      hu.trans (hmoves.undisturbed hreach.coherent hreach.finished hu.subject hdone)⟩
  exact hall.2

end Run

/-! ### Replays -/

/-- An agent's work on the general task is approved by another agent. -/
def approvedWork : List Happening :=
  [claims 2 2, submitsGeneral 2 1 none, takes (agent 3) 1 1 0, decides (agent 3) 1 .approved]

/-- While an agent and the operator both review, the agent's approval becomes enough. -/
def lateReview : List Happening :=
  [claims 2 2, submitsGeneral 2 1 none, takes (agent 3) 1 1 0, takes operator 2 1 0,
    changesMode 1 .agent, decides (agent 3) 1 .approved]

set_option maxRecDepth 20000 in
theorem completion_terminal_replayed : ∃ s s' ws,
    replay sparesCompleted (service .agent) approvedWork = some s ∧
      replay sparesCompleted s [changesMode 1 .human] = some s' ∧
      s.workflowSubjects.get? 2 = some ws ∧ ws.phase = .done ∧ s.KeepsCompleted s' 2 ws := by
  obtain ⟨s, hs, hp⟩ := exists_of_any (o := replay sparesCompleted (service .agent) approvedWork)
    (p := fun s => (replay sparesCompleted s [changesMode 1 .human]).isSome &&
      (s.workflowSubjects.get? 2).any (fun ws => ws.phase = .done)) (by decide +kernel)
  rw [Bool.and_eq_true, Option.isSome_iff_exists, Option.any_eq_true] at hp
  obtain ⟨⟨s', hs'⟩, ws, hws, hdone⟩ := hp
  have hdone : ws.phase = .done := of_decide_eq_true hdone
  exact ⟨s, s', ws, hs, hs', hws, hdone, completion_terminal
    (replay_reachable (service_initial _) hs) (replay_run hs') hws hdone⟩

set_option maxRecDepth 20000 in
/-- A review that was active when its subject was done still sends the subject back. -/
theorem completion_not_terminal : ¬ ∀ (s s' : Db) (k : Id) (ws : WorkflowSubject),
    Reachable anyStep s → Run AgentCoordinator.Step anyStep s s' →
      s.workflowSubjects.get? k = some ws → ws.phase = .done → s.KeepsCompleted s' k ws := by
  intro h
  obtain ⟨s, hs, hp⟩ := exists_of_any (o := replay anyStep (service .both) lateReview)
    (p := fun s => (s.workflowSubjects.get? 2).any (fun ws => ws.phase = .done) &&
      (replay anyStep s [decides operator 2 .changesRequested]).any (fun s' =>
        (s'.workflowSubjects.get? 2).any (fun ws => ws.phase = .revisionNeeded)))
    (by decide +kernel)
  rw [Bool.and_eq_true, Option.any_eq_true, Option.any_eq_true] at hp
  obtain ⟨⟨ws, hws, hdone⟩, s', hs', hrevision⟩ := hp
  obtain ⟨ws₁, hws₁, hphase, -⟩ := (h s s' 2 ws (replay_reachable (service_initial _) hs)
    (replay_run hs') hws (of_decide_eq_true hdone)).phase
  rw [hws₁, Option.any_some, hphase] at hrevision
  exact absurd hrevision (by decide)

end AgentCoordinator
