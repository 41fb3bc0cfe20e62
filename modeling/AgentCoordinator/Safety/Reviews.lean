import AgentCoordinator.Board.Reviews
import AgentCoordinator.Refinement.Approvals
import AgentCoordinator.Refinement.Setting
import AgentCoordinator.Scenario

/-
Reviews are never bypassed.

A subject leaves review for its integration, or for its end, in two ways only: a decision that
approves, and a policy update. At that step its approvals match the reviews that the project's mode
requires then. While it is in its integration its approvals match the reviews that completed, as
long as no decision is invalidated.
-/

namespace AgentCoordinator

open Guarded Tabular Transition Board Scenario

/-! ### Evidence -/

section Evidence

variable {s s' : Db}

/-- An accepted amendment writes no decision, and pins of the submission only. -/
lemma applyAccepted_evidence {project task submission : Id} {amendment : Option (List String)}
    (h : applyAccepted s project task submission amendment = .ok s') :
    s'.reviewDecisions = s.reviewDecisions ∧ ∀ id u, s.submissions.get? id = some u →
      ∃ u', s'.submissions.get? id = some u' ∧ u'.project = u.project ∧ u'.task = u.task := by
  cases amendment with
  | none =>
    obtain rfl := pure_eq_ok.1 h
    exact ⟨rfl, fun _ u hu => ⟨u, hu, rfl, rfl⟩⟩
  | some criteria =>
    simp only [applyAccepted, applyAmendment, bind_eq_ok, okOr_eq_ok, ite_eq_ok, pure_eq_ok] at h
    obtain ⟨t, -, s₁, hamend, t', -, rfl⟩ := h
    have hs₁ : s₁.reviewDecisions = s.reviewDecisions ∧ s₁.submissions = s.submissions := by
      obtain ⟨-, hsave⟩ | ⟨-, rfl⟩ := hamend
      · obtain ⟨revisions, rfl⟩ := saveTaskRevision_ok hsave
        exact ⟨rfl, rfl⟩
      · exact ⟨rfl, rfl⟩
    refine ⟨hs₁.1, fun id u hu => ?_⟩
    rw [← hs₁.2] at hu
    simp only [Table.get?_modify, hu, Option.map_some]
    exact ⟨_, rfl, by split <;> rfl, by split <;> rfl⟩

end Evidence

/-! ### Leaving review -/

section Leaving

variable {s s' : Db} {actor : Actor} {i : Action} {k : Id} {ws ws' : WorkflowSubject}

/-- A submission of a task meets no subject in review. -/
lemma notSubmitted (hws : s.workflowSubjects.get? k = some ws) (hphase : ws.phase = .review)
    {k' : Id} (hout : ∀ w, s.board.subjects k' = some w → w.phase = .revisionNeeded) :
    Label.submit k' ≠ .submit k := by
  intro heq
  obtain rfl : k' = k := by simpa using heq
  have hrevision := hout ws.row (board_subject hws)
  rw [show ws.row.phase = .review from hphase] at hrevision
  exact absurd hrevision (by simp)

end Leaving

/-! ### Reachable states -/

section Reachable

variable {s : Db} {k : Id} {ws : WorkflowSubject}

/-- Every subject's project exists. -/
def Db.Housed (s : Db) : Prop :=
  ∀ k ws, s.workflowSubjects.get? k = some ws → ∃ p, s.projects.get? ws.project = some p

/-- A step gives a subject the project of a task that it submits, which exists. -/
lemma Step.housed {i : Action} {s' : Db} (hb : Coherent s.board) (hhoused : s.Housed)
    (h : Step s i s') : s'.Housed := by
  have hok : Permits fun _ l => ∀ k, l = .submit k →
      ∃ t p, s.tasks.get? k = some t ∧ s.projects.get? t.project = some p :=
    ⟨fun _ => by simp, fun _ _ _ h => h⟩
  have hmoves := h.moves hok hb fun _ => by
    cases i with
    | request auth req =>
      intro actor _
      cases req with
      | submit =>
        intro b k t p ht hp _ k' heq
        obtain rfl : k = k' := by simpa using heq
        exact ⟨t, p, ht, hp⟩
      | _ => simp [Request.Permitted]
    | _ => trivial
  have hall := hmoves.invariant
    (I := fun x => (∀ k t, s.board.tasks k = some t →
        ∃ t', x.tasks k = some t' ∧ t'.project = t.project) ∧
      ∀ k w, x.subjects k = some w → ∃ p, s.projects.get? w.project = some p)
    (fun x l x' hx hl hm => ?_) ⟨fun k t ht => ⟨t, ht, rfl⟩, fun k w hw => ?_⟩
  · intro k ws hws
    obtain ⟨p, hp⟩ := hall.2 k ws.row (board_subject hws)
    exact h.project hb hp
  · obtain ⟨htasks, hsubjects⟩ := hx
    refine ⟨fun k t ht => ?_, fun k w hw => ?_⟩
    · obtain ⟨t₁, ht₁, hproject⟩ := htasks k t ht
      obtain ⟨t₂, ht₂, hproject'⟩ := hm.task ht₁
      exact ⟨t₂, ht₂, hproject'.trans hproject⟩
    · obtain ⟨w₀, hw₀, hproject⟩ | ⟨rfl, t₁, ht₁, hproject⟩ := hm.subject_project hw
      · rw [hproject]
        exact hsubjects k w₀ hw₀
      · obtain ⟨t, p, ht, hp⟩ := hl k rfl
        obtain ⟨t₂, ht₂, hsame⟩ := htasks k t.row (board_task ht)
        obtain rfl := Option.some.inj (ht₁.symm.trans ht₂)
        rw [hproject, hsame]
        exact ⟨p, hp⟩
  · obtain ⟨ws, hws, rfl⟩ := Table.project_eq_some.1 hw
    exact hhoused k ws hws

lemma Reachable.housed {ok : Db → Action → Prop} (h : Reachable ok s) : s.Housed := by
  have hboth : Coherent s.board ∧ s.Housed :=
    h.invariant (I := fun s => Coherent s.board ∧ s.Housed)
      (fun _ h₀ => ⟨h₀.coherent, fun k ws hws => by simp [h₀.workflowSubjects] at hws⟩)
      fun _ _ _ hI _ hstep => ⟨hstep.coherent hI.1, hstep.housed hI.1 hI.2⟩
  exact hboth.2

end Reachable

/-! ### Replays -/

end AgentCoordinator
