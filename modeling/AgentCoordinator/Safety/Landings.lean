import AgentCoordinator.Integrator.Results
import AgentCoordinator.Refinement.Service
import AgentCoordinator.Scenario

/-
Sending back a candidate that re-lands reverted commits.

A no-op is refused for what its candidate and the landing range of the request share with a
reverted landing. The revise that sends the candidate back looks at the candidate and at the ranges
of results recorded before. So it is a way out, except for the first no-op whose range alone has
reverted commits (`refused_noop_revisable_iff`).
-/

namespace AgentCoordinator

open Guarded Tabular Board Transition

/-! ### Reverted commits -/

section Hits

variable {s : Db} {project : Id}

/-- A commit landed on the submission's target, and a standing revert undoes that landing. -/
def Db.Reverted (s : Db) (project : Id) (u : Submission) (commit : String) : Prop :=
  ∃ r ∈ s.revertedResults project (u.repositoryUrl.getD "") (u.targetBranch.getD ""),
    commit ∈ r.landingRange

lemma eraseDups_eq_nil {α : Type} [BEq α] [LawfulBEq α] {l : List α} :
    l.eraseDups = [] ↔ l = [] := by
  cases l with
  | nil => simp
  | cons a l => simp [List.eraseDups_cons]

/-- A no-op is hit when one of its commits is reverted. -/
lemma revertedHits_ne_nil {u : Submission} {commits : List String} :
    s.revertedHits project ⟨u.repositoryUrl.getD "", u.targetBranch.getD "", commits⟩ ≠ [] ↔
      ∃ commit ∈ commits, s.Reverted project u commit := by
  rw [Db.revertedHits, ne_eq, eraseDups_eq_nil, List.flatMap_eq_nil_iff]
  constructor
  · intro h
    by_contra hnone
    refine h fun r hr => List.map_eq_nil_iff.2 (List.filter_eq_nil_iff.2 fun commit hcommit hin => ?_)
    exact hnone ⟨commit, of_decide_eq_true hin, r, hr, hcommit⟩
  · rintro ⟨commit, hin, r, hr, hcommit⟩ h
    have hempty := List.filter_eq_nil_iff.1 (List.map_eq_nil_iff.1 (h r hr)) commit hcommit
    exact hempty (decide_eq_true hin)

end Hits

/-! ### Filed submissions -/

section Filed

variable {s : Db}

lemma filed_of_coherent (hb : Coherent s.board) : s.Filed := by
  intro ws hws
  have hget := Table.get?_of_mem hws
  have hrow : s.board.subjects ws.task = some ws.row := by
    simp only [Db.board]
    exact Table.project_eq_some.2 ⟨ws, hget, rfl⟩
  obtain ⟨u, hu, htask⟩ := hb.subjectSubmission _ _ hrow
  have hproject := hb.subjectProject _ _ _ hrow hu
  obtain ⟨u', hu', rfl⟩ := Table.project_eq_some.1 hu
  exact (Option.any_eq_true _ _).2 ⟨u', hu', decide_eq_true ⟨htask, hproject⟩⟩

/-- In every reachable state of the coordination service, submissions are filed. -/
lemma Reachable.filed {ok : Db → Action → Prop} (h : Reachable ok s) : s.Filed :=
  filed_of_coherent h.coherent

variable {project submission : Id} {row : IntegrableSubject}

/-- An integrable submission, as the revise reads it. -/
lemma submission_of_eligible (hfiled : s.Filed)
    (h : eligibleSubject s project submission = .ok row) :
    s.submissions.get? submission = some row.submission ∧ row.submission.project = project := by
  simp only [eligibleSubject, bind_eq_ok, okOr_eq_ok, refuseIf_eq_ok, pure_eq_ok] at h
  obtain ⟨_, hrow, _, -, -, -, rfl⟩ := h
  simp only [Db.integrableSubject?, Option.bind_eq_bind, Option.bind_eq_some_iff,
    Option.filter_eq_some_iff, Option.pure_def, Option.some.injEq] at hrow
  obtain ⟨ws, hws, u, ⟨hu, -⟩, t, -, rfl⟩ := hrow
  have hfound := List.find?_some hws
  simp only [Bool.decide_and, Bool.and_eq_true, decide_eq_true_eq] at hfound
  obtain ⟨hproject, hcurrent, -⟩ := hfound
  obtain ⟨u', hu', -, hu'project⟩ := hfiled.submission (List.mem_of_find?_eq_some hws)
  rw [hcurrent, hu] at hu'
  obtain rfl := Option.some.inj hu'
  exact ⟨hu, hu'project.trans hproject⟩

end Filed

/-! ### The two tests -/

section Pinning

variable {s : Db} {actor : Actor} {project submission : Id} {input : ResultInput}
  {row : IntegrableSubject}

/-- The first pin of a no-op for the submission and the tip: the request for which the service looks
for reverted commits. -/
structure FirstNoOp (s : Db) (project : Id) (input : ResultInput) (row : IntegrableSubject) :
    Prop where
  eligible : eligibleSubject s project input.submission = .ok row
  candidate : row.submission.candidateRevision = some input.c
  noOp : input.r = input.t0
  first : s.existingResult input.submission input.t0 = none

lemma eligibleSubject_ne_reverted :
    eligibleSubject s project submission ≠ .error candidateReverted := by
  intro h
  have happroved : ∀ row, eligible s row ≠ .error candidateReverted := by
    intro row h
    unfold eligible at h
    split at h
    · simp [pure_eq_error] at h
    · simp only [approvalsSatisfied, bind_eq_error, okOr_eq_error, pure_eq_error] at h
      rcases h with ⟨-, h⟩ | ⟨_, -, ⟨-, h⟩ | ⟨_, -, h⟩⟩
      · exact absurd h (by decide)
      · exact absurd h (by decide)
      · exact h
  simp only [eligibleSubject, bind_eq_error, okOr_eq_error, refuseIf_eq_error, pure_eq_error] at h
  rcases h with ⟨-, h⟩ | ⟨row, -, h | ⟨_, -, ⟨-, h⟩ | ⟨_, -, h⟩⟩⟩
  · exact absurd h (by decide)
  · exact happroved row h
  · exact absurd h (by decide)
  · exact h

/-- Pinning is refused for reverted commits exactly when it is the first pin of a no-op, and its
range or its candidate has one. -/
lemma storeResult_reverted_iff :
    storeResult s actor project input = .error candidateReverted ↔
      ∃ row, FirstNoOp s project input row ∧
        ∃ commit ∈ input.landingRange ++ [input.c], s.Reverted project row.submission commit := by
  constructor
  · intro h
    simp only [storeResult, bind_eq_error, refuseIf_eq_error] at h
    rcases h with h | ⟨row, hrow, ⟨-, h⟩ | ⟨_, hcandidate, h⟩⟩
    · exact absurd h eligibleSubject_ne_reverted
    · exact absurd h (by decide)
    rw [refuseIf_eq_ok, not_not] at hcandidate
    cases hexisting : s.existingResult input.submission input.t0 with
    | some existing =>
      simp only [hexisting, replayResult, bind_eq_error, refuseIf_eq_error, pure_eq_error] at h
      rcases h with (⟨-, h⟩ | ⟨_, -, h⟩) | ⟨_, -, h⟩
      · exact absurd h (by decide)
      · exact h.elim
      · exact h.elim
    | none =>
      simp only [hexisting, ensureNewCommits, bind_eq_error, pure_eq_error] at h
      rcases h with h | ⟨_, -, h⟩
      · by_cases hnoop : input.r = input.t0
        · rw [if_neg (not_not.2 hnoop), ensureNotRevertedInHistory, refuseIf_eq_error] at h
          exact ⟨row, ⟨hrow, hcandidate, hnoop, hexisting⟩, revertedHits_ne_nil.1 h.1⟩
        · simp [hnoop, pure_eq_error] at h
      · exact h.elim
  · rintro ⟨row, hfirst, hhit⟩
    have hcommits : ensureNewCommits s project row input = .error candidateReverted := by
      rw [ensureNewCommits, if_neg (not_not.2 hfirst.noOp), ensureNotRevertedInHistory,
        refuseIf_eq_error]
      exact ⟨revertedHits_ne_nil.2 hhit, rfl⟩
    simp only [storeResult, bind_eq_error]
    refine .inr ⟨row, hfirst.eligible, .inr ⟨⟨⟩, ?_, ?_⟩⟩
    · rw [refuseIf_eq_ok, not_not]
      exact hfirst.candidate
    · simp only [hfirst.first, bind_eq_error]
      exact .inl hcommits

/-- The revise passes when the candidate or a recorded range has a reverted commit. -/
lemma ensureRevertedInHistory_iff (hfiled : s.Filed)
    (h : eligibleSubject s project submission = .ok row) :
    ensureRevertedInHistory s project submission = .ok () ↔
      ∃ commit ∈ s.recordedCommits row.submission, s.Reverted project row.submission commit := by
  obtain ⟨hget, hproject⟩ := submission_of_eligible hfiled h
  rw [← revertedHits_ne_nil]
  simp [ensureRevertedInHistory, hget, hproject, bind_eq_ok]

/-- Whatever is refused for reverted commits can be sent back for them, exactly when for each first
no-op whose landing range has a reverted commit, so has its candidate or a range recorded
before. -/
theorem refused_noop_revisable_iff (hfiled : s.Filed) :
    (storeResult s actor project input = .error candidateReverted →
      ensureRevertedInHistory s project input.submission = .ok ()) ↔
    ∀ row, FirstNoOp s project input row →
      (∃ commit ∈ input.landingRange, s.Reverted project row.submission commit) →
        ∃ commit ∈ s.recordedCommits row.submission, s.Reverted project row.submission commit := by
  constructor
  · rintro h row hfirst ⟨commit, hin, hreverted⟩
    rw [← ensureRevertedInHistory_iff hfiled hfirst.eligible]
    exact h (storeResult_reverted_iff.2
      ⟨row, hfirst, commit, List.mem_append_left _ hin, hreverted⟩)
  · rintro h hrefused
    obtain ⟨row, hfirst, commit, hin, hreverted⟩ := storeResult_reverted_iff.1 hrefused
    rw [ensureRevertedInHistory_iff hfiled hfirst.eligible]
    rcases List.mem_append.1 hin with hrange | hcandidate
    · exact h row hfirst ⟨commit, hrange, hreverted⟩
    · -- the candidate is looked at by both tests
      refine ⟨commit, List.mem_append_right _ ?_, hreverted⟩
      rw [hfirst.candidate, List.mem_singleton.1 hcandidate]
      exact List.mem_singleton_self _

end Pinning

/-! ### A dead end -/

namespace Scenario

/-- The revert of that result, by the second task. -/
def landedRevert : TaskRevert where
  task := 2
  project := 1
  result := 1
  submission := 1
  originalTask := 1
  r := landed
  reason := .defect
  evidence := ""
  mode := .mechanical
  reviewRequired := true
  notMechanical := none
  createdBy := 3
  createdAt := 0

/-- A landed change that is reverted, and an approved candidate on top of it. -/
def stacked : Db :=
  { service .none with
    tasks := table [{ task 1 .code with lifecycle := .done }, task 2 .code, task 3 .code]
    submissions := table [codeSubmission 1 1 landed, codeSubmission 3 3 onTop]
    workflowSubjects := table [⟨1, 1, 1, .done, 0⟩, ⟨3, 1, 3, .integration, 0⟩]
    ext := { integratorAccounts with reverts := table [landedRevert] } }

/-- The candidate is on the tip already, so its result is the tip. -/
def noOpResult : ResultInput where
  submission := 3
  t0 := merged
  t0Tree := merged
  c := onTop
  r := merged
  rTree := merged
  landingRange := [landed, onTop]
  roster := []

end Scenario

section DeadEnd

open Scenario

/-- A no-op that is refused, and that cannot be sent back. -/
theorem refused_noop_stuck : ¬ ∀ (s : Db) (actor : Actor) (project : Id) (input : ResultInput),
    s.Filed → storeResult s actor project input = .error candidateReverted →
      ensureRevertedInHistory s project input.submission = .ok () := by
  intro h
  have hstuck := h stacked integrator 1 noOpResult (by decide +kernel) rfl
  exact absurd hstuck (by decide +kernel)

/-- What can be sent back, for the candidate on top of the reverted change. -/
theorem refused_noop_revisable_iff_stacked :
    (storeResult stacked integrator 1 noOpResult = .error candidateReverted →
      ensureRevertedInHistory stacked 1 noOpResult.submission = .ok ()) ↔
    ∀ row, FirstNoOp stacked 1 noOpResult row →
      (∃ commit ∈ noOpResult.landingRange, stacked.Reverted 1 row.submission commit) →
        ∃ commit ∈ stacked.recordedCommits row.submission,
          stacked.Reverted 1 row.submission commit :=
  refused_noop_revisable_iff (by decide +kernel)

end DeadEnd

end AgentCoordinator
