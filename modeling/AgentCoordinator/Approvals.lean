import Mathlib.Data.List.Count
import AgentCoordinator.Autonomy
import AgentCoordinator.Board.Basic
import AgentCoordinator.Library.Assignment

/-
Matching approvals against required reviews.

`reviewsSatisfied` is a condition on numbers (`reviewsSatisfied_iff`). From it: more approvals
never hurt, approvals that match the required kinds one by one suffice, approvals that do not
suffice leave some required kind without any approval that fits it, and the greedy count answers the
matching problem it stands for (`reviewsSatisfied_exact`).
-/

namespace AgentCoordinator

open Tabular Board

/-! ### The condition on numbers -/

lemma length_eq_counts (approvers : List PrincipalKind) :
    approvers.length = approvers.count .human + approvers.count .agent := by
  induction approvers with
  | nil => rfl
  | cons k ks ih => cases k <;> simp [ih] <;> omega

/-- `reviewsSatisfied`, by numbers: the human reviews need humans; the agent reviews need agents,
or humans where no human review is required; the rest must do for the either-reviews. -/
lemma reviewsSatisfied_iff (required : List ActivityKind) (approvers : List PrincipalKind) :
    reviewsSatisfied required approvers = true ↔
      required.count .humanReview ≤ approvers.count .human ∧
      (required.count .agentReview ≤ approvers.count .agent ∨
        (required.count .humanReview = 0 ∧
          required.count .agentReview ≤ approvers.count .agent + approvers.count .human)) ∧
      required.count .eitherReview + required.count .humanReview + required.count .agentReview ≤
        approvers.count .human + approvers.count .agent := by
  have hlength : approvers.length - approvers.count .human = approvers.count .agent := by
    have hcounts := length_eq_counts approvers
    omega
  simp only [reviewsSatisfied, hlength]
  generalize approvers.count PrincipalKind.human = humans
  generalize approvers.count PrincipalKind.agent = agents
  split
  · simp only [Bool.false_eq_true, false_iff]
    omega
  · split
    · simp only [Bool.false_eq_true, false_iff]
      omega
    · rw [decide_eq_true_eq]
      omega

/-- One more approval never hurts. -/
lemma reviewsSatisfied_append {required : List ActivityKind} {approvers : List PrincipalKind}
    (h : reviewsSatisfied required approvers = true) (k : PrincipalKind) :
    reviewsSatisfied required (approvers ++ [k]) = true := by
  rw [reviewsSatisfied_iff] at h ⊢
  cases k <;> simp only [List.count_append, List.count_singleton] <;> simp <;> omega

/-- When the reviews of a mode are not satisfied, no approval fits one of its kinds. -/
lemma exists_unfit {mode : ReviewMode} {approvers : List PrincipalKind}
    (h : ¬ reviewsSatisfied (requiredReviewKinds mode) approvers = true) :
    ∃ kind ∈ requiredReviewKinds mode, ∀ k ∈ approvers, ¬ fits kind k := by
  have hnone : ∀ k, approvers.count k = 0 → ∀ k' ∈ approvers, k' ≠ k := by
    rintro k hk k' hk' rfl
    exact List.count_eq_zero.1 hk hk'
  have hhuman := hnone .human
  have hagent := hnone .agent
  have hempty : approvers.count .human = 0 → approvers.count .agent = 0 → ∀ k ∈ approvers, False :=
    fun h₁ h₂ k hk => by cases k with
      | human => exact hhuman h₁ _ hk rfl
      | agent => exact hagent h₂ _ hk rfl
  rw [reviewsSatisfied_iff] at h
  generalize approvers.count PrincipalKind.human = humans at *
  generalize approvers.count PrincipalKind.agent = agents at *
  cases mode with
  | none => simp [requiredReviewKinds] at h
  | agent =>
    refine ⟨.agentReview, by simp [requiredReviewKinds], fun k hk _ => hempty ?_ ?_ k hk⟩ <;>
      simp [requiredReviewKinds] at h <;> omega
  | human =>
    refine ⟨.humanReview, by simp [requiredReviewKinds], fun k hk => hhuman ?_ k hk⟩
    simp [requiredReviewKinds] at h
    omega
  | either =>
    refine ⟨.eitherReview, by simp [requiredReviewKinds], fun k hk _ => hempty ?_ ?_ k hk⟩ <;>
      simp [requiredReviewKinds] at h <;> omega
  | both =>
    by_cases hzero : humans = 0
    · exact ⟨.humanReview, by simp [requiredReviewKinds], fun k hk => hhuman hzero k hk⟩
    · refine ⟨.agentReview, by simp [requiredReviewKinds], fun k hk => hagent ?_ k hk⟩
      simp [requiredReviewKinds] at h
      omega

/-! ### Reviews as an assignment -/

/-- The approvals that may serve a required review: an agent review takes a human as well where no
human review is required. -/
inductive Serves (required : List ActivityKind) : ActivityKind → PrincipalKind → Prop
  | human : Serves required .humanReview .human
  | agent : Serves required .agentReview .agent
  | substitute : .humanReview ∉ required → Serves required .agentReview .human
  | either (k : PrincipalKind) : Serves required .eitherReview k

lemma serves_iff {required : List ActivityKind} {kind : ActivityKind} {k : PrincipalKind} :
    Serves required kind k ↔
      kind = .humanReview ∧ k = .human ∨
      kind = .agentReview ∧ (k = .human → .humanReview ∉ required) ∨
      kind = .eitherReview := by
  constructor
  · rintro (_ | _ | hnone | _) <;> simp_all
  · rintro (⟨rfl, rfl⟩ | ⟨rfl, hnone⟩ | rfl)
    · exact .human
    · cases k with
      | human => exact .substitute (hnone rfl)
      | agent => exact .agent
    · exact .either k

instance (required : List ActivityKind) (kind : ActivityKind) :
    DecidablePred (Serves required kind) :=
  fun _ => decidable_of_iff _ serves_iff.symm

/-- The kinds of `S` that are required, counted kind by kind. -/
lemma countP_reviews (required : List ActivityKind) (S : Finset ActivityKind) :
    (required.filter (· ≠ .integration)).countP (· ∈ S) =
      (if .humanReview ∈ S then required.count .humanReview else 0) +
      (if .agentReview ∈ S then required.count .agentReview else 0) +
      (if .eitherReview ∈ S then required.count .eitherReview else 0) := by
  induction required with
  | nil => simp
  | cons kind kinds ih =>
    rw [List.countP_filter] at ih ⊢
    rw [List.countP_cons, ih]
    cases kind <;> simp <;> split_ifs <;> omega

/-- The approvals that serve some kind of `S`, counted class by class. -/
lemma countP_serves (required : List ActivityKind) (approvers : List PrincipalKind)
    (S : Finset ActivityKind) :
    (approvers.countP fun k => ∃ kind ∈ S, Serves required kind k) =
      (if ∃ kind ∈ S, Serves required kind .human then approvers.count .human else 0) +
      (if ∃ kind ∈ S, Serves required kind .agent then approvers.count .agent else 0) := by
  induction approvers with
  | nil => simp
  | cons k ks ih =>
    rw [List.countP_cons, ih]
    cases k <;> simp <;> split_ifs <;> omega

/-- A set of kinds that a human, or an agent, may serve. -/
lemma exists_serves_human {required : List ActivityKind} {S : Finset ActivityKind} :
    (∃ kind ∈ S, Serves required kind .human) ↔
      .humanReview ∈ S ∨ (.agentReview ∈ S ∧ .humanReview ∉ required) ∨ .eitherReview ∈ S := by
  simp only [serves_iff]
  constructor
  · rintro ⟨kind, hkind, ⟨rfl, -⟩ | ⟨rfl, h⟩ | rfl⟩
    · exact .inl hkind
    · exact .inr (.inl ⟨hkind, h trivial⟩)
    · exact .inr (.inr hkind)
  · rintro (h | ⟨h, hnone⟩ | h)
    · exact ⟨_, h, .inl ⟨rfl, trivial⟩⟩
    · exact ⟨_, h, .inr (.inl ⟨rfl, fun _ => hnone⟩)⟩
    · exact ⟨_, h, .inr (.inr rfl)⟩

lemma exists_serves_agent {required : List ActivityKind} {S : Finset ActivityKind} :
    (∃ kind ∈ S, Serves required kind .agent) ↔ .agentReview ∈ S ∨ .eitherReview ∈ S := by
  simp only [serves_iff]
  constructor
  · rintro ⟨kind, hkind, ⟨rfl, h⟩ | ⟨rfl, -⟩ | rfl⟩
    · cases h
    · exact .inl hkind
    · exact .inr hkind
  · rintro (h | h)
    · exact ⟨_, h, .inr (.inl ⟨rfl, fun h' => nomatch h'⟩)⟩
    · exact ⟨_, h, .inr (.inr rfl)⟩

/-- The greedy count finds an assignment exactly when there is one. -/
lemma reviewsSatisfied_iff_assigns (required : List ActivityKind)
    (approvers : List PrincipalKind) :
    reviewsSatisfied required approvers = true ↔
      Assignment.Assigns (Serves required) (required.filter (· ≠ .integration)) approvers := by
  rw [Assignment.assigns_iff, reviewsSatisfied_iff]
  simp only [countP_reviews, countP_serves, exists_serves_human, exists_serves_agent]
  have hnone : ActivityKind.humanReview ∉ required ↔ required.count .humanReview = 0 :=
    List.count_eq_zero.symm
  simp only [hnone]
  generalize required.count ActivityKind.humanReview = human
  generalize required.count ActivityKind.agentReview = agent
  generalize required.count ActivityKind.eitherReview = either
  generalize approvers.count PrincipalKind.human = humans
  generalize approvers.count PrincipalKind.agent = agents
  constructor
  · -- any set of kinds: by which of the three kinds it has
    rintro ⟨hhuman, hagent, hall⟩ S
    by_cases h₁ : ActivityKind.humanReview ∈ S <;> by_cases h₂ : ActivityKind.agentReview ∈ S <;>
      by_cases h₃ : ActivityKind.eitherReview ∈ S <;>
      simp only [h₁, h₂, h₃, true_and, false_and, true_or, or_true, or_false, false_or, if_true,
        if_false] <;>
      first | omega | (split_ifs <;> omega)
  · -- the sets that count are the human reviews, the agent reviews, these two, and all three
    intro h
    have hhuman := h {.humanReview}
    have hagent := h {.agentReview}
    have hall := h {.humanReview, .agentReview, .eitherReview}
    simp at hhuman hagent hall
    split_ifs at * <;> omega

/-- The required reviews are satisfied exactly when each of them has an approval of its own that
may serve it; so the orders do not matter, and an approval more does no harm. -/
theorem reviewsSatisfied_exact (required : List ActivityKind) (approvers : List PrincipalKind) :
    (reviewsSatisfied required approvers = true ↔
      Assignment.Assigns (Serves required) (required.filter (· ≠ .integration)) approvers) ∧
    (∀ required' approvers', required'.Perm required → approvers'.Perm approvers →
      reviewsSatisfied required' approvers' = reviewsSatisfied required approvers) ∧
    (∀ before k after, approvers = before ++ after →
      reviewsSatisfied required approvers = true →
      reviewsSatisfied required (before ++ k :: after) = true) := by
  refine ⟨reviewsSatisfied_iff_assigns required approvers, fun required' approvers' hr ha => ?_,
    ?_⟩
  · rw [Bool.eq_iff_iff, reviewsSatisfied_iff, reviewsSatisfied_iff]
    simp only [hr.count_eq, ha.count_eq]
  · rintro before k after rfl h
    rw [reviewsSatisfied_iff_assigns] at h ⊢
    exact h.sublist ((List.Sublist.refl before).append (List.sublist_cons_self k after))

end AgentCoordinator
