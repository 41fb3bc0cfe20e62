import AgentCoordinator.Library.Monitor
import AgentCoordinator.Supervisor.Verdicts

/-
Launches of reviewers that post no verdict.

A reviewer whose verdicts fail is launched for a submission a limited number of times only, if the
polls count its failures: a poll whose outcome is neither a posted verdict nor a released review
forgets them.
-/

namespace AgentCoordinator.Verdicts

open CandidatePush (Json)
open Procedure

/-! ### The launches since a verdict was posted -/

/-- A reviewer is launched for the submission. -/
def Launches (submission : String) : Called driver → Prop
  | ⟨.runReviewer review _, _⟩ => review.submission = submission
  | _ => False

/-- A verdict on the submission is posted. -/
def Posts (submission : String) : Called driver → Prop
  | ⟨.decide review _ _, .ok ()⟩ => review.submission = submission
  | _ => False

instance (submission : String) (c : Called driver) : Decidable (Launches submission c) := by
  unfold Launches
  split <;> infer_instance

instance (submission : String) (c : Called driver) : Decidable (Posts submission c) := by
  unfold Posts
  split <;> infer_instance

/-- The launches for a submission since its last verdict was posted, or since the loop started. -/
def launchesStep (launches : String → Nat) (c : Called driver) : String → Nat := fun submission =>
  if Launches submission c then launches submission + 1
  else if Posts submission c then 0
  else launches submission

def launchesAfter (calls : List (Called driver)) : String → Nat :=
  calls.foldl launchesStep fun _ => 0

/-- No claim of a submission fails for which reviewers were launched since a verdict was posted, and
every review is released that has to be. -/
def Answered (launches : String → Nat) : Called driver → Prop
  | ⟨.claimReview review, .error _⟩ => launches review.submission = 0
  | ⟨.releaseReview .., .error _⟩ => False
  | _ => True

/-- The monitor of the polls with a limit. -/
def counting (reviewAttempts : Nat) : Monitor driver (String → Nat) where
  step := launchesStep
  expects := Answered
  allows launches
    | ⟨.runReviewer review _, _⟩ => launches review.submission < reviewAttempts
    | _ => True

/-! ### A poll -/

section Poll

variable {outside : Outside} {harness : Harness} {reviewAttempts : Nat} {strikes : Strikes}
  {launches : String → Nat} {α : Type}

lemma obeys_perform {μ : Type} {N : Monitor driver μ} {m : μ} {op : Op}
    {f : driver.Answer op → Poll α} {Q : μ → Except Empty α → Prop} :
    (perform op >>= f).Obeys N Q m ↔
      ∀ answer, N.expects m ⟨op, answer⟩ → N.allows m ⟨op, answer⟩ ∧
        (f answer).Obeys N Q (N.step m ⟨op, answer⟩) := Iff.rfl

/-- A launch was made for the submission, and no verdict posted. -/
def launched (launches : String → Nat) (submission : String) : String → Nat := fun s =>
  if s = submission then launches submission + 1 else launches s

/-- A verdict on the submission was posted. -/
def posted (launches : String → Nat) (submission : String) : String → Nat := fun s =>
  if s = submission then 0 else launches s

lemma step_runReviewer (review : Review) (claim : ReviewClaim) (answer : Except String String) :
    launchesStep launches ⟨.runReviewer review claim, answer⟩ =
      launched launches review.submission := by
  funext s
  by_cases h : review.submission = s
  · subst h
    simp [launchesStep, Launches, launched]
  · simp [launchesStep, Launches, Posts, launched, h, Ne.symm h]

lemma step_decide_ok (review : Review) (claim : ReviewClaim) (input : ReviewInput) :
    launchesStep launches ⟨.decide review claim input, .ok ()⟩ =
      posted launches review.submission := by
  funext s
  by_cases h : review.submission = s
  · subst h
    simp [launchesStep, Launches, Posts, posted]
  · simp [launchesStep, Launches, Posts, posted, h, Ne.symm h]

lemma posted_launched (submission : String) :
    posted (launched launches submission) submission = posted launches submission := by
  funext s
  by_cases h : s = submission <;> simp [posted, launched, h]

/-- What was judged: a verdict was posted, or the reviewer was launched in vain. -/
lemma judge_obeys {review : Review} (claim : ReviewClaim)
    (h : launches review.submission < reviewAttempts) :
    (judge outside harness review claim).Obeys (counting reviewAttempts)
      (fun after r =>
        (∃ decision, r = .ok (.ok decision) ∧ after = posted launches review.submission) ∨
        ∃ error, r = .ok (.error error) ∧ after = launched launches review.submission)
      launches := by
  refine obeys_perform.2 fun output _ => ⟨h, ?_⟩
  rw [show (counting reviewAttempts).step launches ⟨.runReviewer review claim, output⟩ =
    launched launches review.submission from step_runReviewer review claim output]
  match output with
  | .error error => exact .inr ⟨error, rfl, rfl⟩
  | .ok output =>
    cases hjudged : judged outside harness review claim output with
    | error error =>
      simp only [hjudged]
      exact .inr ⟨error, rfl, rfl⟩
    | ok input =>
      simp only [hjudged]
      refine obeys_perform.2 fun answer _ => ⟨trivial, ?_⟩
      match answer with
      | .error error => exact .inr ⟨_, rfl, rfl⟩
      | .ok () =>
        exact .inl ⟨_, rfl, (step_decide_ok review claim input).trans (posted_launched _)⟩

/-- A poll that claims a review counts its failure, or forgets the ones before. -/
lemma claimAndJudge_obeys {review : Review} (h : launches review.submission < reviewAttempts) :
    (claimAndJudge outside harness review).Obeys (counting reviewAttempts)
      (fun after r => ∃ outcome, r = .ok outcome ∧ after =
        if outcome.isRequeued then launched launches review.submission
        else posted launches review.submission) launches := by
  refine obeys_perform.2 fun claim hclaim => ⟨trivial, ?_⟩
  have hstep : (counting reviewAttempts).step launches ⟨.claimReview review, claim⟩ = launches := by
    funext s
    simp [counting, launchesStep, Launches, Posts]
  rw [hstep]
  match claim with
  | .error error =>
    refine ⟨_, rfl, ?_⟩
    -- nothing is forgotten
    funext s
    have hnone : launches review.submission = 0 := hclaim
    by_cases hs : s = review.submission
    · subst hs
      simp [ReviewOutcome.isRequeued, posted, hnone]
    · simp [ReviewOutcome.isRequeued, posted, hs]
  | .ok claim =>
    refine (judge_obeys claim h).bind ?_ (fun _ e => e.elim)
    rintro after result (⟨decision, heq, rfl⟩ | ⟨reason, heq, rfl⟩)
    · obtain rfl := Except.ok.inj heq
      exact ⟨_, rfl, rfl⟩
    · obtain rfl := Except.ok.inj heq
      refine obeys_perform.2 fun released hreleased => ⟨trivial, ?_⟩
      match released with
      | .error error => exact absurd hreleased id
      | .ok () =>
        refine ⟨_, rfl, ?_⟩
        funext s
        simp [counting, launchesStep, Launches, Posts, ReviewOutcome.isRequeued]

/-- A poll keeps what is recorded equal to the launches. -/
lemma review_obeys (h : ∀ s, strikes.count s = launches s) :
    (review outside harness reviewAttempts strikes).Obeys (counting reviewAttempts)
      (fun after r => ∃ outcome strikes', r = .ok (outcome, strikes') ∧
        ∀ s, Strikes.count strikes' s = after s) launches := by
  refine obeys_perform.2 fun next _ => ⟨trivial, ?_⟩
  have hstep : (counting reviewAttempts).step launches
      ⟨.nextReview (strikes.held reviewAttempts), next⟩ = launches := by
    funext s
    simp [counting, launchesStep, Launches, Posts]
  rw [hstep]
  match next with
  | .error error => exact ⟨_, strikes, rfl, h⟩
  | .ok next =>
    cases hoffered : offered next with
    | none =>
      simp only [hoffered]
      exact ⟨_, strikes, rfl, h⟩
    | some review =>
      simp only [hoffered]
      split
      · exact ⟨_, strikes, rfl, h⟩
      · rename_i hfew
        rw [not_le, h] at hfew
        refine (claimAndJudge_obeys hfew).bind ?_ (fun _ e => e.elim)
        rintro after outcome ⟨_, heq, rfl⟩
        obtain rfl := Except.ok.inj heq
        refine ⟨outcome, _, rfl, fun s => ?_⟩
        rw [count_record]
        cases outcome.isRequeued <;> simp [launched, posted, h]

lemma reviews_obeys (polls : Nat) (h : ∀ s, strikes.count s = launches s) :
    (reviews outside harness reviewAttempts strikes polls).Obeys (counting reviewAttempts)
      (fun _ _ => True) launches := by
  induction polls generalizing strikes launches with
  | zero => trivial
  | succ polls ih =>
    refine (review_obeys h).bind ?_ (fun _ e => e.elim)
    rintro after ⟨outcome, strikes'⟩ ⟨_, _, heq, hafter⟩
    obtain ⟨rfl, rfl⟩ := Prod.mk.inj (Except.ok.inj heq)
    exact ih hafter

end Poll

/-! ### Claims -/

section Claims

variable {outside : Outside} {harness : Harness} {reviewAttempts : Nat} {strikes : Strikes}

/-- Claims of submissions in `P` are allowed. -/
def claimsOnly (P : String → Prop) : Monitor driver Unit where
  step _ _ := ()
  expects _ _ := True
  allows _
    | ⟨.claimReview review, _⟩ => P review.submission
    | _ => True

lemma claimAndJudge_claimsOnly {P : String → Prop} {review : Review} (h : P review.submission) :
    (claimAndJudge outside harness review).Obeys (claimsOnly P) (fun _ _ => True) () := by
  refine obeys_perform.2 fun claim _ => ⟨h, ?_⟩
  match claim with
  | .error error => trivial
  | .ok claim =>
    have hjudge : (judge outside harness review claim).Obeys (claimsOnly P) (fun _ _ => True)
        () := by
      refine obeys_perform.2 fun output _ => ⟨trivial, ?_⟩
      match output with
      | .error error => trivial
      | .ok output =>
        cases hjudged : judged outside harness review claim output with
        | error error =>
          simp only [hjudged]
          trivial
        | ok input =>
          simp only [hjudged]
          refine obeys_perform.2 fun answer _ => ⟨trivial, ?_⟩
          match answer with
          | .error error => trivial
          | .ok () => trivial
    refine hjudge.bind ?_ (fun _ e => e.elim)
    rintro - (reason | decision) -
    · refine obeys_perform.2 fun released _ => ⟨trivial, ?_⟩
      match released with
      | .error error => trivial
      | .ok () => trivial
    · trivial

lemma review_claimsOnly : (review outside harness reviewAttempts strikes).Obeys
    (claimsOnly fun s => strikes.count s < reviewAttempts) (fun _ _ => True) () := by
  refine obeys_perform.2 fun next _ => ⟨trivial, ?_⟩
  match next with
  | .error error => trivial
  | .ok next =>
    cases hoffered : offered next with
    | none =>
      simp only [hoffered]
      trivial
    | some review =>
      simp only [hoffered]
      split
      · trivial
      · rename_i hfew
        exact (claimAndJudge_claimsOnly (P := fun s => strikes.count s < reviewAttempts)
          (Nat.lt_of_not_le hfew)).bind (fun _ _ _ => trivial) (fun _ e => e.elim)

/-- A claim is made only while the recorded failures are below the limit. -/
lemma count_lt_of_claim {calls : List (Called driver)} {rest : Poll (ReviewOutcome × Strikes)}
    (h : (review outside harness reviewAttempts strikes).Trace calls rest) {offer : Review}
    {answer : Except String ReviewClaim} (hmem : ⟨.claimReview offer, answer⟩ ∈ calls) :
    strikes.count offer.submission < reviewAttempts := by
  have hexpected : (claimsOnly fun s => strikes.count s < reviewAttempts).Throughout
      (fun _ _ => True) () calls := Monitor.throughout_iff.2 fun _ _ _ _ => trivial
  obtain ⟨hallowed, -⟩ := review_claimsOnly.trace h hexpected
  obtain ⟨before, behind, rfl⟩ := List.append_of_mem hmem
  exact Monitor.throughout_iff.1 hallowed before ⟨.claimReview offer, answer⟩ behind rfl

end Claims

/-! ### Every run -/

section Run

variable {reviewAttempts : Nat}

/-- What each launch allows, every part of a run shows. -/
lemma launchesAfter_le {calls : List (Called driver)}
    (h : (counting reviewAttempts).Throughout (counting reviewAttempts).allows (fun _ => 0) calls)
    (submission : String) {before behind : List (Called driver)}
    (hcalls : calls = before ++ behind) : launchesAfter before submission ≤ reviewAttempts := by
  rw [Monitor.throughout_iff] at h
  induction before using List.reverseRecOn generalizing behind with
  | nil => exact Nat.zero_le _
  | append_singleton before c ih =>
    rw [List.append_assoc] at hcalls
    have hle := ih hcalls
    have hallowed := h before c behind hcalls
    rw [launchesAfter, List.foldl_append]
    change launchesStep (launchesAfter before) c submission ≤ reviewAttempts
    unfold launchesStep
    split
    · rename_i hlaunch
      unfold Launches at hlaunch
      split at hlaunch
      · subst hlaunch
        exact hallowed
      · exact hlaunch.elim
    · split
      · exact Nat.zero_le _
      · exact hle

/-- In a run in which no claim fails of a submission with failures, and every review is released
that has to be, a reviewer is launched for a submission at most as often as the limit says until a
verdict on it is posted; and no submission is claimed whose recorded failures have reached it. -/
theorem reviews_bounded (outside : Outside) (harness : Harness) (reviewAttempts polls : Nat)
    {calls : List (Called driver)} {rest : Poll Unit}
    (htrace : (reviews outside harness reviewAttempts .empty polls).Trace calls rest)
    (hanswered : (counting reviewAttempts).Throughout Answered (fun _ => 0) calls) :
    (∀ submission before behind, calls = before ++ behind →
      launchesAfter before submission ≤ reviewAttempts) ∧
      ∀ strikes calls rest, (review outside harness reviewAttempts strikes).Trace calls rest →
        ∀ offer answer, ⟨.claimReview offer, answer⟩ ∈ calls →
          strikes.count offer.submission < reviewAttempts := by
  have hobeys : (reviews outside harness reviewAttempts .empty polls).Obeys
      (counting reviewAttempts) (fun _ _ => True) fun _ => 0 := reviews_obeys polls fun _ => rfl
  obtain ⟨hallowed, -⟩ := hobeys.trace htrace hanswered
  exact ⟨fun submission _ _ hcalls => launchesAfter_le hallowed submission hcalls,
    fun _ _ _ htrace _ _ hmem => count_lt_of_claim htrace hmem⟩

end Run

section Example

/-- Nothing is JSON. -/
private def unreadable : Outside := ⟨fun _ => .error "not JSON", id⟩

private def offeredReview : Review := ⟨"activity", "task", "submission", "A title", 1, 1⟩

private def offer : Json := .object [("action", .object [("kind", .string "claim_review"),
  ("activity_id", .string "activity"), ("subject_task_id", .string "task"),
  ("title", .string "A title"), ("call", .object [("body", .object [
    ("expected_submission_id", .string "submission"),
    ("expected_project_policy_revision", .unsigned 1),
    ("expected_workflow_policy_revision", .unsigned 1)])])])]

private def claimed : ReviewClaim := ⟨"attempt", 1, "session", [], .null⟩

/-- A poll whose reviewer returns no verdict. -/
private def failedPoll (strikes : Strikes) (released : Except String Unit) :
    List (Called driver) :=
  [⟨.nextReview (strikes.held 1), .ok offer⟩, ⟨.claimReview offeredReview, .ok claimed⟩,
    ⟨.runReviewer offeredReview claimed, .ok ""⟩,
    ⟨.releaseReview offeredReview claimed (requeueSummary "not JSON"), released⟩]

theorem reviews_bounded_one : launchesAfter (failedPoll .empty (.ok ())) "submission" ≤ 1 := by
  have htrace : (reviews unreadable .codex 1 .empty 1).Trace (failedPoll .empty (.ok ()))
      (.pure ()) := .cons (.cons (.cons (.cons (.nil _))))
  exact (reviews_bounded unreadable .codex 1 1 htrace
    ⟨trivial, trivial, trivial, trivial, trivial⟩).1 _ _ [] (List.append_nil _).symm

/-- A review that could not be released is forgotten: its submission is launched for again. -/
theorem reviews_unbounded : ¬ ∀ (outside : Outside) (harness : Harness)
    (reviewAttempts polls : Nat) (calls : List (Called driver)) (rest : Poll Unit),
    1 ≤ reviewAttempts → (reviews outside harness reviewAttempts .empty polls).Trace calls rest →
      ∀ submission before behind, calls = before ++ behind →
        launchesAfter before submission ≤ reviewAttempts := by
  intro h
  have htrace : (reviews unreadable .codex 1 .empty 2).Trace
      (failedPoll .empty (.error "HTTP 503") ++
        failedPoll (Strikes.record .empty "submission" false) (.error "HTTP 503")) (.pure ()) :=
    .cons (.cons (.cons (.cons (.cons (.cons (.cons (.cons (.nil _))))))))
  have hle := h _ _ _ _ _ _ le_rfl htrace "submission" _ [] (List.append_nil _).symm
  simp [launchesAfter, failedPoll, launchesStep, Launches, Posts, offeredReview] at hle

end Example

end AgentCoordinator.Verdicts
