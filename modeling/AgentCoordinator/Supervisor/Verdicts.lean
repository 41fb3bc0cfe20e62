import AgentCoordinator.Library.Procedure
import AgentCoordinator.Library.Table
import AgentCoordinator.Library.Text
import AgentCoordinator.Local.PushProtocol

/-
The reviewer verdict pipeline of the supervisor.

A poll claims the review that the coordinator offers, runs the reviewer, and posts the verdict that
its final output holds, or releases the review. How often in a row the verdicts of a submission
failed is kept between the polls, and a submission that failed too often is not claimed. Reading a
text as JSON and writing a text with quotes are parameters.
-/

namespace AgentCoordinator.Verdicts

open CandidatePush (Json)
open Procedure Tabular Text

/-! ### Data -/

/-- `Harness`. -/
inductive Harness | claude | codex
  deriving DecidableEq, Repr

/-- `Review`. -/
structure Review where
  activity : String
  subject : String
  submission : String
  title : String
  projectPolicyRevision : Nat
  workflowPolicyRevision : Nat
  deriving DecidableEq, Repr

/-- `ReviewClaim`. -/
structure ReviewClaim where
  attempt : String
  generation : Nat
  session : String
  criteria : List String
  submission : Json

/-- `CriterionEvidence`. -/
structure CriterionEvidence where
  criterion : String
  evidence : String
  deriving DecidableEq, Repr

/-- `Verdict`. -/
structure Verdict where
  decision : String
  summary : String
  findings : List String
  criteriaEvidence : List CriterionEvidence
  amendmentDecision : Option String
  deriving DecidableEq, Repr

/-- `ReviewFindingInput`. -/
structure ReviewFindingInput where
  severity : String
  remedy : String
  evidence : String
  deriving DecidableEq, Repr

/-- `ReviewInput`. -/
structure ReviewInput where
  generation : Nat
  submissionId : String
  decision : String
  summary : String
  findings : List ReviewFindingInput
  amendmentDecision : Option String
  reviewIndependence : Option String
  deriving DecidableEq, Repr

/-- `ReviewOutcome`. -/
inductive ReviewOutcome
  | idle
  | decided (activity decision : String)
  | requeued (activity reason : String)
  | held (submissions : List String)
  | skipped (submission : String) (failures : Nat)
  | failed (error : String)
  deriving DecidableEq, Repr

/-- What comes from other crates and the formatting of the language. -/
structure Outside where
  /-- `serde_json::from_str`. -/
  parse : String → Except String Json
  /-- The format of a text as `{:?}`. -/
  debug : String → String

def INDEPENDENCE : String := "distinct_launch"
def MAX_SUMMARY_CHARS : Nat := 12000
def MAX_FINDINGS : Nat := 100
def MAX_FINDING_CHARS : Nat := 4000
def MAX_EXCLUDED : Nat := 64

/-! ### Texts -/

/-- `str::trim`. -/
def trim (s : String) : String := String.ofList (trimBy isWhitespace s.toList)

/-- `chars().take(n)`. -/
def takeChars (n : Nat) (s : String) : String := String.ofList (s.toList.take n)

/-- `blank`. -/
def blank (text : String) : Bool := text.toList.all isWhitespace

/-- `str::split_whitespace`. -/
def words (s : String) : List (List Char) := (s.toList.splitOnP isWhitespace).filter (· ≠ [])

/-- `same`. -/
def same (a b : String) : Bool := words a = words b

/-! ### Reading JSON -/

/-- The field `name` of an object, if it has it. -/
def get? (name : String) : Json → Option Json
  | .object fields => (fields.reverse.find? (·.1 = name)).map Prod.snd
  | _ => none

/-- `Value::is_object`. -/
def isObject : Json → Bool
  | .object _ => true
  | _ => false

/-- `Value::as_array`. -/
def asArray : Json → Option (List Json)
  | .array items => some items
  | _ => none

/-- `strings`. -/
def strings (values : List Json) : List String := values.filterMap Json.asString

/-- The fields of an object are among `names`. -/
def onlyFields (names : List String) : Json → Bool
  | .object fields => fields.all fun field => names.contains field.1
  | _ => false

/-- The derived reader of a `CriterionEvidence`. -/
def CriterionEvidence.ofJson : Json → Option CriterionEvidence
  | .array [criterion, evidence] => do return ⟨← criterion.asString, ← evidence.asString⟩
  | value =>
    if onlyFields ["criterion", "evidence"] value then do
      return ⟨← (value.field "criterion").asString, ← (value.field "evidence").asString⟩
    else none

/-- The reader of an `Option<String>`. -/
def optionalString : Json → Option (Option String)
  | .null => some none
  | value => value.asString.map some

/-- The values of the fields of a verdict. -/
def Verdict.ofFields (decision : Json) (summary : Option Json) (findings criteriaEvidence : Json)
    (amendmentDecision : Option Json) : Option Verdict := do
  return {
    decision := ← decision.asString
    summary := ← (summary.map Json.asString).getD (some "")
    findings := ← (← asArray findings).mapM Json.asString
    criteriaEvidence := ← (← asArray criteriaEvidence).mapM CriterionEvidence.ofJson
    amendmentDecision := ← (amendmentDecision.map optionalString).getD (some none) }

/-- The derived reader of a `Verdict`, of whose fields two have a default. -/
def Verdict.ofJson : Json → Option Verdict
  | .array [decision, summary, findings, criteriaEvidence] =>
    Verdict.ofFields decision (some summary) findings criteriaEvidence none
  | .array [decision, summary, findings, criteriaEvidence, amendmentDecision] =>
    Verdict.ofFields decision (some summary) findings criteriaEvidence (some amendmentDecision)
  | value =>
    if onlyFields ["decision", "summary", "findings", "criteria_evidence", "amendment_decision"]
        value then
      Verdict.ofFields (value.field "decision") (get? "summary" value) (value.field "findings")
        (value.field "criteria_evidence") (get? "amendment_decision" value)
    else none

/-! ### What the coordinator offers -/

/-- `offered`. -/
def offered (next : Json) : Option Review := do
  let action ← get? "action" next
  if (action.field "kind").asString = some "claim_review" then
    let body := (action.field "call").field "body"
    return {
      activity := ← (action.field "activity_id").asString
      subject := ← (action.field "subject_task_id").asString
      submission := ← (body.field "expected_submission_id").asString
      title := (action.field "title").asString.getD ""
      projectPolicyRevision := ← (body.field "expected_project_policy_revision").asU64
      workflowPolicyRevision := ← (body.field "expected_workflow_policy_revision").asU64 }
  else none

/-- `excluded`. -/
def excluded (next : Json) : List String :=
  (strings ((asArray (next.field "excluded_candidates")).getD [])).take MAX_EXCLUDED

/-! ### Verdicts -/

/-- `claude_result`. -/
def claudeResult (outside : Outside) (events : String) : Except String Json := do
  let parsed := (lines events.toList).reverse.filterMap fun line =>
    (outside.parse (String.ofList line)).toOption
  match parsed.find? fun event => (event.field "type").asString = some "result" with
  | none => throw "the launch wrote no result event"
  | some result =>
    match (get? "structured_output" result).filter isObject with
    | some output => return output
    | none =>
      match (result.field "result").asString with
      | none => throw "the result event holds no verdict"
      | some text => outside.parse (trim text)

/-- `final_verdict`. -/
def finalVerdict (outside : Outside) (harness : Harness) (output : String) :
    Except String Verdict := do
  let value ← match harness with
    | .codex => outside.parse (trim output)
    | .claude => claudeResult outside output
  match Verdict.ofJson value with
  | some verdict => return verdict
  | none => throw "the final message is not a verdict"

/-- `amended`. -/
def amended (claim : ReviewClaim) : Bool := isObject (claim.submission.field "ac_amendment")

/-- `Verdict::judged_criteria`. -/
def Verdict.judgedCriteria (verdict : Verdict) (claim : ReviewClaim) : List String :=
  match verdict.amendmentDecision,
    asArray ((claim.submission.field "ac_amendment").field "new") with
  | some "accepted", some new => strings new
  | _, _ => claim.criteria

/-- `ensure!`. -/
def ensure (condition : Bool) (error : String) : Except String Unit :=
  if condition then .ok () else .error error

/-- `Verdict::check`. -/
def Verdict.check (outside : Outside) (verdict : Verdict) (claim : ReviewClaim) :
    Except String Unit :=
  if verdict.decision ≠ "approve" then .ok ()
  else do
    let evidence := verdict.criteriaEvidence
    ensure (!evidence.isEmpty) "the approval has no criteria_evidence"
    ensure (!evidence.any fun e => blank e.criterion || blank e.evidence)
      "the approval has an empty criteria_evidence entry"
    ensure (!amended claim || verdict.amendmentDecision.isSome)
      "the approval does not decide the submission's ac_amendment"
    for criterion in verdict.judgedCriteria claim do
      ensure (evidence.any fun e => same e.criterion criterion)
        ("the approval has no evidence for the criterion " ++ outside.debug criterion)

/-- `Verdict::amendment`. -/
def Verdict.amendment (verdict : Verdict) (claim : ReviewClaim) : Option String :=
  match amended claim, verdict.decision, verdict.amendmentDecision with
  | false, _, _ => none
  | true, "request_changes", some "accepted" => none
  | _, _, _ => verdict.amendmentDecision

/-- `Verdict::summary_text`. -/
def Verdict.summaryText (verdict : Verdict) : String :=
  let text := if blank verdict.summary then "Supervised review." else trim verdict.summary
  let text := if verdict.criteriaEvidence.isEmpty then text else text ++ "\n\nCriteria evidence:"
  takeChars MAX_SUMMARY_CHARS (verdict.criteriaEvidence.foldl
    (fun text e => text ++ "\n- " ++ trim e.criterion ++ ": " ++ trim e.evidence) text)

/-- The decision that the service knows, and the severity of the findings. -/
def decisionAndSeverity (outside : Outside) (decision : String) :
    Except String (String × String) :=
  if decision = "approve" then .ok ("approved", "advisory")
  else if decision = "request_changes" then .ok ("changes_requested", "required")
  else .error ("unknown decision " ++ outside.debug decision)

/-- `i64::try_from` of a `u64`. -/
def toI64 (n : Nat) : Except String Nat :=
  if n < 2 ^ 63 then .ok n else .error "out of range integral type conversion attempted"

/-- `Verdict::input`. -/
def Verdict.input (outside : Outside) (verdict : Verdict) (claim : ReviewClaim)
    (submission : String) : Except String ReviewInput := do
  let (decision, severity) ← decisionAndSeverity outside verdict.decision
  return {
    generation := ← toI64 claim.generation
    submissionId := submission
    decision := decision
    summary := verdict.summaryText
    findings := ((verdict.findings.filter fun f => !blank f).take MAX_FINDINGS).map fun remedy =>
      { severity := severity
        remedy := takeChars MAX_FINDING_CHARS remedy
        evidence := "" }
    amendmentDecision := verdict.amendment claim
    reviewIndependence := some INDEPENDENCE }

/-- The input to post for a final output. -/
def judged (outside : Outside) (harness : Harness) (review : Review) (claim : ReviewClaim)
    (output : String) : Except String ReviewInput := do
  let verdict ← finalVerdict outside harness output
  verdict.check outside claim
  verdict.input outside claim review.submission

/-! ### Strikes -/

/-- How often in a row the verdicts of a submission failed. -/
structure Strike where
  submission : String
  count : Nat
  deriving DecidableEq, Repr

instance : Keyed Strike String := ⟨Strike.submission⟩

/-- `Strikes`. -/
abbrev Strikes := Table Strike

/-- `Strikes::count`. -/
def Strikes.count (strikes : Strikes) (submission : String) : Nat :=
  ((strikes.get? submission).map Strike.count).getD 0

/-- The order of the submissions that are held. -/
def Strike.before (a b : Strike) : Bool :=
  b.count < a.count || (a.count = b.count && decide (a.submission ≤ b.submission))

/-- `Strikes::held`. -/
def Strikes.held (strikes : Strikes) (attempts : Nat) : List String :=
  (((strikes.filter fun s => 0 < s.count ∧ attempts ≤ s.count).mergeSort Strike.before).take
    MAX_EXCLUDED).map Strike.submission

/-- `Strikes::record`. -/
def Strikes.record (strikes : Strikes) (submission : String) (failed : Bool) : Strikes :=
  if failed then strikes.put ⟨submission, strikes.count submission + 1⟩
  else strikes.erase submission

/-! ### The driver -/

/-- `ReviewDriver`. -/
inductive Op
  | nextReview (exclude : List String)
  | claimReview (review : Review)
  | runReviewer (review : Review) (claim : ReviewClaim)
  | decide (review : Review) (claim : ReviewClaim) (input : ReviewInput)
  | releaseReview (review : Review) (claim : ReviewClaim) (summary : String)

/-- The operations with their answers. -/
@[reducible] def driver : Interface where
  Op := Op
  Answer
    | .nextReview _ => Except String Json
    | .claimReview _ => Except String ReviewClaim
    | .runReviewer .. => Except String String
    | .decide .. | .releaseReview .. => Except String Unit

/-- A part of a poll; its errors are values. -/
abbrev Poll := Proc driver Empty

def perform (op : Op) : Poll (driver.Answer op) := .call op .pure

/-! ### A poll -/

/-- `judge`. -/
def judge (outside : Outside) (harness : Harness) (review : Review) (claim : ReviewClaim) :
    Poll (Except String String) := do
  match ← perform (.runReviewer review claim) with
  | .error error => return .error error
  | .ok output =>
    match judged outside harness review claim output with
    | .error error => return .error error
    | .ok input =>
      match ← perform (.decide review claim input) with
      | .error error => return .error ("post the decision: " ++ error)
      | .ok () => return .ok input.decision

/-- The handoff of a review without a verdict. -/
def requeueSummary (reason : String) : String := takeChars 4000
  ("agentc-supervisor posted no verdict: " ++ reason ++ ". The review is queued again.")

/-- `requeue`. -/
def requeue (review : Review) (claim : ReviewClaim) (reason : String) : Poll ReviewOutcome := do
  match ← perform (.releaseReview review claim (requeueSummary reason)) with
  | .ok () => return .requeued review.activity reason
  | .error release =>
    return .failed ("release " ++ review.activity ++ " after " ++ reason ++ ": " ++ release)

/-- `claim_and_judge`. -/
def claimAndJudge (outside : Outside) (harness : Harness) (review : Review) :
    Poll ReviewOutcome := do
  match ← perform (.claimReview review) with
  | .error error => return .failed ("claim " ++ review.activity ++ ": " ++ error)
  | .ok claim =>
    match ← judge outside harness review claim with
    | .ok decision => return .decided review.activity decision
    | .error reason => requeue review claim reason

/-- The outcome counts as a failed verdict. -/
def ReviewOutcome.isRequeued : ReviewOutcome → Bool
  | .requeued .. => true
  | _ => false

/-- `review`, with the strikes that it leaves. -/
def review (outside : Outside) (harness : Harness) (reviewAttempts : Nat) (strikes : Strikes) :
    Poll (ReviewOutcome × Strikes) := do
  match ← perform (.nextReview (strikes.held reviewAttempts)) with
  | .error error => return (.failed ("reviewer next: " ++ error), strikes)
  | .ok next =>
    match offered next with
    | none => return (if excluded next = [] then .idle else .held (excluded next), strikes)
    | some review =>
      if reviewAttempts ≤ strikes.count review.submission then
        return (.skipped review.submission (strikes.count review.submission), strikes)
      else
        let outcome ← claimAndJudge outside harness review
        return (outcome, strikes.record review.submission outcome.isRequeued)

/-- The polls of a loop. -/
def reviews (outside : Outside) (harness : Harness) (reviewAttempts : Nat) (strikes : Strikes) :
    Nat → Poll Unit
  | 0 => return ()
  | polls + 1 => do
    let (_, strikes) ← review outside harness reviewAttempts strikes
    reviews outside harness reviewAttempts strikes polls

/-! ### Counting -/

@[simp] lemma count_empty (submission : String) : Strikes.count .empty submission = 0 := rfl

/-- Recording touches one submission. -/
lemma count_record (strikes : Strikes) (submission s : String) (failed : Bool) :
    (strikes.record submission failed).count s =
      if s = submission then if failed then strikes.count submission + 1 else 0
      else strikes.count s := by
  unfold Strikes.record
  cases failed with
  | true =>
    rw [if_pos rfl, Strikes.count, Table.get?_put]
    by_cases h : s = submission
    · subst h
      simp [Keyed.key]
    · rw [if_neg h, if_neg]
      · rfl
      · exact fun heq => h heq
  | false =>
    rw [if_neg Bool.false_ne_true, Strikes.count, Table.get?_erase]
    by_cases h : s = submission
    · simp [h]
    · simp [h, Strikes.count]

end AgentCoordinator.Verdicts
