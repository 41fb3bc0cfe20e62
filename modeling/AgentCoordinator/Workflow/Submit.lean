import Mathlib.Data.List.Infix
import AgentCoordinator.Coordination

/-
Submitting a candidate.

`submit` turns the owner's work on a task into an immutable submission, ends the attempt, and puts
the task's subject into the first phase its review mode asks for: review (with one queued activity
for each required kind), integration, or done. A code submission gets its integration activity at
once; while reviews are pending that activity's task is blocked.
-/

namespace AgentCoordinator

open Guarded Tabular

/-- `SubmissionInput`, without lessons and artifact references. -/
structure SubmissionInput where
  generation : Int
  kind : WorkKind
  taskRevision : Int
  projectPolicyRevision : Int
  workflowPolicyRevision : Int
  summary : String
  /-- Criterion and evidence. -/
  acceptanceEvidence : List (String × String)
  handoff : String
  repository : Option String
  baseRevision : Option String
  candidateRevision : Option String
  candidateTree : Option String
  candidateRemote : Option String
  candidateRef : Option String
  acAmendment : Option AcAmendment

/-! ### Validation -/

/-- Every item names a criterion that no item before it named. -/
def validateEvidence (criteria : List String) :
    List (String × String) → List String → Except AppError Unit
  | [], _ => return
  | item :: items, seen => do
    bounded item.1 "acceptance criterion" 2048 true
    bounded item.2 "acceptance evidence" 8192 true
    refuseIf (item.1 ∉ criteria ∨ item.1 ∈ seen)
      (.badRequest "Acceptance evidence must name each current criterion exactly once.")
    validateEvidence criteria items (item.1 :: seen)

/-- `validate_acceptance`: evidence for every criterion exactly once. -/
def validateAcceptance (input : SubmissionInput) (criteria : List String) :
    Except AppError Unit := do
  refuseIf (input.acceptanceEvidence.length ≠ criteria.length)
    (.badRequest "Provide evidence for every current acceptance criterion exactly once.")
  validateEvidence criteria input.acceptanceEvidence []

/-- `validate_amendment`: evidence against the criteria that will apply, the proposed ones when
amending. -/
def validateAmendment (input : SubmissionInput) (current : List String) : Except AppError Unit :=
  match input.acAmendment with
  | none => validateAcceptance input current
  | some amendment => do
    refuseIf (amendment.old ≠ current ∨ amendment.new = current)
      (.badRequest ("ac_amendment.old must equal the current acceptance criteria and new must " ++
        "differ."))
    refuseIf (amendment.new = [] ∨ amendment.new.length > 100)
      (.badRequest "Provide 1–100 amended criteria.")
    amendment.new.forM fun criterion => bounded criterion "amended criterion" 2048 true
    bounded amendment.rationale "amendment rationale" 8192 true
    validateAcceptance input amendment.new

/-- `validate_candidate_ref`. -/
def validateCandidateRef (value : String) : Except AppError Unit :=
  let v := value.toList
  let parts := v.splitOn '/'
  refuseIf
    (value.utf8ByteSize > 240 ∨ ¬ "refs/agent-coordinator/candidates/".toList <+: v ∨ v = [] ∨
      ['/'] <+: v ∨ ['/'] <:+ v ∨ ['.'] <:+ v ∨ "..".toList <:+: v ∨ "//".toList <:+: v ∨
      "@\x7b".toList <:+: v ∨
      (∃ part ∈ parts, part = [] ∨ ['.'] <+: part ∨ ".lock".toList <:+ part ∨ ['.'] <:+ part) ∨
      v.any (fun c => c.toNat < 32 ∨ c.toNat = 127 ∨ c ∈ " ~^:?*[\\".toList) = true)
    (.badRequest ("candidate_ref must be a valid full ref under " ++
      "refs/agent-coordinator/candidates/."))

/-! ### The submitting owner -/

/-- `OwnedSubject`: the task under submission, its attempt and its project. -/
structure OwnedSubject where
  task : Task
  project : Project
  taskRevision : Int
  projectPolicyRevision : Int

/-- `owned_subject`. -/
def ownedSubject (s : Db) (actor : Actor) (project attempt : Id) (generation : Int) :
    Except AppError OwnedSubject := do
  let a ← okOr (s.attempts.get? attempt) .notFound
  let t ← okOr (s.tasks.get? a.task) .notFound
  let p ← okOr (s.projects.get? project) .notFound
  refuseIf (a.project ≠ project ∨ t.project ≠ a.project) .notFound
  let ownerSession ← session actor
  refuseIf
    (a.owner ≠ actor.id ∨ a.session ≠ ownerSession ∨ a.credential ≠ actor.credential ∨
      a.generation ≠ generation ∨ a.state ≠ .active ∨ a.expiresAt ≤ s.now ∨
      t.currentAttempt ≠ some attempt ∨ t.lifecycle ≠ .open)
    (.conflict "ownership_lost" "This attempt no longer has current unexpired authority.")
  ensureDecisionsResolved s project t.id
  let pins := AppError.conflict "revision_pins_required"
    "Release this pre-workflow attempt and claim again to pin task and policy revisions."
  let taskRevision ← okOr a.taskRevision pins
  let projectPolicyRevision ← okOr a.policyRevision pins
  return ⟨t, p, taskRevision, projectPolicyRevision⟩

/-- `ensure_judged_fields_unchanged`. Without a saved row for the pinned revision, only an
unchanged revision is safe. -/
def ensureJudgedFieldsUnchanged (s : Db) (subject : OwnedSubject) : Except AppError Unit :=
  let changed : Bool :=
    match s.revisionTaskDigest subject.task.id subject.taskRevision with
    | some pinned => pinned ≠ subject.task.digest
    | none => subject.task.revision ≠ subject.taskRevision
  refuseIf (changed = true)
    (.conflict "policy_changed"
      ("The task's title, description, acceptance criteria or kind changed after this attempt " ++
        "was claimed. Release and claim the current task."))

/-- The checks of a code submission; returns the repository key and the roster revision. -/
def codeCandidate (s : Db) (subject : OwnedSubject) (attempt : Id) (input : SubmissionInput) :
    Except AppError (Option String × Int) := do
  let policy ← okOr (s.ext.workflowPolicies.get? subject.project.id)
    (.conflict "workflow_policy_required"
      ("A human must configure an explicit required-check roster; the repository identity is " ++
        "derived from its URL."))
  refuseIf (input.workflowPolicyRevision < 1)
    (.conflict "workflow_policy_changed"
      "Read the current required-check roster and submit with its revision.")
  refuseIf (input.repository ≠ some subject.project.repositoryUrl)
    (.conflict "repository_mismatch"
      "The submission repository must exactly match the configured project repository.")
  refuseIf (policy.canonicalRepositoryKey = "") .internal
  refuseIf (input.candidateRemote ≠ some policy.canonicalRepositoryKey)
    (.conflict "candidate_remote_mismatch"
      ("The candidate checkpoint remote must match the pinned configured repository " ++
        "identity."))
  let ref ← okOr input.candidateRef (.badRequest "candidate_ref is required.")
  validateCandidateRef ref
  let base ← okOr input.baseRevision (.badRequest "base_revision is required.")
  revision base "base_revision"
  let candidate ← okOr input.candidateRevision (.badRequest "candidate_revision is required.")
  revision candidate "candidate_revision"
  let tree ← okOr input.candidateTree (.badRequest "candidate_tree is required.")
  revision tree "candidate_tree"
  let checkout ← okOr (s.ext.checkouts.find? (fun ch => ch.1 = attempt))
    (.conflict "checkout_required"
      "Register the isolated implementation checkout before submitting code.")
  refuseIf (checkout.2 ≠ base)
    (.conflict "base_revision_mismatch"
      "The submission base must match the registered implementation checkout.")
  return (some policy.canonicalRepositoryKey, policy.revision)

/-- A general submission names no Git fields. -/
def generalCandidate (input : SubmissionInput) : Except AppError (Option String × Int) := do
  refuseIf
    (input.workflowPolicyRevision ≠ 0 ∨ input.repository ≠ none ∨ input.baseRevision ≠ none ∨
      input.candidateRevision ≠ none ∨ input.candidateTree ≠ none ∨
      input.candidateRemote ≠ none ∨ input.candidateRef ≠ none)
    (.badRequest "General submissions use workflow_policy_revision 0 and omit Git fields.")
  return (none, 0)

/-! ### Writing the submission -/

/-- The row `submit` inserts. -/
def newSubmission (s : Db) (actor : Actor) (ownerSession attempt : Id) (subject : OwnedSubject)
    (input : SubmissionInput) (canonical : Option String) (roster : Int) (id : Id) :
    Submission where
  id := id
  project := subject.project.id
  task := subject.task.id
  attempt := attempt
  kind := input.kind
  taskRevision := input.taskRevision
  projectPolicyRevision := input.projectPolicyRevision
  workflowPolicyRevision := roster
  canonicalRepositoryKey := canonical
  repositoryUrl := if input.kind = .code then some subject.project.repositoryUrl else none
  targetBranch := if input.kind = .code then some subject.project.targetBranch else none
  baseRevision := input.baseRevision
  candidateRevision := input.candidateRevision
  candidateTree := input.candidateTree
  candidateRef := input.candidateRef
  createdBy := actor.id
  contributorSession := ownerSession
  createdAt := s.now
  supersededAt := none
  taskDigest := some subject.task.digest
  acAmendment := input.acAmendment

/-- `UPDATE submissions SET superseded_at=? WHERE id=? AND superseded_at IS NULL`. -/
def Db.supersede (s : Db) (submission : Id) : Db :=
  { s with
    submissions := s.submissions.modify (fun u => u.id = submission ∧ u.supersededAt = none)
      (fun u => { u with supersededAt := some s.now }) }

/-- The review activities a mode asks for at submission: agent, human, either. -/
def neededReviews (mode : ReviewMode) : List ActivityKind :=
  (if mode = .agent ∨ mode = .both then [.agentReview] else []) ++
    (if mode = .human ∨ mode = .both then [.humanReview] else []) ++
    (if mode = .either then [.eitherReview] else [])

/-- The phase a new submission starts in. -/
def firstPhase (mode : ReviewMode) (kind : WorkKind) : Phase :=
  if neededReviews mode ≠ [] then .review
  else if kind = .code then .integration
  else .done

/-- Queue one activity, in slot 1, for each kind. -/
def Db.createActivities (s : Db) (project subjectTask : Id) (title : String) (submission : Id)
    (kinds : List ActivityKind) : Db :=
  kinds.foldl (fun s kind => s.createActivity project subjectTask title submission kind 1) s

/-- Queue the integration activity of a new code submission. Its task is blocked while reviews are
pending. -/
def Db.createIntegration (s : Db) (subject : OwnedSubject) (submission : Id) (pending : Bool) :
    Db :=
  let task := s.tasks.fresh
  let s := s.createActivity subject.project.id subject.task.id subject.task.title submission
    .integration 1
  if pending then
    { s with
      tasks := s.tasks.modify (fun t => t.id = task)
        (fun t => { t with blockedReason := some "Required reviews are pending." }) }
  else s

/-- End the submitting attempt and hand its task to the workflow. -/
def Db.endSubmittedAttempt (s : Db) (attempt task : Id) (summary : String) : Db :=
  let s := s.endAttempts (fun a => a.id = attempt) .submitted summary
  { s with
    tasks := s.tasks.modify (fun t => t.id = task) (fun t => { t with
      currentAttempt := none
      blockedReason := some "An immutable submission is in the completion workflow." }) }

/-- Insert the submission, end the submitting attempt, and put the subject in its first phase. -/
def Db.enterWorkflow (s : Db) (actor : Actor) (ownerSession attempt : Id) (subject : OwnedSubject)
    (input : SubmissionInput) (canonical : Option String) (roster : Int) (mode : ReviewMode) : Db :=
  let submission := s.submissions.fresh
  let s := s.recordContributor subject.task.id actor.id ownerSession
  let s := { s with
    submissions := s.submissions.create
      (newSubmission s actor ownerSession attempt subject input canonical roster) }
  let s := s.endSubmittedAttempt attempt subject.task.id input.summary
  { s with
    workflowSubjects := s.workflowSubjects.put
      ⟨subject.task.id, subject.project.id, submission, firstPhase mode input.kind, s.now⟩ }

/-- General work that needs no review is done at once. -/
def Db.completeTask (s : Db) (task : Id) : Db :=
  { s with
    tasks := s.tasks.modify (fun t => t.id = task)
      (fun t => { t with lifecycle := .done, blockedReason := none }) }.readyDependents task

/-- Everything `submit` writes, once the submission may be inserted. -/
def Db.writeSubmission (s : Db) (actor : Actor) (ownerSession attempt : Id)
    (subject : OwnedSubject) (input : SubmissionInput) (canonical : Option String) (roster : Int)
    (mode : ReviewMode) : Db :=
  let submission := s.submissions.fresh
  let s := s.enterWorkflow actor ownerSession attempt subject input canonical roster mode
  let s := s.createActivities subject.project.id subject.task.id subject.task.title submission
    (neededReviews mode)
  let s :=
    if input.kind = .code then
      s.createIntegration subject submission (decide (neededReviews mode ≠ []))
    else if firstPhase mode input.kind = .done then s.completeTask subject.task.id
    else s
  s.finish actor "submission.created" submission

/-- The previous submission of the task, when there is one: up for revision, and superseded by
the new one. -/
def Db.previousSubmission (s : Db) (project task : Id) : Option WorkflowSubject :=
  (s.workflowSubjects.get? task).filter (fun ws => ws.project = project)

/-- `submit`. -/
def submit (s : Db) (actor : Actor) (project attempt : Id) (input : SubmissionInput) :
    Except AppError Db := do
  bounded input.summary "summary" 8192 true
  bounded input.handoff "handoff" 16384 false
  let subject ← ownedSubject s actor project attempt input.generation
  ensureRequiredChildrenDone s project subject.task.id
  refuseIf (subject.task.kind ≠ input.kind)
    (.badRequest "Submission kind must match the subject task kind.")
  refuseIf (subject.taskRevision ≠ input.taskRevision ∨
      subject.projectPolicyRevision ≠ input.projectPolicyRevision)
    (.conflict "pinned_revision_changed"
      "The submission must use the task and policy revisions pinned by its claim.")
  ensureJudgedFieldsUnchanged s subject
  validateAmendment input subject.task.acceptance
  ensureAttemptQuiescent s project subject.task.id
  ensureWorkflowQuiescent s project subject.task.id
  let (canonical, roster) ←
    (if input.kind = .code then codeCandidate s subject attempt input else generalCandidate input)
  let previous := s.previousSubmission project subject.task.id
  refuseIf (previous.any (fun ws => ws.phase ≠ .revisionNeeded) = true)
    (.conflict "submission_current"
      "This task already has a current submission in workflow.")
  let s := previous.elim s (fun ws => s.supersede ws.currentSubmission)
  let ownerSession ← session actor
  refuseIf (∃ u ∈ s.submissions, u.attempt = attempt ∨
      (u.task = subject.task.id ∧ u.supersededAt = none)) .recordConflict
  let mode := s.reviewModeFloor subject.task.id subject.project.reviewMode
  refuseIf (input.acAmendment ≠ none ∧ neededReviews mode = [])
    (.conflict "amendment_review_required"
      ("An ac_amendment needs a reviewer to accept it; this project's review_mode is none."))
  return s.writeSubmission actor ownerSession attempt subject input canonical roster mode

end AgentCoordinator
