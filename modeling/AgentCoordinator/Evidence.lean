import AgentCoordinator.Access

/-
What the handlers read about a task before they let work on it go on.

Three questions recur in every handler: is the earlier work of a task quiescent (no held
reservation, no producer job in doubt), are the decisions scoped to it resolved, and who
contributed to it. None of them writes anything.
-/

namespace AgentCoordinator

open Guarded Tabular

/-! ### Judged fields -/

/-- `task_digest`: the fields a reviewer judges. -/
def Task.digest (t : Task) : TaskDigest := ⟨t.title, t.description, t.acceptance, t.kind⟩

/-- `revision_task_digest`: the judged fields as recorded at a revision, if it was saved. -/
def Db.revisionTaskDigest (s : Db) (task : Id) (revision : Int) : Option TaskDigest :=
  (s.taskRevisions.get? (task, revision)).map (·.fields)

/-! ### Earlier work -/

/-- `ensure_attempt_quiescent`: no held reservation and no unresolved job of the task. -/
def ensureAttemptQuiescent (s : Db) (project task : Id) : Except AppError Unit :=
  refuseIf
    ((∃ a ∈ s.attempts, a.project = project ∧ a.task = task ∧ a.id ∈ s.ext.heldReservations) ∨
      ∃ j ∈ s.ext.jobs, j.project = project ∧ j.task = task ∧
        j.state ∉ [JobState.succeeded, .failed, .notStarted] ∧ j.reconciledAt = none)
    (.conflict "attempt_evidence_unresolved"
      "Resource holds or producer observations still require inspection and resolution.")

/-- `ensure_workflow_quiescent`: every activity task of the subject is quiescent. -/
def ensureWorkflowQuiescent (s : Db) (project subjectTask : Id) : Except AppError Unit :=
  (s.workflowActivities.filter
    (fun wa => wa.project = project ∧ wa.subjectTask = subjectTask)).forM
      (fun wa => ensureAttemptQuiescent s project wa.activityTask)

/-- `ensure_required_children_done`: every required child of the objective is done. -/
def ensureRequiredChildrenDone (s : Db) (project objective : Id) : Except AppError Unit :=
  refuseIf
    (∃ oc ∈ s.ext.requiredChildren, oc.1 = objective ∧
      (s.tasks.get? oc.2).any (fun t => t.project = project ∧ t.lifecycle ≠ .done) = true)
    (.conflict "objective_children_incomplete"
      "Complete every required child before starting or completing this objective's own work.")

/-! ### Scoped decisions -/

/-- The scope of a decision changed since its cycle opened: the rules text of its project, or the
judged fields of a task it affects. -/
def Db.decisionStale (s : Db) (d : ScopedDecision) : Bool :=
  (s.projects.get? d.project).any (fun p =>
    match s.policyRevisions.get? (d.project, d.policyRevision) with
    | some pr => pr.rules ≠ p.rules
    | none => d.policyRevision ≠ p.policyRevision) ||
  d.affected.any (fun target =>
    (s.tasks.get? target.1).any (fun t =>
      t.revision ≠ target.2 ∧ s.revisionTaskDigest target.1 target.2 ≠ some t.digest))

/-- `pending_decision_ids` names some decision scoped to the task. -/
def Db.decisionPending (s : Db) (project task : Id) : Bool :=
  s.ext.decisions.any (fun d =>
    d.project = project && d.affected.any (fun target => target.1 = task) &&
      (s.decisionStale d || d.allowed != some true || d.expiresAt.any (fun e => e ≤ s.now)))

/-- `ensure_decisions_resolved`. -/
def ensureDecisionsResolved (s : Db) (project task : Id) : Except AppError Unit :=
  refuseIf (s.decisionPending project task = true)
    (.conflict "decision_required"
      ("Resolve or reopen the current scoped decision before continuing " ++
        "ownership-dependent work."))

/-- `INSTRUCTION_VERSION`. -/
def instructionVersion : String := "12"

/-- `instructions_acknowledged`: under the current instruction version and rules text. -/
def Db.instructionsAcknowledged (s : Db) (session project : Id) : Bool :=
  s.ext.acknowledgments.any (fun ia =>
    ia.session = session && ia.project = project && ia.instructionVersion == instructionVersion &&
      (s.projects.get? project).any (fun p =>
        ia.policyRevision = p.policyRevision ||
          (s.policyRevisions.get? (project, ia.policyRevision)).any (fun pr => pr.rules = p.rules)))

/-! ### Contributors and launches -/

/-- `record_contributor`: a contributor is recorded once. -/
def Db.recordContributor (s : Db) (task principal session : Id) : Db :=
  { s with taskContributors :=
      if ⟨task, principal, session⟩ ∈ s.taskContributors then s.taskContributors
      else s.taskContributors ++ [⟨task, principal, session⟩] }

/-- The subagent identity a session acts under, where the project lets subagents review. -/
def Db.subagentIdentity (s : Db) (project principal session : Id) : Option Id :=
  (s.ext.agentSessions.get? session).bind (fun r =>
    r.subagentIdentity.filter (fun i =>
      r.principal = principal && s.ext.subagentIdentities.contains (i, project) &&
        (s.projects.get? project).any (·.allowSubagentReviews)))

/-- `contributed`: this principal, or this subagent identity, is a recorded contributor. -/
def Db.contributed (s : Db) (project task principal session : Id) : Bool :=
  match s.subagentIdentity project principal session with
  | some identity => s.taskContributors.any (fun tc =>
      tc.task = task && (tc.session = session ||
        (s.ext.agentSessions.get? tc.session).any (fun r => r.subagentIdentity = some identity)))
  | none => s.taskContributors.any (fun tc =>
      tc.task = task && (tc.principal = principal || tc.session = session))

/-- `LAUNCH_WALK_CAP`: the deepest parent hop the launch walks follow. -/
def launchWalkCap : Nat := 64

/-- The root of a session's parent chain, unless the chain is deeper than the fuel. -/
def External.climb (x : External) : Nat → AgentSession → Option Id
  | fuel, r => match r.parentSession with
    | none => some r.id
    | some parent => match fuel, x.agentSessions.get? parent with
      | fuel + 1, some up => x.climb fuel up
      | _, _ => none

/-- `launch_root`. -/
def External.launchRoot (x : External) (session : Id) : Option Id :=
  match x.agentSessions.get? session with
  | none => some session
  | some r => x.climb launchWalkCap r

/-- The parent chain of a session ends in `launch`, or is too deep to resolve. -/
def External.reaches (x : External) (launch : Id) : Nat → AgentSession → Bool
  | fuel, r => match r.parentSession with
    | none => r.id = launch
    | some parent => match fuel with
      | 0 => true
      | fuel + 1 => (x.agentSessions.get? parent).elim false (x.reaches launch fuel)

/-- `launch_contributed`. -/
def Db.launchContributed (s : Db) (task launch : Id) : Bool :=
  s.taskContributors.any (fun tc => tc.task = task &&
    match s.ext.agentSessions.get? tc.session with
    | none => tc.session = launch
    | some r => s.ext.reaches launch launchWalkCap r)

/-- `launch_shared`: fails closed when the session's own launch cannot be resolved. -/
def Db.launchShared (s : Db) (tasks : List Id) (session : Id) : Bool :=
  match s.ext.launchRoot session with
  | none => true
  | some launch => tasks.any (fun task => s.launchContributed task launch)

/-- `stacked_contributor_tasks`: tasks whose commits the candidate's landing range carries. -/
def Db.stackedContributorTasks (s : Db) (task : Id) : List Id :=
  (s.ext.integratorResults.filter (fun r =>
    (s.workflowSubjects.get? task).any (fun ws => ws.currentSubmission = r.submission))).flatMap
      (·.contributorTasks)

/-- `ensure_independent_reviewer`. -/
def ensureIndependentReviewer (s : Db) (project task principal session : Id)
    (independence : Option ReviewIndependence) : Except AppError Unit := do
  let tasks := s.stackedContributorTasks task ++ [task]
  refuseIf (tasks.any (fun candidate => s.contributed project candidate principal session) = true)
    (.conflict "reviewer_not_independent"
      ("A recorded contributor cannot review this task. Shared-credential subagents require " ++
        "explicit project policy and a separate non-contributing identity."))
  refuseIf (independence = some .distinctLaunch ∧ s.launchShared tasks session = true)
    (.conflict "reviewer_shares_launch"
      ("A distinct_launch review cannot come from the launch of a recorded contributor. Review " ++
        "from a separate launch, or record the review without distinct_launch."))

end AgentCoordinator
