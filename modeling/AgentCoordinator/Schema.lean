import AgentCoordinator.Library.Table

/-
The service's tables.

Every table the coordination and workflow handlers write is a field of `Db`; the tables they only
read (accounts, sessions, jobs, decisions, …) are fields of `External`, which the rest of the
service changes. A closed set of words in a `CHECK` constraint is an inductive type, an identity
is a number, and a millisecond timestamp is an integer. A row keeps the columns that some handler
of this development reads, or that says why the row is in its state.
-/

namespace AgentCoordinator

open Tabular

/-- The identity of a record (a UUID in the service). -/
abbrev Id := Nat

/-- Service time in milliseconds. -/
abbrev Time := Int

/-! ### Closed sets of words -/

/-- `principals.kind`. -/
inductive PrincipalKind | human | agent
  deriving DecidableEq, Repr

/-- `principals.role`. -/
inductive Role | admin | operator | agent
  deriving DecidableEq, Repr

/-- `credentials.class`. -/
inductive CredentialClass | interactive | supervised | integrator
  deriving DecidableEq, Repr

/-- `credentials.access`. -/
inductive CredentialAccess | read | write
  deriving DecidableEq, Repr

/-- `tasks.kind` and `submissions.kind`. -/
inductive WorkKind | code | general
  deriving DecidableEq, Repr

/-- `tasks.lifecycle`. -/
inductive Lifecycle | planned | «open» | done | canceled | superseded
  deriving DecidableEq, Repr

/-- `attempts.state`. -/
inductive AttemptState | active | released | blocked | expired | canceled | submitted
  deriving DecidableEq, Repr

/-- `attempts.mode`. -/
inductive AttemptMode | work | recovery
  deriving DecidableEq, Repr

/-- `projects.review_mode`. -/
inductive ReviewMode | none | agent | human | both | either
  deriving DecidableEq, Repr

/-- `projects.recovery_mode`. -/
inductive RecoveryMode | agent | manual
  deriving DecidableEq, Repr

/-- `projects.integration_owner`. -/
inductive IntegrationOwner | agent | integrator
  deriving DecidableEq, Repr

/-- `workflow_subjects.phase`. -/
inductive Phase | review | integration | revisionNeeded | done
  deriving DecidableEq, Repr

/-- `workflow_activities.kind`. -/
inductive ActivityKind | agentReview | humanReview | eitherReview | integration
  deriving DecidableEq, Repr

/-- `workflow_activities.state`. -/
inductive ActivityState | queued | active | completed | canceled | recoveryRequired
  deriving DecidableEq, Repr

/-- `integration_holds.state`. -/
inductive HoldState | held | released
  deriving DecidableEq, Repr

/-- `review_decisions.decision`. -/
inductive Decision | approved | changesRequested
  deriving DecidableEq, Repr

/-- `review_decisions.amendment_decision`. -/
inductive AmendmentDecision | accepted | rejected
  deriving DecidableEq, Repr

/-- `review_decisions.review_independence`. -/
inductive ReviewIndependence | distinctLaunch | distinctHost | distinctVendor
  deriving DecidableEq, Repr

/-- `integration_results.publication_state`. -/
inductive PublicationState | published | notPublished | uncertain
  deriving DecidableEq, Repr

/-- `publication_reconciliations.disposition`. -/
inductive Disposition | published | notPublished | targetMoved
  deriving DecidableEq, Repr

/-- `jobs.state`. -/
inductive JobState | registered | running | unknown | succeeded | failed | notStarted
  deriving DecidableEq, Repr

/-- `task_reverts.mode`. -/
inductive RevertMode | mechanical | notMechanical
  deriving DecidableEq, Repr

/-- `task_reverts.reason`. -/
inductive RevertReason | defect | authorWithdraw | auditRejection | human
  deriving DecidableEq, Repr

/-- Why a revert is not mechanical. -/
inductive NotMechanicalReason | conflict | checkFailed
  deriving DecidableEq, Repr

/-- `integrator_observations.disposition`. -/
inductive ObservedDisposition
  | published | alreadyContained | publishedAfterReopen | notPublished | targetMoved
  deriving DecidableEq, Repr

/-- `integrator_receipts.conclusion`. -/
inductive Conclusion
  | success | failure | cancelled | timedOut | neutral | skipped | actionRequired | stale
  | startupFailure
  deriving DecidableEq, Repr

/-- `integrator_revise_requests.resolution`. -/
inductive ReviseResolution | applied | followUp
  deriving DecidableEq, Repr

/-- `service_state.coordination_state`. -/
inductive CoordinationState | ready | restoreReconciliation
  deriving DecidableEq, Repr

/-! ### Values inside rows -/

/-- One entry of a required-check roster. -/
structure RequiredCheck where
  identity : String
  version : String
  environment : String
  deriving DecidableEq, Repr

/-- The judged fields of a task. The service stores the SHA-256 digest of their canonical JSON;
here the digest is the fields themselves. -/
structure TaskDigest where
  title : String
  description : String
  acceptance : List String
  kind : WorkKind
  deriving DecidableEq, Repr

/-- A proposed change of the acceptance criteria (`submissions.ac_amendment_json`). -/
structure AcAmendment where
  old : List String
  new : List String
  rationale : String
  deriving DecidableEq, Repr

/-! ### Coordination rows -/

/-- `projects`. -/
structure Project where
  id : Id
  repositoryUrl : String
  targetBranch : String
  policyRevision : Int
  reviewMode : ReviewMode
  recoveryMode : RecoveryMode
  leaseSeconds : Int
  rules : String
  agentRuleEditing : Bool
  automaticIntegration : Bool
  allowSubagentReviews : Bool
  integrationOwner : IntegrationOwner
  maxAttemptSeconds : Int
  allowRelayedHumanAnswers : Bool
  archivedAt : Option Time

/-- `policy_revisions`: the rules text a policy revision carried, and whether it let agents relay
human answers. -/
structure PolicyRevision where
  project : Id
  revision : Int
  rules : String
  actor : Id
  createdAt : Time
  allowRelayedHumanAnswers : Bool

/-- `tasks`. -/
structure Task where
  id : Id
  project : Id
  title : String
  description : String
  acceptance : List String
  kind : WorkKind
  priority : Int
  lifecycle : Lifecycle
  revision : Int
  generation : Int
  currentAttempt : Option Id
  blockedReason : Option String
  readySince : Time
  archivedAt : Option Time
  deletedAt : Option Time
  humanDelivered : Bool

/-- `task_revisions`: the judged fields a task had at a revision. -/
structure TaskRevision where
  task : Id
  revision : Int
  fields : TaskDigest

/-- `attempts`: one grant of ownership over a task. -/
structure Attempt where
  id : Id
  project : Id
  task : Id
  owner : Id
  session : Id
  credential : Option Id
  generation : Int
  state : AttemptState
  mode : AttemptMode
  expiresAt : Time
  lastHeartbeatAt : Time
  lastProgressAt : Time
  createdAt : Time
  endedAt : Option Time
  outcome : Option String
  taskRevision : Option Int
  policyRevision : Option Int

/-- `checkpoints`. -/
structure Checkpoint where
  attempt : Id
  revision : Option String
  createdAt : Time

/-- `task_contributors`. -/
structure TaskContributor where
  task : Id
  principal : Id
  session : Id
  deriving DecidableEq

/-- `events`. -/
structure Event where
  actor : Id
  kind : String
  record : Id
  createdAt : Time

/-! ### Workflow rows -/

/-- `submissions`: an immutable candidate. -/
structure Submission where
  id : Id
  project : Id
  task : Id
  attempt : Id
  kind : WorkKind
  taskRevision : Int
  projectPolicyRevision : Int
  workflowPolicyRevision : Int
  canonicalRepositoryKey : Option String
  repositoryUrl : Option String
  targetBranch : Option String
  baseRevision : Option String
  candidateRevision : Option String
  candidateTree : Option String
  candidateRef : Option String
  createdBy : Id
  contributorSession : Id
  createdAt : Time
  supersededAt : Option Time
  taskDigest : Option TaskDigest
  acAmendment : Option AcAmendment

/-- `workflow_subjects`: where the current submission of a task stands. -/
structure WorkflowSubject where
  task : Id
  project : Id
  currentSubmission : Id
  phase : Phase
  updatedAt : Time

/-- `workflow_activities`: one review of, or one integration of, a submission. -/
structure WorkflowActivity where
  id : Id
  project : Id
  subjectTask : Id
  submission : Id
  activityTask : Id
  kind : ActivityKind
  slot : Nat
  state : ActivityState
  createdAt : Time
  completedAt : Option Time
  canceledAt : Option Time
  cancelCode : Option String
  cancelDetail : Option String

/-- `review_decisions`. -/
structure ReviewDecision where
  activity : Id
  submission : Id
  attempt : Id
  reviewer : Id
  reviewerSession : Id
  decision : Decision
  createdAt : Time
  amendmentDecision : Option AmendmentDecision
  reviewIndependence : Option ReviewIndependence
  invalidatedAt : Option Time

/-- `integration_authorizations`. -/
structure IntegrationAuthorization where
  activity : Id
  submission : Id
  projectPolicyRevision : Int
  workflowPolicyRevision : Int
  actor : Id
  createdAt : Time
  invalidatedAt : Option Time
  authorizationRevision : Int

/-- `integration_holds`: the lock on one target branch of one repository. -/
structure IntegrationHold where
  id : Id
  activity : Id
  canonicalRepositoryKey : String
  targetBranch : String
  state : HoldState
  acquiredBy : Id
  acquiredAt : Time
  releasedBy : Option Id
  releasedAt : Option Time
  releaseReason : Option String

/-- `publication_intents`. -/
structure PublicationIntent where
  activity : Id
  submission : Id
  attempt : Id
  observedTargetRevision : String
  observedTargetTree : String
  resultRevision : String
  resultTree : String
  createdBy : Id
  createdAt : Time
  rosterRevision : Option Int

/-- `integration_results`. -/
structure IntegrationResult where
  activity : Id
  submission : Id
  attempt : Id
  publicationState : PublicationState
  observedTargetRevision : String
  resultRevision : String
  resultTree : String
  checkJobIds : List Id
  reportedBy : Id
  createdAt : Time

/-- `publication_reconciliations`. -/
structure PublicationReconciliation where
  activity : Id
  submission : Id
  disposition : Disposition
  observedTargetRevision : String
  observedTargetTree : String
  actor : Id
  createdAt : Time

instance : Keyed Project Id := ⟨(·.id)⟩
instance : Keyed PolicyRevision (Id × Int) := ⟨fun r => (r.project, r.revision)⟩
instance : Keyed Task Id := ⟨(·.id)⟩
instance : Keyed TaskRevision (Id × Int) := ⟨fun r => (r.task, r.revision)⟩
instance : Keyed Attempt Id := ⟨(·.id)⟩
instance : Keyed Submission Id := ⟨(·.id)⟩
instance : Keyed WorkflowSubject Id := ⟨(·.task)⟩
instance : Keyed WorkflowActivity Id := ⟨(·.id)⟩
instance : Keyed ReviewDecision Id := ⟨(·.activity)⟩
instance : Keyed IntegrationAuthorization Id := ⟨(·.activity)⟩
instance : Keyed IntegrationHold Id := ⟨(·.id)⟩
instance : Keyed PublicationIntent Id := ⟨(·.activity)⟩
instance : Keyed IntegrationResult Id := ⟨(·.activity)⟩
instance : Keyed PublicationReconciliation Id := ⟨(·.activity)⟩

/-! ### Tables of the rest of the service -/

/-- `principals`. -/
structure Principal where
  id : Id
  kind : PrincipalKind
  role : Role
  disabledAt : Option Time

/-- `credentials`. -/
structure Credential where
  id : Id
  principal : Id
  «class» : CredentialClass
  access : CredentialAccess
  revokedAt : Option Time
  expiresAt : Option Time

/-- `agent_sessions`. -/
structure AgentSession where
  id : Id
  principal : Id
  credential : Id
  subagentIdentity : Option Id
  parentSession : Option Id
  closedAt : Option Time

/-- `browser_sessions`. -/
structure BrowserSession where
  id : Id
  principal : Id
  expiresAt : Time
  revokedAt : Option Time

/-- `instruction_acknowledgments`. -/
structure InstructionAcknowledgment where
  session : Id
  project : Id
  policyRevision : Int
  instructionVersion : String

/-- `jobs`. -/
structure Job where
  id : Id
  project : Id
  task : Id
  attempt : Id
  state : JobState
  exitCode : Option Int
  inputsUnchanged : Option Bool
  reconciledAt : Option Time
  sourceRevision : String
  sourceTree : String
  checkIdentity : Option String
  checkVersion : Option String
  checkEnvironment : Option String

/-- `decisions` with their current cycle (`decision_cycles`), its answer (`decision_answers`) and
the tasks it affects (`decision_affected_tasks`, each with the task revision it was opened at). -/
structure ScopedDecision where
  id : Id
  project : Id
  policyRevision : Int
  expiresAt : Option Time
  affected : List (Id × Int)
  /-- The answer's disposition is `allow`, and whether its conditions are confirmed. -/
  allowed : Option Bool

/-- `task_reverts`: the published result a revert task undoes. -/
structure TaskRevert where
  task : Id
  project : Id
  result : Id
  submission : Id
  originalTask : Id
  r : String
  reason : RevertReason
  /-- `evidence_text` of the recorded evidence. -/
  evidence : String
  mode : RevertMode
  reviewRequired : Bool
  /-- Tip and reason of the report that converted it. -/
  notMechanical : Option (String × NotMechanicalReason)
  createdBy : Id
  createdAt : Time

/-- One check of the roster that the integrator read from a target tip. -/
structure RosterCheck where
  identity : String
  checkName : String
  workflowPath : String
  workflowBlob : String
  deriving DecidableEq, Repr

/-- `integrator_results`: a result `r` computed for a candidate `c` on the target tip `t0`. -/
structure IntegratorResult where
  id : Id
  project : Id
  submission : Id
  t0 : String
  t0Tree : String
  c : String
  r : String
  rTree : String
  landingRange : List String
  roster : List RosterCheck
  createdBy : Id
  createdAt : Time
  authorityIssuedAt : Option Time
  contributorTasks : List Id

/-- `integrator_receipts`: a run of a check on a result. -/
structure IntegratorReceipt where
  result : Id
  checkName : String
  runId : Int
  runAttempt : Int
  workflowBlob : String
  conclusion : Conclusion

/-- `integrator_observations`: what the integrator saw at the target of a result. -/
structure IntegratorObservation where
  result : Id
  tip : String
  disposition : ObservedDisposition
  observedAt : Time

/-- `integrator_revises`: a revise of the integrator itself. -/
structure IntegratorRevise where
  submission : Id
  task : Id
  reasonCode : String
  movedByResult : Option Id
  landingTask : Option Id
  serializedAfter : Option Id
  parkReason : Option String
  revisedAt : Time

/-- `integrator_revise_requests`: an agent's revise that waits for a push. -/
structure ReviseRequest where
  submission : Id
  result : Id
  requestedBy : Id
  reason : String
  reasonCode : String
  evidence : Option String
  requestedAt : Time
  resolvedAt : Option Time
  resolution : Option ReviseResolution
  followUpTask : Option Id

/-- `workflow_policies` and `workflow_policy_revisions`: the rosters of a project, the current one
first, and its canonical repository key. -/
structure WorkflowPolicy where
  project : Id
  revision : Int
  canonicalRepositoryKey : String
  rosters : List (Int × List RequiredCheck)

instance : Keyed Principal Id := ⟨(·.id)⟩
instance : Keyed Credential Id := ⟨(·.id)⟩
instance : Keyed AgentSession Id := ⟨(·.id)⟩
instance : Keyed BrowserSession Id := ⟨(·.id)⟩
instance : Keyed Job Id := ⟨(·.id)⟩
instance : Keyed TaskRevert Id := ⟨(·.task)⟩
instance : Keyed IntegratorResult Id := ⟨(·.id)⟩
instance : Keyed IntegratorRevise Id := ⟨(·.submission)⟩
instance : Keyed ReviseRequest Id := ⟨(·.submission)⟩
instance : Keyed WorkflowPolicy Id := ⟨(·.project)⟩

/-- The tables the handlers of this development read and the rest of the service writes. -/
structure External where
  coordinationState : CoordinationState
  principals : Table Principal
  credentials : Table Credential
  agentSessions : Table AgentSession
  browserSessions : Table BrowserSession
  /-- `subagent_identities`: identity and project. -/
  subagentIdentities : List (Id × Id)
  acknowledgments : List InstructionAcknowledgment
  /-- `reservations` in state `held`, by attempt. -/
  heldReservations : List Id
  jobs : Table Job
  decisions : List ScopedDecision
  /-- `objective_children` with `required=1`: objective task and child task. -/
  requiredChildren : List (Id × Id)
  /-- `task_dependencies`: task and prerequisite. -/
  dependencies : List (Id × Id)
  /-- `checkouts`: attempt and base revision. -/
  checkouts : List (Id × String)
  reverts : Table TaskRevert
  integratorResults : Table IntegratorResult
  integratorReceipts : List IntegratorReceipt
  integratorObservations : List IntegratorObservation
  integratorRevises : Table IntegratorRevise
  reviseRequests : Table ReviseRequest
  workflowPolicies : Table WorkflowPolicy

/-- The database, with the time of the transaction that reads it. -/
structure Db where
  /-- Service time as `sample_clock` returns it inside the writer lock. -/
  now : Time
  /-- `clock_state.status = 'clock_reconciliation'`. -/
  clockIncident : Bool
  projects : Table Project
  policyRevisions : Table PolicyRevision
  tasks : Table Task
  taskRevisions : Table TaskRevision
  attempts : Table Attempt
  checkpoints : List Checkpoint
  taskContributors : List TaskContributor
  events : List Event
  submissions : Table Submission
  workflowSubjects : Table WorkflowSubject
  workflowActivities : Table WorkflowActivity
  reviewDecisions : Table ReviewDecision
  integrationAuthorizations : Table IntegrationAuthorization
  integrationHolds : Table IntegrationHold
  publicationIntents : Table PublicationIntent
  integrationResults : Table IntegrationResult
  publicationReconciliations : Table PublicationReconciliation
  ext : External

end AgentCoordinator
