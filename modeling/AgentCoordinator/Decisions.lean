import Mathlib.Data.List.Sort
import AgentCoordinator.Workflow.Review

/-
Decisions and their timeout.

A decision asks a question about exact task revisions under an exact policy revision. Each time it
is opened it starts a cycle (a generation), and each generation takes one answer: from the required
actor, relayed from a human, or from the sweep, which answers a reversible decision with its
recommendation once its cycle has waited for 24 hours. A `Docket` is the database with the tables
of the decisions; `Docket.scoped` is the view of one decision that the other handlers read.
-/

namespace AgentCoordinator

open Guarded Tabular

/-! ### Rows -/

/-- `decisions.required_actor`. -/
inductive RequiredActor | human | agent | either
  deriving DecidableEq, Repr

/-- `decision_answers.disposition`. -/
inductive AnswerDisposition | allow | deny | defer
  deriving DecidableEq, Repr

/-- `decisions`. -/
structure DecisionRecord where
  id : Id
  project : Id
  question : String
  options : List String
  rationale : String
  requiredActor : RequiredActor
  currentGeneration : Int
  createdBy : Id
  createdAt : Time
  recommendation : Option String
  reversible : Bool
  deriving DecidableEq

/-- `decision_cycles`. -/
structure DecisionCycle where
  decision : Id
  generation : Int
  policyRevision : Int
  environment : String
  conditions : String
  expiresAt : Option Time
  rationale : String
  openedBy : Id
  createdAt : Time
  deriving DecidableEq

/-- `decision_affected_tasks`. -/
structure AffectedTask where
  decision : Id
  generation : Int
  project : Id
  task : Id
  taskRevision : Int

/-- The relay columns of an answer. -/
structure Relay where
  prompt : String
  response : String
  authorizedBy : Option Id
  policyRevision : Option Int

/-- `decision_answers`. -/
structure DecisionAnswer where
  decision : Id
  generation : Int
  disposition : AnswerDisposition
  answer : String
  rationale : String
  actor : Id
  session : Option Id
  conditionsConfirmed : Bool
  createdAt : Time
  timedOut : Bool
  relay : Option Relay

instance : Keyed DecisionRecord Id := ⟨DecisionRecord.id⟩
instance : Keyed DecisionCycle (Id × Int) := ⟨fun c => (c.decision, c.generation)⟩
instance : Keyed DecisionAnswer (Id × Int) := ⟨fun a => (a.decision, a.generation)⟩

/-- The database, with its decisions. -/
structure Docket where
  db : Db
  decisions : Table DecisionRecord
  cycles : Table DecisionCycle
  affected : List AffectedTask
  answers : Table DecisionAnswer

/-- The tasks a generation of a decision affects. -/
def Docket.affectedBy (k : Docket) (id : Id) (generation : Int) : List AffectedTask :=
  k.affected.filter (fun dt => dt.decision = id ∧ dt.generation = generation)

/-! ### Scope -/

/-- The cycle has run out at `now`. -/
def DecisionCycle.expired (c : DecisionCycle) (now : Time) : Prop :=
  c.expiresAt.any (fun e => e ≤ now) = true

instance (c : DecisionCycle) (now : Time) : Decidable (c.expired now) := by
  unfold DecisionCycle.expired; infer_instance

/-- An affected task has another revision than the one recorded, or another project than the
decision. -/
def Docket.taskStale (k : Docket) (project : Id) (dt : AffectedTask) : Prop :=
  (k.db.tasks.get? dt.task).any (fun t =>
    t.project = dt.project ∧ (dt.project ≠ project ∨ dt.taskRevision ≠ t.revision)) = true

instance (k : Docket) (project : Id) : DecidablePred (k.taskStale project) :=
  fun dt => by unfold Docket.taskStale; infer_instance

/-- `ensure_decision_scope_current`: by the revisions the cycle recorded. -/
def ensureDecisionScopeCurrent (k : Docket) (project id : Id) (generation : Int)
    (c : DecisionCycle) : Except AppError Unit := do
  refuseIf (c.expired k.db.now)
    (.conflict "decision_expired"
      "Reopen the expired decision against current task and policy revisions.")
  let p ← okOr (k.db.projects.get? project) .notFound
  refuseIf (p.policyRevision ≠ c.policyRevision)
    (.conflict "decision_scope_stale"
      "Project policy changed; reopen the decision with the current scope.")
  refuseIf (∃ dt ∈ k.affectedBy id generation, k.taskStale project dt)
    (.conflict "decision_scope_stale"
      "An affected task changed; reopen the decision with exact current revisions.")

/-- The rules text of the project is not the one the cycle was opened under. -/
def Db.rulesChanged (s : Db) (p : Project) (policyRevision : Int) : Bool :=
  match s.policyRevisions.get? (p.id, policyRevision) with
  | some pr => pr.rules ≠ p.rules
  | none => policyRevision ≠ p.policyRevision

/-- The judged fields of an affected task are not those it had at the recorded revision. -/
def Db.judgedChanged (s : Db) (dt : AffectedTask) : Bool :=
  (s.tasks.get? dt.task).any (fun t =>
    t.revision ≠ dt.taskRevision ∧ s.revisionTaskDigest dt.task dt.taskRevision ≠ some t.digest)

/-- `decision_scope_changed`: by the rules text and the judged fields. -/
def decisionScopeChanged (k : Docket) (id : Id) (generation : Int) : Except AppError Bool := do
  let d ← okOr (k.decisions.get? id) .internal
  let c ← okOr (k.cycles.get? (id, generation)) .internal
  let p ← okOr (k.db.projects.get? d.project) .internal
  return k.db.rulesChanged p c.policyRevision ||
    (k.affectedBy id generation).any k.db.judgedChanged

/-- The decision as the handlers that wait for it read it. -/
def Docket.scoped (k : Docket) (d : DecisionRecord) (c : DecisionCycle) : ScopedDecision where
  id := d.id
  project := d.project
  policyRevision := c.policyRevision
  expiresAt := c.expiresAt
  affected := (k.affectedBy d.id d.currentGeneration).map (fun dt => (dt.task, dt.taskRevision))
  allowed := ((k.answers.get? (d.id, d.currentGeneration)).filter
    (fun a => a.disposition = .allow)).map (·.conditionsConfirmed)

/-! ### Reading a decision -/

/-- `status` of a decision. -/
inductive DecisionStatus | pending | allowed | denied | deferred | expired | stale
  deriving DecidableEq, Repr

/-- The status of a current decision with an answer. -/
def DecisionAnswer.status (a : DecisionAnswer) : DecisionStatus :=
  if a.disposition = .allow ∧ a.conditionsConfirmed = true then .allowed
  else if a.disposition = .deny then .denied
  else .deferred

/-- The decision of the project. -/
def Docket.findDecision (k : Docket) (project id : Id) : Option DecisionRecord :=
  (k.decisions.get? id).filter (fun d => d.project = project)

/-- The `status` that `decision_value` reports. -/
def decisionStatus (k : Docket) (project id : Id) : Except AppError DecisionStatus := do
  let d ← okOr (k.findDecision project id) .notFound
  let c ← okOr (k.cycles.get? (id, d.currentGeneration)) .internal
  let stale ← decisionScopeChanged k id d.currentGeneration
  return if stale = true then .stale
    else if c.expired k.db.now then .expired
    else ((k.answers.get? (id, d.currentGeneration)).map DecisionAnswer.status).getD .pending

/-! ### Answering -/

/-- `DecisionRelayInput`. -/
structure RelayInput where
  prompt : String
  response : String

/-- `DecisionAnswerInput`. -/
structure AnswerInput where
  expectedGeneration : Int
  disposition : AnswerDisposition
  answer : String
  rationale : String
  conditionsConfirmed : Bool
  relay : Option RelayInput

/-- What `answer_decision` checks before its transaction. -/
def validateAnswer (input : AnswerInput) : Except AppError Unit := do
  bounded input.answer "answer" 2048 true
  bounded input.rationale "rationale" 8192 true
  refuseIf (input.disposition = .allow ∧ input.conditionsConfirmed = false)
    (.badRequest
      "An allow answer must explicitly confirm the recorded conditions and environment.")
  input.relay.toList.forM fun relay => do
    bounded relay.prompt "relay prompt" 8192 true
    bounded relay.response "relay response" 4096 true

/-- `relay_authority_for`: who turned on relayed answers, and at which policy revision. -/
def relayAuthorityFor (s : Db) (project : Id) : Except AppError (Option (Id × Int)) := do
  let p ← okOr (s.projects.get? project) .notFound
  let revisions := s.policyRevisions.filter (fun pr => pr.project = project)
  let lastOff := (((revisions.filter (fun pr => !pr.allowRelayedHumanAnswers)).map
    (·.revision)).max?).getD 0
  return if p.allowRelayedHumanAnswers then
      (((revisions.filter (fun pr => lastOff < pr.revision)).insertionSort
        (fun pr pr' => pr.revision ≤ pr'.revision)).head?).map (fun pr => (pr.actor, pr.revision))
    else none

/-- The authority a relayed answer rests on; without a relay, the required actor answers. -/
def answerAuthority (s : Db) (actor : Actor) (project : Id) (required : RequiredActor)
    (relay : Option RelayInput) : Except AppError (Option (Id × Int)) :=
  if relay.isSome then do
    refuseIf (required ≠ .human ∨ actor.kind ≠ .agent)
      (.badRequest ("Only an agent session may relay an answer, and only to a decision that " ++
        "requires a human."))
    let authority ← relayAuthorityFor s project
    refuseIf (authority = none)
      (.humanGate "relayed_human_answers_disabled"
        ("This project does not let agents relay human answers. A human must enable " ++
          "allow_relayed_human_answers in project policy, or answer the decision in the web UI."))
    return authority
  else do
    refuseIf ((required = .human ∧ actor.kind ≠ .human) ∨
        (required = .agent ∧ actor.kind ≠ .agent))
      (.forbidden "This decision requires the configured actor type.")
    return none

/-- The answer of a caller. -/
def givenAnswer (now : Time) (actor : Actor) (id : Id) (generation : Int)
    (authority : Option (Id × Int)) (input : AnswerInput) : DecisionAnswer where
  decision := id
  generation := generation
  disposition := input.disposition
  answer := input.answer
  rationale := input.rationale
  actor := actor.id
  session := actor.session
  conditionsConfirmed := input.conditionsConfirmed
  createdAt := now
  timedOut := false
  relay := input.relay.map (fun relay =>
    ⟨relay.prompt, relay.response, authority.map Prod.fst, authority.map Prod.snd⟩)

/-- `answer_decision`. -/
def answerDecision (k : Docket) (actor : Actor) (project id : Id) (input : AnswerInput) :
    Except AppError Docket := do
  validateAnswer input
  let d ← okOr (k.findDecision project id) .notFound
  let c ← okOr (k.cycles.get? (id, d.currentGeneration)) .notFound
  refuseIf (d.currentGeneration ≠ input.expectedGeneration)
    (.conflict "generation_conflict" "Read the current decision generation before answering.")
  let authority ← answerAuthority k.db actor project d.requiredActor input.relay
  refuseIf (actor.kind = .agent ∧ actor.session = none)
    (.forbidden "Connect an agent session before answering a decision.")
  ensureDecisionScopeCurrent k project id d.currentGeneration c
  refuseIf (input.answer ∉ d.options)
    (.badRequest "The answer must exactly match one of the decision options.")
  let answers ← okOr
    (k.answers.insert? (givenAnswer k.db.now actor id d.currentGeneration authority input))
    .recordConflict
  return { k with answers := answers, db := k.db.finish actor "decision.answered" id }

/-! ### Opening -/

/-- `DecisionTaskInput`. -/
structure DecisionTaskInput where
  task : Id
  taskRevision : Int

/-- `validate_decision_tasks`. -/
def validateDecisionTasks (tasks : List DecisionTaskInput) : Except AppError Unit := do
  refuseIf (tasks = [] ∨ tasks.length > 100)
    (.badRequest "A decision must affect 1–100 exact task revisions.")
  refuseIf ((∃ t ∈ tasks, t.taskRevision ≤ 0) ∨ ¬ (tasks.map DecisionTaskInput.task).Nodup)
    (.badRequest "Affected task IDs must be unique and revisions positive.")

/-- The integration of one of the tasks holds its target. -/
def Db.scopeHeld (s : Db) (project : Id) (tasks : List DecisionTaskInput) : Prop :=
  ∃ h ∈ s.integrationHolds, h.state = .held ∧
    (s.workflowActivities.get? h.activity).any (fun wa => wa.project = project ∧
      ∃ t ∈ tasks, wa.subjectTask = t.task ∨ wa.activityTask = t.task) = true

instance (s : Db) (project : Id) (tasks : List DecisionTaskInput) :
    Decidable (s.scopeHeld project tasks) := by
  unfold Db.scopeHeld; infer_instance

/-- One affected task of `validate_decision_scope`. -/
def validateDecisionTask (s : Db) (project : Id) (task : DecisionTaskInput) :
    Except AppError Unit := do
  let t ← okOr ((s.tasks.get? task.task).filter (fun t => t.project = project))
    (.badRequest "Every affected task must belong to the project.")
  refuseIf (t.revision ≠ task.taskRevision)
    (.conflict "revision_conflict"
      "Read each affected task's current revision before recording this decision scope.")

/-- `validate_decision_scope`. -/
def validateDecisionScope (s : Db) (project : Id) (policyRevision : Int)
    (tasks : List DecisionTaskInput) : Except AppError Unit := do
  let p ← okOr (s.projects.get? project) .notFound
  refuseIf (p.policyRevision ≠ policyRevision)
    (.conflict "revision_conflict"
      "Read the current project policy before recording this decision scope.")
  tasks.forM (validateDecisionTask s project)
  refuseIf (s.scopeHeld project tasks)
    (.conflict "policy_hold_conflict"
      ("A decision cannot be opened or rebound after integration publication authority is held. " ++
        "Finish or reconcile that integration first."))

/-- `refuse_agent_reversible_human_decision`. -/
def refuseAgentReversibleHumanDecision (actor : Actor) (required : RequiredActor)
    (reversible : Bool) : Except AppError Unit :=
  refuseIf (actor.kind = .agent ∧ required = .human ∧ reversible = true)
    (.badRequest ("A decision that requires a human cannot be reversible when an agent opens it: " ++
      "it would time out to its recommendation without a human answer. Leave reversible false, or " ++
      "ask a human to open it."))

/-- `repair_decision_task_revisions`: save the affected revisions that are not saved. -/
def repairDecisionTaskRevisions (s : Db) (project : Id) (tasks : List DecisionTaskInput) :
    Except AppError Db :=
  tasks.foldlM (fun s t =>
    if (s.taskRevisions.get? (t.task, t.taskRevision)).isSome then pure s
    else saveTaskRevision s project t.task) s

/-- `insert_decision_tasks`. -/
def Docket.insertDecisionTasks (k : Docket) (id : Id) (generation : Int) (project : Id)
    (tasks : List DecisionTaskInput) : Docket :=
  { k with affected := k.affected ++
      tasks.map (fun t => ⟨id, generation, project, t.task, t.taskRevision⟩) }

/-- What opening a cycle takes, both when a decision is created and when it is reopened. -/
structure CycleInput where
  rationale : String
  affected : List DecisionTaskInput
  policyRevision : Int
  environment : String
  conditions : String
  expiresAt : Option Time

/-- The cycle of a generation, opened by the caller. -/
def CycleInput.cycle (input : CycleInput) (s : Db) (actor : Actor) (id : Id) (generation : Int) :
    DecisionCycle where
  decision := id
  generation := generation
  policyRevision := input.policyRevision
  environment := input.environment
  conditions := input.conditions
  expiresAt := input.expiresAt
  rationale := input.rationale
  openedBy := actor.id
  createdAt := s.now

/-- `DecisionInput`. -/
structure DecisionInput where
  question : String
  options : List String
  requiredActor : RequiredActor
  recommendation : Option String
  reversible : Bool
  opening : CycleInput

/-- The options of a decision, after those in `seen`. -/
def validateOptions : List String → List String → Except AppError Unit
  | [], _ => return
  | option :: options, seen => do
    bounded option "decision option" 2048 true
    refuseIf (option ∈ seen) (.badRequest "Decision options must be unique.")
    validateOptions options (option :: seen)

/-- `validate_decision`. -/
def validateDecision (input : DecisionInput) : Except AppError Unit := do
  bounded input.question "question" 4096 true
  bounded input.opening.rationale "rationale" 8192 true
  bounded input.opening.environment "environment" 2048 false
  bounded input.opening.conditions "conditions" 4096 false
  refuseIf (input.options.length < 2 ∨ input.options.length > 20)
    (.badRequest "Provide 2–20 decision options.")
  validateOptions input.options []
  refuseIf (input.recommendation.any (fun r => r ∉ input.options) = true)
    (.badRequest "The recommendation must exactly match one of the decision options.")
  refuseIf (input.reversible = true ∧ input.recommendation = none)
    (.badRequest "A reversible decision needs a recommendation to proceed with.")
  validateDecisionTasks input.opening.affected
  refuseIf (input.opening.policyRevision ≤ 0)
    (.badRequest "Use a positive current policy_revision.")

/-- `create_decision`. -/
def createDecision (k : Docket) (actor : Actor) (project : Id) (input : DecisionInput) :
    Except AppError Docket := do
  validateDecision input
  refuseAgentReversibleHumanDecision actor input.requiredActor input.reversible
  refuseIf (input.opening.expiresAt.any (fun e => e ≤ k.db.now) = true)
    (.badRequest "expires_at must be in the future.")
  validateDecisionScope k.db project input.opening.policyRevision input.opening.affected
  let s ← repairDecisionTaskRevisions k.db project input.opening.affected
  let id := k.decisions.fresh
  let cycles ← okOr (k.cycles.insert? (input.opening.cycle k.db actor id 1)) .recordConflict
  let k := { k with
    db := s.finish actor "decision.created" id
    decisions := k.decisions.create (fun id =>
      { id := id
        project := project
        question := input.question
        options := input.options
        rationale := input.opening.rationale
        requiredActor := input.requiredActor
        currentGeneration := 1
        createdBy := actor.id
        createdAt := k.db.now
        recommendation := input.recommendation
        reversible := input.reversible })
    cycles := cycles }
  return k.insertDecisionTasks id 1 project input.opening.affected

/-- What `reopen_decision` checks before its transaction. -/
def validateReopen (input : CycleInput) : Except AppError Unit := do
  bounded input.rationale "rationale" 8192 true
  bounded input.environment "environment" 2048 false
  bounded input.conditions "conditions" 4096 false
  validateDecisionTasks input.affected
  refuseIf (input.policyRevision ≤ 0) (.badRequest "Use a positive current policy_revision.")

/-- `reopen_decision`. -/
def reopenDecision (k : Docket) (actor : Actor) (project id : Id) (expectedGeneration : Int)
    (input : CycleInput) : Except AppError Docket := do
  validateReopen input
  refuseIf (input.expiresAt.any (fun e => e ≤ k.db.now) = true)
    (.badRequest "expires_at must be in the future.")
  let d ← okOr (k.findDecision project id) .notFound
  refuseIf (d.currentGeneration ≠ expectedGeneration)
    (.conflict "generation_conflict" "Read the current decision generation before reopening.")
  refuseAgentReversibleHumanDecision actor d.requiredActor d.reversible
  validateDecisionScope k.db project input.policyRevision input.affected
  let s ← repairDecisionTaskRevisions k.db project input.affected
  let next := d.currentGeneration + 1
  let cycles ← okOr (k.cycles.insert? (input.cycle k.db actor id next)) .recordConflict
  let k := { k with
    db := s.finish actor "decision.reopened" id
    decisions := k.decisions.modify (fun d => d.id = id)
      (fun d => { d with currentGeneration := next })
    cycles := cycles }
  return k.insertDecisionTasks id next project input.affected

/-! ### The sweep -/

/-- `DECISION_TIMEOUT_MS`. -/
def decisionTimeoutMs : Time := 24 * 3600000

/-- `SWEEP_BATCH`. -/
def sweepBatch : Nat := 100

/-- A decision with its current cycle. -/
abbrev Docketed := DecisionRecord × DecisionCycle

/-- The decisions with their current cycles. -/
def Docket.current (k : Docket) : List Docketed :=
  k.decisions.rows.filterMap (fun d =>
    (k.cycles.get? (d.id, d.currentGeneration)).map (fun c => (d, c)))

/-- The key of the answer a row waits for. -/
def answerKey (row : Docketed) : Id × Int := (row.1.id, row.1.currentGeneration)

/-- A row of the sweep's query: reversible with a recommendation, waiting for a day without an
answer, and opened by a human where it requires one. -/
def Docket.isDue (k : Docket) (row : Docketed) : Prop :=
  row.1.reversible = true ∧ row.1.recommendation ≠ none ∧
    row.2.createdAt ≤ k.db.now - decisionTimeoutMs ∧
    (row.1.requiredActor ≠ .human ∨
      (k.db.ext.principals.get? row.2.openedBy).any (fun o => o.kind = .human) = true) ∧
    (k.answers.get? (answerKey row)).isNone = true

instance (k : Docket) : DecidablePred k.isDue :=
  fun row => by unfold Docket.isDue; infer_instance

/-- `ORDER BY c.created_at,d.id`. -/
def dueOrder (row row' : Docketed) : Prop :=
  row.2.createdAt < row'.2.createdAt ∨
    (row.2.createdAt = row'.2.createdAt ∧ row.1.id ≤ row'.1.id)

instance : DecidableRel dueOrder := fun row row' => by unfold dueOrder; infer_instance

/-- The rows the sweep reads, without its limit. -/
def Docket.due (k : Docket) : List Docketed :=
  (k.current.filter (fun row => k.isDue row)).insertionSort dueOrder

/-- The answer of the sweep. -/
def timeoutAnswer (now : Time) (row : Docketed) : DecisionAnswer where
  decision := row.1.id
  generation := row.1.currentGeneration
  disposition := .allow
  answer := row.1.recommendation.getD ""
  rationale := "Unanswered for 24 hours; proceeding with the recorded recommendation because " ++
    "the decision is reversible."
  actor := row.1.createdBy
  session := none
  conditionsConfirmed := true
  createdAt := now
  timedOut := true
  relay := none

/-- One row of the sweep: answered with its recommendation, unless its scope is not current. The
identities of the answered decisions are collected. -/
def timeOutRow (swept : Docket × List Id) (row : Docketed) : Except String (Docket × List Id) :=
  let k := swept.1
  match ensureDecisionScopeCurrent k row.1.project row.1.id row.1.currentGeneration row.2 with
  | .error _ => .ok swept
  | .ok _ => do
    let answers ← okOr (k.answers.insert? (timeoutAnswer k.db.now row))
      "timed-out decision answer failed"
    return ({ k with
      answers := answers
      db := { k.db with events := k.db.events ++
        [⟨row.1.createdBy, "decision.timed_out", row.1.id, k.db.now⟩] } }, swept.2 ++ [row.1.id])

/-- `sweep_timed_out_decisions`. -/
def sweepTimedOutDecisions (k : Docket) : Except String (Docket × List Id) := do
  refuseIf (k.db.clockIncident = true)
    "clock_reconciliation_required: decision timeouts wait for a safe clock"
  if k.db.ext.coordinationState = .ready then
    (k.due.take sweepBatch).foldlM timeOutRow (k, [])
  else return (k, [])

/-! ### Runs -/

/-- A step of the service as far as decisions are concerned. The rest of the service changes the
rest of the database, and moves its clock. -/
inductive Docket.Step (k : Docket) : Docket → Prop
  | swept (k' : Docket) (answered : List Id) (h : sweepTimedOutDecisions k = .ok (k', answered)) :
    Step k k'
  | answered (auth : Auth) (actor : Actor) (project id : Id) (input : AnswerInput) (k' : Docket)
    (ha : beginUnpaused k.db auth = .ok actor)
    (h : answerDecision k actor project id input = .ok k') : Step k k'
  | created (auth : Auth) (actor : Actor) (project : Id) (input : DecisionInput) (k' : Docket)
    (ha : beginUnpaused k.db auth = .ok actor)
    (h : createDecision k actor project input = .ok k') : Step k k'
  | reopened (auth : Auth) (actor : Actor) (project id : Id) (generation : Int)
    (input : CycleInput) (k' : Docket) (ha : beginUnpaused k.db auth = .ok actor)
    (h : reopenDecision k actor project id generation input = .ok k') : Step k k'
  | elsewhere (s : Db) : Step k { k with db := s }

/-- Any number of steps, one after another. -/
inductive Docket.Steps (k : Docket) : Docket → Prop
  | refl : Steps k k
  | step {k' k'' : Docket} (h : Steps k k') (h' : Docket.Step k' k'') : Steps k k''

end AgentCoordinator
