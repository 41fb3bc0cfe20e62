import AgentCoordinator.Backlog.Basic

/-
Admission control.

A task created by an agent without a fix class or the canary exemption uses a place of its
project's weekly budget, or is held as planned when the places are used up. Tasks the service
creates carry their class and are never held. The budget is decided once, when the task is created.
-/

namespace AgentCoordinator

open Guarded Tabular

/-! ### Weeks -/

/-- `WEEK_MS`. -/
def weekMs : Time := 7 * dayMs

/-- `week_start`: Monday 00:00 UTC of the ISO week holding `now`. -/
def weekStart (now : Time) : Time :=
  let days := now / dayMs
  -- 1970-01-01 was a Thursday, three days after that week's Monday
  (days - (days + 3) % 7) * dayMs

example : weekStart 1791158400000 = 1791158400000 := by decide

example : weekStart 0 = -3 * dayMs := by decide

/-! ### Classes -/

/-- The part of the service's configuration that admission reads; principals by account. -/
structure Config where
  agentTaskWeeklyBudget : Nat
  canaryPrincipals : List Id
  fixClassPrincipals : List Id

/-- A requested `admission_class`, valid by `validate_class`. -/
inductive RequestedClass
  | canary
  | fix (fixClass : AdmissionClass)
  deriving DecidableEq, Repr

/-- The fix class of a request. -/
def RequestedClass.fix? : RequestedClass → Option AdmissionClass
  | .canary => none
  | .fix fixClass => some fixClass

/-- The word of a class. -/
def AdmissionClass.word : AdmissionClass → String
  | .revert => "revert"
  | .fixTarget => "fix_target"
  | .deflake => "deflake"
  | .refusalFix => "refusal_fix"

/-- `Origin::of_principal`. -/
def Origin.ofPrincipal : PrincipalKind → Origin
  | .agent => .agent
  | .human => .human

/-- `AdmissionEvidence`. -/
structure AdmissionEvidence where
  result : Option Id
  checkName : Option String
  report : Option Id

/-- `unbacked`. -/
def unbacked (fixClass : AdmissionClass) (why : String) : AppError :=
  .forbidden ("An agent may set the " ++ fixClass.word ++ " admission class only with " ++
    "admission_evidence the service can verify, or when the operator designates its principal. " ++
    why ++ " Create the task without a class to have the weekly budget count it.")

/-- Some observation found the result in the target. -/
def Db.landedResult (s : Db) (result : Id) : Bool :=
  s.ext.integratorObservations.any fun o => o.result = result &&
    decide (o.disposition = .published ∨ o.disposition = .alreadyContained ∨
      o.disposition = .publishedAfterReopen)

/-- A check of the result failed, the named one if one is named. -/
def Db.failedCheck (s : Db) (result : Id) (checkName : Option String) : Bool :=
  s.ext.integratorReceipts.any fun f => f.result = result &&
    decide (f.conclusion ∉ [Conclusion.success, .neutral, .skipped]) &&
      checkName.all fun name => f.checkName == name

/-- The records of the project that back a class. -/
def Backlog.backs (b : Backlog) (project : Id) (fixClass : AdmissionClass)
    (evidence : AdmissionEvidence) : Bool :=
  let s := b.work.db
  let ofProject (result : Id) : Bool :=
    (s.ext.integratorResults.get? result).any fun r => r.project = project
  match fixClass, evidence.result, evidence.checkName, evidence.report with
  | .revert, some result, none, none => ofProject result && s.landedResult result
  | .fixTarget, some result, checkName, none => ofProject result && s.failedCheck result checkName
  | .fixTarget, none, none, some report =>
    b.reports.any fun r => r.id = report && r.project = project && r.kind = .fixTarget
  | .deflake, none, none, some report =>
    b.reports.any fun r => r.id = report && r.project = project && r.kind = .flaky
  | _, _, _, _ => false

/-- `verify_evidence`. -/
def verifyEvidence (b : Backlog) (project : Id) (fixClass : AdmissionClass)
    (evidence : Option AdmissionEvidence) : Except AppError Unit := do
  let evidence ← okOr evidence (unbacked fixClass "No admission_evidence was given.")
  refuseIf (b.backs project fixClass evidence = false)
    (unbacked fixClass
      "The admission_evidence does not name a matching record of this project.")

/-! ### Admitting -/

/-- `Admission`, without the numbers its response reports. -/
structure Admission where
  origin : Origin
  admissionClass : Option AdmissionClass
  exempt : Bool
  /-- The budget held the task. -/
  held : Bool
  /-- The task used a place of the budget. -/
  consumed : Bool

/-- The task used a place of the budget in the week that starts at `start`. -/
def Backlog.admittedAt (b : Backlog) (project : Id) (start : Time) (t : Task) : Prop :=
  t.project = project ∧ (b.origins.get? t.id).any (fun o =>
    o.budgetAdmittedAt.any fun time => start ≤ time ∧ time < start + weekMs) = true

instance (b : Backlog) (project : Id) (start : Time) : DecidablePred (b.admittedAt project start) :=
  fun t => by unfold Backlog.admittedAt; infer_instance

/-- `admitted_in_week`. -/
def Backlog.admittedInWeek (b : Backlog) (project : Id) (start : Time) : Nat :=
  (b.work.db.tasks.filter (b.admittedAt project start)).length

/-- What an agent that sets a fix class needs. -/
def ensureBacked (config : Config) (b : Backlog) (actor : Actor) (project : Id)
    (fixClass : Option AdmissionClass) (evidence : Option AdmissionEvidence) :
    Except AppError Unit :=
  match fixClass with
  | none => return
  | some fixClass =>
    if actor.kind = .agent ∧ actor.id ∉ config.fixClassPrincipals then
      verifyEvidence b project fixClass evidence
    else return

/-- `admit`. -/
def admitTask (config : Config) (b : Backlog) (actor : Actor) (project : Id) (planned : Bool)
    (requested : Option RequestedClass) (evidence : Option AdmissionEvidence) :
    Except AppError Admission := do
  let exempt := decide (requested = some .canary)
  refuseIf (exempt = true ∧ ¬ (actor.kind = .agent ∧ actor.id ∈ config.canaryPrincipals))
    (.forbidden ("Only an agent principal the service designates as a canary may use the canary " ++
      "admission class."))
  let fixClass := requested.bind RequestedClass.fix?
  ensureBacked config b actor project fixClass evidence
  let budgeted := decide (actor.kind = .agent) && fixClass.isNone && !exempt
  let admitted := if budgeted then b.admittedInWeek project (weekStart b.work.db.now) else 0
  let within := decide (admitted < config.agentTaskWeeklyBudget)
  return {
    origin := .ofPrincipal actor.kind
    admissionClass := fixClass
    exempt
    held := budgeted && !planned && !within
    consumed := budgeted && !planned && within }

/-- `record`: the admission columns of a new task. -/
def Backlog.recordOrigin (b : Backlog) (task : Id) (admission : Admission) : Backlog :=
  { b with
    origins := b.origins.put
      { task := task
        origin := admission.origin
        admissionClass := admission.admissionClass
        budgetExempt := admission.exempt
        budgetAdmittedAt := if admission.consumed then some b.work.db.now else none } }

/-- The columns of a task the service or an import creates. -/
def Backlog.setOrigin (b : Backlog) (task : Id) (origin : Origin)
    (admissionClass : Option AdmissionClass) : Backlog :=
  { b with origins := b.origins.put ⟨task, origin, admissionClass, false, none⟩ }

/-! ### Creating tasks and objectives -/

/-- `create_task`, with its admission. -/
def Backlog.createTask (config : Config) (b : Backlog) (actor : Actor) (project : Id)
    (input : TaskInput) (requested : Option RequestedClass) (evidence : Option AdmissionEvidence) :
    Except AppError Backlog := do
  validateDefinition input.fields input.priority
    "kind must be code/general and priority 0 (urgent) through 3 (low)."
  let _ ← activeProject b.work.db project
  let admission ← admitTask config b actor project input.planned requested evidence
  let id := b.work.db.tasks.fresh
  let w ← AgentCoordinator.createTask b.work actor project input admission.held
  return ({ b with work := w }.recordOrigin id admission).record project "task.created"

/-- `create_objective`, with its admission. -/
def Backlog.createObjective (config : Config) (b : Backlog) (actor : Actor) (project : Id)
    (input : ObjectiveInput) : Except AppError Backlog := do
  validateDefinition input.fields input.priority "priority must be between 0 and 3."
  validateChildInput input.children
  let _ ← okOr (b.work.db.projects.get? project) .notFound
  let admission ← admitTask config b actor project input.planned none none
  let id := b.work.db.tasks.fresh
  let w ← AgentCoordinator.createObjective b.work actor project input admission.held
  return ({ b with work := w }.recordOrigin id admission).record project "objective.created"

end AgentCoordinator
