import AgentCoordinator.Integrator.Results

/-
The integrator's queue.

The queue serves the subjects in integration whose approvals suffice and whose judged fields are
those their submission pinned, in the order of their priority and then of their time in integration.
The rows are limited before it is decided which of them are eligible.
-/

namespace AgentCoordinator

open Guarded Tabular

/-- `QUEUE_LIMIT`: queue entries returned per call. -/
def queueLimit : Nat := 50

/-! ### Subjects in integration -/

/-- The row of `subjects_sql` of a subject, if it has one. -/
def Db.integrationRow? (s : Db) (project : Id) (ws : WorkflowSubject) :
    Option IntegrableSubject := do
  let ws ← (some ws).filter (fun ws => ws.project = project ∧ ws.phase = .integration)
  let u ← (s.submissions.get? ws.currentSubmission).filter (fun u =>
    u.kind = .code ∧ u.supersededAt = none)
  let t ← s.tasks.get? ws.task
  return ⟨ws, u, t⟩

/-- `subjects_sql`: the subjects of a project in integration, with their current code submission. -/
def Db.integrationRows (s : Db) (project : Id) : List IntegrableSubject :=
  s.workflowSubjects.rows.filterMap (s.integrationRow? project)

/-- `ORDER BY t.priority,ws.updated_at,ws.task_id`. -/
def IntegrableSubject.ahead (row row' : IntegrableSubject) : Prop :=
  row.task.priority < row'.task.priority ∨
    (row.task.priority = row'.task.priority ∧
      (row.subject.updatedAt < row'.subject.updatedAt ∨
        (row.subject.updatedAt = row'.subject.updatedAt ∧ row.subject.task ≤ row'.subject.task)))

instance : DecidableRel IntegrableSubject.ahead := fun row row' => by
  unfold IntegrableSubject.ahead; infer_instance

/-- The subjects in integration, in the order of the queue. -/
def Db.integrationQueue (s : Db) (project : Id) : List IntegrableSubject :=
  (s.integrationRows project).insertionSort IntegrableSubject.ahead

/-! ### Items -/

/-- `queue_item`: one queue entry as served to the integrator. -/
structure QueueItem where
  subjectTask : Id
  submission : Id
  title : String
  priority : Int
  candidateRevision : Option String
  candidateTree : Option String
  candidateRef : Option String
  reviewedBase : Option String
  repositoryUrl : Option String
  targetBranch : Option String
  taskDigest : Option TaskDigest
  revertTask : Option Id
  results : List IntegratorResult

/-- `submission_results`: results already recorded for one submission, oldest first. -/
def Db.submissionResults (s : Db) (submission : Id) : List IntegratorResult :=
  (s.ext.integratorResults.filter (fun r => r.submission = submission)).insertionSort
    (fun r r' => r.createdAt < r'.createdAt ∨ (r.createdAt = r'.createdAt ∧ r.id ≤ r'.id))

def queueItem (s : Db) (row : IntegrableSubject) : QueueItem where
  subjectTask := row.subject.task
  submission := row.submission.id
  title := row.task.title
  priority := row.task.priority
  candidateRevision := row.submission.candidateRevision
  candidateTree := row.submission.candidateTree
  candidateRef := row.submission.candidateRef
  reviewedBase := row.submission.baseRevision
  repositoryUrl := row.submission.repositoryUrl
  targetBranch := row.submission.targetBranch
  taskDigest := row.submission.taskDigest
  revertTask := if s.isMechanical row.subject.task then some row.subject.task else none
  results := s.submissionResults row.submission.id

/-- The items of the eligible rows, and how many rows are skipped. -/
def collectEligible (s : Db) : List IntegrableSubject → Except AppError (List QueueItem × Nat)
  | [] => return ([], 0)
  | row :: rows => do
    let isEligible ← eligible s row
    let (items, skipped) ← collectEligible s rows
    if isEligible then return (queueItem s row :: items, skipped)
    else return (items, skipped + 1)

/-- `eligible_items`: eligible subjects in subject-priority order, then by time in integration. -/
def eligibleItems (s : Db) (project : Id) : Except AppError (List QueueItem × Nat) :=
  collectEligible s ((s.integrationQueue project).take queueLimit)

end AgentCoordinator
