import AgentCoordinator.Service

/-
Replaying what happened.

`replay` answers a list of requests, with waits in between, one after the other; it gives up at a
refusal, and at a step that does not satisfy `ok`. What it reaches is reached by a run
(`replay_run`), so a run can be shown by listing its requests. `Scenario` is a small service to
replay them on: one project with two tasks, an operator and three agents.
-/

namespace AgentCoordinator

open Guarded Tabular Transition

/-- A request, or a while in which nothing happens. -/
inductive Happening
  | request (auth : Auth) (req : Request)
  | wait (milliseconds : Nat)

section Replay

variable (ok : Db → Action → Prop) [∀ s i, Decidable (ok s i)]

/-- The database after one happening, unless it is refused or not `ok`. -/
def happen (s : Db) : Happening → Option Db
  | .request auth req =>
    if ok s (.request auth req) then (serve s auth req).toOption else none
  | .wait ms => if ok s .environment then some { s with now := s.now + ms } else none

/-- The database after a list of happenings. -/
def replay (s : Db) : List Happening → Option Db
  | [] => some s
  | h :: rest => (happen ok s h).bind fun s => replay s rest

end Replay

section Run

variable {ok : Db → Action → Prop} [∀ s i, Decidable (ok s i)] {s s' : Db}

/-- Waiting is something the rest of the service may do. -/
lemma environment_wait (s : Db) (ms : Nat) : Environment s { s with now := s.now + ms } where
  now := Int.le_add_of_nonneg_right (Int.natCast_nonneg ms)
  clockIncident := rfl
  attempts := rfl
  submissions := rfl
  workflowSubjects := rfl
  workflowActivities := rfl
  reviewDecisions := rfl
  integrationHolds := rfl
  publicationIntents := rfl
  integrationResults := rfl
  publicationReconciliations := rfl
  projects _ p hp := ⟨p, hp, rfl⟩
  tasks _ t ht := ⟨t, ht, ⟨rfl, rfl, rfl, fun _ => ⟨rfl, rfl⟩⟩⟩
  newTasks id t' hnone ht' := by
    rw [show s.tasks.get? id = some t' from ht'] at hnone
    exact absurd hnone (by simp)
  principals _ p hp := ⟨p, hp, rfl⟩
  reverts _ _ _ _ _ := rfl

/-- What happens is a step. -/
lemma happen_step {h : Happening} (hs : happen ok s h = some s') :
    ∃ i, ok s i ∧ Step s i s' := by
  cases h with
  | request auth req =>
    simp only [happen, Option.ite_none_right_eq_some] at hs
    obtain ⟨hok, hserve⟩ := hs
    exact ⟨_, hok, .accepted (toOption_eq_some.1 hserve)⟩
  | wait ms =>
    simp only [happen, Option.ite_none_right_eq_some, Option.some.injEq] at hs
    obtain ⟨hok, rfl⟩ := hs
    exact ⟨_, hok, .environment (environment_wait s ms)⟩

/-- A replay is a run. -/
theorem replay_run {l : List Happening} (h : replay ok s l = some s') : Run Step ok s s' := by
  induction l generalizing s with
  | nil =>
    obtain rfl := Option.some.inj h
    exact .refl _
  | cons x rest ih =>
    simp only [replay, Option.bind_eq_some_iff] at h
    obtain ⟨s₁, hs₁, hrest⟩ := h
    obtain ⟨i, hok, hstep⟩ := happen_step hs₁
    exact (Run.single hok hstep).trans (ih hrest)

/-- A replay from an initial state reaches its end. -/
lemma replay_reachable {l : List Happening} (hinit : Initial s) (h : replay ok s l = some s') :
    Reachable ok s' := ⟨s, hinit, replay_run h⟩

/-- What a replay reaches, by evaluation. -/
lemma exists_of_any {α : Type} {o : Option α} {p : α → Bool} (h : o.any p = true) :
    ∃ a, o = some a ∧ p a = true :=
  (Option.any_eq_true _ _).1 h

end Run

/-! ### A service -/

namespace Scenario

/-- A table of the given rows. -/
def table {α : Type} [Keyed α Nat] (rows : List α) : Table α :=
  rows.foldl (fun t r => t.put r) .empty

/-- Two full Git revisions. -/
def base : String := "aaaaaaaaaaaaaaaaaaaaaaaaaaaaaaaaaaaaaaaa"
def merged : String := "bbbbbbbbbbbbbbbbbbbbbbbbbbbbbbbbbbbbbbbb"

def project (mode : ReviewMode) : Project where
  id := 1
  repositoryUrl := "https://example.org/repository"
  targetBranch := "main"
  policyRevision := 1
  reviewMode := mode
  recoveryMode := .agent
  leaseSeconds := 600
  rules := ""
  agentRuleEditing := false
  automaticIntegration := true
  allowSubagentReviews := false
  integrationOwner := .agent
  maxAttemptSeconds := 0
  allowRelayedHumanAnswers := false
  archivedAt := none

/-- An open task of the project. -/
def task (id : Id) (kind : WorkKind) : Task where
  id := id
  project := 1
  title := "Task"
  description := ""
  acceptance := []
  kind := kind
  priority := 1
  lifecycle := .open
  revision := 1
  generation := 0
  currentAttempt := none
  blockedReason := none
  readySince := 0
  archivedAt := none
  deletedAt := none
  humanDelivered := false

/-- An operator with a browser session, and three agents with a session each. -/
def accounts : External where
  coordinationState := .ready
  principals := table [⟨1, .human, .operator, none⟩, ⟨2, .agent, .agent, none⟩,
    ⟨3, .agent, .agent, none⟩, ⟨4, .agent, .agent, none⟩]
  credentials := table [⟨2, 2, .interactive, .write, none, none⟩,
    ⟨3, 3, .interactive, .write, none, none⟩, ⟨4, 4, .interactive, .write, none, none⟩]
  agentSessions := table [⟨2, 2, 2, none, none, none⟩, ⟨3, 3, 3, none, none, none⟩,
    ⟨4, 4, 4, none, none, none⟩]
  browserSessions := table [⟨1, 1, 1000000000, none⟩]
  subagentIdentities := []
  acknowledgments := [⟨2, 1, 1, instructionVersion⟩, ⟨3, 1, 1, instructionVersion⟩,
    ⟨4, 1, 1, instructionVersion⟩]
  heldReservations := []
  jobs := .empty
  decisions := []
  requiredChildren := []
  dependencies := []
  checkouts := [(1, base), (2, base), (3, base), (4, base), (5, base), (6, base)]
  reverts := .empty
  integratorResults := .empty
  integratorReceipts := []
  integratorObservations := []
  integratorRevises := .empty
  reviseRequests := .empty
  workflowPolicies := table [⟨1, 1, "repository", [(1, [])]⟩]

/-- A project with a code task and a general one, and nothing done yet. -/
def service (mode : ReviewMode) : Db where
  now := 1000
  clockIncident := false
  projects := table [project mode]
  policyRevisions := Table.empty.put ⟨1, 1, "", 1, 0, false⟩
  tasks := table [task 1 .code, task 2 .general]
  taskRevisions := .empty
  attempts := .empty
  checkpoints := []
  taskContributors := []
  events := []
  submissions := .empty
  workflowSubjects := .empty
  workflowActivities := .empty
  reviewDecisions := .empty
  integrationAuthorizations := .empty
  integrationHolds := .empty
  publicationIntents := .empty
  integrationResults := .empty
  publicationReconciliations := .empty
  ext := accounts

lemma service_initial (mode : ReviewMode) : Initial (service mode) where
  attempts := rfl
  submissions := rfl
  workflowSubjects := rfl
  workflowActivities := rfl
  reviewDecisions := rfl
  integrationHolds := rfl
  publicationIntents := rfl
  publicationReconciliations := rfl
  tasks id t ht := by
    have hmem := Table.mem_of_get? ht
    have hall : ∀ t ∈ (service mode).tasks, t.currentAttempt = none := by
      change ∀ t ∈ table [task 1 .code, task 2 .general], t.currentAttempt = none
      decide
    exact hall t hmem

/-! Requests of its accounts -/

def agent (n : Id) : Auth := .bearer n (some n)

def operator : Auth := .browser 1

/-- An agent claims a task. -/
def claims (n task : Id) : Happening :=
  .request (agent n) (.claim 1 ⟨.work, some task, some 1, 1, instructionVersion⟩)

/-- An agent submits the work of its attempt on the code task. -/
def submitsCode (n attempt : Id) : Happening :=
  .request (agent n) (.submit 1 attempt
    { generation := 1
      kind := .code
      taskRevision := 1
      projectPolicyRevision := 1
      workflowPolicyRevision := 1
      summary := "Done."
      acceptanceEvidence := []
      handoff := ""
      repository := some "https://example.org/repository"
      baseRevision := some base
      candidateRevision := some base
      candidateTree := some base
      candidateRemote := some "repository"
      candidateRef := some "refs/agent-coordinator/candidates/candidate"
      acAmendment := none })

/-- An agent submits the work of its attempt on the general task, with evidence for the criteria it
proposes. -/
def submitsGeneral (n attempt : Id) (amendment : Option AcAmendment) : Happening :=
  .request (agent n) (.submit 1 attempt
    { generation := 1
      kind := .general
      taskRevision := 1
      projectPolicyRevision := 1
      workflowPolicyRevision := 0
      summary := "Done."
      acceptanceEvidence := amendment.elim [] (fun a => a.new.map (fun c => (c, "Done.")))
      handoff := ""
      repository := none
      baseRevision := none
      candidateRevision := none
      candidateTree := none
      candidateRemote := none
      candidateRef := none
      acAmendment := amendment })

/-- The caller takes an activity of the first submission. -/
def takes (auth : Auth) (activity : Id) (policy roster : Int) : Happening :=
  .request auth (.claimActivity 1 activity ⟨1, policy, roster, none⟩)

/-- The caller decides a review of the first submission. -/
def decides (auth : Auth) (activity : Id) (decision : Decision) : Happening :=
  .request auth (.review 1 activity
    { generation := 1
      submission := 1
      decision := decision
      summary := "Read."
      findings := []
      amendmentDecision := none
      reviewIndependence := none })

/-- An agent records that it is about to publish its integration. -/
def intends (n activity : Id) (generation : Int) : Happening :=
  .request (agent n) (.publicationIntent 1 activity ⟨generation, 1, base, base, merged, merged⟩)

/-- An agent saw at `observedAt` that the publication of `attempt` did not happen. -/
def reportsUnpublished (n activity attempt : Id) (generation : Int) (observedAt : Time) :
    Happening :=
  .request (agent n) (.agentReconcilePublication 1 activity
    { submission := 1
      attempt := attempt
      generation := generation
      disposition := .notPublished
      observedTargetRevision := base
      observedTargetTree := base
      canonicalRepositoryKey := "repository"
      targetBranch := "main"
      observedAt := observedAt
      localJournalVerified := true
      publisherStopped := true
      evidence := "The branch did not move." })

/-- The operator changes the review mode. -/
def changesMode (revision : Int) (mode : ReviewMode) : Happening :=
  .request operator (.updatePolicy 1
    { expectedRevision := revision
      reviewMode := mode
      recoveryMode := .agent
      leaseSeconds := 600
      rules := ""
      provenance := "operator"
      agentRuleEditing := false
      automaticIntegration := true
      allowSubagentReviews := none
      integrationOwner := none
      maxAttemptSeconds := none
      allowRelayedHumanAnswers := none })

/-! ### A project of the integrator -/

/-- A commit that landed with the first task, and one on top of it. -/
def landed : String := "cccccccccccccccccccccccccccccccccccccccc"
def onTop : String := "dddddddddddddddddddddddddddddddddddddddd"

/-- A code candidate of a task. -/
def codeSubmission (id task : Id) (candidate : String) : Submission where
  id := id
  project := 1
  task := task
  attempt := id
  kind := .code
  taskRevision := 1
  projectPolicyRevision := 1
  workflowPolicyRevision := 1
  canonicalRepositoryKey := some "repository"
  repositoryUrl := some "https://example.org/repository"
  targetBranch := some "main"
  baseRevision := some base
  candidateRevision := some candidate
  candidateTree := some candidate
  candidateRef := some "refs/heads/candidate"
  createdBy := 2
  contributorSession := 2
  createdAt := 0
  supersededAt := none
  taskDigest := none
  acAmendment := none

/-- The result that landed the first task. -/
def landedResult : IntegratorResult where
  id := 1
  project := 1
  submission := 1
  t0 := base
  t0Tree := base
  c := landed
  r := landed
  rTree := landed
  landingRange := [landed]
  roster := []
  createdBy := 5
  createdAt := 0
  authorityIssuedAt := none
  contributorTasks := []

/-- An integrator besides the other accounts, and the result it landed. -/
def integratorAccounts : External :=
  { accounts with
    principals := accounts.principals.put ⟨5, .agent, .agent, none⟩
    credentials := accounts.credentials.put ⟨5, 5, .integrator, .write, none, none⟩
    integratorResults := table [landedResult] }

/-- The integrator, as its credential makes it known. -/
def integrator : Actor := ⟨5, .agent, .agent, some 5, none, some (.integrator, .write)⟩

end Scenario

end AgentCoordinator
