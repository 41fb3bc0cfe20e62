import AgentCoordinator.Board.Custody
import AgentCoordinator.Integrator.Service
import AgentCoordinator.Refinement.Service

/-
The requests of agents and humans take no target from the integrator.

In a project that the integrator integrates, agents neither release its integrations nor finalize
or reconcile them, and the project stays with the integrator while a target is held. So every
request keeps the locks: a lock goes only with its submission.
-/

namespace AgentCoordinator

open Guarded Tabular Maps Transition Board

/-- The submission has its target locked by an integration of the integrator. -/
def Db.LocksTarget (s : Db) (u : Id) (x : String × String) : Prop :=
  s.board.LocksTarget s.integrates u x

/-- A change that takes no lock from a submission that stands. -/
structure Db.KeepsTargets (s s' : Db) : Prop where
  submissions : Grown Candidate.Stands s.board.submissions s'.board.submissions
  wellHeld : s.board.WellHeld → s'.board.WellHeld
  keeps : s.board.WellHeld → ∀ u x, s.LocksTarget u x → s'.LocksTarget u x ∨ s'.board.Superseded u

/-- A change that takes no lock from a submission that stands, and leaves the results alone. -/
structure Db.KeepsLocks (s s' : Db) : Prop extends s.KeepsTargets s' where
  results : s'.ext.integratorResults = s.ext.integratorResults

/-! ### Writes -/

section Writes

variable {s₀ s s' : Db}

lemma integrates_congr (h : s'.projects = s.projects) : s'.integrates = s.integrates := by
  unfold Db.integrates
  rw [h]

lemma Db.KeepsLocks.of_board (h : Board.KeepsLocks s.integrates s.board s'.board)
    (projects : s'.projects = s.projects)
    (results : s'.ext.integratorResults = s.ext.integratorResults) : s.KeepsLocks s' where
  submissions := h.submissions
  wellHeld := h.wellHeld
  keeps hb u x hu := by
    unfold Db.LocksTarget
    rw [integrates_congr projects]
    exact h.keeps hb u x hu
  results := results

/-- An update of activities keeps what they are about, if it does so for every row. -/
lemma activities_related (p : WorkflowActivity → Prop) [DecidablePred p]
    (f : WorkflowActivity → WorkflowActivity) (hf : ∀ wa, Keyed.key (f wa) = Keyed.key wa)
    (hsame : ∀ wa : WorkflowActivity, wa.row.Stands (f wa).row) :
    Related (fun r r' : WorkflowActivity => r.row.Stands r'.row) s.workflowActivities.get?
      (s.workflowActivities.modify p f hf).get? :=
  Table.related_modify (fun r => .refl r.row) fun r _ _ => hsame r

lemma Db.KeepsTargets.trans (h : s₀.KeepsTargets s) (h' : s.KeepsTargets s') :
    s₀.KeepsTargets s' where
  submissions := h.submissions.trans (fun _ _ _ => .trans) h'.submissions
  wellHeld hb := h'.wellHeld (h.wellHeld hb)
  keeps hb u x hu := by
    rcases h.keeps hb u x hu with hlocks | hs
    · exact h'.keeps (h.wellHeld hb) u x hlocks
    · exact .inr (hs.of_grown h'.submissions)

/-- Submissions, activities and holds stay as they are, and no project is taken from the
integrator. -/
lemma Db.KeepsTargets.of_owners (submissions : s'.submissions = s.submissions)
    (activities : s'.workflowActivities = s.workflowActivities)
    (holds : s'.integrationHolds = s.integrationHolds)
    (howned : ∀ project, s.integrates project → s'.integrates project) :
    s.KeepsTargets s' := by
  have hsubmissions : s'.board.submissions = s.board.submissions := by
    simp only [Db.board, submissions]
  have hactivities : s'.board.activities = s.board.activities := by simp only [Db.board, activities]
  have hholds : s'.board.holds = s.board.holds := by simp only [Db.board, holds]
  refine ⟨.of_eq .refl hsubmissions, fun hb => hb.grown hholds (.of_eq .refl hsubmissions)
    (.of_eq .refl hactivities), fun _ u x hu => .inl ?_⟩
  obtain ⟨h, row, wa, hrow, hheld, hx, hwa, hwu, hkind, hproject⟩ := hu
  exact ⟨h, row, wa, by rw [hholds, hrow], hheld, hx, by rw [hactivities, hwa], hwu, hkind,
    howned _ hproject⟩

/-- Writes of other tables. -/
lemma Db.KeepsTargets.of_tables (submissions : s'.submissions = s.submissions)
    (activities : s'.workflowActivities = s.workflowActivities)
    (holds : s'.integrationHolds = s.integrationHolds) (projects : s'.projects = s.projects) :
    s.KeepsTargets s' := by
  refine .of_owners submissions activities holds fun project hproject => ?_
  rwa [integrates_congr projects]

namespace Db.KeepsLocks

lemma refl (s : Db) : s.KeepsLocks s := .of_board (.refl _) rfl rfl

lemma trans (h : s₀.KeepsLocks s) (h' : s.KeepsLocks s') : s₀.KeepsLocks s' :=
  ⟨h.toKeepsTargets.trans h'.toKeepsTargets, h'.results.trans h.results⟩

/-- Writes of other tables, not of the results. -/
lemma keep (h : s₀.KeepsLocks s) (submissions : s'.submissions = s.submissions)
    (activities : s'.workflowActivities = s.workflowActivities)
    (holds : s'.integrationHolds = s.integrationHolds) (projects : s'.projects = s.projects)
    (results : s'.ext.integratorResults = s.ext.integratorResults) : s₀.KeepsLocks s' :=
  h.trans ⟨.of_tables submissions activities holds projects, results⟩

lemma finish (h : s₀.KeepsLocks s) {actor : Actor} {kind : String} {record : Id} :
    s₀.KeepsLocks (s.finish actor kind record) := h.keep rfl rfl rfl rfl rfl

lemma endAttempts (h : s₀.KeepsLocks s) {p : Attempt → Prop} [DecidablePred p]
    {state : AttemptState} {outcome : String} : s₀.KeepsLocks (s.endAttempts p state outcome) :=
  h.keep rfl rfl rfl rfl rfl

lemma setTasks (h : s₀.KeepsLocks s) {T : Table Task} : s₀.KeepsLocks { s with tasks := T } :=
  h.keep rfl rfl rfl rfl rfl

lemma setPhase (h : s₀.KeepsLocks s) {task : Id} {phase : Phase} :
    s₀.KeepsLocks (s.setPhase task phase) :=
  h.keep rfl rfl rfl rfl rfl

lemma cancelTasksOf (h : s₀.KeepsLocks s) {p : WorkflowActivity → Prop} [DecidablePred p] :
    s₀.KeepsLocks (s.cancelTasksOf p) := h.keep rfl rfl rfl rfl rfl

/-- Activities change anything but what they are about. -/
lemma modifyActivities (h : s₀.KeepsLocks s) {p : WorkflowActivity → Prop} [DecidablePred p]
    (f : WorkflowActivity → WorkflowActivity) (hf : ∀ wa, Keyed.key (f wa) = Keyed.key wa)
    (hsame : ∀ wa : WorkflowActivity, wa.row.Stands (f wa).row) :
    s₀.KeepsLocks { s with workflowActivities := s.workflowActivities.modify p f hf } := by
  refine h.trans (.of_board (.of_holds rfl (.refl .refl _) fun a wa hwa => ?_) rfl rfl)
  obtain ⟨r, hr, rfl⟩ := Table.project_eq_some.1 hwa
  obtain ⟨r', hr', hstands⟩ := (activities_related p f hf hsame).new a r hr
  exact ⟨_, Table.project_of_get? hr', hstands⟩

lemma cancelActivities (h : s₀.KeepsLocks s) {p : WorkflowActivity → Prop} [DecidablePred p]
    {actor : Id} {why : CancelReason} : s₀.KeepsLocks (s.cancelActivities p actor why) := by
  have hmodify := h.modifyActivities
    (p := fun wa => p wa ∧ (wa.state = .queued ∨ wa.state = .active))
    (fun wa => { wa with
      state := .canceled
      canceledAt := some s.now
      cancelCode := some why.code
      cancelDetail := some why.detail }) (fun _ => rfl) fun _ => ⟨rfl, rfl, rfl⟩
  exact hmodify.keep rfl rfl rfl rfl rfl

lemma setActivityState (h : s₀.KeepsLocks s) {id : Id} {state : ActivityState} :
    s₀.KeepsLocks (s.setActivityState id state) :=
  h.modifyActivities _ _ fun _ => ⟨rfl, rfl, rfl⟩

lemma completeActivity (h : s₀.KeepsLocks s) (id : Id) :
    s₀.KeepsLocks { s with
      workflowActivities := s.workflowActivities.modify (fun wa => wa.id = id)
        (fun wa => { wa with state := .completed, completedAt := some s.now }) } :=
  h.modifyActivities _ _ fun _ => ⟨rfl, rfl, rfl⟩

lemma createActivity (h : s₀.KeepsLocks s) {project subjectTask submission : Id} {title : String}
    {kind : ActivityKind} {slot : Nat} :
    s₀.KeepsLocks (s.createActivity project subjectTask title submission kind slot) := by
  refine h.trans (.of_board (.of_holds ?_ (.of_eq .refl ?_) ?_) rfl rfl)
  · rw [board_createActivity]
  · rw [board_createActivity]
  · rw [board_createActivity]
    exact .update .refl (Table.project_fresh _)

lemma createActivities (h : s₀.KeepsLocks s) {project subjectTask submission : Id} {title : String}
    {kinds : List ActivityKind} :
    s₀.KeepsLocks (s.createActivities project subjectTask title submission kinds) := by
  unfold Db.createActivities
  induction kinds generalizing s with
  | nil => exact h
  | cons kind kinds ih => exact ih h.createActivity

lemma supersede (h : s₀.KeepsLocks s) {submission : Id} :
    s₀.KeepsLocks (s.supersede submission) := by
  refine h.trans (.of_board (.of_holds ?_ ?_ (.of_eq .refl ?_)) rfl rfl)
  · rw [board_supersede]
  · rw [board_supersede]
    exact .alter .refl fun _ => ⟨rfl, rfl, fun _ => rfl⟩
  · rw [board_supersede]

lemma createSubmission (h : s₀.KeepsLocks s) (mk : Id → Submission)
    (hmk : ∀ k, Keyed.key (mk k) = k) :
    s₀.KeepsLocks { s with submissions := s.submissions.create mk hmk } := by
  refine h.trans (.of_board (.of_holds rfl ?_ (.refl .refl _)) rfl rfl)
  simp only [Db.board]
  rw [Table.project_create]
  exact .update .refl (Table.project_fresh _)

lemma grantAttempt (h : s₀.KeepsLocks s) {g : Grant} (hgrant : s.grantAttempt g = .ok s') :
    s₀.KeepsLocks s' := by
  obtain ⟨-, rfl⟩ := grantAttempt_ok hgrant
  exact .keep h rfl rfl rfl rfl rfl

lemma cancelQueuedReviews (h : s₀.KeepsLocks s) (u : Submission) :
    s₀.KeepsLocks (s.cancelQueuedReviews u) := .cancelActivities (.cancelTasksOf h)

/-- Holds are given back, of no integration that the integrator owns unless it is superseded. -/
lemma releaseHolds (h : s₀.KeepsLocks s) {p : Id → Prop} [DecidablePred p] (actor : Id)
    (reason : String) (hfree : ∀ a wa, p a → s.board.activities a = some wa →
      wa.kind = .integration → s.integrates wa.project →
        ∀ c, s.board.submissions wa.submission = some c → c.superseded = true) :
    s₀.KeepsLocks (s.releaseHolds p actor reason) := by
  refine h.trans (.of_board ?_ rfl rfl)
  rw [board_releaseHolds]
  exact .release hfree

end Db.KeepsLocks

/-- The integration of the activity is not the integrator's. -/
def Db.AgentsOwn (s : Db) (activity : Id) : Prop :=
  ∀ wa, s.workflowActivities.get? activity = some wa → wa.kind = .integration →
    ¬ s.integrates wa.project

/-- Agents give back the hold of an integration of their own. -/
lemma Db.KeepsLocks.releaseOwn {activity : Id} (h : s₀.KeepsLocks s) (actor : Id) (reason : String)
    (hown : s.AgentsOwn activity) :
    s₀.KeepsLocks (s.releaseHolds (fun a => a = activity) actor reason) := by
  refine h.releaseHolds actor reason fun a wa ha hwa hkind hproject => ?_
  obtain ⟨row, hrow, rfl⟩ := Table.project_eq_some.1 hwa
  exact absurd hproject (hown row (ha ▸ hrow) hkind)

/-- The activity takes the hold on its submission's target. -/
lemma Db.KeepsLocks.insertHold {activity actor : Id} {key branch : String} {taken : AppError}
    (h : s₀.KeepsLocks s) (hinsert : s.insertHold activity key branch actor taken = .ok s')
    {wa : WorkflowActivity} {u : Submission} (hwa : s.workflowActivities.get? activity = some wa)
    (hu : s.submissions.get? wa.submission = some u) (hkey : u.canonicalRepositoryKey = some key)
    (hbranch : u.targetBranch = some branch) : s₀.KeepsLocks s' := by
  obtain ⟨hfree, rfl⟩ := insertHold_ok hinsert
  refine h.trans (.of_board ?_ rfl rfl)
  rw [board_createHold]
  refine .take ⟨Table.project_fresh _,
    ⟨wa.row, u.row, board_activity hwa, board_submission hu, hkey, hbranch⟩, fun k row hrow => ?_⟩
  obtain ⟨r, hr, rfl⟩ := Table.project_eq_some.1 hrow
  obtain ⟨hne, htarget⟩ := hfree r (Table.mem_of_get? hr)
  refine ⟨hne, fun hheld hk hb => htarget hk hb ?_⟩
  simpa [IntegrationHold.row] using hheld

end Writes

/-! ### Whose integrations agents change -/

section Agents

variable {s s' : Db} {actor : Actor} {project id : Id} {ctx : ActivityContext}

lemma Db.AgentsOwn.of_ensured (hj : ctx.Joins s project id) {r : Unit}
    (h : ensureAgentIntegration ctx = .ok r) : s.AgentsOwn id := by
  simp only [ensureAgentIntegration, refuseIf_eq_ok, not_and] at h
  intro wa hwa hkind hproject
  obtain rfl := Option.some.inj (hwa.symm.trans hj.activity)
  rw [Db.integrates, hj.activityProject, hj.project, Option.any_some, decide_eq_true_eq] at hproject
  exact h hkind hproject

lemma ownedActivity_agents {generation : Int} {kind : ActivityKind}
    (h : ownedActivity s actor project id generation kind = .ok ctx) : s.AgentsOwn id := by
  simp only [ownedActivity, bind_eq_ok] at h
  obtain ⟨ctx', hctx, _, hensured, -⟩ := h
  exact .of_ensured (joins_of_activityContext hctx) hensured

lemma releaseActivity_agents {input : ActivityReleaseInput}
    (h : releaseActivity s actor project id input = .ok s') : s.AgentsOwn id := by
  simp only [releaseActivity, bind_eq_ok] at h
  obtain ⟨-, -, -, -, raw, -, ctx, hown, -⟩ := h
  exact ownedActivity_agents hown

lemma finalize_agents {input : FinalizeIntegrationInput}
    (h : finalize s actor project id input = .ok s') : s.AgentsOwn id := by
  simp only [finalize, bind_eq_ok] at h
  obtain ⟨-, -, -, -, ctx, hown, -⟩ := h
  exact ownedActivity_agents hown

lemma reconcilePublication_agents {input : PublicationReconciliationInput}
    (h : reconcilePublication s actor project id input = .ok s') : s.AgentsOwn id := by
  simp only [reconcilePublication, bind_eq_ok] at h
  obtain ⟨-, -, -, -, -, -, -, -, ctx, hctx, _, hensured, -⟩ := h
  exact .of_ensured (joins_of_activityContext hctx) hensured

lemma agentReconcilePublication_agents {input : AgentPublicationReconciliationInput}
    (h : agentReconcilePublication s actor project id input = .ok s') : s.AgentsOwn id := by
  simp only [agentReconcilePublication, ensureAgentReconcilable, bind_eq_ok] at h
  obtain ⟨-, -, -, -, -, -, ctx, hctx, -, ⟨_, hensured, -⟩, -⟩ := h
  exact .of_ensured (joins_of_activityContext hctx) hensured

/-- What activities are about does not change. -/
lemma Db.AgentsOwn.modify {a : Id} {p : WorkflowActivity → Prop} [DecidablePred p]
    (h : s.AgentsOwn a) (f : WorkflowActivity → WorkflowActivity)
    (hf : ∀ wa, Keyed.key (f wa) = Keyed.key wa)
    (hsame : ∀ wa : WorkflowActivity, wa.row.Stands (f wa).row)
    (activities : s'.workflowActivities = s.workflowActivities.modify p f hf)
    (projects : s'.projects = s.projects) : s'.AgentsOwn a := by
  intro wa' hwa' hkind hproject
  rw [activities] at hwa'
  obtain ⟨wa, hwa, hstands⟩ := (activities_related p f hf hsame).old a wa' hwa'
  refine h wa hwa (hstands.kind.symm.trans hkind) ?_
  rw [integrates_congr projects] at hproject
  rwa [show wa.project = wa'.project from hstands.project.symm]

end Agents

/-! ### Handlers -/

section Handlers

variable {s s' : Db} {actor : Actor} {project id : Id}

lemma claim_keepsLocks {input : ClaimInput} (h : claim s actor project input = .ok s') :
    s.KeepsLocks s' := by
  obtain rfl | ⟨t, g, s₁, ownerSession, -, -, -, hgrant, rfl⟩ := claim_ok h
  · exact .finish (.refl s)
  · have hgranted : s.KeepsLocks s₁ := .grantAttempt (.endAttempts (.refl s)) hgrant
    exact .keep hgranted rfl rfl rfl rfl rfl

lemma renew_keepsLocks {generation : Int} (h : renew s actor project id generation = .ok s') :
    s.KeepsLocks s' := by
  obtain ⟨a, expires, -, rfl⟩ := renew_ok h
  exact .keep (.refl s) rfl rfl rfl rfl rfl

lemma checkpoint_keepsLocks {input : CheckpointInput}
    (h : checkpoint s actor project id input = .ok s') : s.KeepsLocks s' := by
  obtain ⟨a, contributors, -, rfl⟩ := checkpoint_ok h
  exact .keep (.refl s) rfl rfl rfl rfl rfl

lemma release_keepsLocks {input : ReleaseInput} (h : release s actor project id input = .ok s') :
    s.KeepsLocks s' := by
  obtain ⟨a, t, s₁, -, -, -, rfl, rfl⟩ := release_ok h
  exact .keep (.refl s) rfl rfl rfl rfl rfl

lemma recoveryResolution_keepsLocks {input : RecoveryInput}
    (h : recoveryResolution s actor project id input = .ok s') : s.KeepsLocks s' := by
  rw [recoveryResolution_ok h]
  exact .keep (.refl s) rfl rfl rfl rfl rfl

/-- A submission enters the workflow, with its activities. -/
lemma writeSubmission_keepsLocks {ownerSession attempt : Id} {subject : OwnedSubject}
    {input : SubmissionInput} {canonical : Option String} {roster : Int} {mode : ReviewMode} :
    s.KeepsLocks
      (s.writeSubmission actor ownerSession attempt subject input canonical roster mode) := by
  have henter : s.KeepsLocks
      (s.enterWorkflow actor ownerSession attempt subject input canonical roster mode) :=
    .keep (.createSubmission (.refl s) _ fun _ => rfl) rfl rfl rfl rfl rfl
  unfold Db.writeSubmission
  split
  · unfold Db.createIntegration
    split
    · exact .finish (.setTasks henter.createActivities.createActivity)
    · exact .finish henter.createActivities.createActivity
  · split
    · exact .keep henter.createActivities rfl rfl rfl rfl rfl
    · exact .finish henter.createActivities

lemma submit_keepsLocks {attempt : Id} {input : SubmissionInput}
    (h : submit s actor project attempt input = .ok s') : s.KeepsLocks s' := by
  obtain ⟨subject, canonical, roster, ownerSession, s₀, -, -, -, hs₀, -, -, rfl⟩ := submit_ok h
  have h₀ : s.KeepsLocks s₀ := by
    rw [hs₀]
    cases s.previousSubmission project subject.task.id with
    | none => exact .refl s
    | some ws => exact .supersede (.refl s)
  exact h₀.trans writeSubmission_keepsLocks

/-- The submission that goes back to revision is superseded before its holds are given back. -/
lemma sendToRevision_keepsLocks {task : Id} {input : ReopenSubmissionInput} {movedBy : Option Id} :
    s.KeepsLocks (s.sendToRevision actor task input movedBy) := by
  obtain ⟨X, hX⟩ : ∃ X, X = ((((s.endActivityAttempts input.submission).supersede
    input.submission).setPhase task .revisionNeeded).cancelActivities
      (ofSubmission input.submission) actor.id (supersedeReason input movedBy)).cancelTasksOf (canceledOf input.submission) :=
    ⟨_, rfl⟩
  have hsteady : s.KeepsLocks X := by
    rw [hX]
    exact .cancelTasksOf (.cancelActivities (.setPhase (.supersede
      (.setTasks (.endAttempts (.refl s))))))
  have hsuperseded : ∀ c, X.board.submissions input.submission = some c → c.superseded = true := by
    intro c hc
    have hsub : X.board.submissions = s.board.supersede input.submission := by
      rw [hX]
      exact congrArg Board.submissions
        (board_supersede (s := s.endActivityAttempts input.submission) input.submission)
    rw [hsub] at hc
    obtain ⟨c₀, -, rfl⟩ := alter_eq_some.1 hc
    rw [if_pos rfl]
  have hrelease := hsteady.releaseHolds (p := fun a => (X.workflowActivities.get? a).any
    (fun wa => wa.submission = input.submission) = true) actor.id input.reason
      fun a wa ha hwa _ _ => ?_
  · simp only [Db.sendToRevision, ← hX]
    exact .setTasks hrelease
  · obtain ⟨row, hrow, rfl⟩ := Table.project_eq_some.1 hwa
    rw [hrow, Option.any_some, decide_eq_true_eq] at ha
    rw [show row.row.submission = input.submission from ha]
    exact hsuperseded

lemma supersedeSubmission_keepsLocks {task : Id} {input : ReopenSubmissionInput}
    {movedBy : Option Id} (h : supersedeSubmission s actor project task input movedBy = .ok s') :
    s.KeepsLocks s' := by
  simp only [supersedeSubmission, bind_eq_ok, pure_eq_ok] at h
  obtain ⟨-, -, -, -, rfl⟩ := h
  exact sendToRevision_keepsLocks

/-- A reopened submission goes back, or its revise waits for a push. -/
lemma reopen_keepsLocks {task : Id} {input : ReopenSubmissionInput}
    (h : reopen s actor project task input = .ok s') : s.KeepsLocks s' := by
  obtain ⟨requests, rfl⟩ | ⟨ws, -, -, -, -, rfl⟩ := reopen_ok h
  · have hdeferred : s.KeepsLocks { s with ext := { s.ext with reviseRequests := requests } } :=
      .keep (.refl s) rfl rfl rfl rfl rfl
    exact hdeferred.finish
  · exact .finish sendToRevision_keepsLocks

lemma claimActivity_keepsLocks {input : ActivityClaimInput}
    (h : claimActivity s actor project id input = .ok s') : s.KeepsLocks s' := by
  obtain ⟨ctx, task, g, s₁, s₂, s₃, hj, -, -, -, h₁, h₂, -, -, h₃, rfl⟩ := claimActivity_ok h
  have hs₁ : s.KeepsLocks s₁ ∧ s₁.workflowActivities = s.workflowActivities ∧
      s₁.submissions = s.submissions := by
    obtain rfl | ⟨previous, -, -, rfl⟩ := expirePrevious_ok h₁
    · exact ⟨.refl _, rfl, rfl⟩
    · exact ⟨.endAttempts (.refl s), rfl, rfl⟩
  obtain ⟨hs₁, hactivities, hsubmissions⟩ := hs₁
  have hs₂ : s.KeepsLocks s₂ := by
    rcases h₂ with ⟨-, h₂⟩ | ⟨-, rfl⟩
    · obtain ⟨rfl, -⟩ | ⟨key, branch, hkey, hbranch, h₂⟩ := acquireHold_ok h₂
      · exact hs₁
      · have hactivity : s₁.workflowActivities.get? ctx.activity.id = some ctx.activity := by
          rw [hactivities, hj.id_eq]
          exact hj.activity
        refine hs₁.insertHold h₂ hactivity ?_ hkey hbranch
        rw [hsubmissions]
        exact hj.submission
    · exact hs₁
  exact .finish (.setActivityState (hs₂.grantAttempt h₃))

lemma releaseActivity_keepsLocks {input : ActivityReleaseInput}
    (h : releaseActivity s actor project id input = .ok s') : s.KeepsLocks s' := by
  have hagents := releaseActivity_agents h
  obtain ⟨ctx, attempt, s₁, hown, -, -, hs₁, rfl⟩ := releaseActivity_ok h
  have hrequeue : s.KeepsLocks s₁ := by
    rw [hs₁]
    exact .setActivityState (.setTasks (.endAttempts (.refl s)))
  have hagents₁ : s₁.AgentsOwn ctx.activity.id := by
    rw [hown.toJoins.id_eq]
    exact hagents.modify (fun wa => { wa with state := .queued }) (fun _ => rfl)
      (fun _ => ⟨rfl, rfl, rfl⟩) (by rw [hs₁]; rfl) (by rw [hs₁]; rfl)
  split
  · exact .finish (.createActivity (.setTasks (.cancelActivities
      (hrequeue.releaseOwn _ _ hagents₁))))
  · exact .finish hrequeue

lemma advanceApprovedSubject_keepsLocks {task submission : Id}
    (h : advanceApprovedSubject s project task submission = .ok s') : s.KeepsLocks s' := by
  obtain ⟨u, -, ⟨-, rfl⟩ | ⟨-, rfl⟩⟩ := advanceApprovedSubject_ok h
  · exact .keep (.cancelQueuedReviews (.refl s) u) rfl rfl rfl rfl rfl
  · exact .keep (.cancelQueuedReviews (.refl s) u) rfl rfl rfl rfl rfl

lemma applyAccepted_keepsLocks {task submission : Id} {amendment : Option (List String)}
    (h : applyAccepted s project task submission amendment = .ok s') : s.KeepsLocks s' := by
  refine .of_board (.of_eq (applyAccepted_ok h).1) ?_ ?_
  all_goals
    cases amendment with
    | none => rw [pure_eq_ok.1 h]
    | some criteria =>
      simp only [applyAccepted, applyAmendment, bind_eq_ok, okOr_eq_ok, ite_eq_ok, pure_eq_ok] at h
      obtain ⟨t, -, s₁, ⟨-, hsave⟩ | ⟨-, rfl⟩, t', -, rfl⟩ := h
      · obtain ⟨revisions, rfl⟩ := saveTaskRevision_ok hsave
        rfl
      · rfl

lemma sendBack_keepsLocks (s : Db) (actor : Actor) (ctx : ActivityContext) :
    s.KeepsLocks (s.sendBack actor ctx) :=
  .setTasks (.cancelTasksOf (.cancelActivities (.setTasks (.endAttempts (.cancelActivities
    (.setPhase (.supersede (.refl s))))))))

lemma review_keepsLocks {input : ReviewInput} (h : review s actor project id input = .ok s') :
    s.KeepsLocks s' := by
  obtain ⟨ctx, decision, amendment, s₁, s₂, hdecides, happly, rfl⟩ := review_ok h
  obtain ⟨attempt, ownerSession, decisions, -, -, hs₁⟩ := hdecides.recorded
  have h₁ : s.KeepsLocks s₁ := by
    rw [hs₁]
    exact .keep (.completeActivity (.refl s) ctx.activity.id) rfl rfl rfl rfl rfl
  refine .finish (h₁.trans ?_)
  cases decision with
  | changesRequested =>
    simp only [applyDecision, bind_eq_ok] at happly
    obtain ⟨-, -, hreject⟩ := happly
    have hback := sendBack_keepsLocks s₁ actor ctx
    obtain rfl | ⟨revisions, rfl⟩ := rejectMechanical_ok hreject
    · exact hback
    · exact .keep hback rfl rfl rfl rfl rfl
  | approved =>
    simp only [applyDecision, bind_eq_ok, ite_eq_ok, pure_eq_ok] at happly
    obtain ⟨satisfied, -, ⟨-, s₂', hamend, happly⟩ | ⟨-, rfl⟩⟩ := happly
    · exact (applyAccepted_keepsLocks hamend).trans (advanceApprovedSubject_keepsLocks happly)
    · exact .refl _

lemma integrationResult_keepsLocks {input : IntegrationResultInput}
    (h : integrationResult s actor project id input = .ok s') : s.KeepsLocks s' := by
  obtain ⟨ctx, intent, results, s₁, -, -, -, rfl, rfl⟩ := integrationResult_ok h
  have h₁ : s.KeepsLocks { s with integrationResults := results } :=
    .keep (.refl s) rfl rfl rfl rfl rfl
  split
  · exact .finish (.setTasks (.endAttempts (.setActivityState h₁)))
  · exact .finish h₁

/-- The replacement of an integration of agents holds the same target. -/
lemma replaceActivity_keepsLocks {s₀ : Db} {ctx : ActivityContext} {reason : String}
    {why : CancelReason} (hs : s₀.KeepsLocks s) (hagents : s.AgentsOwn ctx.activity.id)
    (hsubmission : s.submissions.get? ctx.submission.id = some ctx.submission)
    (h : replaceActivity s actor project ctx reason why = .ok s') : s₀.KeepsLocks s' := by
  obtain ⟨X, key, branch, hX, hkey, hbranch, hinsert⟩ := replaceActivity_ok h
  have hend : s₀.KeepsLocks X := by
    rw [hX]
    exact .setTasks (.cancelActivities (hs.releaseOwn _ _ hagents))
  have hnew : s₀.KeepsLocks (X.replaceIntegration ctx project) := hend.createActivity
  have hactivity : (X.replaceIntegration ctx project).workflowActivities.get?
      X.workflowActivities.fresh = some (queuedActivity X project ctx.subjectTask.id
        ctx.submission.id X.tasks.fresh .integration (X.nextSlot ctx.submission.id .integration)
        X.workflowActivities.fresh) :=
    (Table.get?_create _ _ (fun _ => rfl) _).trans (if_pos rfl)
  refine hnew.insertHold hinsert hactivity ?_ hkey hbranch
  have hsame : (X.replaceIntegration ctx project).submissions = s.submissions := by rw [hX]; rfl
  rw [hsame]
  exact hsubmission

lemma reconcilePublication_keepsLocks {input : PublicationReconciliationInput}
    (h : reconcilePublication s actor project id input = .ok s') : s.KeepsLocks s' := by
  have hagents := reconcilePublication_agents h
  obtain ⟨ctx, intent, reconciliations, s₁, s₂, reason, why, hj, -, -, -, hs₁, hreplace, rfl⟩ :=
    reconcilePublication_ok h
  have hinserted : s.KeepsLocks { s with publicationReconciliations := reconciliations } :=
    .keep (.refl s) rfl rfl rfl rfl rfl
  have hended : s.KeepsLocks s₁ := by
    rw [hs₁]
    exact hinserted.endAttempts
  have hagents₁ : s₁.AgentsOwn ctx.activity.id := by
    rw [hs₁, hj.id_eq]
    exact hagents
  have hsubmission : s₁.submissions.get? ctx.submission.id = some ctx.submission := by
    rw [hs₁, hj.submission_id]
    exact hj.submission
  exact .finish (replaceActivity_keepsLocks hended hagents₁ hsubmission hreplace)

lemma agentReconcilePublication_keepsLocks {input : AgentPublicationReconciliationInput}
    (h : agentReconcilePublication s actor project id input = .ok s') : s.KeepsLocks s' := by
  have hagents := agentReconcilePublication_agents h
  obtain ⟨ctx, intent, reconciliations, s₁, s₂, reason, why, hrec, -, hs₁, hreplace, rfl⟩ :=
    agentReconcilePublication_ok h
  have hinserted : s.KeepsLocks { s with publicationReconciliations := reconciliations } :=
    .keep (.refl s) rfl rfl rfl rfl rfl
  have hended : s.KeepsLocks s₁ := by
    rw [hs₁]
    exact hinserted.endAttempts
  have hagents₁ : s₁.AgentsOwn ctx.activity.id := by
    rw [hs₁, hrec.toJoins.id_eq]
    exact hagents
  have hsubmission : s₁.submissions.get? ctx.submission.id = some ctx.submission := by
    rw [hs₁, hrec.toJoins.submission_id]
    exact hrec.toJoins.submission
  exact .finish (replaceActivity_keepsLocks hended hagents₁ hsubmission hreplace)

lemma finalize_keepsLocks {input : FinalizeIntegrationInput}
    (h : finalize s actor project id input = .ok s') : s.KeepsLocks s' := by
  have hagents := finalize_agents h
  obtain ⟨ctx, attempt, hown, -, -, -, rfl⟩ := finalize_ok h
  obtain ⟨X, hX⟩ : ∃ X, X = { s.endAttempts (fun a => a.id = attempt) .submitted
      "Exact integrated result validated." with
    tasks := s.tasks.modify
      (fun t => t.id = ctx.activity.activityTask ∨ t.id = ctx.activity.subjectTask)
      (Task.closed .done) (Task.key_closed .done)
    workflowActivities := s.workflowActivities.modify (fun wa => wa.id = ctx.activity.id)
      (fun wa => { wa with state := .completed, completedAt := some s.now }) } := ⟨_, rfl⟩
  have hsteady : s.KeepsLocks X := by
    rw [hX]
    exact .keep (.completeActivity (.refl s) ctx.activity.id) rfl rfl rfl rfl rfl
  have hagents' : (X.setPhase ctx.activity.subjectTask .done).AgentsOwn ctx.activity.id := by
    rw [hown.toJoins.id_eq]
    exact hagents.modify (fun wa => { wa with state := .completed, completedAt := some s.now })
      (fun _ => rfl) (fun _ => ⟨rfl, rfl, rfl⟩) (by rw [hX]; rfl) (by rw [hX]; rfl)
  have hrelease :=
    hsteady.setPhase.releaseOwn actor.id "Exact integrated result completed." hagents'
  rw [hX] at hrelease
  exact .keep hrelease rfl rfl rfl rfl rfl

lemma addMissingReviews_keepsLocks {r : ReviewSubject} {required : List ActivityKind} {s₀ s : Db}
    (h : s₀.KeepsLocks s) : s₀.KeepsLocks (s.addMissingReviews r required) := by
  unfold Db.addMissingReviews
  induction required generalizing s with
  | nil => exact h
  | cons kind required ih =>
    have hone : s₀.KeepsLocks (s.addMissingReview r kind) := by
      unfold Db.addMissingReview
      split
      · exact h
      · exact h.createActivity
    exact ih hone

lemma reconcileSubject_keepsLocks {r : ReviewSubject} (h : reconcileSubject s actor r = .ok s') :
    s.KeepsLocks s' := by
  obtain ⟨s₂, changed, hcases, rfl⟩ := reconcileSubject_ok h
  have hcancel : s.KeepsLocks (s.cancelUnrequiredReviews r.submission (s.subjectKinds r)) :=
    .modifyActivities (.cancelTasksOf (.refl s)) _ _ fun _ => ⟨rfl, rfl, rfl⟩
  have hrecord : s₂.KeepsLocks (s₂.recordReconciled actor r changed) := by
    unfold Db.recordReconciled
    split
    · exact .finish (.refl s₂)
    · exact .refl s₂
  refine Db.KeepsLocks.trans ?_ hrecord
  cases hcases with
  | stays => exact hcancel
  | advances _ _ _ hadvance => exact hcancel.trans (advanceApprovedSubject_keepsLocks hadvance)
  | adds => exact addMissingReviews_keepsLocks hcancel

/-- The new policy moves no project with a held target to or from the integrator. -/
lemma writePolicy_keepsLocks {current : Project} {input : PolicyInput}
    (hfree : ¬ s.policyHeld project) (h : writePolicy s actor project current input = .ok s') :
    s.KeepsLocks s' := by
  obtain ⟨revisions, rfl⟩ := writePolicy_ok h
  refine ⟨⟨.refl .refl _, id, fun _ u x hu => .inl ?_⟩, rfl⟩
  obtain ⟨k, row, wa, hrow, hheld, hx, hwa, hwu, hkind, howned⟩ := hu
  refine ⟨k, row, wa, hrow, hheld, hx, hwa, hwu, hkind, ?_⟩
  have hne : wa.project ≠ project := by
    rintro rfl
    obtain ⟨hold, hhold, rfl⟩ := Table.project_eq_some.1 hrow
    obtain ⟨activity, hactivity, rfl⟩ := Table.project_eq_some.1 hwa
    refine hfree ⟨hold, Table.mem_of_get? hhold, by simpa [IntegrationHold.row] using hheld, ?_⟩
    rw [show s.workflowActivities.get? hold.activity = some activity from hactivity]
    exact decide_eq_true rfl
  unfold Db.integrates at howned ⊢
  rw [Table.get?_modify]
  cases hp : s.projects.get? wa.project with
  | none =>
    rw [hp] at howned
    exact absurd howned (by simp)
  | some p =>
    have hid : p.id = wa.project := Table.key_of_get? hp
    rw [hp] at howned
    rw [Option.map_some, if_neg (show ¬ p.id = project from hid ▸ hne)]
    exact howned

lemma updatePolicy_keepsLocks {input : PolicyInput}
    (h : updatePolicy s actor project input = .ok s') : s.KeepsLocks s' := by
  obtain ⟨current, s₁, -, hfree, hwrite, rfl⟩ := updatePolicy_ok h
  have hloop : ∀ (rs : List ReviewSubject) (x : Db), s.KeepsLocks x →
      s.KeepsLocks (rs.foldl (fun s r => s.reconcileInSavepoint actor r) x) := by
    intro rs
    induction rs with
    | nil => exact fun _ hx => hx
    | cons r rs ih =>
      intro x hx
      refine ih (x.reconcileInSavepoint actor r) (hx.trans ?_)
      unfold Db.reconcileInSavepoint
      cases hres : reconcileSubject x actor r with
      | ok s₂ => exact reconcileSubject_keepsLocks hres
      | error e => exact .refl x
  exact .finish (hloop _ _ (writePolicy_keepsLocks hfree hwrite))

/-- Every request keeps the locks. -/
theorem Request.handle_keepsLocks {req : Request} (h : req.handle s actor = .ok s') :
    s.KeepsLocks s' := by
  cases req with
  | claim => exact claim_keepsLocks h
  | renew => exact renew_keepsLocks h
  | checkpoint => exact checkpoint_keepsLocks h
  | release => exact release_keepsLocks h
  | recoveryResolution => exact recoveryResolution_keepsLocks h
  | submit => exact submit_keepsLocks h
  | reopen => exact reopen_keepsLocks h
  | claimActivity => exact claimActivity_keepsLocks h
  | releaseActivity => exact releaseActivity_keepsLocks h
  | review => exact review_keepsLocks h
  | authorizeIntegration =>
    obtain ⟨ctx, rfl⟩ := authorizeIntegration_ok h
    exact .keep (.refl s) rfl rfl rfl rfl rfl
  | publicationIntent =>
    obtain ⟨ctx, attempt, intents, -, -, -, -, -, rfl⟩ := publicationIntent_ok h
    exact .keep (.refl s) rfl rfl rfl rfl rfl
  | integrationResult => exact integrationResult_keepsLocks h
  | reconcilePublication => exact reconcilePublication_keepsLocks h
  | agentReconcilePublication => exact agentReconcilePublication_keepsLocks h
  | finalize => exact finalize_keepsLocks h
  | updatePolicy => exact updatePolicy_keepsLocks h

end Handlers

end AgentCoordinator
