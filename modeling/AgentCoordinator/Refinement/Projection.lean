import AgentCoordinator.Board.Stranded
import AgentCoordinator.Library.Projection
import AgentCoordinator.Library.Transition
import AgentCoordinator.Writes

/-
The database seen as a board.

Every row of the workflow tables keeps what its board row has, and `Db.board` reads the tables row
by row. The lemmas here say what the shared writes do to the board: most do nothing, and the rest
are the updates the moves are made of.
-/

namespace AgentCoordinator

open Guarded Tabular Maps Transition Board

/-! ### Rows -/

def Task.row (t : Task) : Board.Task :=
  ⟨t.project, t.kind, t.blockedReason.isSome, t.currentAttempt.isSome⟩

def Submission.row (u : Submission) : Candidate :=
  ⟨u.task, u.project, u.kind, u.supersededAt.isSome, u.canonicalRepositoryKey, u.targetBranch⟩

def WorkflowSubject.row (ws : WorkflowSubject) : Subject :=
  ⟨ws.project, ws.currentSubmission, ws.phase⟩

def WorkflowActivity.row (wa : WorkflowActivity) : Activity :=
  ⟨wa.project, wa.subjectTask, wa.submission, wa.activityTask, wa.kind, wa.slot, wa.state⟩

def ReviewDecision.row (x : External) (rd : ReviewDecision) : Verdict :=
  ⟨rd.submission, decide (rd.decision = .approved),
    (x.principals.get? rd.reviewer).map (·.kind)⟩

def IntegrationHold.row (h : IntegrationHold) : Hold :=
  ⟨h.activity, h.canonicalRepositoryKey, h.targetBranch, decide (h.state = .held)⟩

/-- What the workflow tables of the database say. -/
def Db.board (s : Db) : Board where
  tasks := s.tasks.project Task.row
  submissions := s.submissions.project Submission.row
  subjects := s.workflowSubjects.project WorkflowSubject.row
  activities := s.workflowActivities.project WorkflowActivity.row
  verdicts := s.reviewDecisions.project (ReviewDecision.row s.ext)
  holds := s.integrationHolds.project IntegrationHold.row
  intended a := (s.publicationIntents.get? a).isSome = true
  reconciled a := (s.publicationReconciliations.get? a).isSome = true

/-! ### Writes the board does not see -/

section Unseen

variable (s : Db)

@[simp] lemma board_endAttempts (p : Attempt → Prop) [DecidablePred p] (state : AttemptState)
    (outcome : String) : (s.endAttempts p state outcome).board = s.board := rfl

@[simp] lemma board_finish (actor : Actor) (kind : String) (record : Id) :
    (s.finish actor kind record).board = s.board := rfl

@[simp] lemma board_recordContributor (task principal session : Id) :
    (s.recordContributor task principal session).board = s.board := rfl

end Unseen

/-! ### Moves -/

/-- A condition on moves that the plain ones satisfy, and that does not depend on the tasks. -/
structure Permits (ok : Board → Label → Prop) : Prop where
  plain : ∀ b, ok b .plain
  tasks : ∀ b l T, ok b l → ok { b with tasks := T } l

lemma permits_any : Permits fun _ _ => True := ⟨fun _ => trivial, fun _ _ _ _ => trivial⟩

/-- Any number of moves that satisfy `ok`. -/
abbrev Moves (ok : Board → Label → Prop) : Board → Board → Prop := Run Move ok

/-- Moves keep a board coherent. -/
lemma Moves.coherent {ok : Board → Label → Prop} {b b' : Board} (h : Moves ok b b')
    (hb : Coherent b) : Coherent b' :=
  Run.invariant (fun _ _ _ hI _ hm => hI.move hm) h hb

section Tasks

variable {ok : Board → Label → Prop} {s : Db}

lemma Permits.move (hok : Permits ok) {b b' : Board} (h : Move b .plain b') : Moves ok b b' :=
  .single (hok.plain b) h

/-- A task that does not sleep may be blocked, freed, or lose its owner. -/
lemma Board.Retask.of_awake {b : Board} {k : Id} {t t' : Board.Task} (project : t'.project = t.project)
    (kind : t'.kind = t.kind) (awake : ¬ b.Asleep k) (owned : t'.owned = true → t.owned = true) :
    b.Retask k t t' :=
  ⟨project, fun _ => kind, fun h => absurd h awake, fun h => .inl (owned h)⟩

/-- What the board shows of the task stays the same. -/
lemma Board.Retask.of_same {b : Board} {k : Id} {t t' : Board.Task} (project : t'.project = t.project)
    (kind : t'.kind = t.kind) (blocked : t'.blocked = t.blocked) (owned : t'.owned = t.owned) :
    b.Retask k t t' :=
  ⟨project, fun _ => kind, fun _ => ⟨blocked, owned⟩, fun h => .inl (owned ▸ h)⟩

lemma Board.Retask.refl {b : Board} {k : Id} (t : Board.Task) : b.Retask k t t :=
  .of_same rfl rfl rfl rfl

lemma Board.Retask.trans {b : Board} {k : Id} {t t' t'' : Board.Task} (h : b.Retask k t t')
    (h' : b.Retask k t' t'') : b.Retask k t t'' where
  project := h'.project.trans h.project
  kind ha := (h'.kind ha).trans (h.kind ha)
  asleep ha := ⟨(h'.asleep ha).1.trans (h.asleep ha).1, (h'.asleep ha).2.trans (h.asleep ha).2⟩
  owned ho := (h'.owned ho).elim (fun ho' => h.owned ho') .inr

/-- Every task changes as it may while the board stands still. -/
def Board.Retasks (b : Board) (T T' : Table AgentCoordinator.Task) : Prop :=
  ∀ k t, T.get? k = some t → ∃ t', T'.get? k = some t' ∧ b.Retask k t.row t'.row

lemma Board.Retasks.refl {b : Board} (T : Table AgentCoordinator.Task) : b.Retasks T T :=
  fun _ t ht => ⟨t, ht, .refl _⟩

/-- One more update of tasks. -/
lemma Board.Retasks.modify {b : Board} {T T' : Table AgentCoordinator.Task}
    {p : AgentCoordinator.Task → Prop} [DecidablePred p]
    {f : AgentCoordinator.Task → AgentCoordinator.Task} {hf : ∀ t, Keyed.key (f t) = Keyed.key t}
    (h : b.Retasks T T') (hp : ∀ t, t ∈ T' → p t → b.Retask t.id t.row (f t).row) :
    b.Retasks T (T'.modify p f hf) := by
  intro k t ht
  obtain ⟨t', ht', hR⟩ := h k t ht
  refine ⟨_, by rw [Table.get?_modify, ht']; rfl, hR.trans ?_⟩
  obtain rfl : t'.id = k := Table.key_of_get? ht'
  by_cases hpt : p t'
  · simp only [if_pos hpt]
    exact hp t' (Table.mem_of_get? ht') hpt
  · simp only [if_neg hpt]
    exact .refl _

/-- An update of tasks is a move, if it is one for every task. -/
lemma Moves.retask {b : Board} {T : Table Task} (hm : Moves ok b s.board) (hok : Permits ok)
    (h : s.board.Retasks s.tasks T) : Moves ok b { s with tasks := T }.board := by
  refine hm.tail (hok.plain _) (Move.retask (b := s.board) fun k t ht => ?_)
  obtain ⟨t, hget, rfl⟩ := Table.project_eq_some.1 ht
  obtain ⟨t', hget', hR⟩ := h k t hget
  exact ⟨_, Table.project_of_get? hget', hR⟩

/-- An update of tasks that the board does not see. -/
lemma board_tasks_of_same {T : Table Task}
    (h : Related (fun t t' => t'.row = t.row) s.tasks.get? T.get?) :
    { s with tasks := T }.board = s.board := by
  have hproject : T.project Task.row = s.tasks.project Task.row := by
    funext k
    unfold Table.project
    cases hk : s.tasks.get? k with
    | none => rw [h.eq_none.2 hk]
    | some t =>
      obtain ⟨t', ht', hrow⟩ := h.new k t hk
      rw [ht', Option.map_some, Option.map_some, hrow]
  simp only [Db.board, hproject]

@[simp] lemma board_readyDependents (task : Id) : (s.readyDependents task).board = s.board :=
  board_tasks_of_same (Table.related_modify (fun _ => rfl) fun _ _ _ => rfl)

end Tasks

/-! ### Writes of the moves -/

section Seen

variable {s : Db}

/-- The activities of a board after an update of the states of some of them. -/
lemma board_activities_modify {p : WorkflowActivity → Prop} [DecidablePred p]
    {f : WorkflowActivity → WorkflowActivity} {hf : ∀ wa, Keyed.key (f wa) = Keyed.key wa}
    {q : Id → Activity → Prop} [∀ a wa, Decidable (q a wa)] {state : ActivityState}
    (hp : ∀ wa, wa ∈ s.workflowActivities → (p wa ↔ q wa.id wa.row))
    (hrow : ∀ wa, wa ∈ s.workflowActivities → p wa → (f wa).row = { wa.row with state := state }) :
    { s with workflowActivities := s.workflowActivities.modify p f hf }.board
      = { s.board with activities := s.board.setState q state } := by
  simp only [Db.board, Board.setState]
  rw [Table.project_modify (g := fun wa => { wa with state := state }) hp hrow]

lemma board_setActivityState (id : Id) (state : ActivityState) :
    { s with
        workflowActivities := s.workflowActivities.modify (fun wa => wa.id = id)
          (fun wa => { wa with state := state }) }.board
      = { s.board with activities := s.board.setState (only id) state } :=
  board_activities_modify (fun _ _ => Iff.rfl) fun _ _ _ => rfl

/-- Completing one activity. -/
lemma board_completeActivity (id : Id) :
    { s with
        workflowActivities := s.workflowActivities.modify (fun wa => wa.id = id)
          (fun wa => { wa with state := .completed, completedAt := some s.now }) }.board
      = { s.board with activities := s.board.setState (only id) .completed } :=
  board_activities_modify (fun _ _ => Iff.rfl) fun _ _ _ => rfl

lemma board_cancelActivities {p : WorkflowActivity → Prop} [DecidablePred p] (actor : Id)
    (why : CancelReason) {q : Id → Activity → Prop} [∀ a wa, Decidable (q a wa)]
    (hp : ∀ wa, wa ∈ s.workflowActivities → ((p wa ∧ wa.row.state.Live) ↔ q wa.id wa.row)) :
    (s.cancelActivities p actor why).board
      = { s.board with activities := s.board.setState q .canceled } :=
  board_activities_modify (s := s) hp fun _ _ _ => rfl

lemma board_releaseHolds {p : Id → Prop} [DecidablePred p] (actor : Id) (reason : String) :
    (s.releaseHolds p actor reason).board = { s.board with holds := s.board.release p } := by
  simp only [Db.board, Db.releaseHolds, Board.release]
  congr 1
  funext k
  simp only [Table.project, alter, Table.get?_modify]
  cases hk : s.integrationHolds.get? k with
  | none => rfl
  | some h =>
    -- a hold that is released already stays as it is
    by_cases hp : p h.activity <;> by_cases hheld : h.state = .held <;>
      simp [IntegrationHold.row, hp, hheld]

/-- The writes that end an integration: its hold is released, and it is canceled if it is live. -/
lemma board_endIntegration (id actor : Id) (reason : String) (why : CancelReason)
    (T : Table Task) :
    { (s.releaseHolds (fun a => a = id) actor reason).cancelActivities (fun wa => wa.id = id) actor
        why with tasks := T }.board
      = { s.board with
          tasks := T.project Task.row
          holds := s.board.release (· = id)
          activities := s.board.setState (fun x wa => x = id ∧ wa.state.Live) .canceled } := by
  have hcancel := board_cancelActivities (s := s.releaseHolds (fun a => a = id) actor reason)
    (p := fun wa => wa.id = id) actor why (q := fun x wa => x = id ∧ wa.state.Live) fun _ _ => Iff.rfl
  rw [board_releaseHolds] at hcancel
  exact congrArg (fun b : Board => { b with tasks := T.project Task.row }) hcancel

lemma board_createActivity (project subjectTask : Id) (title : String) (submission : Id)
    (kind : ActivityKind) (slot : Nat) :
    (s.createActivity project subjectTask title submission kind slot).board
      = { s.board with
          tasks := Function.update s.board.tasks s.tasks.fresh
            (some ⟨project, .general, false, false⟩)
          activities := Function.update s.board.activities s.workflowActivities.fresh
            (some ⟨project, subjectTask, submission, s.tasks.fresh, kind, slot, .queued⟩) } := by
  simp only [Db.board, Db.createActivity]
  rw [Table.project_create, Table.project_create]
  rfl

/-- Blocking the task of an activity that was just created. -/
lemma board_createBlocked (project subjectTask : Id) (title : String) (submission : Id)
    (kind : ActivityKind) (slot : Nat) (reason : String) :
    { s.createActivity project subjectTask title submission kind slot with
        tasks := (s.createActivity project subjectTask title submission kind slot).tasks.modify
          (fun t => t.id = s.tasks.fresh) (fun t => { t with blockedReason := some reason }) }.board
      = { s.board with
          tasks := Function.update s.board.tasks s.tasks.fresh
            (some ⟨project, .general, true, false⟩)
          activities := Function.update s.board.activities s.workflowActivities.fresh
            (some ⟨project, subjectTask, submission, s.tasks.fresh, kind, slot, .queued⟩) } := by
  obtain ⟨X, hX⟩ : ∃ X, X = s.createActivity project subjectTask title submission kind slot :=
    ⟨_, rfl⟩
  have hcreate := board_createActivity (s := s) project subjectTask title submission kind slot
  rw [← hX] at hcreate ⊢
  have htasks : (X.tasks.modify (fun t => t.id = s.tasks.fresh)
      (fun t => { t with blockedReason := some reason })).project Task.row
        = Function.update s.board.tasks s.tasks.fresh (some ⟨project, .general, true, false⟩) := by
    funext k
    have hk := congrFun (congrArg Board.tasks hcreate) k
    simp only [Db.board, Table.project, Table.get?_modify, Function.update_apply] at hk ⊢
    cases hget : X.tasks.get? k with
    | none =>
      rw [hget] at hk
      split at hk <;> simp_all
    | some t =>
      have hid : t.id = k := Table.key_of_get? hget
      rw [hget] at hk
      by_cases hfresh : k = s.tasks.fresh
      · rw [if_pos hfresh] at hk ⊢
        simp only [Option.map_some, Option.some.injEq, Task.row, Board.Task.mk.injEq] at hk ⊢
        simp [hid, hfresh, hk]
      · rw [if_neg hfresh] at hk ⊢
        rw [← hk]
        simp [hid, hfresh]
  exact congrArg₂ (fun b T => { b with tasks := T }) hcreate htasks

/-- An activity under new identities, in a slot of its own. -/
lemma queued_createActivity {project subjectTask submission : Id} {kind : ActivityKind} {slot : Nat}
    (hslot : ∀ wa ∈ s.workflowActivities, wa.submission = submission → wa.kind = kind →
      wa.slot < slot) (blocked : Bool) :
    s.board.Queued s.workflowActivities.fresh
      ⟨project, subjectTask, submission, s.tasks.fresh, kind, slot, .queued⟩
      ⟨project, .general, blocked, false⟩ where
  newActivity := Table.project_fresh _
  newTask := Table.project_fresh _
  state := rfl
  project := rfl
  kind := rfl
  owned := rfl
  slot a wa' hwa' hsub hkind := by
    obtain ⟨wa, hwa, rfl⟩ := Table.project_eq_some.1 hwa'
    exact hslot wa (Table.mem_of_get? hwa) hsub hkind

lemma slot_lt_nextSlot {submission : Id} {kind : ActivityKind} {wa : WorkflowActivity}
    (hwa : wa ∈ s.workflowActivities) (hsub : wa.submission = submission) (hkind : wa.kind = kind) :
    wa.slot < s.nextSlot submission kind := by
  have hmem : wa.slot ∈ (s.workflowActivities.filter
      (fun wa => wa.submission = submission ∧ wa.kind = kind)).map (·.slot) :=
    List.mem_map.2 ⟨wa, Table.mem_filter.2 ⟨hwa, hsub, hkind⟩, rfl⟩
  unfold Db.nextSlot
  generalize (s.workflowActivities.filter
    (fun wa => wa.submission = submission ∧ wa.kind = kind)).map (·.slot) = slots at hmem
  induction slots with
  | nil => exact absurd hmem List.not_mem_nil
  | cons x xs ih =>
    rw [List.foldr_cons]
    rcases List.mem_cons.1 hmem with rfl | h
    · omega
    · have := ih h
      omega

/-- A hold can be inserted on a free target for an activity without one. -/
lemma insertHold_ok {activity : Id} {key branch : String} {actor : Id} {taken : AppError} {s' : Db}
    (h : s.insertHold activity key branch actor taken = .ok s') :
    (∀ r ∈ s.integrationHolds, r.activity ≠ activity ∧
      (r.canonicalRepositoryKey = key → r.targetBranch = branch → r.state ≠ .held)) ∧
    s' = { s with
      integrationHolds := s.integrationHolds.create (heldHold s activity key branch actor) } := by
  simp only [Db.insertHold, bind_eq_ok, refuseIf_eq_ok, pure_eq_ok] at h
  obtain ⟨-, hfree, rfl⟩ := h
  refine ⟨fun r hr => ⟨fun ha => hfree ⟨r, hr, .inl ha⟩, fun hk hb hs => ?_⟩, rfl⟩
  exact hfree ⟨r, hr, .inr ⟨hk, hb, hs⟩⟩

lemma board_createHold (activity : Id) (key branch : String) (actor : Id) :
    { s with
        integrationHolds :=
          s.integrationHolds.create (heldHold s activity key branch actor) }.board
      = { s.board with
          holds := Function.update s.board.holds s.integrationHolds.fresh
            (some ⟨activity, key, branch, true⟩) } := by
  simp only [Db.board]
  rw [Table.project_create]
  rfl

/-- A grant gives its task an owner. -/
lemma grantAttempt_ok {g : Grant} {s' : Db} (h : s.grantAttempt g = .ok s') :
    (∀ a ∈ s.attempts, a.task = g.task → a.state ≠ .active ∧ a.generation ≠ g.generation) ∧
    s' = { s with
      attempts := s.attempts.create (g.attempt s.now)
      tasks := s.tasks.modify (fun t => t.id = g.task) (fun t =>
        { t with currentAttempt := some s.attempts.fresh, generation := g.generation }) } := by
  simp only [Db.grantAttempt, bind_eq_ok, refuseIf_eq_ok, pure_eq_ok] at h
  obtain ⟨-, hfree, rfl⟩ := h
  refine ⟨fun a ha ht => ⟨fun hs => hfree ⟨a, ha, ht, .inl hs⟩, fun hg => ?_⟩, rfl⟩
  exact hfree ⟨a, ha, ht, .inr hg⟩

end Seen

/-! ### Reading the board -/

section Reading

variable {s : Db}

lemma board_task {k : Id} {t : Task} (h : s.tasks.get? k = some t) :
    s.board.tasks k = some t.row := Table.project_of_get? h

lemma board_submission {id : Id} {u : Submission} (h : s.submissions.get? id = some u) :
    s.board.submissions id = some u.row := Table.project_of_get? h

lemma board_subject {k : Id} {ws : WorkflowSubject} (h : s.workflowSubjects.get? k = some ws) :
    s.board.subjects k = some ws.row := Table.project_of_get? h

lemma board_activity {a : Id} {wa : WorkflowActivity} (h : s.workflowActivities.get? a = some wa) :
    s.board.activities a = some wa.row := Table.project_of_get? h

lemma board_activityTask_iff {k : Id} :
    s.board.ActivityTask k ↔ ∃ wa ∈ s.workflowActivities, wa.activityTask = k := by
  constructor
  · rintro ⟨a, wa', hwa', rfl⟩
    obtain ⟨wa, hwa, rfl⟩ := Table.project_eq_some.1 hwa'
    exact ⟨wa, Table.mem_of_get? hwa, rfl⟩
  · rintro ⟨wa, hwa, rfl⟩
    exact ⟨wa.id, wa.row, board_activity (Table.get?_of_mem hwa), rfl⟩

/-- Only the task of an activity sleeps. -/
lemma Board.Asleep.activityTask {b : Board} {k : Id} (h : b.Asleep k) : b.ActivityTask k := by
  obtain ⟨a, wa, ws, hwa, -, htask, -⟩ := h
  exact ⟨a, wa, hwa, htask⟩

/-- Sleep is a matter of activities and subjects. -/
lemma Board.Asleep.of_eq {b b' : Board} {k : Id} (h : b'.Asleep k)
    (activities : b'.activities = b.activities) (subjects : b'.subjects = b.subjects) :
    b.Asleep k := by
  obtain ⟨a, wa, ws, hwa, hkind, htask, hws, hrest⟩ := h
  exact ⟨a, wa, ws, activities ▸ hwa, hkind, htask, subjects ▸ hws, hrest⟩

lemma board_intended_iff {a : Id} : s.board.intended a ↔ s.publicationIntents.get? a ≠ none :=
  Option.isSome_iff_ne_none

lemma board_reconciled_iff {a : Id} :
    s.board.reconciled a ↔ s.publicationReconciliations.get? a ≠ none :=
  Option.isSome_iff_ne_none

/-- The hold of an activity is held. -/
lemma board_held_iff {a : Id} :
    (∃ h row, s.board.holds h = some row ∧ row.activity = a ∧ row.held = true) ↔
      ∃ h ∈ s.integrationHolds, h.activity = a ∧ h.state = .held := by
  constructor
  · rintro ⟨k, row, hrow, rfl, hheld⟩
    obtain ⟨h, hh, rfl⟩ := Table.project_eq_some.1 hrow
    exact ⟨h, Table.mem_of_get? hh, rfl, by simpa [IntegrationHold.row] using hheld⟩
  · rintro ⟨h, hh, rfl, hheld⟩
    exact ⟨h.id, h.row, Table.project_of_get? (Table.get?_of_mem hh), rfl,
      by simpa [IntegrationHold.row] using hheld⟩

end Reading

end AgentCoordinator
