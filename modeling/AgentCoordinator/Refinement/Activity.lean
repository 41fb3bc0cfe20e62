import AgentCoordinator.Workflow.Activity
import AgentCoordinator.Refinement.Coordination

/-
Claiming and releasing workflow activities: what they do to the board and to the ledger.

The guards of an activity handler say that its activity is live, its submission current, and its
task awake. On the board a claim takes the target's hold, gives the task an owner and makes the
activity active; a release takes all of it back.
-/

namespace AgentCoordinator

open Guarded Tabular Maps Transition Board Fencing

/-! ### What the guards say -/

/-- What `ensure_current` checks. -/
structure ActivityContext.Current (ctx : ActivityContext) : Prop where
  current : ctx.submission.id = ctx.subject.currentSubmission
  standing : ctx.submission.supersededAt = none
  notRevision : ctx.subject.phase ≠ .revisionNeeded
  live : ctx.activity.state.Live

lemma pinsCurrent_iff {ctx : ActivityContext} : ctx.pinsCurrent = true ↔
    ctx.submission.id = ctx.subject.currentSubmission ∧ ctx.submission.supersededAt = none ∧
      ctx.submission.taskDigest.all (fun pinned => pinned = ctx.subjectTask.digest) = true := by
  simp [ActivityContext.pinsCurrent, and_assoc]

lemma ensureCurrent_ok {ctx : ActivityContext} {r : Unit} (h : ensureCurrent ctx = .ok r) :
    ctx.Current := by
  simp only [ensureCurrent, bind_eq_ok, refuseIf_eq_ok, not_or, not_not] at h
  obtain ⟨-, ⟨hpins, hphase⟩, hstate⟩ := h
  obtain ⟨hsub, hstanding, -⟩ := pinsCurrent_iff.1 hpins
  refine ⟨hsub, hstanding, hphase, ?_⟩
  unfold ActivityState.Live
  revert hstate
  cases ctx.activity.state <;> simp

namespace ActivityContext.Joins

variable {s : Db} {project id : Id} {ctx : ActivityContext}

lemma id_eq (h : ctx.Joins s project id) : ctx.activity.id = id := Table.key_of_get? h.activity

lemma task_id (h : ctx.Joins s project id) : ctx.subjectTask.id = ctx.activity.subjectTask :=
  Table.key_of_get? h.task

lemma submission_id (h : ctx.Joins s project id) : ctx.submission.id = ctx.activity.submission :=
  Table.key_of_get? h.submission

lemma board_activity (h : ctx.Joins s project id) :
    s.board.activities id = some ctx.activity.row := Table.project_of_get? h.activity

lemma board_subject (h : ctx.Joins s project id) :
    s.board.subjects ctx.activity.row.subjectTask = some ctx.subject.row :=
  Table.project_of_get? h.subject

lemma board_submission (h : ctx.Joins s project id) :
    s.board.submissions ctx.activity.row.submission = some ctx.submission.row :=
  Table.project_of_get? h.submission

lemma pinned (h : ctx.Joins s project id) (hc : ctx.Current) :
    s.board.Pinned ctx.activity.row ctx.subject.row ctx.submission.row where
  subject := h.board_subject
  current := hc.current.symm.trans h.submission_id
  submission := h.board_submission
  standing := by simp [Submission.row, hc.standing]
  phase := hc.notRevision

lemma activityTask (h : ctx.Joins s project id) :
    s.board.ActivityTask ctx.activity.activityTask := ⟨id, _, h.board_activity, rfl⟩

end ActivityContext.Joins

/-- A task that is not blocked, or that has an owner, does not sleep. -/
lemma awake_of_running {s : Db} (hb : Coherent s.board) {k : Id} {t : Task}
    (ht : s.tasks.get? k = some t)
    (hrun : t.blockedReason = none ∨ t.currentAttempt.isSome = true) : ¬ s.board.Asleep k := by
  rintro ⟨a, wa, ws, hwa, hkind, htask, hws, hcur, hphase⟩
  obtain ⟨-, ⟨t', ht', hblocked, howned⟩, -⟩ := hb.asleep a wa ws hwa hkind hws hcur hphase
  rw [htask, board_task ht] at ht'
  obtain rfl := Option.some.inj ht'
  rcases hrun with hrun | hrun
  · simp [Task.row, hrun] at hblocked
  · simp [Task.row, hrun] at howned

/-- What `owned_activity` checks. -/
structure Db.OwnsActivity (s : Db) (actor : Actor) (project id : Id) (ctx : ActivityContext) :
    Prop extends ctx.Joins s project id, ctx.Current where
  owner : ∃ t a, s.tasks.get? ctx.activity.activityTask = some t ∧ t.currentAttempt = some a.id ∧
    s.attempts.get? a.id = some a ∧ a.state = .active ∧ s.now < a.expiresAt ∧
    a.owner = actor.id ∧ some a.session = actor.session ∧ a.credential = actor.credential

lemma session_ok {actor : Actor} {id : Id} (h : session actor = .ok id) :
    actor.session = some id := okOr_eq_ok.1 h

lemma attemptOf_eq_some {s : Db} {t : Task} {a : Attempt} (h : s.attemptOf t = some a) :
    t.currentAttempt = some a.id ∧ s.attempts.get? a.id = some a := by
  obtain ⟨id, hid, ha⟩ := Option.bind_eq_some_iff.1 h
  obtain rfl : a.id = id := Table.key_of_get? ha
  exact ⟨hid, ha⟩

lemma ownedActivity_ok {s : Db} {actor : Actor} {project id : Id} {generation : Int}
    {kind : ActivityKind} {ctx : ActivityContext}
    (h : ownedActivity s actor project id generation kind = .ok ctx) :
    s.OwnsActivity actor project id ctx ∧ ctx.activity.kind = kind := by
  simp only [ownedActivity, bind_eq_ok, okOr_eq_ok, refuseIf_eq_ok, pure_eq_ok, not_or, not_not,
    not_le] at h
  obtain ⟨ctx', hctx, -, -, _, hcurrent, -, hkind, a, ha, ownerSession, hsession, -,
    ⟨howner, hses, hcred, -, hactive, hexp⟩, rfl⟩ := h
  obtain ⟨t, ht, hattempt⟩ := Option.bind_eq_some_iff.1 ha
  obtain ⟨hcur, hget⟩ := attemptOf_eq_some hattempt
  refine ⟨⟨joins_of_activityContext hctx, ensureCurrent_ok hcurrent,
    ⟨t, a, ht, hcur, hget, hactive, hexp, howner, ?_, hcred⟩⟩, hkind⟩
  rw [session_ok hsession, hses]

namespace Db.OwnsActivity

variable {s : Db} {actor : Actor} {project id : Id} {ctx : ActivityContext}

lemma awake (h : s.OwnsActivity actor project id ctx) (hb : Coherent s.board) :
    ¬ s.board.Asleep ctx.activity.activityTask := by
  obtain ⟨t, a, ht, hcur, -⟩ := h.owner
  exact awake_of_running hb ht (.inr (by rw [hcur]; rfl))

/-- Ending the current attempt of the activity's task leaves the task quiet. -/
lemma quiet (h : s.OwnsActivity actor project id ctx) (hs : s.Sound) {attempt : Id}
    (hattempt : currentAttemptId s ctx.activity.activityTask = .ok attempt) {state : AttemptState}
    {outcome : String} (hstate : state ≠ .active) :
    (s.endAttempts (fun a => a.id = attempt) state outcome).Quiet ctx.activity.activityTask := by
  obtain ⟨t, a, ht, -⟩ := h.owner
  simp only [currentAttemptId, okOr_eq_ok, ht, Option.bind_some] at hattempt
  exact hs.quiet_of_current ht hattempt hstate fun a' ha' _ => Table.key_of_get? ha'

end Db.OwnsActivity

/-! ### Claims -/

section Claim

variable {s s' : Db} {actor : Actor} {project id : Id} {ctx : ActivityContext}

/-- An earlier owner's attempt ends only once it has lapsed. -/
lemma expirePrevious_ok {task : Task} (h : expirePrevious s actor project ctx task = .ok s') :
    s' = s ∨ ∃ previous, task.currentAttempt = some previous ∧ s.ownerLive task = false ∧
      s' = s.endAttempts (fun a => a.id = previous ∧ a.state = .active) .expired
        "Workflow activity lease expired." := by
  unfold expirePrevious at h
  cases hcur : task.currentAttempt with
  | none =>
    simp only [hcur, pure_eq_ok] at h
    exact .inl h.symm
  | some previous =>
    simp only [hcur, bind_eq_ok, refuseIf_eq_ok, pure_eq_ok] at h
    obtain ⟨-, hlive, -, -, -, -, rfl⟩ := h
    exact .inr ⟨previous, rfl, by simpa using hlive, rfl⟩

/-- The hold is there and held, or it is taken on a free target. -/
lemma acquireHold_ok (h : acquireHold s actor ctx = .ok s') :
    (s' = s ∧ ∃ r ∈ s.integrationHolds, r.activity = ctx.activity.id ∧ r.state = .held) ∨
      ∃ key branch, ctx.submission.canonicalRepositoryKey = some key ∧
        ctx.submission.targetBranch = some branch ∧
        s.insertHold ctx.activity.id key branch actor.id
          (.conflict "integration_target_held"
            "Another integration holds this canonical repository and target branch.") = .ok s' := by
  unfold acquireHold at h
  cases hhold : s.holdOf ctx.activity.id with
  | some r =>
    simp only [hhold, bind_eq_ok, refuseIf_eq_ok, pure_eq_ok, not_not] at h
    obtain ⟨-, hheld, rfl⟩ := h
    exact .inl ⟨rfl, r, List.mem_of_find?_eq_some hhold, by simpa using List.find?_some hhold,
      hheld⟩
  | none =>
    simp only [hhold, bind_eq_ok, okOr_eq_ok] at h
    obtain ⟨key, hkey, branch, hbranch, h⟩ := h
    exact .inr ⟨key, branch, hkey, hbranch, h⟩

/-- What `claim_activity` does. -/
lemma claimActivity_ok {input : ActivityClaimInput}
    (h : claimActivity s actor project id input = .ok s') :
    ∃ ctx task g s₁ s₂ s₃, ctx.Joins s project id ∧ ctx.Current ∧
      s.tasks.get? ctx.activity.activityTask = some task ∧ task.blockedReason = none ∧
      expirePrevious s actor project ctx task = .ok s₁ ∧
      ((ctx.activity.kind = .integration ∧ acquireHold s₁ actor ctx = .ok s₂) ∨
        (ctx.activity.kind ≠ .integration ∧ s₂ = s₁)) ∧
      g.task = ctx.activity.activityTask ∧ g.generation = task.generation + 1 ∧
      s₂.grantAttempt g = .ok s₃ ∧
      s' = (s₃.setActivityState ctx.activity.id .active).finish actor "workflow_activity.claimed"
        ctx.activity.id := by
  simp only [claimActivity, bind_eq_ok, refuseIf_eq_ok, okOr_eq_ok, pure_eq_ok, ite_eq_ok] at h
  obtain ⟨ownerSession, -, ctx, hctx, -, -, -, -, _, hcurrent, -, -, -, -, -, -, -, -, -, -, task,
    ht, -, -, -, hblocked, s₁, h₁, s₂, h₂, s₃, h₃, rfl⟩ := h
  refine ⟨ctx, task, _, s₁, s₂, s₃, joins_of_activityContext hctx, ensureCurrent_ok hcurrent, ht,
    not_not.1 hblocked, h₁, ?_, rfl, rfl, h₃, rfl⟩
  exact h₂.imp_right fun ⟨hk, he⟩ => ⟨hk, he.symm⟩

/-- Taking the hold of a live integration is a move. -/
lemma acquireHold_moves {ok : Board → Label → Prop} {b : Board} (hm : Moves ok b s.board)
    (hok : Permits ok) (hj : ctx.Joins s project id) (hc : ctx.Current)
    (hkind : ctx.activity.kind = .integration) (hawake : ¬ s.board.Asleep ctx.activity.activityTask)
    (h : acquireHold s actor ctx = .ok s') : Moves ok b s'.board := by
  obtain ⟨rfl, -⟩ | ⟨key, branch, hkey, hbranch, h⟩ := acquireHold_ok h
  · exact hm
  · obtain ⟨hfree, rfl⟩ := insertHold_ok h
    rw [board_createHold]
    refine hm.tail (hok.plain _) (Move.takeHold (a := id) hj.board_activity hkind hc.live hawake
      (hj.pinned hc) hj.id_eq ⟨Table.project_fresh _, rfl, hkey, hbranch, ?_⟩ ?_)
    · intro k row hrow
      obtain ⟨r, hr, rfl⟩ := Table.project_eq_some.1 hrow
      exact (hfree r (Table.mem_of_get? hr)).1
    · intro k row hrow hheld hk hbr
      obtain ⟨r, hr, rfl⟩ := Table.project_eq_some.1 hrow
      exact (hfree r (Table.mem_of_get? hr)).2 hk hbr (by simpa [IntegrationHold.row] using hheld)

/-- A grant gives the awake task of an activity an owner. -/
lemma grant_moves {ok : Board → Label → Prop} {b : Board} {g : Grant} (hm : Moves ok b s.board)
    (hok : Permits ok) (hactivity : s.board.ActivityTask g.task)
    (hawake : ¬ s.board.Asleep g.task) (h : s.grantAttempt g = .ok s') : Moves ok b s'.board := by
  obtain ⟨-, rfl⟩ := grantAttempt_ok h
  refine Moves.retask (s := { s with attempts := s.attempts.create (g.attempt s.now) }) hm hok
    (.modify (.refl _) fun t _ hid => ?_)
  rw [show t.id = g.task from hid]
  exact ⟨rfl, fun _ => rfl, fun h => absurd h hawake, fun _ => .inr (.inl hactivity)⟩

theorem claimActivity_moves {input : ActivityClaimInput} {ok : Board → Label → Prop}
    (hok : Permits ok) (hb : Coherent s.board)
    (h : claimActivity s actor project id input = .ok s') : Moves ok s.board s'.board := by
  obtain ⟨ctx, task, g, s₁, s₂, s₃, hj, hc, ht, hblocked, h₁, h₂, htask, -, h₃, rfl⟩ :=
    claimActivity_ok h
  have hawake := awake_of_running hb ht (.inl hblocked)
  -- until the grant, the board changes at most by the hold
  have hj₁ : ctx.Joins s₁ project id ∧ s₁.board = s.board ∧ s₁.tasks = s.tasks := by
    obtain rfl | ⟨previous, -, -, rfl⟩ := expirePrevious_ok h₁
    · exact ⟨hj, rfl, rfl⟩
    · exact ⟨⟨hj.activity, hj.activityProject, hj.subject, hj.submission, hj.project, hj.task⟩, rfl,
        rfl⟩
  obtain ⟨hj₁, hboard, htasks⟩ := hj₁
  have hm₂ : Moves ok s.board s₂.board ∧ s₂.board.activities = s.board.activities ∧
      s₂.board.subjects = s.board.subjects ∧ s₂.tasks = s.tasks := by
    rcases h₂ with ⟨hkind, h₂⟩ | ⟨-, rfl⟩
    · refine ⟨acquireHold_moves (hboard ▸ .refl _) hok hj₁ hc hkind (hboard ▸ hawake) h₂, ?_⟩
      obtain ⟨rfl, -⟩ | ⟨_, _, -, -, h₂⟩ := acquireHold_ok h₂
      · exact ⟨by rw [hboard], by rw [hboard], htasks⟩
      · obtain ⟨-, rfl⟩ := insertHold_ok h₂
        rw [board_createHold, hboard]
        exact ⟨rfl, rfl, htasks⟩
    · rw [hboard]
      exact ⟨.refl _, rfl, rfl, htasks⟩
  obtain ⟨hm₂, hact, hsubj, htasks₂⟩ := hm₂
  -- the grant gives the task an owner, and then the activity becomes active
  have hm₃ := grant_moves hm₂ hok (by
    rw [htask]
    exact ⟨id, _, hact ▸ hj.board_activity, rfl⟩) (by
    rw [htask]
    exact fun h => hawake (h.of_eq hact hsubj)) h₃
  have hact₃ : s₃.board.activities = s.board.activities := by
    obtain ⟨-, rfl⟩ := grantAttempt_ok h₃
    exact hact
  have hsubj₃ : s₃.board.subjects = s.board.subjects := by
    obtain ⟨-, rfl⟩ := grantAttempt_ok h₃
    exact hsubj
  have hrow : ∀ a wa, s₃.board.activities a = some wa → a = ctx.activity.id →
      wa = ctx.activity.row := by
    rintro a wa hwa rfl
    rw [hact₃, hj.id_eq, hj.board_activity] at hwa
    exact (Option.some.inj hwa).symm
  rw [board_finish, Db.setActivityState, board_setActivityState]
  refine hm₃.tail (hok.plain _) (Move.restate rfl (by simp) ?_ ?_ (fun hs => absurd hs (by simp))
    fun hs => absurd hs (by simp))
  · intro a wa hwa ha
    rw [hrow a wa hwa ha]
    exact hc.live
  · intro a wa hwa ha hsleep
    rw [hrow a wa hwa ha] at hsleep
    exact hawake (hsleep.of_eq hact₃ hsubj₃)

theorem claimActivity_transfers {input : ActivityClaimInput}
    (h : claimActivity s actor project id input = .ok s') : s.Transfers s' := by
  obtain ⟨ctx, task, g, s₁, s₂, s₃, -, -, ht, -, h₁, h₂, htask, hgen, h₃, rfl⟩ :=
    claimActivity_ok h
  have hs₁ : s.Settles s₁ ∧ s₁.tasks = s.tasks := by
    obtain rfl | ⟨previous, -, -, rfl⟩ := expirePrevious_ok h₁
    · exact ⟨.refl _, rfl⟩
    · exact ⟨.endAttempts (.refl s) (by simp), rfl⟩
  have hs₂ : s.Settles s₂ ∧ s₂.tasks = s.tasks := by
    rcases h₂ with ⟨-, h₂⟩ | ⟨-, rfl⟩
    · obtain ⟨rfl, -⟩ | ⟨_, _, -, -, h₂⟩ := acquireHold_ok h₂
      · exact hs₁
      · obtain ⟨-, rfl⟩ := insertHold_ok h₂
        exact ⟨hs₁.1.trans (.of_eq rfl rfl rfl), hs₁.2⟩
    · exact hs₁
  refine .grants ⟨s₂, s₃, g, task, hs₂.1, ?_, by omega, h₃, .finish (.of_eq rfl rfl rfl)⟩
  rw [hs₂.2, htask]
  exact ht

end Claim

/-! ### Releases -/

section Release

variable {s s' : Db} {actor : Actor} {project id : Id} {ctx : ActivityContext}

/-- What `release_activity` does. -/
lemma releaseActivity_ok {input : ActivityReleaseInput}
    (h : releaseActivity s actor project id input = .ok s') :
    ∃ ctx attempt s₁, s.OwnsActivity actor project id ctx ∧
      s.publicationIntents.get? ctx.activity.id = none ∧
      currentAttemptId s ctx.activity.activityTask = .ok attempt ∧
      s₁ = s.requeueActivity ctx attempt input.summary ∧
      s' = (if ctx.activity.kind = .integration then
          s₁.releaseIntegration actor project ctx input.summary else s₁).finish actor
        "workflow_activity.released" ctx.activity.id := by
  simp only [releaseActivity, bind_eq_ok, refuseIf_eq_ok, pure_eq_ok] at h
  obtain ⟨-, -, -, -, raw, -, ctx, hown, -, -, -, hintent, attempt, hattempt, rfl⟩ := h
  exact ⟨ctx, attempt, _, (ownedActivity_ok hown).1, by simpa using hintent, hattempt, rfl, rfl⟩

lemma Db.Settles.setActivityState {activity : Id} {state : ActivityState} (h : s.Settles s') :
    s.Settles (s'.setActivityState activity state) := h.trans (.of_eq rfl rfl rfl)

/-- The owner's activity changes its state after tasks changed. -/
lemma restateOwned_moves {ok : Board → Label → Prop} {T : Table Task} {state : ActivityState}
    (hok : Permits ok) (hb : Coherent s.board) (hown : s.OwnsActivity actor project id ctx)
    (hT : s.board.Retasks s.tasks T) (hcompleted : state ≠ .completed) (hcanceled : state ≠ .canceled)
    (hrecovery : state = .recoveryRequired → s.board.intended id) :
    Moves ok s.board { { s with tasks := T }.board with
      activities := s.board.setState (only ctx.activity.id) state } := by
  have hrow : ∀ a wa, s.board.activities a = some wa → a = ctx.activity.id →
      a = id ∧ wa = ctx.activity.row := by
    rintro a wa hwa rfl
    rw [hown.toJoins.id_eq, hown.toJoins.board_activity] at hwa
    exact ⟨hown.toJoins.id_eq, (Option.some.inj hwa).symm⟩
  refine (Moves.retask (.refl _) hok hT).tail (hok.plain _)
    (Move.restate (b := { s with tasks := T }.board) (if_neg hcanceled).symm hcompleted ?_ ?_ ?_
      fun hs => absurd hs hcanceled)
  · intro a wa hwa ha
    rw [(hrow a wa hwa ha).2]
    exact hown.live
  · intro a wa hwa ha hsleep
    rw [(hrow a wa hwa ha).2] at hsleep
    exact hown.awake hb hsleep
  · intro hs a wa hwa ha
    rw [(hrow a wa hwa ha).1]
    exact hrecovery hs

/-- Requeueing an owned activity: its task is free and the activity queued. -/
lemma requeueActivity_moves {ok : Board → Label → Prop} (hok : Permits ok) (hb : Coherent s.board)
    (hown : s.OwnsActivity actor project id ctx) {attempt : Id} {summary : String} :
    Moves ok s.board (s.requeueActivity ctx attempt summary).board := by
  rw [Db.requeueActivity, Db.setActivityState, board_setActivityState]
  refine restateOwned_moves hok hb hown (.modify (.refl _) fun t _ hid => ?_) (by simp) (by simp)
    fun hs => absurd hs (by simp)
  exact .of_awake rfl rfl (by rw [show t.id = _ from hid]; exact hown.awake hb)
    fun h => absurd h (by simp [Task.row])

/-- The next integration of the submission, in the next slot. -/
lemma queued_replacement (s : Db) (ctx : ActivityContext) (project : Id) :
    s.board.Queued s.workflowActivities.fresh
      ⟨project, ctx.subjectTask.id, ctx.submission.id, s.tasks.fresh, .integration,
        s.nextSlot ctx.submission.id .integration, .queued⟩
      ⟨project, .general, false, false⟩ :=
  queued_createActivity (fun _ hwa hs hk => slot_lt_nextSlot hwa hs hk) false

/-- Canceling an integration without an intent, and queueing the next one, is a move. -/
lemma releaseIntegration_moves {ok : Board → Label → Prop} {b : Board} {summary : String}
    {ws : Subject} {u : Candidate} (wa : Activity) (hm : Moves ok b s.board) (hok : Permits ok)
    (activity : s.board.activities ctx.activity.id = some wa) (kind : wa.kind = .integration)
    (live : wa.state.Live) (task : wa.task = ctx.activity.activityTask)
    (awake : ¬ s.board.Asleep wa.task) (pinned : s.board.Pinned wa ws u)
    (unintended : ¬ s.board.intended ctx.activity.id)
    (subject : ctx.subjectTask.id = wa.subjectTask)
    (submission : ctx.submission.id = wa.submission) :
    Moves ok b (s.releaseIntegration actor project ctx summary).board := by
  obtain ⟨T, hT⟩ : ∃ T, T = s.tasks.modify (fun t => t.id = ctx.activity.activityTask) (fun t =>
      { t with lifecycle := .canceled, blockedReason := none }) := ⟨_, rfl⟩
  have hm₁ : Moves ok b { s with tasks := T }.board := by
    rw [hT]
    exact hm.retask hok (.modify (.refl _) fun t _ hid =>
      .of_awake rfl rfl (by rw [show t.id = _ from hid, ← task]; exact awake) fun h => h)
  -- the board before the next integration is queued
  obtain ⟨X, hX⟩ : ∃ X : Db, X = { ((s.releaseHolds (fun a => a = ctx.activity.id) actor.id
      "Integration activity released before publication intent.").cancelActivities
        (fun wa => wa.id = ctx.activity.id) actor.id
        ⟨"released", "The integration owner released it before publication: " ++ summary⟩) with
      tasks := T } := ⟨_, rfl⟩
  have hboard : X.board = { { s with tasks := T }.board with
      holds := { s with tasks := T }.board.release (· = ctx.activity.id)
      activities := { s with tasks := T }.board.setState (only ctx.activity.id) .canceled } := by
    rw [hX, board_endIntegration]
    have hcongr : s.board.setState (fun x wa => x = ctx.activity.id ∧ wa.state.Live) .canceled
        = s.board.setState (only ctx.activity.id) .canceled := by
      refine alter_congr fun x w hw => ⟨fun h => h.1, fun h => ⟨h, ?_⟩⟩
      rw [show x = ctx.activity.id from h, activity] at hw
      obtain rfl := Option.some.inj hw
      exact live
    rw [hcongr]
    rfl
  have hrelease : s.releaseIntegration actor project ctx summary = X.replaceIntegration ctx project := by
    rw [hX, hT]
    rfl
  have hrelated : Related SameActivity X.board.activities { s with tasks := T }.board.activities := by
    rw [hboard]
    exact related_setState.symm fun _ _ h => h.symm
  rw [hrelease, Db.replaceIntegration, board_createActivity, hboard]
  exact hm₁.tail (hok.plain _) (Move.releaseIntegration (b := { s with tasks := T }.board) activity
    kind live awake ⟨pinned.subject, pinned.current, pinned.submission, pinned.standing,
      pinned.phase⟩ unintended ((queued_replacement X ctx project).of_same (by rw [hboard]) hrelated)
     ⟨subject, submission, rfl⟩)

theorem releaseActivity_moves {input : ActivityReleaseInput} {ok : Board → Label → Prop}
    (hok : Permits ok) (hb : Coherent s.board)
    (h : releaseActivity s actor project id input = .ok s') : Moves ok s.board s'.board := by
  obtain ⟨ctx, attempt, s₁, hown, hintent, -, hs₁, rfl⟩ := releaseActivity_ok h
  have hm : Moves ok s.board s₁.board := hs₁ ▸ requeueActivity_moves hok hb hown
  rw [board_finish]
  split
  · rename_i hkind
    have hact : s₁.board.activities = s.board.setState (only ctx.activity.id) .queued := by
      rw [hs₁, Db.requeueActivity, Db.setActivityState, board_setActivityState]
      rfl
    have hid := hown.toJoins.id_eq
    have hpinned := hown.toJoins.pinned hown.toCurrent
    have hpinned₁ : s₁.board.Pinned { ctx.activity.row with state := .queued } ctx.subject.row
        ctx.submission.row := by
      rw [hs₁]
      exact ⟨hpinned.subject, hpinned.current, hpinned.submission, hpinned.standing, hpinned.phase⟩
    refine releaseIntegration_moves { ctx.activity.row with state := .queued } hm hok ?_ hkind
      (.inl rfl) rfl ?_ hpinned₁ ?_ hown.toJoins.task_id hown.toJoins.submission_id
    · rw [hact]
      exact alter_of_pos (hid ▸ hown.toJoins.board_activity) rfl
    · rintro ⟨a, wa, ws, hwa, hk, htask, hws, hrest⟩
      rw [hact] at hwa
      obtain ⟨w₀, hw₀, hsame, -⟩ := of_setState (b := s.board) (p := only ctx.activity.id) hwa
      rw [hs₁] at hws
      rw [hsame] at hk htask hws hrest
      exact hown.awake hb ⟨a, w₀, ws, hw₀, hk, htask, hws, hrest⟩
    · rw [hs₁]
      intro hi
      change (s.publicationIntents.get? ctx.activity.id).isSome = true at hi
      rw [hintent] at hi
      exact absurd hi (by simp)
  · exact hm

theorem releaseActivity_settles {input : ActivityReleaseInput} (hs : s.Sound)
    (h : releaseActivity s actor project id input = .ok s') : s.Settles s' := by
  obtain ⟨ctx, attempt, s₁, hown, -, hattempt, hs₁, rfl⟩ := releaseActivity_ok h
  have hrequeue : s.Settles s₁ := by
    rw [hs₁]
    refine .setActivityState (.setTasks (.endAttempts (.refl s) (by simp)) (Table.related_modify
      (fun _ => ⟨rfl, .inl rfl⟩) fun t _ hid => ⟨rfl, .inr ⟨rfl, ?_⟩⟩))
    rw [show t.id = _ from hid]
    exact hown.quiet hs hattempt (by simp)
  refine .finish ?_
  split
  · exact .createActivity (.keepTasks (.cancelActivities (.releaseHolds hrequeue))
      (Table.related_modify (fun _ => ⟨rfl, rfl⟩) fun _ _ _ => ⟨rfl, rfl⟩))
  · exact hrequeue

end Release

end AgentCoordinator
