import AgentCoordinator.Library.Maps
import AgentCoordinator.Schema

/-
The workflow, seen from above.

A `Board` keeps of every workflow table only what decides which work may go on: maps from keys to
short rows, without times, texts or actors. `Move` lists what can happen to a board: a submission
enters, activities are queued, owned, decided and canceled, holds are taken and given back, a
subject moves through its phases. The handlers are shown to make only such moves, and what holds
after any number of moves is proved here once, whatever the handlers look like.
-/

namespace AgentCoordinator

/-- A queued or an active activity. -/
def ActivityState.Live (state : ActivityState) : Prop := state = .queued ∨ state = .active

instance : DecidablePred ActivityState.Live :=
  fun _ => inferInstanceAs (Decidable (_ ∨ _))

/-- A completed or a canceled activity. -/
def ActivityState.Ended (state : ActivityState) : Prop := state = .completed ∨ state = .canceled

instance : DecidablePred ActivityState.Ended :=
  fun _ => inferInstanceAs (Decidable (_ ∨ _))

/-- What is neither live nor over is waiting for a recovery. -/
lemma ActivityState.live_or_recovery {state : ActivityState} (h : ¬ state.Ended) :
    state.Live ∨ state = .recoveryRequired := by
  revert h
  cases state <;> decide

lemma ActivityState.Live.not_ended {state : ActivityState} (h : state.Live) : ¬ state.Ended := by
  revert h
  cases state <;> decide

namespace Board

/-- A task: whether it is blocked, and whether an attempt is its current one. -/
structure Task where
  project : Id
  kind : WorkKind
  blocked : Bool
  owned : Bool

/-- A submission. -/
structure Candidate where
  task : Id
  project : Id
  kind : WorkKind
  superseded : Bool
  key : Option String
  branch : Option String

/-- A workflow subject. -/
structure Subject where
  project : Id
  current : Id
  phase : Phase

/-- A workflow activity. -/
structure Activity where
  project : Id
  subjectTask : Id
  submission : Id
  task : Id
  kind : ActivityKind
  slot : Nat
  state : ActivityState

/-- A review decision, with the kind of account that made it. -/
structure Verdict where
  submission : Id
  approved : Bool
  reviewer : Option PrincipalKind

/-- An integration hold. -/
structure Hold where
  activity : Id
  key : String
  branch : String
  held : Bool

end Board

/-- What the workflow tables say. -/
@[ext]
structure Board where
  tasks : Id → Option Board.Task
  submissions : Id → Option Board.Candidate
  subjects : Id → Option Board.Subject
  activities : Id → Option Board.Activity
  verdicts : Id → Option Board.Verdict
  holds : Id → Option Board.Hold
  /-- The activity has a publication intent. -/
  intended : Id → Prop
  /-- The activity's publication was reconciled. -/
  reconciled : Id → Prop

namespace Board

open Maps

/-! ### Vocabulary -/

/-- An integration that may still publish: it is live, or its intent is unsettled. -/
def Open (b : Board) (a : Id) (wa : Activity) : Prop :=
  wa.state.Live ∨ (b.intended a ∧ ¬ b.reconciled a)

/-- The task of an integration whose submission is still in review. -/
def Asleep (b : Board) (k : Id) : Prop :=
  ∃ a wa ws, b.activities a = some wa ∧ wa.kind = .integration ∧ wa.task = k ∧
    b.subjects wa.subjectTask = some ws ∧ ws.current = wa.submission ∧ ws.phase = .review

/-- The task belongs to an activity. -/
def ActivityTask (b : Board) (k : Id) : Prop := ∃ a wa, b.activities a = some wa ∧ wa.task = k

/-- The submission is the current one of its subject, and not superseded. -/
structure Pinned (b : Board) (wa : Activity) (ws : Subject) (u : Candidate) : Prop where
  subject : b.subjects wa.subjectTask = some ws
  current : ws.current = wa.submission
  submission : b.submissions wa.submission = some u
  standing : u.superseded = false
  phase : ws.phase ≠ .revisionNeeded

/-- The kind of account that may decide a review of this kind. -/
def fits : ActivityKind → PrincipalKind → Prop
  | .agentReview, k => k = .agent
  | .humanReview, k => k = .human
  | _, _ => True

/-- What may happen to one task while the workflow stands still: a sleeping task stays as it is,
and only a task that an activity works on, or that is out of the workflow, gets an owner. -/
structure Retask (b : Board) (k : Id) (t t' : Task) : Prop where
  project : t'.project = t.project
  kind : b.ActivityTask k → t'.kind = t.kind
  asleep : b.Asleep k → t'.blocked = t.blocked ∧ t'.owned = t.owned
  owned : t'.owned = true → t.owned = true ∨ b.ActivityTask k ∨
    ∀ ws, b.subjects k = some ws → ws.phase = .revisionNeeded

/-- The activities of the submission, other than `except`, in one of `states`. -/
def liveOf (submission : Id) (except : Id → Prop) (a : Id) (wa : Activity) : Prop :=
  wa.submission = submission ∧ ¬ except a ∧ wa.state.Live

instance (submission : Id) (except : Id → Prop) [DecidablePred except] (a : Id) (wa : Activity) :
    Decidable (liveOf submission except a wa) := by
  unfold liveOf; infer_instance

/-- The queued reviews of the submission. -/
def queuedReviewOf (submission : Id) (_ : Id) (wa : Activity) : Prop :=
  wa.submission = submission ∧ wa.kind ≠ .integration ∧ wa.state = .queued

instance (submission a : Id) (wa : Activity) : Decidable (queuedReviewOf submission a wa) := by
  unfold queuedReviewOf; infer_instance

/-- The activity with this identity. -/
def only (a₀ : Id) (a : Id) (_ : Activity) : Prop := a = a₀

instance (a₀ a : Id) (wa : Activity) : Decidable (only a₀ a wa) :=
  inferInstanceAs (Decidable (a = a₀))

/-- Put the activities that satisfy `p` in `state`. -/
def setState (b : Board) (p : Id → Activity → Prop) [∀ a wa, Decidable (p a wa)]
    (state : ActivityState) : Id → Option Activity :=
  alter b.activities p fun wa => { wa with state := state }

/-- Release the holds of the activities that satisfy `p`. -/
def release (b : Board) (p : Id → Prop) [DecidablePred p] : Id → Option Hold :=
  alter b.holds (fun _ h => p h.activity) fun h => { h with held := false }

/-- Put the subject of task `k` in `phase`. -/
def setPhase (b : Board) (k : Id) (phase : Phase) : Id → Option Subject :=
  alter b.subjects (fun k' _ => k' = k) fun ws => { ws with phase := phase }

/-- Supersede a submission. -/
def supersede (b : Board) (u : Id) : Id → Option Candidate :=
  alter b.submissions (fun u' _ => u' = u) fun c => { c with superseded := true }

/-- A queued activity under a new identity, with a new task of its own. -/
structure Queued (b : Board) (a : Id) (wa : Activity) (t : Task) : Prop where
  newActivity : b.activities a = none
  newTask : b.tasks wa.task = none
  state : wa.state = .queued
  project : t.project = wa.project
  kind : t.kind = .general
  owned : t.owned = false
  slot : ∀ a' wa', b.activities a' = some wa' → wa'.submission = wa.submission →
    wa'.kind = wa.kind → wa'.slot < wa.slot

/-- A new hold for activity `a` on its submission's target, which nobody else holds. -/
structure Fresh (b : Board) (h : Id) (row : Hold) (u : Candidate) : Prop where
  newHold : b.holds h = none
  held : row.held = true
  key : u.key = some row.key
  branch : u.branch = some row.branch
  unowned : ∀ h' row', b.holds h' = some row' → row'.activity ≠ row.activity

/-! ### Moves -/

/-- The moves that a claim about runs singles out. -/
inductive Label
  | plain
  | submit (task : Id)
  | dismiss
  | approve (activity : Id)
  | intend (activity : Id)
  | advance (task : Id)
  | sendBack (activity : Id)
  | reconcile (human : Bool) (activity : Id)
  | finalize (activity : Id)

/-- What can happen to a board. -/
inductive Move : Board → Label → Board → Prop
  /-- Tasks change, or new ones appear. -/
  | retask {b : Board} {tasks : Id → Option Task}
      (old : ∀ k t, b.tasks k = some t → ∃ t', tasks k = some t' ∧ b.Retask k t t') :
      Move b .plain { b with tasks := tasks }
  /-- A submission enters the workflow. -/
  | submit {b : Board} {k id : Id} {t : Task} {u : Candidate} {ws : Subject}
      (out : ∀ ws, b.subjects k = some ws → ws.phase = .revisionNeeded)
      (task : b.tasks k = some t) (owned : t.owned = false) (awake : ¬ b.Asleep k)
      (fresh : b.submissions id = none) (uTask : u.task = k) (standing : u.superseded = false)
      (code : u.kind = .code → t.kind = .code) (project : ws.project = t.project)
      (same : u.project = ws.project) (current : ws.current = id) (phase : ws.phase ≠ .revisionNeeded)
      (integration : ws.phase = .integration → u.kind = .code) :
      Move b (.submit k)
        { b with
          submissions := Function.update b.submissions id (some u)
          subjects := Function.update b.subjects k (some ws) }
  /-- A review, or the first integration, of a current submission is queued. -/
  | enqueue {b : Board} {a : Id} {wa : Activity} {t : Task} {ws : Subject} {u : Candidate}
      (queued : b.Queued a wa t) (pinned : b.Pinned wa ws u)
      (review : wa.kind ≠ .integration → ws.phase = .review)
      (integration : wa.kind = .integration → u.kind = .code ∧
        (ws.phase = .integration ∨ (ws.phase = .review ∧ t.blocked = true)) ∧
        ∀ a' wa', b.activities a' = some wa' → wa'.submission = wa.submission →
          wa'.kind ≠ .integration)
      (others : ∀ a' wa', b.activities a' = some wa' → wa'.submission = wa.submission →
        wa'.kind = wa.kind → wa'.state = .canceled) :
      Move b .plain
        { b with
          tasks := Function.update b.tasks wa.task (some t)
          activities := Function.update b.activities a (some wa) }
  /-- Live activities change their state; none completes, and no integration is canceled. -/
  | restate {b : Board} {p : Id → Activity → Prop} [∀ a wa, Decidable (p a wa)]
      {state : ActivityState} {l : Label} (label : l = if state = .canceled then .dismiss else .plain)
      (notCompleted : state ≠ .completed)
      (live : ∀ a wa, b.activities a = some wa → p a wa → wa.state.Live)
      (awake : ∀ a wa, b.activities a = some wa → p a wa → ¬ b.Asleep wa.task)
      (recovery : state = .recoveryRequired → ∀ a wa, b.activities a = some wa → p a wa →
        b.intended a)
      (canceled : state = .canceled → ∀ a wa, b.activities a = some wa → p a wa →
        wa.kind ≠ .integration) :
      Move b l { b with activities := b.setState p state }
  /-- A live integration takes the hold on its target. -/
  | takeHold {b : Board} {a h : Id} {row : Hold} {wa : Activity} {ws : Subject} {u : Candidate}
      (activity : b.activities a = some wa) (kind : wa.kind = .integration)
      (live : wa.state.Live) (awake : ¬ b.Asleep wa.task) (pinned : b.Pinned wa ws u)
      (rowActivity : row.activity = a) (fresh : b.Fresh h row u)
      (free : ∀ h' row', b.holds h' = some row' → row'.held = true → row'.key = row.key →
        row'.branch ≠ row.branch) :
      Move b .plain { b with holds := Function.update b.holds h (some row) }
  /-- A live integration that holds its target records its intent. -/
  | intend {b : Board} {a : Id} {wa : Activity}
      (activity : b.activities a = some wa) (kind : wa.kind = .integration)
      (live : wa.state.Live) (awake : ¬ b.Asleep wa.task)
      (held : ∃ h row, b.holds h = some row ∧ row.activity = a ∧ row.held = true) :
      Move b (.intend a) { b with intended := fun x => x = a ∨ b.intended x }
  /-- A released integration gives its hold back and is followed by another. -/
  | releaseIntegration {b : Board} {a a' : Id} {wa wa' : Activity} {t : Task} {ws : Subject}
      {u : Candidate} (activity : b.activities a = some wa) (kind : wa.kind = .integration)
      (live : wa.state.Live) (awake : ¬ b.Asleep wa.task) (pinned : b.Pinned wa ws u)
      (unintended : ¬ b.intended a) (queued : b.Queued a' wa' t)
      (same : wa'.subjectTask = wa.subjectTask ∧ wa'.submission = wa.submission ∧
        wa'.kind = .integration) :
      Move b .plain
        { b with
          tasks := Function.update b.tasks wa'.task (some t)
          holds := b.release (· = a)
          activities := Function.update (b.setState (only a) .canceled) a' (some wa') }
  /-- A review approves. -/
  | approve {b : Board} {a : Id} {wa : Activity} {v : Verdict} {k : PrincipalKind}
      (activity : b.activities a = some wa) (kind : wa.kind ≠ .integration)
      (live : wa.state.Live) (undecided : b.verdicts a = none)
      (submission : v.submission = wa.submission) (approved : v.approved = true)
      (reviewer : v.reviewer = some k) (fit : fits wa.kind k) :
      Move b (.approve a)
        { b with
          activities := b.setState (only a) .completed
          verdicts := Function.update b.verdicts a (some v) }
  /-- A subject moves on: code work to its integration, general work is done. -/
  | advance {b : Board} {k : Id} {ws : Subject} {u : Candidate} {phase : Phase}
      (subject : b.subjects k = some ws) (submission : b.submissions ws.current = some u)
      (notRevision : ws.phase ≠ .revisionNeeded)
      (next : (u.kind = .general ∧ phase = .done) ∨ (u.kind = .code ∧ phase = .integration)) :
      Move b (.advance k)
        { b with
          activities := b.setState (queuedReviewOf ws.current) .canceled
          subjects := b.setPhase k phase }
  /-- A review requests changes: the submission goes back, and its other activities end. -/
  | sendBack {b : Board} {a : Id} {wa : Activity} {v : Verdict} {k : PrincipalKind}
      {ws : Subject} {u : Candidate}
      (activity : b.activities a = some wa) (kind : wa.kind ≠ .integration)
      (live : wa.state.Live) (pinned : b.Pinned wa ws u) (undecided : b.verdicts a = none)
      (submission : v.submission = wa.submission) (approved : v.approved = false)
      (reviewer : v.reviewer = some k) (fit : fits wa.kind k) :
      Move b (.sendBack a)
        { b with
          submissions := b.supersede wa.submission
          subjects := b.setPhase wa.subjectTask .revisionNeeded
          activities := alter (b.setState (only a) .completed) (liveOf wa.submission (· = a))
            fun wa => { wa with state := .canceled }
          verdicts := Function.update b.verdicts a (some v) }
  /-- A submission without unsettled intents is reopened. -/
  | reopen {b : Board} {k : Id} {ws : Subject} (subject : b.subjects k = some ws)
      (notDone : ws.phase ≠ .done)
      (settled : ∀ a wa, b.activities a = some wa → wa.submission = ws.current →
        b.intended a → b.reconciled a) {p : Id → Prop} [DecidablePred p]
      (holds : ∀ a, p a ↔ ∃ wa, b.activities a = some wa ∧ wa.submission = ws.current) :
      Move b .plain
        { b with
          submissions := b.supersede ws.current
          subjects := b.setPhase k .revisionNeeded
          activities := b.setState (liveOf ws.current fun _ => False) .canceled
          holds := b.release p }
  /-- An unsettled intent is reconciled, and a replacement integration holds the target. -/
  | reconcile {b : Board} {human : Bool} {a a' h : Id} {wa wa' : Activity} {t : Task}
      {ws : Subject} {u : Candidate} {row : Hold}
      (activity : b.activities a = some wa) (intended : b.intended a)
      (unreconciled : ¬ b.reconciled a) (subject : b.subjects wa.subjectTask = some ws)
      (current : ws.current = wa.submission) (submission : b.submissions wa.submission = some u)
      (agent : human = false → wa.state ∈ [ActivityState.active, .recoveryRequired] ∧
        ∃ h row, b.holds h = some row ∧ row.activity = a ∧ row.held = true)
      (queued : b.Queued a' wa' t)
      (same : wa'.subjectTask = wa.subjectTask ∧ wa'.submission = wa.submission ∧
        wa'.kind = .integration)
      (rowActivity : row.activity = a') (fresh : b.Fresh h row u)
      (free : ∀ h' row', b.holds h' = some row' → row'.held = true → row'.key = row.key →
        row'.branch = row.branch → row'.activity = a) :
      Move b (.reconcile human a)
        { b with
          tasks := Function.update b.tasks wa'.task (some t)
          reconciled := fun x => x = a ∨ b.reconciled x
          holds := Function.update (b.release (· = a)) h (some row)
          activities := Function.update
            (b.setState (fun x wa => x = a ∧ wa.state.Live) .canceled) a' (some wa') }
  /-- An integration is finalized. -/
  | finalize {b : Board} {a : Id} {wa : Activity} {ws : Subject} {u : Candidate}
      (activity : b.activities a = some wa) (kind : wa.kind = .integration)
      (live : wa.state.Live) (awake : ¬ b.Asleep wa.task) (pinned : b.Pinned wa ws u) :
      Move b (.finalize a)
        { b with
          activities := b.setState (only a) .completed
          subjects := b.setPhase wa.subjectTask .done
          holds := b.release (· = a) }

end Board

end AgentCoordinator
