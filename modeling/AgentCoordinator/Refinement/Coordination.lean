import AgentCoordinator.Coordination
import AgentCoordinator.Refinement.Ledger
import AgentCoordinator.Refinement.Projection

/-
Ordinary claims, renewals, releases and recoveries: what they do to the board and to the ledger.

None of them touches a task that a workflow controls, so on the board they only change tasks. A
claim is a grant; the others settle.
-/

namespace AgentCoordinator

open Guarded Tabular Maps Transition Board Fencing

/-! ### Tasks outside the workflow -/

/-- The task is neither worked through an activity nor in the workflow. -/
structure Db.Outside (s : Db) (t : Task) : Prop where
  mem : s.tasks.get? t.id = some t
  activity : ¬ s.isActivityTask t.project t.id
  workflow : s.inWorkflow t.project t.id = false

namespace Db.Outside

variable {s : Db} {t : Task}

lemma notActivityTask (h : s.Outside t) (hb : Coherent s.board) :
    ¬ s.board.ActivityTask t.id := by
  rintro ⟨a, wa', hwa', htask⟩
  obtain ⟨t', ht', hproject, -⟩ := hb.activityTask a wa' hwa'
  rw [htask, board_task h.mem] at ht'
  obtain rfl := Option.some.inj ht'
  obtain ⟨wa, hwa, rfl⟩ := Table.project_eq_some.1 hwa'
  exact h.activity ⟨wa, Table.mem_of_get? hwa, hproject.symm, htask⟩

lemma revision (h : s.Outside t) (hb : Coherent s.board) {ws : Subject}
    (hws : s.board.subjects t.id = some ws) : ws.phase = .revisionNeeded := by
  obtain ⟨t', ht', hproject⟩ := hb.subjectTask t.id ws hws
  rw [board_task h.mem] at ht'
  obtain rfl := Option.some.inj ht'
  obtain ⟨r, hr, rfl⟩ := Table.project_eq_some.1 hws
  have hworkflow := h.workflow
  simp only [Db.inWorkflow, hr, Option.any_some, decide_eq_false_iff_not, not_and, not_not] at hworkflow
  exact hworkflow hproject.symm

/-- Anything may happen to the ownership and the block of such a task. -/
lemma retask (h : s.Outside t) (hb : Coherent s.board) {t' : Board.Task}
    (project : t'.project = t.project) (kind : t'.kind = t.kind) :
    s.board.Retask t.id t.row t' where
  project := project
  kind _ := kind
  asleep hasleep := absurd hasleep.activityTask (h.notActivityTask hb)
  owned _ := .inr (.inr fun _ hws => h.revision hb hws)

end Db.Outside

lemma outside_of_guard {s : Db} {project : Id} {t : Task} (ht : s.tasks.get? t.id = some t)
    (hproject : t.project = project) (hactivity : ¬ s.isActivityTask project t.id)
    (hworkflow : ¬ s.inWorkflow project t.id = true) : s.Outside t := by
  subst hproject
  exact ⟨ht, hactivity, by simpa using hworkflow⟩

lemma visibleTask_ok {s : Db} {project id : Id} {t : Task}
    (h : s.visibleTask project id = .ok t) : s.tasks.get? id = some t ∧ t.project = project := by
  simp only [Db.visibleTask, bind_eq_ok, okOr_eq_ok, refuseIf_eq_ok, pure_eq_ok, not_or,
    not_not] at h
  obtain ⟨t', ht, -, ⟨hproject, -⟩, rfl⟩ := h
  exact ⟨ht, hproject⟩

/-! ### Claims -/

lemma chooseTask_ok {s : Db} {actor : Actor} {project : Id} {input : ClaimInput} {t : Task}
    (h : chooseTask s actor project input = .ok (some t)) :
    s.tasks.get? t.id = some t ∧ t.project = project := by
  unfold chooseTask at h
  cases htask : input.task with
  | some id =>
    simp only [htask] at h
    cases hv : s.visibleTask project id with
    | error e => simp [hv, Except.map] at h
    | ok t' =>
      simp only [hv, Except.map, Except.ok.injEq, Option.some.injEq] at h
      subst h
      obtain ⟨hget, hproject⟩ := visibleTask_ok hv
      refine ⟨?_, hproject⟩
      rwa [show t'.id = id from Table.key_of_get? hget]
  | none =>
    simp only [htask, pure_eq_ok] at h
    have hmem := List.mem_of_find?_eq_some h
    rw [List.mem_insertionSort, Table.mem_filter] at hmem
    exact ⟨Table.get?_of_mem hmem.1, hmem.2.1⟩

/-- A claimable task is outside the workflow. -/
lemma ensureClaimable_ok {s : Db} {actor : Actor} {project : Id} {input : ClaimInput} {t : Task}
    {r : Unit} (ht : s.tasks.get? t.id = some t) (hproject : t.project = project)
    (h : ensureClaimable s actor project input t = .ok r) : s.Outside t := by
  simp only [ensureClaimable, guardNormalClaim, bind_eq_ok, refuseIf_eq_ok] at h
  obtain ⟨-, -, -, -, -, ⟨-, hactivity, hworkflow⟩, -⟩ := h
  exact outside_of_guard ht hproject hactivity hworkflow

/-- What `claim` does: nothing but an event, or a grant on a task outside the workflow. -/
lemma claim_ok {s s' : Db} {actor : Actor} {project : Id} {input : ClaimInput}
    (h : claim s actor project input = .ok s') :
    s' = s.finish actor "claim.empty" project ∨
      ∃ t g s₁ ownerSession, s.Outside t ∧ g.task = t.id ∧ g.generation = t.generation + 1 ∧
        (s.endAttempts (fun a => some a.id = t.currentAttempt ∧ a.state = .active) .expired
          "Ownership expired or was revoked; recovery began.").grantAttempt g = .ok s₁ ∧
        s' = (s₁.recordContributor t.id actor.id ownerSession).finish actor "attempt.claimed"
          t.id := by
  simp only [claim, bind_eq_ok, refuseIf_eq_ok, okOr_eq_ok] at h
  obtain ⟨-, -, ownerSession, -, proj, -, -, -, -, -, -, -, -, -, chosen, hchosen, h⟩ := h
  cases chosen with
  | none =>
    simp only [pure_eq_ok] at h
    exact .inl h.symm
  | some t =>
    simp only [claimTask, bind_eq_ok, pure_eq_ok] at h
    obtain ⟨_, hguard, s₁, hgrant, rfl⟩ := h
    obtain ⟨ht, hproject⟩ := chooseTask_ok hchosen
    exact .inr ⟨t, _, s₁, ownerSession, ensureClaimable_ok ht hproject hguard, rfl, rfl, hgrant,
      rfl⟩

section Claim

variable {s s' : Db} {actor : Actor} {project : Id} {input : ClaimInput}

/-- A grant on a task outside the workflow gives it an owner. -/
lemma Db.Outside.grant {s₁ : Db} {t : Task} {g : Grant} {ok : Board → Label → Prop}
    (hout : s.Outside t) (hb : Coherent s.board) (hok : Permits ok) (htask : g.task = t.id)
    (h : s.grantAttempt g = .ok s₁) : Moves ok s.board s₁.board := by
  obtain ⟨-, rfl⟩ := grantAttempt_ok h
  refine Moves.retask (s := { s with attempts := _ }) (.refl _) hok
    (.modify (.refl _) fun t' ht' hid => ?_)
  obtain rfl := Table.eq_of_get? hout.mem ht' (hid.trans htask)
  exact hout.retask hb rfl rfl

theorem claim_moves {ok : Board → Label → Prop} (hok : Permits ok) (hb : Coherent s.board)
    (h : claim s actor project input = .ok s') : Moves ok s.board s'.board := by
  obtain rfl | ⟨t, g, s₁, ownerSession, hout, htask, -, hgrant, rfl⟩ := claim_ok h
  · exact .refl _
  · have hout' : (s.endAttempts (fun a => some a.id = t.currentAttempt ∧ a.state = .active) .expired
        "Ownership expired or was revoked; recovery began.").Outside t :=
      ⟨hout.mem, hout.activity, hout.workflow⟩
    have hmoves := hout'.grant hb hok htask hgrant
    exact hmoves

theorem claim_transfers (h : claim s actor project input = .ok s') : s.Transfers s' := by
  obtain rfl | ⟨t, g, s₁, ownerSession, hout, htask, hgen, hgrant, rfl⟩ := claim_ok h
  · exact .settles (.finish (.refl s))
  · refine .grants ⟨_, s₁, g, t, .endAttempts (.refl s) (by simp), ?_, ?_, hgrant,
      .finish (.of_eq rfl rfl rfl)⟩
    · rw [htask]
      exact hout.mem
    · omega

end Claim

/-! ### Owners -/

/-- What `owned` checks. -/
structure Db.Owns (s : Db) (actor : Actor) (project id : Id) (a : Attempt) : Prop where
  attempt : s.attempts.get? id = some a
  owner : a.owner = actor.id ∧ some a.session = actor.session ∧ a.credential = actor.credential
  active : a.state = .active
  unexpired : s.now < a.expiresAt
  task : ∃ t, s.tasks.get? a.task = some t ∧ t.project = project ∧ t.currentAttempt = some id ∧
    t.generation = a.generation

lemma owned_ok {s : Db} {actor : Actor} {project id : Id} {generation : Int} {a : Attempt}
    (h : owned s actor project id generation = .ok a) : s.Owns actor project id a := by
  simp only [owned, bind_eq_ok, okOr_eq_ok, refuseIf_eq_ok, pure_eq_ok, not_or, not_not, not_le]
    at h
  obtain ⟨a', ha, -, -, -, howner, -, ⟨rfl, hactive, hexp⟩, t, hv, -, ⟨hcur, hgen, -⟩, rfl⟩ := h
  obtain ⟨ht, hproject⟩ := visibleTask_ok hv
  exact ⟨ha, howner, hactive, hexp, t, ht, hproject, hcur, hgen⟩

section Owners

variable {s s' : Db} {actor : Actor} {project id : Id}

/-- `renew` extends the lease of an unexpired attempt. -/
lemma renew_ok {generation : Int} (h : renew s actor project id generation = .ok s') :
    ∃ a expires, s.Owns actor project id a ∧
      s' = { s with
        attempts := s.attempts.modify (fun a => a.id = id)
          (fun a => { a with expiresAt := expires, lastHeartbeatAt := s.now }) }.finish
            actor "attempt.renewed" id := by
  simp only [renew, bind_eq_ok, okOr_eq_ok, pure_eq_ok] at h
  obtain ⟨a, ha, proj, -, expires, -, rfl⟩ := h
  exact ⟨a, expires, owned_ok ha, rfl⟩

theorem renew_board {generation : Int} (h : renew s actor project id generation = .ok s') :
    s'.board = s.board := by
  obtain ⟨a, expires, -, rfl⟩ := renew_ok h
  rfl

theorem renew_settles {generation : Int} (h : renew s actor project id generation = .ok s') :
    s.Settles s' := by
  obtain ⟨a, expires, hown, rfl⟩ := renew_ok h
  refine .finish (.of_attempts (Table.related_modify .refl fun a' ha' hid => ?_))
  obtain rfl := Table.eq_of_get? hown.attempt ha' hid
  exact ⟨rfl, rfl, ⟨rfl, rfl, rfl⟩, fun h => h, .inr hown.unexpired⟩

/-- `release` gives back a task outside the workflow. -/
lemma release_ok {input : ReleaseInput} (h : release s actor project id input = .ok s') :
    ∃ a t s₁, s.Owns actor project id a ∧ s.Outside t ∧ t.id = a.task ∧
      s₁ = (s.addCheckpoint id none).endAttempts (fun a => a.id = id)
        (if input.blocked then .blocked else .released) input.summary ∧
      s' = { s₁ with
        tasks := s₁.tasks.modify (fun t => t.id = a.task) (fun t => { t with
          currentAttempt := none
          blockedReason := if input.blocked then some input.summary else none
          readySince := s₁.now }) }.finish actor "attempt.released" id := by
  simp only [release, guardReleaseOrRecovery, bind_eq_ok, refuseIf_eq_ok, pure_eq_ok] at h
  obtain ⟨-, -, a, ha, -, ⟨-, hactivity, hworkflow⟩, -, -, -, -, rfl⟩ := h
  have hown := owned_ok ha
  obtain ⟨t, ht, hproject, -⟩ := hown.task
  have hid : t.id = a.task := Table.key_of_get? ht
  rw [← hid] at ht hactivity hworkflow
  exact ⟨a, t, _, hown, outside_of_guard ht hproject hactivity hworkflow, hid, rfl, rfl⟩

theorem release_moves {input : ReleaseInput} {ok : Board → Label → Prop} (hok : Permits ok)
    (hb : Coherent s.board) (h : release s actor project id input = .ok s') :
    Moves ok s.board s'.board := by
  obtain ⟨a, t, s₁, -, hout, hid, hs₁, rfl⟩ := release_ok h
  have hboard : s₁.board = s.board := by rw [hs₁]; rfl
  rw [board_finish]
  refine Moves.retask (by rw [hboard]; exact .refl _) hok
    (.modify (.refl _) fun t' ht' hid' => ?_)
  rw [hs₁] at ht'
  obtain rfl := Table.eq_of_get? hout.mem ht' (hid'.trans hid.symm)
  rw [hboard]
  exact hout.retask hb rfl rfl

theorem release_settles {input : ReleaseInput} (hs : s.Sound)
    (h : release s actor project id input = .ok s') : s.Settles s' := by
  obtain ⟨a, t, s₁, hown, hout, hid, rfl, rfl⟩ := release_ok h
  obtain ⟨t', ht', -, hcur, -⟩ := hown.task
  have hstate : (if input.blocked then AttemptState.blocked else .released) ≠ .active := by
    cases input.blocked <;> simp
  have hsave : s.Settles (s.addCheckpoint id none) := .addCheckpoint (.refl s)
  refine .finish (.setTasks (.endAttempts hsave hstate) (Table.related_modify
    (fun _ => ⟨rfl, .inl rfl⟩) fun t₁ ht₁ hid₁ => ⟨rfl, .inr ⟨rfl, ?_⟩⟩))
  rw [hid₁]
  exact (hs.settles hsave).quiet_of_current ht' hcur hstate fun a' ha' _ => Table.key_of_get? ha'

lemma recordContributors_ok {task : Id} {sessions : List Id} {s s' : Db}
    (h : recordContributors s actor project task sessions = .ok s') :
    ∃ contributors, s' = { s with taskContributors := contributors } := by
  induction sessions generalizing s with
  | nil =>
    obtain rfl := pure_eq_ok.1 h
    exact ⟨s.taskContributors, rfl⟩
  | cons contributor rest ih =>
    simp only [recordContributors, bind_eq_ok] at h
    obtain ⟨-, -, hrest⟩ := h
    obtain ⟨contributors, rfl⟩ := ih hrest
    exact ⟨contributors, rfl⟩

/-- `checkpoint` records contributors and a checkpoint of the caller's attempt. -/
lemma checkpoint_ok {input : CheckpointInput} (h : checkpoint s actor project id input = .ok s') :
    ∃ a contributors, owned s actor project id input.generation = .ok a ∧
      s' = ({ s with taskContributors := contributors }.addCheckpoint id input.revision).finish
        actor "attempt.checkpointed" id := by
  simp only [checkpoint, bind_eq_ok, pure_eq_ok] at h
  obtain ⟨-, -, -, -, -, -, -, -, -, -, -, -, a, hown, -, -, s₁, hcontributors, rfl⟩ := h
  obtain ⟨contributors, rfl⟩ := recordContributors_ok hcontributors
  exact ⟨a, contributors, hown, rfl⟩

theorem checkpoint_board {input : CheckpointInput}
    (h : checkpoint s actor project id input = .ok s') : s'.board = s.board := by
  obtain ⟨a, contributors, -, rfl⟩ := checkpoint_ok h
  rfl

theorem checkpoint_settles {input : CheckpointInput}
    (h : checkpoint s actor project id input = .ok s') : s.Settles s' := by
  obtain ⟨a, contributors, -, rfl⟩ := checkpoint_ok h
  exact .finish (.addCheckpoint (.of_eq rfl rfl rfl))

/-- `recovery_resolution` turns the caller's recovery attempt into a work attempt. -/
lemma recoveryResolution_ok {input : RecoveryInput}
    (h : recoveryResolution s actor project id input = .ok s') :
    s' = { s.addCheckpoint id none with
        attempts := (s.addCheckpoint id none).attempts.modify (fun a => a.id = id)
          (fun a => { a with mode := .work }) }.finish actor "recovery.resolved" id := by
  simp only [recoveryResolution, bind_eq_ok, pure_eq_ok] at h
  obtain ⟨-, -, -, -, -, -, -, -, -, -, -, -, -, -, -, -, rfl⟩ := h
  rfl

theorem recoveryResolution_board {input : RecoveryInput}
    (h : recoveryResolution s actor project id input = .ok s') : s'.board = s.board := by
  rw [recoveryResolution_ok h]
  rfl

theorem recoveryResolution_settles {input : RecoveryInput}
    (h : recoveryResolution s actor project id input = .ok s') : s.Settles s' := by
  rw [recoveryResolution_ok h]
  exact .finish (.setAttempts (.addCheckpoint (.refl s)) (Table.related_modify .refl
    fun _ _ _ => ⟨rfl, rfl, ⟨rfl, rfl, rfl⟩, fun h => h, .inl rfl⟩))

end Owners

end AgentCoordinator
