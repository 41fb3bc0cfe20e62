import AgentCoordinator.Board.Holds
import AgentCoordinator.Safety.Completion

/-
Holds on targets.

The target of an integration stays locked while the integration may have published: from its
intent until it is finalized or reconciled. The other way round, a held hold belongs to an
integration that is still wanted, in every run in which no decision sends a submission back while
its target is held and no human reconciles outside the integration phase; a request for changes
during the integration does leave a hold behind.
-/

namespace AgentCoordinator

open Guarded Tabular Transition Board Scenario

/-! ### Uncertain publications -/

/-- The hold of an activity on its submission's target. -/
structure Db.Locks (s : Db) (wa : WorkflowActivity) (r : IntegrationHold) : Prop where
  mem : r ∈ s.integrationHolds
  activity : r.activity = wa.id
  held : r.state = .held
  target : ∃ u, s.submissions.get? wa.submission = some u ∧
    u.canonicalRepositoryKey = some r.canonicalRepositoryKey ∧ u.targetBranch = some r.targetBranch

section Uncertain

variable {s s' : Db} {i : Action}

/-- An intent that is neither finalized nor reconciled has its target locked. -/
lemma Reachable.locks {ok : Db → Action → Prop} (hs : Reachable ok s) {wa : WorkflowActivity}
    {pi : PublicationIntent} (hwa : s.workflowActivities.get? wa.id = some wa)
    (hintent : s.publicationIntents.get? wa.id = some pi) (hopen : wa.state ≠ .completed)
    (hunreconciled : s.publicationReconciliations.get? wa.id = none) : ∃ r, s.Locks wa r := by
  have hb := hs.coherent
  have hintended : s.board.intended wa.id := board_intended_iff.2 (by simp [hintent])
  obtain ⟨w, hw, hdone⟩ | hrec | hheld := hb.locked wa.id hintended
  · rw [board_activity hwa] at hw
    obtain rfl := Option.some.inj hw
    exact absurd hdone hopen
  · exact absurd hunreconciled (board_reconciled_iff.1 hrec)
  · obtain ⟨r, hr, hactivity, hstate⟩ := board_held_iff.1 hheld
    refine ⟨r, hr, hactivity, hstate, ?_⟩
    have hrow := Table.project_of_get? (π := IntegrationHold.row) (Table.get?_of_mem hr)
    obtain ⟨w, u', hw, -, hu', hkey, hbranch⟩ := hb.holdActivity _ _ hrow
    rw [show r.row.activity = wa.id from hactivity, board_activity hwa] at hw
    obtain rfl := Option.some.inj hw
    obtain ⟨u, hu, rfl⟩ := Table.project_eq_some.1 hu'
    exact ⟨u, hu, hkey, hbranch⟩

/-- Only the request for it records an intent. -/
lemma Step.records_intent (hb : Coherent s.board) (h : Step s i s') {a : Id}
    (hbefore : s.publicationIntents.get? a = none) (hafter : s'.publicationIntents.get? a ≠ none) :
    ∃ r ∈ s.integrationHolds, r.activity = a ∧ r.state = .held := by
  have hnew : ¬ (s'.board.intended a → s.board.intended a) := fun hold =>
    board_intended_iff.1 (hold (board_intended_iff.2 hafter)) hbefore
  -- every other step makes only moves that record no intent for `a`
  have hother : (∀ auth req, i = .request auth req → ∀ project input,
      req ≠ .publicationIntent project a input) → False := by
    intro hne
    have hok : Permits fun _ l => l ≠ .intend a := ⟨fun _ => by simp, fun _ _ _ h => h⟩
    refine hnew (Run.invariant (I := fun b => b.intended a → s.board.intended a)
      (fun b l b' hI hl hm => ?_) (h.moves hok hb fun _ => ?_) id)
    · cases hm with
      | intend => exact fun ha => ha.elim (fun ha => absurd (ha ▸ rfl) hl) hI
      | _ => exact hI
    · cases i with
      | request auth req =>
        intro actor _
        cases req with
        | publicationIntent project id input =>
          intro heq
          simp only [Label.intend.injEq] at heq
          subst heq
          exact hne auth _ rfl project input rfl
        | _ => simp [Request.Permitted]
      | _ => trivial
  by_contra hnone
  refine hother fun auth req hi project input hreq => hnone ?_
  subst hi hreq
  cases h with
  | refused => exact absurd hbefore hafter
  | accepted hserve =>
    obtain ⟨actor, -, -, hhandle⟩ := serve_ok hserve
    obtain ⟨ctx, attempt, intents, hown, -, -, hheld, -, -⟩ := publicationIntent_ok hhandle
    rw [hown.toJoins.id_eq] at hheld
    exact hheld

/-- An uncertain publication keeps its target locked: the hold of its activity is held, nobody
else holds the target, and no step records an intent of another activity on the target. -/
theorem uncertain_publication_locked (hs : Reachable anyStep s) {wa : WorkflowActivity}
    {pi : PublicationIntent} (hwa : s.workflowActivities.get? wa.id = some wa)
    (hintent : s.publicationIntents.get? wa.id = some pi) (hopen : wa.state ≠ .completed)
    (hunreconciled : s.publicationReconciliations.get? wa.id = none) :
    ∃ r, s.Locks wa r ∧
      (∀ r' ∈ s.integrationHolds, r'.state = .held →
        r'.canonicalRepositoryKey = r.canonicalRepositoryKey →
        r'.targetBranch = r.targetBranch → r' = r) ∧
      ∀ i s' a wa' u, Step s i s' → s.publicationIntents.get? a = none →
        s'.publicationIntents.get? a ≠ none → s.workflowActivities.get? a = some wa' →
        s.submissions.get? wa'.submission = some u →
        u.canonicalRepositoryKey = some r.canonicalRepositoryKey →
        u.targetBranch ≠ some r.targetBranch := by
  have hb := hs.coherent
  obtain ⟨r, hr⟩ := hs.locks hwa hintent hopen hunreconciled
  have hunique : ∀ r' ∈ s.integrationHolds, r'.state = .held →
      r'.canonicalRepositoryKey = r.canonicalRepositoryKey → r'.targetBranch = r.targetBranch →
      r' = r := by
    intro r' hr' hheld hkey hbranch
    have hrow := Table.project_of_get? (π := IntegrationHold.row) (Table.get?_of_mem hr.mem)
    have hrow' := Table.project_of_get? (π := IntegrationHold.row) (Table.get?_of_mem hr')
    have hid := hb.targetUnique _ _ _ _ hrow hrow' (by simp [IntegrationHold.row, hr.held])
      (by simp [IntegrationHold.row, hheld]) hkey.symm hbranch.symm
    exact Table.eq_of_get? (Table.get?_of_mem hr.mem) hr' hid.symm
  refine ⟨r, hr, hunique, fun i s' a wa' u hstep hbefore hafter hwa' hu hkey hbranch => ?_⟩
  -- an activity that records its intent holds its target, which is ours
  obtain ⟨r', hr', hactivity, hheld⟩ := hstep.records_intent hb hbefore hafter
  have hrow := Table.project_of_get? (π := IntegrationHold.row) (Table.get?_of_mem hr')
  obtain ⟨w, c, hw, -, hc, hkey', hbranch'⟩ := hb.holdActivity _ _ hrow
  rw [show r'.row.activity = a from hactivity, board_activity hwa'] at hw
  obtain rfl := Option.some.inj hw
  rw [show wa'.row.submission = wa'.submission from rfl, board_submission hu] at hc
  obtain rfl := Option.some.inj hc
  have heq := hunique r' hr' hheld (Option.some.inj (hkey'.symm.trans hkey))
    (Option.some.inj (hbranch'.symm.trans hbranch))
  rw [← hactivity, heq, hr.activity, hintent] at hbefore
  exact absurd hbefore (by simp)

end Uncertain

/-- A reviewed candidate whose integration is about to be published. -/
def publishing : List Happening :=
  [claims 2 1, submitsCode 2 1, takes (agent 3) 1 1 1, decides (agent 3) 1 .approved,
    takes (agent 2) 2 1 1, intends 2 2 1]

set_option maxRecDepth 20000 in
theorem uncertain_publication_locked_replayed : ∃ s wa pi r,
    replay anyStep (service .agent) publishing = some s ∧
      s.workflowActivities.get? 2 = some wa ∧ s.publicationIntents.get? 2 = some pi ∧
      s.Locks wa r := by
  obtain ⟨s, hs, hp⟩ := exists_of_any (o := replay anyStep (service .agent) publishing)
    (p := fun s => (s.workflowActivities.get? 2).any (fun wa => wa.state ≠ .completed) &&
      ((s.publicationIntents.get? 2).isSome && (s.publicationReconciliations.get? 2).isNone))
    (by decide +kernel)
  rw [Bool.and_eq_true, Bool.and_eq_true, Option.any_eq_true, Option.isSome_iff_exists,
    Option.isNone_iff_eq_none] at hp
  obtain ⟨⟨wa, hwa, hopen⟩, ⟨pi, hpi⟩, hrec⟩ := hp
  have hid : wa.id = 2 := Table.key_of_get? hwa
  obtain ⟨r, hr, -⟩ := uncertain_publication_locked (replay_reachable (service_initial _) hs)
    (by rw [hid]; exact hwa) (by rw [hid]; exact hpi) (of_decide_eq_true hopen)
    (by rw [hid]; exact hrec)
  exact ⟨s, wa, pi, r, hs, hwa, hpi, hr⟩

/-! ### Holds in use -/

/-- The hold belongs to an integration that still goes on: of the current submission, which is not
superseded, of a subject in the integration phase. -/
def Db.HoldInUse (s : Db) (r : IntegrationHold) : Prop :=
  ∃ wa ws u, s.workflowActivities.get? r.activity = some wa ∧ wa.kind = .integration ∧
    (wa.state = .queued ∨ wa.state = .active ∨ wa.state = .recoveryRequired) ∧
    s.workflowSubjects.get? wa.subjectTask = some ws ∧ ws.currentSubmission = wa.submission ∧
    ws.phase = .integration ∧ s.submissions.get? wa.submission = some u ∧ u.supersededAt = none

/-- No decision sends back a submission one of whose holds is held, and no human reconciles a
publication outside the integration phase. -/
def sparesHolds (s : Db) : Action → Prop
  | .request _ (.reconcilePublication _ id _) =>
    ∀ wa ∈ s.workflowActivities.get? id, ∀ ws ∈ s.workflowSubjects.get? wa.subjectTask,
      ws.phase = .integration
  | .request _ (.review _ id input) => input.sendsBack →
    ∀ wa ∈ s.workflowActivities.get? id, ∀ r ∈ s.integrationHolds,
      ∀ w ∈ s.workflowActivities.get? r.activity, w.submission = wa.submission → r.state ≠ .held
  | _ => True

instance (s : Db) (i : Action) : Decidable (sparesHolds s i) := by
  rcases i with ⟨auth, req⟩ | _ | _ | _ | _
  · rcases req <;> (dsimp only [sparesHolds]; infer_instance)
  all_goals exact instDecidableTrue

lemma permits_sparesHolds : Permits SparesHolds :=
  ⟨fun _ => trivial, fun _ l _ h => by cases l <;> exact h⟩

section InUse

variable {s s' : Db} {i : Action}

lemma sparesHolds.permitted (h : sparesHolds s i) : i.Permitted SparesHolds s s' := by
  cases i with
  | request auth req =>
    intro actor hbegin
    cases req with
    | review project id input =>
      refine ⟨fun hsends wa x row w hwa hrow hw hsub => ?_, fun _ _ _ _ _ => trivial, trivial⟩
      obtain ⟨wa, hget, rfl⟩ := Table.project_eq_some.1 hwa
      obtain ⟨r, hr, rfl⟩ := Table.project_eq_some.1 hrow
      obtain ⟨w, hw', rfl⟩ := Table.project_eq_some.1 hw
      have hheld := h hsends wa hget r (Table.mem_of_get? hr) w hw' hsub
      simpa [IntegrationHold.row] using hheld
    | reconcilePublication project id input =>
      intro w ws hw hws
      obtain ⟨wa, hwa, rfl⟩ := Table.project_eq_some.1 hw
      obtain ⟨ws, hget, rfl⟩ := Table.project_eq_some.1 hws
      exact h wa hwa ws hget
    | updatePolicy => exact ⟨fun _ => trivial, fun _ _ _ _ _ _ _ _ _ _ => trivial⟩
    | _ => simp [Request.Permitted, SparesHolds]
  | _ => trivial

lemma Reachable.holdsInUse (h : Reachable sparesHolds s) :
    Finished s.board ∧ HoldsInUse s.board := by
  refine h.board_invariant (I := fun b => Finished b ∧ HoldsInUse b) permits_sparesHolds
    (fun _ _ _ _ _ hok _ => sparesHolds.permitted hok) (fun s h₀ => ⟨h₀.finished, ?_⟩)
    fun _ _ _ hb hI hok hm => ⟨hI.1.move hb hok.reconcilesUnfinished hm, hI.2.move hb hI.1 hok hm⟩
  intro x row wa hrow
  rw [h₀.board_eq] at hrow
  exact absurd hrow (by simp)

/-- Every held hold is in use, in runs that spare holds. -/
theorem holds_in_use (hs : Reachable sparesHolds s) {r : IntegrationHold}
    (hr : r ∈ s.integrationHolds) (hheld : r.state = .held) : s.HoldInUse r := by
  have hb := hs.coherent
  have hrow := Table.project_of_get? (π := IntegrationHold.row) (Table.get?_of_mem hr)
  obtain ⟨w, c, hw, hkind, hc, -⟩ := hb.holdActivity _ _ hrow
  obtain ⟨hrunning, ws', hws', hcurrent, hphase⟩ := hs.holdsInUse.2 _ _ _ hrow
    (by simp [IntegrationHold.row, hheld]) hw
  have hstanding : c.superseded = false := by
    have hrevision := hb.revision _ _ c hws' (hcurrent ▸ hc)
    rw [hphase] at hrevision
    simpa using hrevision
  obtain ⟨wa, hwa, rfl⟩ := Table.project_eq_some.1 hw
  obtain ⟨ws, hws, rfl⟩ := Table.project_eq_some.1 hws'
  obtain ⟨u, hu, rfl⟩ := Table.project_eq_some.1 hc
  refine ⟨wa, ws, u, hwa, hkind, ?_, hws, hcurrent, hphase, hu, ?_⟩
  · rcases ActivityState.live_or_recovery hrunning with (hq | ha) | hrec
    exacts [.inl hq, .inr (.inl ha), .inr (.inr hrec)]
  · simpa [Submission.row] using hstanding

end InUse

set_option maxRecDepth 20000 in
theorem holds_in_use_replayed : ∃ s r, replay sparesHolds (service .agent) publishing = some s ∧
    r ∈ s.integrationHolds ∧ r.state = .held ∧ s.HoldInUse r := by
  obtain ⟨s, hs, hp⟩ := exists_of_any (o := replay sparesHolds (service .agent) publishing)
    (p := fun s => decide (∃ r ∈ s.integrationHolds, r.state = .held)) (by decide +kernel)
  obtain ⟨r, hr, hheld⟩ := of_decide_eq_true hp
  exact ⟨s, r, hs, hr, hheld, holds_in_use (replay_reachable (service_initial _) hs) hr hheld⟩

/-- Two reviews go on; after the first approval is made enough the integration is claimed, and then
the second review requests changes. -/
def lateChanges : List Happening :=
  [claims 2 1, submitsCode 2 1, takes (agent 3) 1 1 1, takes operator 2 1 1, changesMode 1 .agent,
    decides (agent 3) 1 .approved, takes (agent 2) 3 1 1, decides operator 2 .changesRequested]

set_option maxRecDepth 20000 in
/-- A request for changes cancels a claimed integration and leaves its hold held. -/
theorem holds_not_in_use : ¬ ∀ (s : Db) (r : IntegrationHold), Reachable anyStep s →
    r ∈ s.integrationHolds → r.state = .held → s.HoldInUse r := by
  intro h
  obtain ⟨s, hs, hp⟩ := exists_of_any (o := replay anyStep (service .both) lateChanges)
    (p := fun s => decide (∃ r ∈ s.integrationHolds, r.state = .held ∧
      (s.workflowActivities.get? r.activity).any (fun wa => wa.state = .canceled) = true))
    (by decide +kernel)
  obtain ⟨r, hr, hheld, hcanceled⟩ := of_decide_eq_true hp
  obtain ⟨wa, ws, u, hwa, -, hstate, -⟩ := h s r (replay_reachable (service_initial _) hs) hr hheld
  rw [hwa, Option.any_some, decide_eq_true_eq] at hcanceled
  rw [hcanceled] at hstate
  simp at hstate

end AgentCoordinator
