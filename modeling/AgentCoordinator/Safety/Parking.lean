import AgentCoordinator.Integrator.Revise
import AgentCoordinator.Safety.WorkGraph

/-
The park reason of an integrator revise.

A revise is admitted before it is written: whether it will park its subject is predicted from the
revises counted so far. The prediction is exact, because the revise adds one event, of an agent and
for a submission of its subject, and is recorded as serialized or not just as it was admitted.
-/

namespace AgentCoordinator

open Guarded Tabular Digraph Relation

/-! ### What the revise counts read -/

/-- Nothing that the revise counts read has changed. -/
structure SameRevises (s s' : Db) : Prop where
  now : s'.now = s.now
  ext : s'.ext = s.ext
  tasks : ∀ id, (s'.submissions.get? id).map (·.task) = (s.submissions.get? id).map (·.task)
  events : ∃ es, s'.events = s.events ++ es ∧ ∀ e ∈ es, e.kind ≠ "submission.reopened"

section Counts

variable {s s' : Db} {task : Id}

lemma any_task (s : Db) (record task : Id) :
    (s.submissions.get? record).any (fun u => u.task = task) =
      ((s.submissions.get? record).map (·.task)).any (fun t => t = task) := by
  cases s.submissions.get? record <;> rfl

/-- Events of other kinds are not counted. -/
lemma SameRevises.agentRevises (h : SameRevises s s') :
    s'.agentRevises task = s.agentRevises task := by
  obtain ⟨es, hevents, hkinds⟩ := h.events
  simp only [Db.agentRevises, hevents, List.filter_append, h.now, h.ext, any_task, h.tasks]
  have hnone : es.filter (fun e => e.kind == "submission.reopened" &&
      (s.ext.principals.get? e.actor).any (fun p => p.kind = .agent) &&
      ((s.submissions.get? e.record).map (·.task)).any (fun t => t = task) &&
      e.createdAt > s.now - dayMs) = [] :=
    List.filter_eq_nil_iff.2 fun e he => by simp [hkinds e he]
  rw [hnone, List.append_nil]

/-- A reopen by an agent is one more. -/
lemma agentRevises_finish {actor : Actor} {submission : Id}
    (hagent : (s.ext.principals.get? actor.id).any (fun p => p.kind = .agent) = true)
    (htask : (s.submissions.get? submission).any (fun u => u.task = task) = true) :
    (s.finish actor "submission.reopened" submission).agentRevises task =
      s.agentRevises task ++ [⟨actor.id, "submission.reopened", submission, s.now⟩] := by
  simp only [Db.agentRevises, Db.finish, List.filter_append]
  refine congrArg _ (List.filter_eq_self.2 fun e he => ?_)
  rw [List.mem_singleton.1 he]
  have hwindow : s.now > s.now - dayMs := Int.sub_lt_self s.now (by decide)
  simp [hagent, htask, hwindow]

end Counts

/-! ### Superseding and depending -/

section Frame

variable {s s' : Db} {actor : Actor} {task : Id}

/-- A write to other tables. -/
lemma sameRevises_of_eq (now : s'.now = s.now) (ext : s'.ext = s.ext)
    (submissions : s'.submissions = s.submissions) (events : s'.events = s.events) :
    SameRevises s s' :=
  ⟨now, ext, fun _ => by rw [submissions], [], by rw [events, List.append_nil], by simp⟩

lemma supersede_sameRevises (submission : Id) : SameRevises s (s.supersede submission) where
  now := rfl
  ext := rfl
  tasks id := by
    simp only [Db.supersede, Table.get?_modify, Option.map_map]
    refine congrArg (fun f => (s.submissions.get? id).map f) (funext fun u => ?_)
    simp only [Function.comp_apply]
    split <;> rfl
  events := ⟨[], (List.append_nil _).symm, by simp⟩

lemma cancelActivities_sameRevises (p : WorkflowActivity → Prop) [DecidablePred p] (by_ : Id)
    (why : CancelReason) : SameRevises s (s.cancelActivities p by_ why) where
  now := rfl
  ext := rfl
  tasks _ := rfl
  events := by
    refine ⟨_, rfl, fun e he => ?_⟩
    obtain ⟨wa, -, rfl⟩ := List.mem_map.1 he
    simp

lemma SameRevises.trans {s'' : Db} (h : SameRevises s s') (h' : SameRevises s' s'') :
    SameRevises s s'' where
  now := h'.now.trans h.now
  ext := h'.ext.trans h.ext
  tasks id := (h'.tasks id).trans (h.tasks id)
  events := by
    obtain ⟨es, hes, hkinds⟩ := h.events
    obtain ⟨es', hes', hkinds'⟩ := h'.events
    refine ⟨es ++ es', by rw [hes', hes, List.append_assoc], fun e he => ?_⟩
    rcases List.mem_append.1 he with he | he
    · exact hkinds e he
    · exact hkinds' e he

lemma sendToRevision_sameRevises (input : ReopenSubmissionInput) (movedBy : Option Id) :
    SameRevises s (s.sendToRevision actor task input movedBy) := by
  have hended : SameRevises s (s.endActivityAttempts input.submission) :=
    sameRevises_of_eq rfl rfl rfl rfl
  have hphase : ∀ s : Db, SameRevises s (s.setPhase task .revisionNeeded) :=
    fun s => sameRevises_of_eq rfl rfl rfl rfl
  have htasks : ∀ (s : Db) (T : Table Task), SameRevises s { s with tasks := T } :=
    fun s T => sameRevises_of_eq rfl rfl rfl rfl
  have hholds : ∀ (s : Db) (p : Id → Prop) [DecidablePred p] (by_ : Id) (why : String),
      SameRevises s (s.releaseHolds p by_ why) := fun s p _ by_ why =>
    sameRevises_of_eq rfl rfl rfl rfl
  unfold Db.sendToRevision
  exact ((((hended.trans (supersede_sameRevises _)).trans (hphase _)).trans
    (cancelActivities_sameRevises _ _ _)).trans (htasks _ _)).trans
      ((hholds _ _ _ _).trans (htasks _ _))

lemma saveTaskRevision_sameRevises {project : Id} (h : saveTaskRevision s project task = .ok s') :
    SameRevises s s' := by
  simp only [saveTaskRevision, bind_eq_ok, okOr_eq_ok, pure_eq_ok] at h
  obtain ⟨_, -, _, -, rfl⟩ := h
  exact sameRevises_of_eq rfl rfl rfl rfl

variable {w w' : Work} {case : ReviseCase} {landing : Id}

/-- The subject depends on the landing, by at most one new edge. -/
lemma dependOn_ok (h : dependOn w case landing = .ok w') :
    SameRevises w.db w'.db ∧
      (∃ d ∈ w'.dependencies, d.task = case.task ∧ d.prerequisite = landing) ∧
      ∀ x y, Edge w'.edges x y → Edge w.edges x y ∨ (x = case.task ∧ y = landing) := by
  rw [dependOn, ite_eq_ok] at h
  rcases h with ⟨hold, h⟩ | ⟨-, h⟩
  · obtain rfl := pure_eq_ok.1 h
    exact ⟨sameRevises_of_eq rfl rfl rfl rfl, hold, fun x y he => .inl he⟩
  · simp only [bind_eq_ok, pure_eq_ok] at h
    obtain ⟨s, hs, rfl⟩ := h
    have hsaved := saveTaskRevision_sameRevises hs
    refine ⟨⟨hsaved.now, hsaved.ext, hsaved.tasks, hsaved.events⟩,
      ⟨_, List.mem_append_right _ (List.mem_singleton_self _), rfl, rfl⟩, fun x y he => ?_⟩
    rcases edge_iff.1 he with ⟨d, hd, htask, hprerequisite⟩ | hchild
    · rcases List.mem_append.1 hd with hd | hd
      · exact .inl (edge_iff.2 (.inl ⟨d, hd, htask, hprerequisite⟩))
      · rw [List.mem_singleton.1 hd] at htask hprerequisite
        exact .inr ⟨htask.symm, hprerequisite.symm⟩
    · exact .inl (edge_iff.2 (.inr hchild))

end Frame

/-! ### Admission -/

section Admission

variable {w w' : Work} {case : ReviseCase} {admission : ReviseAdmission}

/-- What an admission predicts, from the revises counted before it. -/
structure Predicts (w : Work) (case : ReviseCase) (admission : ReviseAdmission) : Prop where
  parking : w.db.parkReviseCount case.task < reviseLimit
  /-- A revise that is not serialized counts. -/
  counted : admission.serializedAfter = none →
    (admission.parkReason ≠ none ↔ reviseLimit ≤ w.db.parkReviseCount case.task + 1 ∨
      serializedReviseCap ≤ w.db.agentReviseCount case.task + 1)
  /-- A serialized one only counts for the cap. -/
  serialized : ∀ landing, admission.serializedAfter = some landing →
    (admission.parkReason ≠ none ↔ serializedReviseCap ≤ w.db.agentReviseCount case.task + 1) ∧
      admission.landing.map (·.task) = some landing ∧
      ¬ ReflTransGen (Edge w.edges) landing case.task

lemma serializable_landing {landing : Option Landing} {citedBefore : Id → Bool} {task : Id}
    (h : serializable w case landing citedBefore = .ok task) : landing.map (·.task) = some task := by
  cases landing with
  | none =>
    simp only [serializable] at h
    split_ifs at h
  | some landing =>
    simp only [serializable] at h
    split_ifs at h
    exact congrArg some (Except.ok.inj h)

lemma admitRevise_predicts (h : admitRevise w case = .ok admission) : Predicts w case admission := by
  simp only [admitRevise, bind_eq_ok, refuseIfParked, refuseIf_eq_ok] at h
  obtain ⟨-, ⟨-, -, hparking⟩, h⟩ := h
  have hcap : ∀ n, (if serializedReviseCap ≤ n then some "serialized_cap" else none) ≠ none ↔
      serializedReviseCap ≤ n := by
    intro n
    split <;> simp [*]
  rw [ite_eq_ok] at h
  rcases h with ⟨hbelow, h⟩ | ⟨hreached, h⟩
  · obtain rfl := pure_eq_ok.1 h
    refine ⟨not_le.1 hparking, fun _ => ?_, fun landing h => by cases h⟩
    rw [hcap]
    omega
  · cases hserializable : serializable w case
      (case.movedBy.bind (w.db.citedLanding case.project)) (w.db.citedBefore case.task) with
    | ok task =>
      rw [hserializable] at h
      obtain rfl := pure_eq_ok.1 h
      refine ⟨not_le.1 hparking, fun h => absurd h (Option.some_ne_none task),
        fun landing h => ?_⟩
      obtain rfl := Option.some.inj h
      refine ⟨hcap _, serializable_landing hserializable, fun hpath => ?_⟩
      rw [← dependencyCycles_iff, serializable_ok hserializable] at hpath
      exact Bool.false_ne_true hpath
    | error reason =>
      rw [hserializable] at h
      obtain rfl := pure_eq_ok.1 h
      refine ⟨not_le.1 hparking, fun _ => ?_, fun landing h => by cases h⟩
      simp only [ne_eq, reduceCtorEq, not_false_eq_true, true_iff]
      omega

end Admission

/-! ### The revise -/

section Revise

variable {w w' : Work} {auth : Auth} {actor : Actor} {project task : Id} {case : ReviseCase}
  {admission : ReviseAdmission} {input : IntegratorReviseInput} {evidence : String}

/-- What applying an admitted revise writes. -/
structure Applies (w w' : Work) (case : ReviseCase) (admission : ReviseAdmission) : Prop where
  now : w'.db.now = w.db.now
  principals : w'.db.ext.principals = w.db.ext.principals
  tasks : ∀ id, (w'.db.submissions.get? id).map (·.task) = (w.db.submissions.get? id).map (·.task)
  agentRevises : w'.db.agentRevises case.task = w.db.agentRevises case.task
  fresh : w.db.ext.integratorRevises.get? case.submission = none
  revises : ∀ id, w'.db.ext.integratorRevises.get? id =
    if id = case.submission then some (case.row admission w.db.now)
    else w.db.ext.integratorRevises.get? id
  depends : ∀ landing, admission.serializedAfter = some landing →
    (∃ d ∈ w'.dependencies, d.task = case.task ∧ d.prerequisite = landing) ∧
      ∀ x y, Edge w'.edges x y → Edge w.edges x y ∨ (x = case.task ∧ y = landing)

lemma applyIntegratorRevise_applies
    (h : applyIntegratorRevise w actor case admission evidence = .ok w') :
    Applies w w' case admission := by
  simp only [applyIntegratorRevise, recordAdmitted, bind_eq_ok, okOr_eq_ok, pure_eq_ok] at h
  obtain ⟨s, hs, w₁, hw₁, revises, hrevises, rfl⟩ := h
  simp only [supersedeSubmission, bind_eq_ok, pure_eq_ok] at hs
  obtain ⟨-, -, -, -, hsend⟩ := hs
  have hsent : SameRevises w.db s := by
    rw [← hsend]
    exact sendToRevision_sameRevises _ _
  have hdepends : SameRevises w.db w₁.db ∧ ∀ landing, admission.serializedAfter = some landing →
      (∃ d ∈ w₁.dependencies, d.task = case.task ∧ d.prerequisite = landing) ∧
        ∀ x y, Edge w₁.edges x y → Edge w.edges x y ∨ (x = case.task ∧ y = landing) := by
    cases hserialized : admission.serializedAfter with
    | none =>
      rw [hserialized] at hw₁
      obtain rfl := pure_eq_ok.1 hw₁
      exact ⟨hsent, fun landing h => by cases h⟩
    | some landing =>
      rw [hserialized] at hw₁
      obtain ⟨hsame, hrest⟩ := dependOn_ok hw₁
      refine ⟨hsent.trans hsame, fun landing' h => ?_⟩
      obtain rfl := Option.some.inj h
      exact hrest
  obtain ⟨hsame, hdepends⟩ := hdepends
  obtain ⟨hfresh, hget⟩ := Table.insert?_eq_some hrevises
  rw [hsame.ext] at hfresh hget
  constructor
  case now => exact hsame.now
  case principals =>
    show w₁.db.ext.principals = w.db.ext.principals
    rw [hsame.ext]
  case tasks => exact hsame.tasks
  case agentRevises => exact hsame.agentRevises
  case fresh => exact hfresh
  case revises =>
    intro id
    rw [← hsame.now]
    exact hget id
  case depends => exact hdepends

/-- After a revise that is applied and recorded, its subject is parked just as it was predicted. -/
lemma parked_iff (hpredicts : Predicts w case admission) (happlies : Applies w w' case admission)
    (hagent : (w.db.ext.principals.get? actor.id).any (fun p => p.kind = .agent) = true)
    (htask : (w.db.submissions.get? case.submission).any (fun u => u.task = case.task) = true) :
    let s' := w'.db.finish actor "submission.reopened" case.submission
    (s'.reviseLimitReached case.task = true ↔ admission.parkReason ≠ none) ∧
      (admission.serializedAfter ≠ none →
        s'.parkReviseCount case.task ≤ w.db.parkReviseCount case.task) := by
  intro s'
  have hrevises : s'.agentRevises case.task = w.db.agentRevises case.task ++
      [⟨actor.id, "submission.reopened", case.submission, w'.db.now⟩] := by
    rw [← happlies.agentRevises]
    refine agentRevises_finish (by rw [happlies.principals]; exact hagent) ?_
    rw [any_task, happlies.tasks, ← any_task]
    exact htask
  have htotal : s'.agentReviseCount case.task = w.db.agentReviseCount case.task + 1 := by
    rw [Db.agentReviseCount, hrevises, List.length_append, List.length_singleton]
    rfl
  -- the new row decides whether its event counts; for the others nothing changes
  have hserialized : ∀ id, s'.serialized id =
      if id = case.submission then admission.serializedAfter.isSome else w.db.serialized id := by
    intro id
    simp only [s', Db.serialized, Db.finish, happlies.revises]
    split <;> rfl
  have hbefore : w.db.serialized case.submission = false := by
    rw [Db.serialized, happlies.fresh]
    rfl
  have hparking := hpredicts.parking
  cases hafter : admission.serializedAfter with
  | none =>
    have hsame : ∀ id, s'.serialized id = w.db.serialized id := by
      intro id
      rw [hserialized]
      split
      · rename_i h
        rw [h, hbefore, hafter]
        rfl
      · rfl
    have hcount : s'.parkReviseCount case.task = w.db.parkReviseCount case.task + 1 := by
      simp only [Db.parkReviseCount, hrevises, hsame, List.filter_append, List.length_append]
      simp [hbefore]
    refine ⟨?_, fun h => absurd rfl h⟩
    rw [hpredicts.counted hafter, Db.reviseLimitReached, hcount, htotal, Bool.or_eq_true,
      decide_eq_true_eq, decide_eq_true_eq]
  | some landing =>
    have hcount : s'.parkReviseCount case.task ≤ w.db.parkReviseCount case.task := by
      have hself : s'.serialized case.submission = true := by
        rw [hserialized, if_pos rfl, hafter]
        rfl
      simp only [Db.parkReviseCount, hrevises, List.filter_append, List.length_append]
      rw [List.filter_singleton, hself]
      refine (List.monotone_filter_right _ fun e he => ?_).length_le
      rw [hserialized] at he
      split at he
      · rename_i h
        rw [h, hbefore]
        rfl
      · exact he
    refine ⟨?_, fun _ => hcount⟩
    rw [(hpredicts.serialized landing hafter).1, Db.reviseLimitReached, htotal, Bool.or_eq_true,
      decide_eq_true_eq, decide_eq_true_eq]
    omega

/-- An integrator is an agent. -/
lemma kind_of_integrator {s : Db} (h : beginIntegrator s auth = .ok actor) :
    (s.ext.principals.get? actor.id).any (fun p => p.kind = .agent) = true := by
  simp only [beginIntegrator, bind_eq_ok, refuseIf_eq_ok, pure_eq_ok] at h
  obtain ⟨actor', hverify, -, -, -, hintegrator, -, -, -, -, rfl⟩ := h
  obtain ⟨p, hp, hkind⟩ := Auth.kind_of_verify hverify
  refine (Option.any_eq_true _ _).2 ⟨p, hp, decide_eq_true (hkind.trans ?_)⟩
  cases auth with
  | bearer credential session =>
    simp only [Auth.verify, bind_eq_ok, okOr_eq_ok, refuseIf_eq_ok, pure_eq_ok, not_or,
      not_not] at hverify
    obtain ⟨c, -, q, -, -, ⟨-, -, -, hq, -⟩, -, -, rfl⟩ := hverify
    exact hq
  | browser session =>
    simp only [Auth.verify, bind_eq_ok, okOr_eq_ok, refuseIf_eq_ok, pure_eq_ok] at hverify
    obtain ⟨b, -, q, -, -, -, rfl⟩ := hverify
    exact absurd rfl hintegrator

lemma task_of_integrating {s : Db} {submission : Id} (hfiled : s.Filed)
    (h : integratingTask s project submission = .ok task) :
    (s.submissions.get? submission).any (fun u => u.task = task) = true := by
  simp only [integratingTask, bind_eq_ok, okOr_eq_ok, pure_eq_ok] at h
  obtain ⟨ws, hws, rfl⟩ := h
  have hfound := List.find?_some hws
  rw [decide_eq_true_eq] at hfound
  obtain ⟨u, hu, htask, -⟩ := hfiled.submission (List.mem_of_find?_eq_some hws)
  rw [hfound.2.1] at hu
  exact (Option.any_eq_true _ _).2 ⟨u, hu, decide_eq_true htask⟩

/-- Once an integrator revise is committed, the recorded park reason says whether its subject is
parked; and if it is serialized, the subject depends on the cited landing, lies on no new cycle, and
has no more revises that count toward parking. -/
theorem park_reason_exact (hfiled : w.db.Filed)
    (h : integratorRevise w auth project input = .ok w') :
    ∃ task row, integratingTask w.db project input.submission = .ok task ∧
      w'.db.ext.integratorRevises.get? input.submission = some row ∧ row.task = task ∧
      w'.db.now = w.db.now ∧
      (w'.db.reviseLimitReached task = true ↔ row.parkReason ≠ none) ∧
      ∀ landing, row.serializedAfter = some landing →
        row.landingTask = some landing ∧
        (∃ d ∈ w'.dependencies, d.task = task ∧ d.prerequisite = landing) ∧
        (∀ x, TransGen (Edge w'.edges) x x → TransGen (Edge w.edges) x x) ∧
        w'.db.parkReviseCount task ≤ w.db.parkReviseCount task := by
  simp only [integratorRevise, ensureRevisable, bind_eq_ok, pure_eq_ok] at h
  obtain ⟨-, -, actor, hactor, -, -, task, htask, admission, ⟨-, -, hadmission⟩, -, -, -, -, w₁,
    hw₁, rfl⟩ := h
  have hpredicts := admitRevise_predicts hadmission
  have happlies := applyIntegratorRevise_applies hw₁
  obtain ⟨hparked, hcount⟩ := parked_iff hpredicts happlies (kind_of_integrator hactor)
    (task_of_integrating hfiled htask)
  refine ⟨task, _, htask, (happlies.revises _).trans (if_pos rfl), rfl, happlies.now, hparked,
    fun landing hlanding => ?_⟩
  obtain ⟨-, hcited, hpath⟩ := hpredicts.serialized landing hlanding
  obtain ⟨hdepends, hadded⟩ := happlies.depends landing hlanding
  refine ⟨hcited, hdepends, fun x hcycle => no_new_cycle hadded hpath hcycle, hcount ?_⟩
  rw [show admission.serializedAfter = some landing from hlanding]
  exact Option.some_ne_none landing

end Revise

/-! ### A serialized revise -/

namespace Scenario

/-- A candidate in integration whose task was revised twice, beside a change that landed. -/
def crowded : Work where
  db := { service .none with
    projects := table [{ project .none with integrationOwner := .integrator }]
    tasks := table [{ task 1 .code with lifecycle := .done }, task 3 .code]
    submissions := table [codeSubmission 1 1 landed,
      { codeSubmission 2 3 base with supersededAt := some 0 },
      { codeSubmission 4 3 merged with supersededAt := some 0 }, codeSubmission 3 3 onTop]
    workflowSubjects := table [⟨1, 1, 1, .done, 0⟩, ⟨3, 1, 3, .integration, 0⟩]
    events := [⟨2, "submission.reopened", 2, 500⟩, ⟨5, "submission.reopened", 4, 600⟩]
    ext := { integratorAccounts with
      integratorObservations := [⟨1, landed, .published, 0⟩] } }
  dependencies := []
  children := []
  objectives := .empty
  definitionGrants := []
  budgetHeld := []

/-- The candidate conflicts with the change that landed. -/
def conflicting : IntegratorReviseInput where
  submission := 3
  reasonCode := "conflict"
  evidence := "Both change one line."
  result := none
  movedByResult := some 1

end Scenario

open Scenario

set_option maxRecDepth 20000 in
theorem park_reason_exact_serialized : ∃ w', integratorRevise crowded (.bearer 5 none) 1 conflicting =
      .ok w' ∧
    (w'.db.ext.integratorRevises.get? 3).any (fun r => r.serializedAfter = some 1) = true ∧
    ∃ task row, integratingTask crowded.db 1 conflicting.submission = .ok task ∧
      w'.db.ext.integratorRevises.get? conflicting.submission = some row ∧ row.task = task ∧
      w'.db.now = crowded.db.now ∧
      (w'.db.reviseLimitReached task = true ↔ row.parkReason ≠ none) ∧
      ∀ landing, row.serializedAfter = some landing →
        row.landingTask = some landing ∧
        (∃ d ∈ w'.dependencies, d.task = task ∧ d.prerequisite = landing) ∧
        (∀ x, TransGen (Edge w'.edges) x x → TransGen (Edge crowded.edges) x x) ∧
        w'.db.parkReviseCount task ≤ crowded.db.parkReviseCount task := by
  obtain ⟨w', hw, hserialized⟩ := exists_of_any
    (o := (integratorRevise crowded (.bearer 5 none) 1 conflicting).toOption)
    (p := fun w' : Work => (w'.db.ext.integratorRevises.get? 3).any fun r =>
      r.serializedAfter = some 1) (by decide +kernel)
  have hrevise := toOption_eq_some.1 hw
  exact ⟨w', hrevise, hserialized, park_reason_exact (by decide +kernel) hrevise⟩

end AgentCoordinator
