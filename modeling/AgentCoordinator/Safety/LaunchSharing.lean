import AgentCoordinator.Evidence
import AgentCoordinator.Scenario
import AgentCoordinator.Library.Chain

/-
Which reviews come from the launch of a contributor.

Both walks of `launch_shared` climb the same parent chains, the one from the reviewer up and the
other from every contributor at once. Over a table in which each recorded parent has a row, either
walk is the bounded climb of the chain, so the two agree at the bound: the answer is yes exactly
when a chain is too deep, or when the reviewer and a contributor have a root in common.
-/

namespace AgentCoordinator

open Tabular

/-- `parent_session_id` of a session; a session without a row has none. -/
def External.parent (x : External) (session : Id) : Option Id :=
  (x.agentSessions.get? session).bind (·.parentSession)

/-- `parent_session_id` references `agent_sessions(id)`. -/
def External.ParentsExist (x : External) : Prop :=
  ∀ r ∈ x.agentSessions, ∀ parent, r.parentSession = some parent →
    (x.agentSessions.get? parent).isSome

/-- The chain of a session has more hops than the walks follow. -/
def External.TooDeep (x : External) (session : Id) : Prop :=
  Chain.Deep x.parent launchWalkCap session

/-- Two sessions have the same root session. -/
def External.SameLaunch (x : External) (session session' : Id) : Prop :=
  ∃ root, Chain.Root x.parent session root ∧ Chain.Root x.parent session' root

/-- The sessions that contributed to a task of the set. -/
def Db.ContributorOf (s : Db) (tasks : List Id) (session : Id) : Prop :=
  ∃ tc ∈ s.taskContributors, tc.task ∈ tasks ∧ tc.session = session

section Walks

variable {x : External} {fuel : Nat} {launch session : Id} {r : AgentSession}

lemma External.parent_of_get? (h : x.agentSessions.get? session = some r) :
    x.parent session = r.parentSession := by
  rw [External.parent, h, Option.bind_some]

lemma External.parent_of_get?_none (h : x.agentSessions.get? session = none) :
    x.parent session = none := by
  rw [External.parent, h, Option.bind_none]

/-- The walk from the reviewer is the bounded climb of its chain. -/
lemma External.climb_eq_top (hx : x.ParentsExist) (h : x.agentSessions.get? session = some r) :
    x.climb fuel r = Chain.top x.parent fuel session := by
  induction fuel generalizing session r with
  | zero =>
    have hparent := External.parent_of_get? h
    cases hr : r.parentSession with
    | none =>
      rw [hr] at hparent
      rw [Chain.top_of_root hparent, External.climb, hr, ← Table.key_of_get? h]
      rfl
    | some parent =>
      rw [hr] at hparent
      rw [Chain.top_zero_of_parent hparent, External.climb, hr]
  | succ fuel ih =>
    have hparent := External.parent_of_get? h
    cases hr : r.parentSession with
    | none =>
      rw [hr] at hparent
      rw [Chain.top_of_root hparent, External.climb, hr, ← Table.key_of_get? h]
      rfl
    | some parent =>
      rw [hr] at hparent
      obtain ⟨up, hup⟩ := Option.isSome_iff_exists.1 (hx r (Table.mem_of_get? h) parent hr)
      rw [Chain.top_succ_of_parent hparent, External.climb, hr, ← ih hup]
      simp only [hup]

/-- The walk from a contributor is the bounded climb too: it reaches every launch when that gives
up. -/
lemma External.reaches_iff (hx : x.ParentsExist) (h : x.agentSessions.get? session = some r) :
    x.reaches launch fuel r = true ↔
      ∀ root, Chain.top x.parent fuel session = some root → root = launch := by
  induction fuel generalizing session r with
  | zero =>
    have hparent := External.parent_of_get? h
    cases hr : r.parentSession with
    | none =>
      rw [hr] at hparent
      rw [Chain.top_of_root hparent, External.reaches, hr, ← Table.key_of_get? h]
      simp [Keyed.key]
    | some parent =>
      rw [hr] at hparent
      rw [Chain.top_zero_of_parent hparent, External.reaches, hr]
      simp
  | succ fuel ih =>
    have hparent := External.parent_of_get? h
    cases hr : r.parentSession with
    | none =>
      rw [hr] at hparent
      rw [Chain.top_of_root hparent, External.reaches, hr, ← Table.key_of_get? h]
      simp [Keyed.key]
    | some parent =>
      rw [hr] at hparent
      obtain ⟨up, hup⟩ := Option.isSome_iff_exists.1 (hx r (Table.mem_of_get? h) parent hr)
      rw [Chain.top_succ_of_parent hparent, External.reaches, hr, ← ih hup]
      simp only [hup, Option.elim_some]

/-- A session without a row is its own launch, for both walks. -/
lemma External.launchRoot_eq_top (hx : x.ParentsExist) :
    x.launchRoot session = Chain.top x.parent launchWalkCap session := by
  cases h : x.agentSessions.get? session with
  | none => rw [Chain.top_of_root (External.parent_of_get?_none h), External.launchRoot, h]
  | some r => rw [External.launchRoot, h, ← External.climb_eq_top hx h]

end Walks

/-- `launch_contributed` asks of each contributor for a climb that gives up or ends in `launch`. -/
lemma Db.launchContributed_iff {s : Db} (hx : s.ext.ParentsExist) {task launch : Id} :
    s.launchContributed task launch = true ↔
      ∃ tc ∈ s.taskContributors, tc.task = task ∧
        (s.ext.TooDeep tc.session ∨ Chain.Root s.ext.parent tc.session launch) := by
  have hwalk (session : Id) :
      (∀ root, Chain.top s.ext.parent launchWalkCap session = some root → root = launch) ↔
        s.ext.TooDeep session ∨ Chain.Root s.ext.parent session launch := by
    by_cases hdeep : s.ext.TooDeep session
    · simp [hdeep, Chain.top_eq_none_iff.2 hdeep]
    · obtain ⟨root, hroot⟩ := Option.ne_none_iff_exists'.1 (mt Chain.top_eq_none_iff.1 hdeep)
      simp only [hroot, hdeep, false_or, ← Chain.top_eq_some_iff hdeep, Option.some.injEq,
        forall_eq']
  rw [Db.launchContributed, List.any_eq_true]
  refine exists_congr fun tc => and_congr_right fun _ => ?_
  rw [Bool.and_eq_true, decide_eq_true_eq, ← hwalk]
  refine and_congr_right fun _ => ?_
  cases h : s.ext.agentSessions.get? tc.session with
  | none => simp [Chain.top_of_root (External.parent_of_get?_none h)]
  | some r => exact External.reaches_iff hx h

/-- `launch_shared` is true exactly when the reviewer's chain or a contributor's is too deep to
resolve, or a contributor has the reviewer's root. -/
lemma Db.launchShared_iff {s : Db} (hx : s.ext.ParentsExist) {tasks : List Id} {session : Id} :
    s.launchShared tasks session = true ↔
      s.ext.TooDeep session ∨ ∃ contributor, s.ContributorOf tasks contributor ∧
        (s.ext.TooDeep contributor ∨ s.ext.SameLaunch session contributor) := by
  rw [Db.launchShared, External.launchRoot_eq_top hx]
  by_cases hdeep : s.ext.TooDeep session
  · simp [hdeep, Chain.top_eq_none_iff.2 hdeep]
  · obtain ⟨root, hroot⟩ := Option.ne_none_iff_exists'.1 (mt Chain.top_eq_none_iff.1 hdeep)
    simp only [hroot, hdeep, false_or, List.any_eq_true, Db.launchContributed_iff hx]
    constructor
    · rintro ⟨task, htask, tc, htc, rfl, hshared⟩
      exact ⟨tc.session, ⟨tc, htc, htask, rfl⟩,
        hshared.imp_right (Chain.exists_root_iff hroot).1⟩
    · rintro ⟨_, ⟨tc, htc, htask, rfl⟩, hshared⟩
      exact ⟨tc.task, htask, tc, htc, rfl, hshared.imp_right (Chain.exists_root_iff hroot).2⟩

lemma External.SameLaunch.symm {x : External} {session session' : Id}
    (h : x.SameLaunch session session') : x.SameLaunch session' session := by
  obtain ⟨root, hroot, hroot'⟩ := h
  exact ⟨root, hroot', hroot⟩

/-- Launch sharing is decided correctly: for the given tasks and reviewer, `launch_shared` is true
exactly when the reviewer's chain or a contributor's has more than `LAUNCH_WALK_CAP` hops or a
contributor has the reviewer's root session. It is symmetric: where the reviewer and the only
contributor change places, the answer is the same. -/
theorem launch_shared_exact (s : Db) (hparents : s.ext.ParentsExist) (tasks : List Id)
    (session : Id) :
    (s.launchShared tasks session = true ↔
      s.ext.TooDeep session ∨ ∃ contributor, s.ContributorOf tasks contributor ∧
        (s.ext.TooDeep contributor ∨ s.ext.SameLaunch session contributor)) ∧
    ∀ (s' : Db) (tasks' : List Id) (contributor : Id), s'.ext = s.ext →
      (∀ c, s.ContributorOf tasks c ↔ c = contributor) →
      (∀ c, s'.ContributorOf tasks' c ↔ c = session) →
      s.launchShared tasks session = s'.launchShared tasks' contributor := by
  refine ⟨Db.launchShared_iff hparents, ?_⟩
  intro s' tasks' contributor hext honly honly'
  have hparents' : s'.ext.ParentsExist := by rwa [hext]
  rw [Bool.eq_iff_iff, Db.launchShared_iff hparents, Db.launchShared_iff hparents', hext]
  simp only [honly, honly', exists_eq_left]
  constructor
  · rintro (hdeep | hdeep | hsame)
    · exact .inr (.inl hdeep)
    · exact .inl hdeep
    · exact .inr (.inr hsame.symm)
  · rintro (hdeep | hdeep | hsame)
    · exact .inr (.inl hdeep)
    · exact .inl hdeep
    · exact .inr (.inr hsame.symm)

namespace Scenario

/-- Agent 2 launched agent 3, which launched agent 4; agent 3 contributed to the code task. -/
def launched : Db :=
  { service .agent with
    taskContributors := [⟨1, 3, 3⟩]
    ext := { accounts with
      agentSessions := table [⟨2, 2, 2, none, none, none⟩, ⟨3, 3, 3, none, some 2, none⟩,
        ⟨4, 4, 4, none, some 3, none⟩] } }

end Scenario

/-- Agent 4 shares the launch of the contributor, through agent 2. -/
theorem launch_shared_exact_launched :
    Scenario.launched.launchShared [1] 4 = true ∧
      (Scenario.launched.ext.TooDeep 4 ∨ ∃ contributor,
        Scenario.launched.ContributorOf [1] contributor ∧
          (Scenario.launched.ext.TooDeep contributor ∨
            Scenario.launched.ext.SameLaunch 4 contributor)) := by
  have hparents : Scenario.launched.ext.ParentsExist := by
    intro r hr parent hparent
    have hall : ∀ r ∈ Scenario.launched.ext.agentSessions, r.parentSession.all
        (fun p => (Scenario.launched.ext.agentSessions.get? p).isSome) = true := by
      decide
    simpa [hparent] using hall r hr
  have hshared : Scenario.launched.launchShared [1] 4 = true := by decide
  exact ⟨hshared, (launch_shared_exact Scenario.launched hparents [1] 4).1.1 hshared⟩

end AgentCoordinator
