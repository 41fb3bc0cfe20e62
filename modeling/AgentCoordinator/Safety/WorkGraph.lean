import AgentCoordinator.WorkGraph
import AgentCoordinator.Library.Transition
import AgentCoordinator.Scenario

/-
The work graph stays acyclic.

Every handler replaces the edges that leave one task, after it has checked that no new edge leads
back to that task. The check runs against the graph before the batch, which is enough: a path back
to the task does not need the edges that leave it.
-/

namespace AgentCoordinator

open Guarded Tabular Digraph Relation Transition

/-! ### What holds of the relations -/

/-- No chain of prerequisites and children comes back to where it started, and a task is a child of
one objective at most. -/
structure Work.WellFounded (w : Work) : Prop where
  acyclic : Acyclic (Edge w.edges)
  parent : ∀ c ∈ w.children, ∀ c' ∈ w.children, c.childTask = c'.childTask →
    c.objectiveTask = c'.objectiveTask

section Edges

variable {w w' : Work} {a b : Id}

lemma edge_iff : Edge w.edges a b ↔
    (∃ d ∈ w.dependencies, d.task = a ∧ d.prerequisite = b) ∨
      ∃ c ∈ w.children, c.objectiveTask = a ∧ c.childTask = b := by
  simp only [Edge, Work.edges, List.mem_append, List.mem_map, Prod.mk.injEq]

lemma dependencyCycles_iff : w.dependencyCycles a b = true ↔ ReflTransGen (Edge w.edges) b a := by
  rw [Work.dependencyCycles, decide_eq_true_iff, mem_reached]

/-- A batch of new edges leaves one task; none of them leads back to it. -/
structure Work.Rewires (w w' : Work) (task : Id) : Prop where
  kept : ∀ x y, Edge w'.edges x y → x ≠ task → Edge w.edges x y
  leaving : ∀ y, Edge w'.edges task y → Edge w.edges task y ∨ w.dependencyCycles task y = false

lemma Work.Rewires.acyclic {task : Id} (h : w.Rewires w' task) (hw : Acyclic (Edge w.edges)) :
    Acyclic (Edge w'.edges) := by
  refine hw.rewire h.kept fun y hy hback => ?_
  rcases h.leaving y hy with hold | hnew
  · exact hw.not_back hold hback
  · exact absurd (dependencyCycles_iff.2 hback) (by simp [hnew])

end Edges

/-! ### Prerequisites -/

section Dependencies

variable {w w' : Work} {project task : Id} {deps seen : List Id}

lemma checkDependencies_ok (h : checkDependencies w project task deps seen = .ok ()) :
    ∀ d ∈ deps, w.dependencyCycles task d = false := by
  induction deps generalizing seen with
  | nil => exact fun _ hd => absurd hd List.not_mem_nil
  | cons d deps ih =>
    simp only [checkDependencies, bind_eq_ok, refuseIf_eq_ok] at h
    obtain ⟨-, -, -, -, -, hcycle, hrest⟩ := h
    intro d' hd'
    rcases List.mem_cons.1 hd' with rfl | hmem
    · exact Bool.eq_false_of_not_eq_true hcycle
    · exact ih hrest d' hmem

lemma setDependencies_rewires (h : setDependencies w project task deps = .ok w') :
    w.Rewires w' task ∧ w'.children = w.children := by
  simp only [setDependencies, bind_eq_ok, refuseIf_eq_ok, pure_eq_ok] at h
  obtain ⟨-, -, ⟨⟩, hcheck, rfl⟩ := h
  refine ⟨⟨fun x y he hx => ?_, fun y he => ?_⟩, rfl⟩
  · rcases edge_iff.1 he with ⟨d, hd, htask, hp⟩ | hchild
    · rcases List.mem_append.1 hd with hold | hnew
      · exact edge_iff.2 (.inl ⟨d, (List.mem_filter.1 hold).1, htask, hp⟩)
      · obtain ⟨d', -, rfl⟩ := List.mem_map.1 hnew
        exact absurd htask.symm hx
    · exact edge_iff.2 (.inr hchild)
  · rcases edge_iff.1 he with ⟨d, hd, htask, hp⟩ | hchild
    · rcases List.mem_append.1 hd with hold | hnew
      · have hne := (List.mem_filter.1 hold).2
        simp [htask] at hne
      · obtain ⟨d', hd', rfl⟩ := List.mem_map.1 hnew
        obtain rfl : d' = y := hp
        exact .inr (checkDependencies_ok hcheck d' hd')
    · exact .inl (edge_iff.2 (.inr hchild))

end Dependencies

/-! ### Children -/

section Children

variable {w w' : Work} {project objective : Id} {children : List ObjectiveChildInput}

lemma validateChildren_ok (h : validateChildren w project objective children = .ok ()) :
    ∀ c ∈ children, w.dependencyCycles objective c.task = false := by
  induction children with
  | nil => exact fun _ hc => absurd hc List.not_mem_nil
  | cons child children ih =>
    simp only [validateChildren, bind_eq_ok, refuseIf_eq_ok] at h
    obtain ⟨-, -, -, -, -, -, -, -, -, hcycle, hrest⟩ := h
    intro c hc
    rcases List.mem_cons.1 hc with rfl | hmem
    · exact Bool.eq_false_of_not_eq_true hcycle
    · exact ih hrest c hmem

/-- Inserted children belong to the objective, and are no other's. -/
lemma insertChildren_ok {position : Nat}
    (h : insertChildren w project objective children position = .ok w') :
    w'.dependencies = w.dependencies ∧
    (∀ c ∈ w'.children, c ∈ w.children ∨
      (c.objectiveTask = objective ∧ ∃ input ∈ children, input.task = c.childTask)) ∧
    ((∀ c ∈ w.children, ∀ c' ∈ w.children, c.childTask = c'.childTask →
        c.objectiveTask = c'.objectiveTask) →
      ∀ c ∈ w'.children, ∀ c' ∈ w'.children, c.childTask = c'.childTask →
        c.objectiveTask = c'.objectiveTask) := by
  induction children generalizing w position with
  | nil =>
    obtain rfl := pure_eq_ok.1 h
    exact ⟨rfl, fun c hc => .inl hc, id⟩
  | cons child children ih =>
    simp only [insertChildren, bind_eq_ok, refuseIf_eq_ok] at h
    obtain ⟨-, hunique, hrest⟩ := h
    obtain ⟨hdependencies, hfrom, hparent⟩ := ih hrest
    refine ⟨hdependencies, fun c hc => ?_, fun hw => hparent fun c hc c' hc' heq => ?_⟩
    · rcases hfrom c hc with hold | ⟨hobjective, input, hinput, htask⟩
      · rcases List.mem_append.1 hold with hw | hnew
        · exact .inl hw
        · rw [List.mem_singleton.1 hnew]
          exact .inr ⟨rfl, child, List.mem_cons_self, rfl⟩
      · exact .inr ⟨hobjective, input, List.mem_cons_of_mem _ hinput, htask⟩
    · -- the child has no other parent yet
      rcases List.mem_append.1 hc with hold | hnew <;>
        rcases List.mem_append.1 hc' with hold' | hnew'
      · exact hw c hold c' hold' heq
      · rw [List.mem_singleton.1 hnew'] at heq
        exact absurd ⟨c, hold, heq⟩ hunique
      · rw [List.mem_singleton.1 hnew] at heq
        exact absurd ⟨c', hold', heq.symm⟩ hunique
      · rw [List.mem_singleton.1 hnew, List.mem_singleton.1 hnew']

lemma replaceChildren_wellFounded (hw : w.WellFounded)
    (h : replaceChildren w project objective children = .ok w') : w'.WellFounded := by
  simp only [replaceChildren, bind_eq_ok] at h
  obtain ⟨⟨⟩, hvalid, hinsert⟩ := h
  obtain ⟨hdependencies, hfrom, hparent⟩ := insertChildren_ok hinsert
  have hrewires : w.Rewires w' objective := by
    refine ⟨fun x y he hx => ?_, fun y he => ?_⟩
    · rcases edge_iff.1 he with hdep | ⟨c, hc, hobjective, htask⟩
      · rw [hdependencies] at hdep
        exact edge_iff.2 (.inl hdep)
      · rcases hfrom c hc with hold | ⟨hnew, -⟩
        · exact edge_iff.2 (.inr ⟨c, (List.mem_filter.1 hold).1, hobjective, htask⟩)
        · exact absurd (hobjective.symm.trans hnew) hx
    · rcases edge_iff.1 he with hdep | ⟨c, hc, hobjective, htask⟩
      · rw [hdependencies] at hdep
        exact .inl (edge_iff.2 (.inl hdep))
      · rcases hfrom c hc with hold | ⟨-, input, hinput, hchild⟩
        · exact .inl (edge_iff.2 (.inr ⟨c, (List.mem_filter.1 hold).1, hobjective, htask⟩))
        · rw [← htask, ← hchild]
          exact .inr (validateChildren_ok hvalid input hinput)
  refine ⟨hrewires.acyclic hw.acyclic, hparent fun c hc c' hc' heq => ?_⟩
  exact hw.parent c (List.mem_filter.1 hc).1 c' (List.mem_filter.1 hc').1 heq

end Children

/-! ### Requests -/

section Requests

variable {w w' : Work} {actor : Actor}

/-- Other tables do not matter. -/
lemma Work.WellFounded.of_eq (hw : w.WellFounded) (dependencies : w'.dependencies = w.dependencies)
    (children : w'.children = w.children) : w'.WellFounded := by
  have hedges : w'.edges = w.edges := by rw [Work.edges, dependencies, children]; rfl
  exact ⟨hedges ▸ hw.acyclic, children ▸ hw.parent⟩

lemma setDependencies_wellFounded {project task : Id} {deps : List Id} (hw : w.WellFounded)
    (h : setDependencies w project task deps = .ok w') : w'.WellFounded := by
  obtain ⟨hrewires, hchildren⟩ := setDependencies_rewires h
  exact ⟨hrewires.acyclic hw.acyclic, hchildren ▸ hw.parent⟩

/-- The landing a revise waits for does not wait for the revised task. -/
lemma serializable_ok {case : ReviseCase} {landing : Option Landing} {citedBefore : Id → Bool}
    {after : Id} (h : serializable w case landing citedBefore = .ok after) :
    w.dependencyCycles case.task after = false := by
  unfold serializable at h
  split at h
  · exact absurd h (by simp)
  split at h
  · exact absurd h (by simp)
  split at h
  · exact absurd h (by simp)
  split at h
  · exact absurd h (by simp)
  split at h
  · exact absurd h (by simp)
  · rename_i hcycle
    rw [← Except.ok.inj h]
    exact Bool.eq_false_of_not_eq_true hcycle

lemma dependOn_wellFounded {case : ReviseCase} {after : Id} (hw : w.WellFounded)
    (hcycle : w.dependencyCycles case.task after = false) (h : dependOn w case after = .ok w') :
    w'.WellFounded := by
  simp only [dependOn, ite_eq_ok, bind_eq_ok, pure_eq_ok] at h
  rcases h with ⟨-, rfl⟩ | ⟨-, s, -, rfl⟩
  · exact hw
  · have hrewires : w.Rewires { w with
        db := s
        dependencies := w.dependencies ++ [⟨case.project, case.task, after⟩] } case.task := by
      refine ⟨fun x y he hx => ?_, fun y he => ?_⟩
      · rcases edge_iff.1 he with ⟨d, hd, htask, hp⟩ | hchild
        · rcases List.mem_append.1 hd with hold | hnew
          · exact edge_iff.2 (.inl ⟨d, hold, htask, hp⟩)
          · rw [List.mem_singleton.1 hnew] at htask
            exact absurd htask.symm hx
        · exact edge_iff.2 (.inr hchild)
      · rcases edge_iff.1 he with ⟨d, hd, htask, hp⟩ | hchild
        · rcases List.mem_append.1 hd with hold | hnew
          · exact .inl (edge_iff.2 (.inl ⟨d, hold, htask, hp⟩))
          · rw [List.mem_singleton.1 hnew] at hp
            exact .inr (hp ▸ hcycle)
        · exact .inl (edge_iff.2 (.inr hchild))
    exact ⟨hrewires.acyclic hw.acyclic, hw.parent⟩

lemma createTask_wellFounded {project : Id} {input : TaskInput} {held : Bool} (hw : w.WellFounded)
    (h : createTask w actor project input held = .ok w') : w'.WellFounded := by
  simp only [createTask, bind_eq_ok, pure_eq_ok] at h
  obtain ⟨-, -, p, -, w₁, hset, s, -, rfl⟩ := h
  refine (setDependencies_wellFounded ?_ hset).of_eq rfl rfl
  exact hw.of_eq rfl rfl

lemma editTask_wellFounded {project id : Id} {input : TaskEdit} (hw : w.WellFounded)
    (h : editTask w actor project id input = .ok w') : w'.WellFounded := by
  simp only [editTask, bind_eq_ok, pure_eq_ok] at h
  obtain ⟨-, -, t, -, -, -, -, -, -, -, -, -, -, -, -, -, w₁, hset, s, -, rfl⟩ := h
  exact (setDependencies_wellFounded hw hset).of_eq rfl rfl

lemma createObjective_wellFounded {project : Id} {input : ObjectiveInput} {held : Bool}
    (hw : w.WellFounded) (h : createObjective w actor project input held = .ok w') :
    w'.WellFounded := by
  simp only [createObjective, bind_eq_ok, pure_eq_ok] at h
  obtain ⟨-, -, -, -, p, -, objectives, -, w₁, hreplace, s, -, rfl⟩ := h
  refine (replaceChildren_wellFounded ?_ hreplace).of_eq rfl rfl
  exact hw.of_eq rfl rfl

lemma updateChildren_wellFounded {project id : Id} {expectedRevision : Int}
    {children : List ObjectiveChildInput} (hw : w.WellFounded)
    (h : updateChildren w actor project id expectedRevision children = .ok w') :
    w'.WellFounded := by
  simp only [updateChildren, bind_eq_ok, pure_eq_ok] at h
  obtain ⟨-, -, -, -, o, -, t, -, -, -, -, -, -, -, w₁, hreplace, s, -, rfl⟩ := h
  exact (replaceChildren_wellFounded hw hreplace).of_eq rfl rfl

lemma recordRevise_wellFounded {case : ReviseCase} {landing : Option Landing}
    {citedBefore : Id → Bool} (hw : w.WellFounded)
    (h : recordRevise w case landing citedBefore = .ok w') : w'.WellFounded := by
  unfold recordRevise at h
  split at h
  · exact pure_eq_ok.1 h ▸ hw
  · rename_i after hafter
    exact dependOn_wellFounded hw (serializable_ok hafter) h

end Requests

/-! ### Steps and runs -/

section Runs

variable {w w' : Work} {i : WorkAction}

/-- Every step leaves the work well founded. -/
theorem WorkStep.wellFounded (hw : w.WellFounded) (h : WorkStep w i w') : w'.WellFounded := by
  cases h with
  | @accepted _ actor req h =>
    cases req with
    | createTask => exact createTask_wellFounded hw h
    | editTask => exact editTask_wellFounded hw h
    | createObjective => exact createObjective_wellFounded hw h
    | updateChildren => exact updateChildren_wellFounded hw h
    | serializedRevise => exact recordRevise_wellFounded hw h
  | refused => exact hw
  | other dependencies children => exact hw.of_eq dependencies children

/-- The work graph stays acyclic, each child has one parent, and a refused request leaves both
relations alone. -/
theorem work_graph_acyclic {w₀ : Work} (dependencies : w₀.dependencies = [])
    (children : w₀.children = []) (h : Run WorkStep (fun _ _ => True) w₀ w) :
    Acyclic (Edge w.edges) ∧
    (∀ c ∈ w.children, ∀ c' ∈ w.children, c.childTask = c'.childTask →
      c.objectiveTask = c'.objectiveTask) ∧
    ∀ actor req e w', WorkRequest.handle w actor req = .error e →
      WorkStep w (.request actor req) w' →
        w'.dependencies = w.dependencies ∧ w'.children = w.children := by
  have h₀ : w₀.WellFounded := by
    have hedges : w₀.edges = [] := by rw [Work.edges, dependencies, children]; rfl
    refine ⟨fun a hcycle => ?_, fun c hc => by simp [children] at hc⟩
    obtain ⟨b, he, -⟩ := TransGen.head'_iff.1 hcycle
    rw [hedges] at he
    exact absurd he List.not_mem_nil
  obtain ⟨hacyclic, hparent⟩ :=
    h.invariant (I := Work.WellFounded) (fun _ _ _ hI _ hstep => hstep.wellFounded hI) h₀
  refine ⟨hacyclic, hparent, fun actor req e w' herror hstep => ?_⟩
  cases hstep with
  | accepted hok => exact absurd (hok.symm.trans herror) (by simp)
  | refused => exact ⟨rfl, rfl⟩

end Runs

/-! ### Replays -/

open Scenario

/-- Two tasks, without relations. -/
def unrelated : Work where
  db := service .agent
  dependencies := []
  children := []
  objectives := .empty
  definitionGrants := []
  budgetHeld := []

/-- The operator of the service. -/
def theOperator : Actor := ⟨1, .human, .operator, none, some 1, none⟩

/-- A task that waits for the general one. -/
def createsReport : WorkRequest :=
  .createTask 1 ⟨⟨"Report", "", ["It is written."], .general⟩, 2, [2], false, false⟩ false

/-- An objective over the new task. -/
def gathersReports : WorkRequest :=
  .createObjective 1 ⟨"Reports", "", ["They are written."], 2, [⟨3, true⟩], false⟩ false

set_option maxRecDepth 20000 in
theorem work_graph_acyclic_replayed : ∃ w w', gathersReports.handle w theOperator = .ok w' ∧
    w'.edges = [(3, 2), (4, 3)] ∧ Acyclic (Edge w'.edges) := by
  obtain ⟨w, hw, hp⟩ := exists_of_any (o := (createsReport.handle unrelated theOperator).toOption)
    (p := fun w => (gathersReports.handle w theOperator).toOption.any fun w' : Work =>
      decide (w'.edges = [(3, 2), (4, 3)])) (by decide +kernel)
  obtain ⟨w', hw', hedges⟩ := (Option.any_eq_true _ _).1 hp
  have hrun : Run WorkStep (fun _ _ => True) unrelated w' :=
    (Run.single trivial (.accepted (toOption_eq_some.1 hw))).tail trivial
      (.accepted (toOption_eq_some.1 hw'))
  exact ⟨w, w', toOption_eq_some.1 hw', of_decide_eq_true hedges,
    (work_graph_acyclic rfl rfl hrun).1⟩

end AgentCoordinator
