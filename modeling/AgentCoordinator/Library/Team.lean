import Mathlib.Logic.Function.Basic
import AgentCoordinator.Library.Procedure

/-
Parties that run procedures on one state.

Each member of a team has a machine of its own on the state that all share, and its calls come
between the calls of the other members in any order. Any member may crash at any point, which loses
its procedure. A contract is an outline for each member with one invariant for all. It is kept when
each outline is right for its member, and when what a member commits to, and what its crash does, is
no more than the machines of the other members expect of their others (`Contract.Kept`). Then every
call of every run keeps the commitments of the member that makes it (`Contract.Kept.trace`).
-/

namespace Procedure

variable {ι δ ρ ε α : Type} {E : Interface}

/-- The members of a team, and what happens to the state from outside. -/
structure Team (ι δ : Type) (E : Interface) (ε ρ α : Type) where
  member : ι → Machine δ E ε ρ α
  outside : δ → δ → Prop

/-- The shared state, and what each member is at. -/
abbrev World (ι δ : Type) (E : Interface) (ε ρ α : Type) := δ × (ι → Option (Running E ε ρ α))

/-- What happens in one step of a team. -/
inductive Happening (ι : Type) (E : Interface) (ε ρ α : Type)
  | work (i : ι) (act : Act E ε ρ α)
  | crash (i : ι)
  | outside

/-- A step of a run, with the worlds around it. -/
structure Moment (ι δ : Type) (E : Interface) (ε ρ α : Type) where
  before : World ι δ E ε ρ α
  event : Happening ι E ε ρ α
  after : World ι δ E ε ρ α

namespace Team

variable [DecidableEq ι]

/-- One step of one member, or of the outside. -/
inductive Step (T : Team ι δ E ε ρ α) :
    World ι δ E ε ρ α → Happening ι E ε ρ α → World ι δ E ε ρ α → Prop
  | work {d d' : δ} {s : ι → Option (Running E ε ρ α)} {i : ι} {act : Act E ε ρ α}
      {stage : Option (Running E ε ρ α)} (h : (T.member i).Work d (s i) act d' stage) :
      Step T (d, s) (.work i act) (d', Function.update s i stage)
  | crash {d d' : δ} {s : ι → Option (Running E ε ρ α)} {i : ι} (h : d' ∈ (T.member i).crash d) :
      Step T (d, s) (.crash i) (d', Function.update s i none)
  | outside {d d' : δ} {s : ι → Option (Running E ε ρ α)} (h : T.outside d d') :
      Step T (d, s) .outside (d', s)

/-- A run from a world, with its moments in order. -/
inductive Trace (T : Team ι δ E ε ρ α) (w₀ : World ι δ E ε ρ α) :
    List (Moment ι δ E ε ρ α) → World ι δ E ε ρ α → Prop
  | nil : Trace T w₀ [] w₀
  | snoc {l : List (Moment ι δ E ε ρ α)} {w w' : World ι δ E ε ρ α} {e : Happening ι E ε ρ α}
      (hl : Trace T w₀ l w) (h : T.Step w e w') : Trace T w₀ (l ++ [⟨w, e, w'⟩]) w'

/-- What a call leaves is one of its effects. -/
lemma Step.effect {T : Team ι δ E ε ρ α} {w w' : World ι δ E ε ρ α} {i : ι} {op : E.Op}
    {answer : E.Answer op} (h : T.Step w (.work i (.call op answer)) w') :
    w'.1 ∈ (T.member i).effects w.1 op answer := by
  cases h with
  | @work d d' s _ _ stage hwork =>
    generalize s i = before at hwork
    cases hwork with
    | call hcall => exact hcall

end Team

/-- An outline for each member, with one invariant. -/
structure Contract (ι δ : Type) (E : Interface) (ε ρ α : Type) where
  inv : δ → Prop
  commits : ι → List (Called E) → δ → (op : E.Op) → E.Answer op → δ → Prop
  ends : ι → ρ → List (Called E) → δ → Except ε α → Prop

namespace Contract

/-- The outline of a member. -/
def outline (C : Contract ι δ E ε ρ α) (i : ι) : Outline δ E ε ρ α :=
  ⟨.all, C.inv, C.commits i, C.ends i⟩

/-- The outlines are right, and nobody does more than the others expect. -/
structure Kept (C : Contract ι δ E ε ρ α) (T : Team ι δ E ε ρ α) : Prop where
  valid : ∀ i, (C.outline i).Valid (T.member i)
  call : ∀ i j, i ≠ j → ∀ h d op answer d', C.inv d → C.inv d' → C.commits i h d op answer d' →
    (T.member j).others d d'
  crash : ∀ i j, i ≠ j → ∀ d d', C.inv d → d' ∈ (T.member i).crash d → (T.member j).others d d'
  outside : ∀ d d', C.inv d → T.outside d d' → C.inv d' ∧ ∀ j, (T.member j).others d d'

/-- The invariant holds, and each member is safe with what is left of its procedure. -/
def Good (C : Contract ι δ E ε ρ α) (T : Team ι δ E ε ρ α) (w : World ι δ E ε ρ α) : Prop :=
  C.inv w.1 ∧ ∀ i run, w.2 i = some run →
    run.rest.Safe (T.member i) (C.outline i) (C.ends i run.request) run.history w.1

/-- A call is made as its member has committed to. -/
def Honoured (C : Contract ι δ E ε ρ α) (m : Moment ι δ E ε ρ α) : Prop :=
  ∀ i op answer, m.event = .work i (.call op answer) →
    ∃ h, C.commits i h m.before.1 op answer m.after.1

/-- When one member moves on, it has to be safe in its new stage and the others where they are. -/
lemma good_update [DecidableEq ι] {C : Contract ι δ E ε ρ α} {T : Team ι δ E ε ρ α} {d : δ}
    {s : ι → Option (Running E ε ρ α)} {i : ι} {stage : Option (Running E ε ρ α)} (hI : C.inv d)
    (hactor : ∀ run, stage = some run →
      run.rest.Safe (T.member i) (C.outline i) (C.ends i run.request) run.history d)
    (hrest : ∀ j run, i ≠ j → s j = some run →
      run.rest.Safe (T.member j) (C.outline j) (C.ends j run.request) run.history d) :
    C.Good T (d, Function.update s i stage) := by
  refine ⟨hI, fun j run hj => ?_⟩
  by_cases hij : i = j
  · subst hij
    exact hactor run ((Function.update_self i stage s).symm.trans hj)
  · exact hrest j run hij ((Function.update_of_ne (Ne.symm hij) stage s).symm.trans hj)

namespace Kept

variable {C : Contract ι δ E ε ρ α} {T : Team ι δ E ε ρ α} {w w₀ w' : World ι δ E ε ρ α}
  {l : List (Moment ι δ E ε ρ α)} {e : Happening ι E ε ρ α}

/-- What the others do leaves a member safe. -/
lemma undisturbed (hC : C.Kept T) {d d' : δ} {i : ι} {run : Running E ε ρ α}
    (hsafe : run.rest.Safe (T.member i) (C.outline i) (C.ends i run.request) run.history d)
    (hothers : (T.member i).others d d') :
    run.rest.Safe (T.member i) (C.outline i) (C.ends i run.request) run.history d' :=
  hsafe.meanwhile hothers fun h result hends => (hC.valid i).ends _ h d d' result hends hothers

variable [DecidableEq ι]

/-- One step. -/
lemma step (hC : C.Kept T) (hw : C.Good T w) (h : T.Step w e w') :
    C.Good T w' ∧ C.Honoured ⟨w, e, w'⟩ := by
  obtain ⟨hI, hsafe⟩ := hw
  cases h with
  | @work d d' s i act stage hwork =>
    generalize hi : s i = before at hwork
    cases hwork with
    | start request =>
      refine ⟨good_update hI ?_ fun j run _ => hsafe j run, fun _ _ _ h => nomatch h⟩
      rintro run ⟨⟩
      exact (hC.valid i).procedure request d hI
    | call hcall =>
      obtain ⟨hinv, hcommits, hnext⟩ := hsafe i _ hi d .refl hI _ _ trivial hcall
      refine ⟨good_update hinv ?_ fun j run hij hj => ?_, ?_⟩
      · rintro run ⟨⟩
        exact hnext
      · exact hC.undisturbed (hsafe j run hj) (hC.call i j hij _ d _ _ d' hI hinv hcommits)
      · rintro _ _ _ ⟨⟩
        exact ⟨_, hcommits⟩
    | returned =>
      exact ⟨good_update hI (fun run h => nomatch h) fun j run _ => hsafe j run,
        fun _ _ _ h => nomatch h⟩
    | failed =>
      exact ⟨good_update hI (fun run h => nomatch h) fun j run _ => hsafe j run,
        fun _ _ _ h => nomatch h⟩
  | @crash d d' s i hcrash =>
    have hI' := (hC.valid i).crash d d' hI trivial hcrash
    refine ⟨good_update hI' (fun run h => nomatch h) fun j run hij hj => ?_,
      fun _ _ _ h => nomatch h⟩
    exact hC.undisturbed (hsafe j run hj) (hC.crash i j hij d d' hI hcrash)
  | @outside d d' s houtside =>
    obtain ⟨hI', hothers⟩ := hC.outside d d' hI houtside
    exact ⟨⟨hI', fun j run hj => hC.undisturbed (hsafe j run hj) (hothers j)⟩,
      fun _ _ _ h => nomatch h⟩

/-- Throughout a run, the worlds are good and the commitments are kept. -/
theorem trace (hC : C.Kept T) (hw₀ : C.Good T w₀) (hl : T.Trace w₀ l w) :
    C.Good T w ∧ ∀ m ∈ l, C.Good T m.before ∧ C.Honoured m ∧ T.Step m.before m.event m.after := by
  induction hl with
  | nil => exact ⟨hw₀, fun m hm => absurd hm List.not_mem_nil⟩
  | snoc hl h ih =>
    obtain ⟨hw, hmoments⟩ := ih
    obtain ⟨hw', hhonoured⟩ := hC.step hw h
    refine ⟨hw', fun m hm => ?_⟩
    rcases List.mem_append.1 hm with hm | hm
    · exact hmoments m hm
    · obtain rfl := List.mem_singleton.1 hm
      exact ⟨hw, hhonoured, h⟩

end Kept

/-- A preorder that holds between the states around every call, crash and happening from outside. -/
structure Lasting (C : Contract ι δ E ε ρ α) (T : Team ι δ E ε ρ α) (R : δ → δ → Prop) : Prop where
  refl : ∀ d, R d d
  trans : ∀ d d' d'', R d d' → R d' d'' → R d d''
  call : ∀ i h d op answer d', C.commits i h d op answer d' → R d d'
  crash : ∀ i d d', d' ∈ (T.member i).crash d → R d d'
  outside : ∀ d d', T.outside d d' → R d d'

namespace Lasting

variable [DecidableEq ι] {C : Contract ι δ E ε ρ α} {T : Team ι δ E ε ρ α} {R : δ → δ → Prop}
  {w w₀ w' : World ι δ E ε ρ α} {l : List (Moment ι δ E ε ρ α)} {e : Happening ι E ε ρ α}

lemma step (hR : C.Lasting T R) (h : T.Step w e w') (hhonoured : C.Honoured ⟨w, e, w'⟩) :
    R w.1 w'.1 := by
  cases h with
  | @work d d' s i act stage hwork =>
    generalize s i = before at hwork
    cases hwork with
    | start request => exact hR.refl d
    | call hcall =>
      obtain ⟨h, hcommits⟩ := hhonoured i _ _ rfl
      exact hR.call i h d _ _ d' hcommits
    | returned => exact hR.refl d
    | failed => exact hR.refl d
  | crash hcrash => exact hR.crash _ _ _ hcrash
  | outside houtside => exact hR.outside _ _ houtside

/-- It holds between a moment of a run and each later one. -/
theorem pairwise (hR : C.Lasting T R) (hC : C.Kept T) (hw₀ : C.Good T w₀) (hl : T.Trace w₀ l w) :
    l.Pairwise fun m m' => R m.after.1 m'.before.1 := by
  have hboth : (∀ m ∈ l, R m.after.1 w.1) ∧ l.Pairwise fun m m' => R m.after.1 m'.before.1 := by
    induction hl with
    | nil => exact ⟨fun m hm => absurd hm List.not_mem_nil, .nil⟩
    | @snoc l w w' e hl h ih =>
      obtain ⟨hlast, hpairs⟩ := ih
      have hstep := hR.step h (hC.step (hC.trace hw₀ hl).1 h).2
      refine ⟨fun m hm => ?_, List.pairwise_append.2 ⟨hpairs, List.pairwise_singleton _ _, ?_⟩⟩
      · rcases List.mem_append.1 hm with hm | hm
        · exact hR.trans _ _ _ (hlast m hm) hstep
        · obtain rfl := List.mem_singleton.1 hm
          exact hR.refl _
      · intro m hm m' hm'
        obtain rfl := List.mem_singleton.1 hm'
        exact hlast m hm
  exact hboth.2

end Lasting

end Contract

/-! ### Runs that are played -/

/-- A member goes on with a request, or starts one, for some calls that the world plays. -/
structure Turn (ι δ : Type) (E : Interface) (ρ : Type) where
  who : ι
  request : ρ
  calls : Nat
  world : Nat → Plays δ E

namespace Team

variable [DecidableEq ι] {T : Team ι δ E ε ρ α} {w₀ w w' : World ι δ E ε ρ α}
  {l : List (Moment ι δ E ε ρ α)} {d d' : δ} {s : ι → Option (Running E ε ρ α)} {i : ι}

/-- One turn. -/
def turn (T : Team ι δ E ε ρ α) (w : World ι δ E ε ρ α) (t : Turn ι δ E ρ) :
    Option (World ι δ E ε ρ α) :=
  let run := (w.2 t.who).getD ⟨t.request, [], (T.member t.who).procedure t.request⟩
  ((T.member t.who).play t.world t.calls 0 w.1 run).map fun x =>
    (x.1, Function.update w.2 t.who x.2)

/-- The turns one after the other. -/
def turns (T : Team ι δ E ε ρ α) (w : World ι δ E ε ρ α) :
    List (Turn ι δ E ρ) → Option (World ι δ E ε ρ α)
  | [] => some w
  | t :: rest => (T.turn w t).bind fun w => T.turns w rest

/-- A member does one more thing. -/
lemma Trace.work (hl : T.Trace w₀ l (d, s)) {act : Act E ε ρ α}
    {before stage : Option (Running E ε ρ α)} (hs : s i = before) (h : (T.member i).Work d before act d' stage) :
    ∃ l', T.Trace w₀ l' (d', Function.update s i stage) := by
  subst hs
  exact ⟨_, hl.snoc (.work h)⟩

lemma trace_of_play {world : Nat → Plays δ E} {n k : Nat} {run : Running E ε ρ α}
    {stage : Option (Running E ε ρ α)}
    (h : (T.member i).play world n k d run = some (d', stage)) (hl : T.Trace w₀ l (d, s))
    (hs : s i = some run) : ∃ l', T.Trace w₀ l' (d', Function.update s i stage) := by
  induction n generalizing k d run s l with
  | zero =>
    obtain ⟨request, history, rest⟩ := run
    cases rest with
    | pure a =>
      obtain ⟨rfl, rfl⟩ := Prod.mk.inj (Option.some.inj h)
      exact hl.work hs .returned
    | throw e =>
      obtain ⟨rfl, rfl⟩ := Prod.mk.inj (Option.some.inj h)
      exact hl.work hs .failed
    | call op next =>
      obtain ⟨rfl, rfl⟩ := Prod.mk.inj (Option.some.inj h)
      rw [← hs, Function.update_eq_self]
      exact ⟨l, hl⟩
  | succ n ih =>
    obtain ⟨request, history, rest⟩ := run
    cases rest with
    | pure a =>
      obtain ⟨rfl, rfl⟩ := Prod.mk.inj (Option.some.inj h)
      exact hl.work hs .returned
    | throw e =>
      obtain ⟨rfl, rfl⟩ := Prod.mk.inj (Option.some.inj h)
      exact hl.work hs .failed
    | call op next =>
      obtain ⟨d₁, hd₁, hplay⟩ := Option.bind_eq_some_iff.1 h
      obtain ⟨l₁, hl₁⟩ := hl.work hs (.call (List.mem_of_getElem? hd₁))
      obtain ⟨l', hl'⟩ := ih hplay hl₁ (Function.update_self i _ s)
      rw [Function.update_idem] at hl'
      exact ⟨l', hl'⟩

/-- What is played in turns is a run. -/
theorem trace_of_turns {ts : List (Turn ι δ E ρ)} (h : T.turns w ts = some w')
    (hl : T.Trace w₀ l w) : ∃ l', T.Trace w₀ l' w' := by
  induction ts generalizing w l with
  | nil =>
    obtain rfl := Option.some.inj h
    exact ⟨l, hl⟩
  | cons t ts ih =>
    obtain ⟨w₁, hturn, hrest⟩ := Option.bind_eq_some_iff.1 h
    obtain ⟨⟨d₁, stage⟩, hplay, rfl⟩ := Option.map_eq_some_iff.1 hturn
    obtain ⟨d, s⟩ := w
    cases hs : s t.who with
    | none =>
      obtain ⟨l₁, hl₁⟩ := hl.work hs (.start t.request)
      change (T.member t.who).play t.world t.calls 0 d ((s t.who).getD _) = _ at hplay
      rw [hs] at hplay
      obtain ⟨l', hl'⟩ := trace_of_play hplay hl₁ (Function.update_self _ _ s)
      rw [Function.update_idem] at hl'
      exact ih hrest hl'
    | some run =>
      change (T.member t.who).play t.world t.calls 0 d ((s t.who).getD _) = _ at hplay
      rw [hs] at hplay
      obtain ⟨l', hl'⟩ := trace_of_play hplay hl hs
      exact ih hrest hl'

end Team

end Procedure
