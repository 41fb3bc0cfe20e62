import AgentCoordinator.Library.Crash

/-
Procedures that call operations on a state that outlives them.

A procedure is a tree: it calls an operation and goes on with its answer, until it returns or fails.
A machine gives each operation its answers and effects, says what a crash and what the others do to
the state, and runs one procedure at a time, at the request of somebody. `Safe` is what a procedure
has to show from a state, at each of its calls and when it ends, whatever the answers are; an
outline (`Outline.Valid`) shows it for the procedures of all requests, and then every run of the
machine, with crashes between any two calls, keeps the invariant and the commitments.
-/

namespace Procedure

open Transition Crash

/-! ### Procedures -/

/-- The operations that procedures may call, and the answers they get. -/
structure Interface where
  Op : Type
  Answer : Op → Type

/-- A procedure that returns an `α` or fails with an `ε`. -/
inductive Proc (E : Interface) (ε α : Type)
  | pure (a : α)
  | throw (e : ε)
  | call (op : E.Op) (next : E.Answer op → Proc E ε α)

/-- A call that was made, with its answer. -/
structure Called (E : Interface) where
  op : E.Op
  answer : E.Answer op

variable {E : Interface} {ε ε' α β : Type}

namespace Proc

/-- Go on with what a procedure returns, unless it fails. -/
def bind (p : Proc E ε α) (f : α → Proc E ε β) : Proc E ε β :=
  match p with
  | .pure a => f a
  | .throw e => .throw e
  | .call op next => .call op fun answer => (next answer).bind f

instance : Monad (Proc E ε) where
  pure := .pure
  bind := .bind

/-- The operator `?`. -/
def lift (r : Except ε α) : Proc E ε α :=
  match r with
  | .ok a => .pure a
  | .error e => .throw e

/-- Call an operation that may fail, and fail with it. -/
def ask (op : E.Op) (result : E.Answer op → Except ε α) : Proc E ε α :=
  .call op fun answer => lift (result answer)

/-- `ensure!`. -/
def ensure (condition : Prop) [Decidable condition] (e : ε) : Proc E ε Unit :=
  if condition then .pure () else .throw e

/-- What a procedure returned, or how it failed. -/
def attempt (p : Proc E ε α) : Proc E ε' (Except ε α) :=
  match p with
  | .pure a => .pure (.ok a)
  | .throw e => .pure (.error e)
  | .call op next => .call op fun answer => (next answer).attempt

/-- The procedure only calls operations of a kind. -/
def Uses (kind : E.Op → Prop) : Proc E ε α → Prop
  | .pure _ | .throw _ => True
  | .call op next => kind op ∧ ∀ answer, (next answer).Uses kind

section Uses

variable {kind : E.Op → Prop}

lemma Uses.mono {kind' : E.Op → Prop} {p : Proc E ε α} (h : p.Uses kind)
    (hkind : ∀ op, kind op → kind' op) : p.Uses kind' := by
  induction p with
  | pure a => trivial
  | throw e => trivial
  | call op next ih => exact ⟨hkind op h.1, fun answer => ih answer (h.2 answer)⟩

@[simp] lemma uses_pure (a : α) : (Pure.pure a : Proc E ε α).Uses kind := trivial

@[simp] lemma uses_throw (e : ε) : (Proc.throw e : Proc E ε α).Uses kind := trivial

@[simp] lemma uses_lift (r : Except ε α) : (lift r : Proc E ε α).Uses kind := by
  cases r <;> trivial

@[simp] lemma uses_ensure (condition : Prop) [Decidable condition] (e : ε) :
    (ensure condition e : Proc E ε Unit).Uses kind := by
  unfold ensure
  split <;> trivial

@[simp] lemma uses_ask {op : E.Op} (result : E.Answer op → Except ε α) (hop : kind op) :
    (ask op result : Proc E ε α).Uses kind :=
  ⟨hop, fun answer => uses_lift (result answer)⟩

@[simp] lemma uses_bind {p : Proc E ε α} {f : α → Proc E ε β} (hp : p.Uses kind)
    (hf : ∀ a, (f a).Uses kind) : (p >>= f).Uses kind := by
  induction p with
  | pure a => exact hf a
  | throw e => trivial
  | call op next ih => exact ⟨hp.1, fun answer => ih answer (hp.2 answer)⟩

@[simp] lemma uses_ite {c : Prop} [Decidable c] {p q : Proc E ε α} (hp : p.Uses kind)
    (hq : q.Uses kind) : (if c then p else q).Uses kind := by
  split
  · exact hp
  · exact hq

end Uses

end Proc

/-! ### Machines -/

/-- What operations, crashes and others do to a state, and the procedure of each request. An
operation that gives some answer leaves one of the states listed for it; an answer that lists none
is never given. -/
structure Machine (δ : Type) (E : Interface) (ε ρ α : Type) where
  effects : δ → (op : E.Op) → E.Answer op → List δ
  crash : δ → List δ
  others : δ → δ → Prop
  procedure : ρ → Proc E ε α

/-- A request under way, with the calls made for it. -/
structure Running (E : Interface) (ε ρ α : Type) where
  request : ρ
  history : List (Called E)
  rest : Proc E ε α

/-- A step of a machine's procedure. -/
inductive Act (E : Interface) (ε ρ α : Type)
  | start (request : ρ)
  | call (op : E.Op) (answer : E.Answer op)
  | finish (result : Except ε α)

variable {δ ρ : Type}

namespace Machine

/-- The procedures of a machine at work. -/
inductive Work (M : Machine δ E ε ρ α) :
    δ → Option (Running E ε ρ α) → Act E ε ρ α → δ → Option (Running E ε ρ α) → Prop
  | start {d : δ} (request : ρ) :
      Work M d none (.start request) d (some ⟨request, [], M.procedure request⟩)
  | call {d d' : δ} {request : ρ} {history : List (Called E)} {op : E.Op}
      {next : E.Answer op → Proc E ε α} {answer : E.Answer op} (h : d' ∈ M.effects d op answer) :
      Work M d (some ⟨request, history, .call op next⟩) (.call op answer) d'
        (some ⟨request, history ++ [⟨op, answer⟩], next answer⟩)
  | returned {d : δ} {request : ρ} {history : List (Called E)} {a : α} :
      Work M d (some ⟨request, history, .pure a⟩) (.finish (.ok a)) d none
  | failed {d : δ} {request : ρ} {history : List (Called E)} {e : ε} :
      Work M d (some ⟨request, history, .throw e⟩) (.finish (.error e)) d none

/-- The program of a machine. -/
def program (M : Machine δ E ε ρ α) : Program δ (Option (Running E ε ρ α)) (Act E ε ρ α) where
  rest := none
  work := M.Work
  crash d d' := d' ∈ M.crash d
  others := M.others

/-- What others may do between two calls. -/
def Meanwhile (M : Machine δ E ε ρ α) : δ → δ → Prop := Relation.ReflTransGen M.others

end Machine

/-! ### Outlines -/

/-- Which calls and crashes are considered. -/
structure Condition (δ : Type) (E : Interface) where
  call : List (Called E) → δ → (op : E.Op) → E.Answer op → Prop
  crash : δ → Prop

/-- All of them. -/
def Condition.all : Condition δ E where
  call _ _ _ _ := True
  crash _ := True

/-- The condition, for a step of a machine. -/
def Condition.Holds (c : Condition δ E) :
    δ × Option (Running E ε ρ α) → Event (Act E ε ρ α) → Prop
  | (d, some run), .work (.call op answer) => c.call run.history d op answer
  | (d, _), .crash => c.crash d
  | _, _ => True

/-- What an outline says about a machine: an invariant, what each call commits to (given the calls
before it, and the states around it), and what is so when a request ends. -/
structure Outline (δ : Type) (E : Interface) (ε ρ α : Type) where
  condition : Condition δ E
  inv : δ → Prop
  commits : List (Called E) → δ → (op : E.Op) → E.Answer op → δ → Prop
  ends : ρ → List (Called E) → δ → Except ε α → Prop

variable {M : Machine δ E ε ρ α} {O : Outline δ E ε ρ α}

/-- From a state and after some calls, the procedure keeps invariant and commitments, and ends with
`Q`. The others may do something before each call. -/
def Proc.Safe (M : Machine δ E ε ρ α) (O : Outline δ E ε ρ α)
    (Q : List (Called E) → δ → Except ε' β → Prop) :
    Proc E ε' β → List (Called E) → δ → Prop
  | .pure b, h, d => Q h d (.ok b)
  | .throw e, h, d => Q h d (.error e)
  | .call op next, h, d => ∀ d₁, M.Meanwhile d d₁ → O.inv d₁ →
      ∀ answer d', O.condition.call h d₁ op answer → d' ∈ M.effects d₁ op answer →
        O.inv d' ∧ O.commits h d₁ op answer d' ∧
          (next answer).Safe M O Q (h ++ [⟨op, answer⟩]) d'

/-- The outline is right: every procedure is safe, and others and crashes keep the invariant. -/
structure Outline.Valid (O : Outline δ E ε ρ α) (M : Machine δ E ε ρ α) : Prop where
  procedure : ∀ request d, O.inv d → (M.procedure request).Safe M O (O.ends request) [] d
  others : ∀ d d', O.inv d → M.others d d' → O.inv d'
  ends : ∀ request h d d' result, O.ends request h d result → M.others d d' →
    O.ends request h d' result
  crash : ∀ d d', O.inv d → O.condition.crash d → d' ∈ M.crash d → O.inv d'

/-- The outline is right for procedures that start in the states of `rest`, where they end and where a
crash leads, while the invariant holds throughout. -/
structure Outline.Sound (O : Outline δ E ε ρ α) (M : Machine δ E ε ρ α) (rest : δ → Prop) :
    Prop where
  procedure : ∀ request d, rest d → (M.procedure request).Safe M O (O.ends request) [] d
  inv : ∀ d, rest d → O.inv d
  others : ∀ d d', O.inv d → M.others d d' → O.inv d'
  undisturbed : ∀ d d', rest d → M.others d d' → rest d'
  ends : ∀ request h d d' result, O.ends request h d result → M.others d d' →
    O.ends request h d' result
  ended : ∀ request h d result, O.inv d → O.ends request h d result → rest d
  crash : ∀ d d', O.inv d → O.condition.crash d → d' ∈ M.crash d → rest d'

lemma Outline.Valid.sound (hO : O.Valid M) : O.Sound M O.inv where
  procedure := hO.procedure
  inv _ h := h
  others := hO.others
  undisturbed := hO.others
  ends := hO.ends
  ended _ _ _ _ hI _ := hI
  crash := hO.crash

namespace Proc

variable {Q Q' : List (Called E) → δ → Except ε' β → Prop} {p : Proc E ε' β}
  {h : List (Called E)} {d d' : δ}

@[simp] lemma safe_pure (b : β) : (Proc.pure b : Proc E ε' β).Safe M O Q h d ↔ Q h d (.ok b) :=
  Iff.rfl

@[simp] lemma safe_throw (e : ε') :
    (Proc.throw e : Proc E ε' β).Safe M O Q h d ↔ Q h d (.error e) :=
  Iff.rfl

/-- Consequence. -/
lemma Safe.mono (hp : p.Safe M O Q h d) (hQ : ∀ h' d' r, Q h' d' r → Q' h' d' r) :
    p.Safe M O Q' h d := by
  induction p generalizing h d with
  | pure b => exact hQ _ _ _ hp
  | throw e => exact hQ _ _ _ hp
  | call op next ih =>
    intro d₁ hd hI answer d' hok hcall
    obtain ⟨hinv, hcommits, hnext⟩ := hp d₁ hd hI answer d' hok hcall
    exact ⟨hinv, hcommits, ih answer hnext⟩

/-- Sequencing. -/
lemma Safe.bind {γ : Type} {f : β → Proc E ε' γ} {R : List (Called E) → δ → Except ε' γ → Prop}
    (hp : p.Safe M O Q h d) (hf : ∀ h' d' b, Q h' d' (.ok b) → (f b).Safe M O R h' d')
    (herror : ∀ h' d' e, Q h' d' (.error e) → R h' d' (.error e)) :
    (p >>= f).Safe M O R h d := by
  induction p generalizing h d with
  | pure b => exact hf _ _ _ hp
  | throw e => exact herror _ _ _ hp
  | call op next ih =>
    intro d₁ hd hI answer d' hok hcall
    obtain ⟨hinv, hcommits, hnext⟩ := hp d₁ hd hI answer d' hok hcall
    exact ⟨hinv, hcommits, ih answer hnext⟩

/-- What an attempt returns is how the procedure ends. -/
lemma Safe.attempt {R : List (Called E) → δ → Except ε (Except ε' β) → Prop}
    (hp : p.Safe M O Q h d) (hQ : ∀ h' d' r, Q h' d' r → R h' d' (.ok r)) :
    (p.attempt : Proc E ε (Except ε' β)).Safe M O R h d := by
  induction p generalizing h d with
  | pure b => exact hQ _ _ _ hp
  | throw e => exact hQ _ _ _ hp
  | call op next ih =>
    intro d₁ hd hI answer d' hok hcall
    obtain ⟨hinv, hcommits, hnext⟩ := hp d₁ hd hI answer d' hok hcall
    exact ⟨hinv, hcommits, ih answer hnext⟩

/-- What others do meanwhile is allowed for. -/
lemma Safe.meanwhile (hp : p.Safe M O Q h d) (hothers : M.others d d')
    (hQ : ∀ h' r, Q h' d r → Q h' d' r) : p.Safe M O Q h d' := by
  cases p with
  | pure b => exact hQ _ _ hp
  | throw e => exact hQ _ _ hp
  | call op next => exact fun d₁ hd => hp d₁ (.head hothers hd)

end Proc

lemma Machine.Meanwhile.eq (hquiet : ∀ d d', ¬ M.others d d') {d d' : δ}
    (h : M.Meanwhile d d') : d' = d := by
  induction h with
  | refl => rfl
  | tail _ hothers _ => exact absurd hothers (hquiet _ _)

/-- One call, when the others are quiet. -/
lemma Proc.safe_call {Q : List (Called E) → δ → Except ε' β → Prop} {op : E.Op}
    {next : E.Answer op → Proc E ε' β} {h : List (Called E)} {d : δ}
    (hquiet : ∀ d d', ¬ M.others d d')
    (hcall : ∀ answer d', O.inv d → O.condition.call h d op answer → d' ∈ M.effects d op answer →
      O.inv d' ∧ O.commits h d op answer d' ∧
        (next answer).Safe M O Q (h ++ [⟨op, answer⟩]) d') :
    (Proc.call op next).Safe M O Q h d := by
  intro d₁ hmeanwhile hI answer d' hok hd'
  obtain rfl := hmeanwhile.eq hquiet
  exact hcall answer d' hI hok hd'

/-- In the states of `A`, the operations of a kind, and the others, change a state only as `R` says,
so that it stays in `A`, and commit to nothing that does not hold there. -/
structure Framing (M : Machine δ E ε ρ α) (O : Outline δ E ε ρ α) (kind : E.Op → Prop)
    (A : δ → Prop) (R : δ → δ → Prop) : Prop where
  refl : ∀ d, R d d
  trans : ∀ d d' d'', R d d' → R d' d'' → R d d''
  others : ∀ d d', M.others d d' → R d d'
  stable : ∀ d d', A d → R d d' → A d'
  frame : ∀ op h d answer d', kind op → A d → O.inv d → O.condition.call h d op answer →
    d' ∈ M.effects d op answer → O.inv d' ∧ O.commits h d op answer d' ∧ R d d'

section Framing

variable {kind : E.Op → Prop} {A : δ → Prop} {R : δ → δ → Prop}
  {Q : List (Called E) → δ → Except ε' β → Prop} {h : List (Called E)} {d : δ} {γ : Type}

lemma Framing.meanwhile (hf : Framing M O kind A R) {d d' : δ} (h : M.Meanwhile d d') :
    R d d' := by
  induction h with
  | refl => exact hf.refl _
  | tail _ hothers ih => exact hf.trans _ _ _ ih (hf.others _ _ hothers)

/-- Any operation, after the others. -/
lemma Framing.any (hf : Framing M O kind A R) {op : E.Op} {next : E.Answer op → Proc E ε' β}
    (hA : A d) (hnext : ∀ d₁ answer d', A d₁ → R d d₁ → O.inv d₁ →
      O.condition.call h d₁ op answer → d' ∈ M.effects d₁ op answer →
        O.inv d' ∧ O.commits h d₁ op answer d' ∧
          (next answer).Safe M O Q (h ++ [⟨op, answer⟩]) d') :
    (Proc.call op next).Safe M O Q h d := by
  intro d₁ hmeanwhile hI answer d' hok hd'
  have hR := hf.meanwhile hmeanwhile
  exact hnext d₁ answer d' (hf.stable _ _ hA hR) hR hI hok hd'

/-- One operation of the kind. -/
lemma Framing.call (hf : Framing M O kind A R) {op : E.Op} {next : E.Answer op → Proc E ε' β}
    (hop : kind op) (hA : A d) (hnext : ∀ d₁ answer d', A d₁ → R d d₁ →
      d' ∈ M.effects d₁ op answer → O.condition.call h d₁ op answer → A d' → R d₁ d' → R d d' →
        (next answer).Safe M O Q (h ++ [⟨op, answer⟩]) d') :
    (Proc.call op next).Safe M O Q h d := by
  refine hf.any hA fun d₁ answer d' hA₁ hR hI hok hd' => ?_
  obtain ⟨hinv, hcommits, hframe⟩ := hf.frame op h d₁ answer d' hop hA₁ hI hok hd'
  exact ⟨hinv, hcommits, hnext d₁ answer d' hA₁ hR hd' hok (hf.stable _ _ hA₁ hframe) hframe
    (hf.trans _ _ _ hR hframe)⟩

/-- A procedure all of whose operations are of the kind is safe, if its result is. -/
lemma Framing.uses (hf : Framing M O kind A R) {p : Proc E ε' β} (hp : p.Uses kind) (hA : A d)
    (hQ : ∀ h' d' r, h <+: h' → A d' → R d d' → Q h' d' r) : p.Safe M O Q h d := by
  induction p generalizing h d with
  | pure b => exact hQ _ _ _ (List.prefix_refl h) hA (hf.refl d)
  | throw e => exact hQ _ _ _ (List.prefix_refl h) hA (hf.refl d)
  | call op next ih =>
    refine hf.call hp.1 hA fun d₁ answer d' _ _ _ _ hA' _ hR => ?_
    refine ih answer (hp.2 answer) hA' fun h' d'' r hh hA'' hR' => ?_
    exact hQ h' d'' r ((List.prefix_append h _).trans hh) hA'' (hf.trans _ _ _ hR hR')

/-- A procedure of such operations, and what comes after it. -/
lemma Framing.uses_bind (hf : Framing M O kind A R) {p : Proc E ε' γ} {f : γ → Proc E ε' β}
    (hE : ∀ h d e, Q h d (.error e)) (hp : p.Uses kind) (hA : A d)
    (hnext : ∀ h' d' c, h <+: h' → A d' → R d d' → (f c).Safe M O Q h' d') :
    (p >>= f).Safe M O Q h d := by
  refine (hf.uses (Q := fun h' d' r => h <+: h' ∧ A d' ∧ R d d') hp hA
    fun h' d' r hh hA' hR => ⟨hh, hA', hR⟩).bind ?_ fun h' d' e _ => hE h' d' e
  rintro h' d' c ⟨hh, hA', hR⟩
  exact hnext h' d' c hh hA' hR

end Framing

/-- There are no others, and the operations of a kind leave the state alone and commit to nothing
that does not hold anyway. -/
structure Reading (M : Machine δ E ε ρ α) (O : Outline δ E ε ρ α) (kind : E.Op → Prop) : Prop where
  quiet : ∀ d d', ¬ M.others d d'
  frame : ∀ op h d answer d', kind op → d' ∈ M.effects d op answer →
    d' = d ∧ O.commits h d op answer d

section Reading

variable {kind : E.Op → Prop} {Q : List (Called E) → δ → Except ε' β → Prop}
  {h : List (Called E)} {d : δ} {γ : Type}

lemma Reading.framing (hr : Reading M O kind) : Framing M O kind (fun _ => True) Eq where
  refl _ := rfl
  trans _ _ _ := Eq.trans
  others d d' hothers := absurd hothers (hr.quiet d d')
  stable _ _ _ _ := trivial
  frame op h d answer d' hop _ hI _ hd' := by
    obtain ⟨rfl, hcommits⟩ := hr.frame op h d answer d' hop hd'
    exact ⟨hI, hcommits, rfl⟩

/-- A procedure all of whose operations are of the kind is safe, if its result is. -/
lemma Reading.uses (hr : Reading M O kind) {p : Proc E ε' β} (hp : p.Uses kind)
    (hQ : ∀ h' r, h <+: h' → Q h' d r) : p.Safe M O Q h d := by
  refine hr.framing.uses hp trivial ?_
  rintro h' d' r hh _ rfl
  exact hQ h' r hh

/-- One operation of the kind. -/
lemma Reading.call (hr : Reading M O kind) {op : E.Op} {next : E.Answer op → Proc E ε' β}
    (hop : kind op) (hnext : ∀ answer, O.inv d → O.condition.call h d op answer →
      d ∈ M.effects d op answer → (next answer).Safe M O Q (h ++ [⟨op, answer⟩]) d) :
    (Proc.call op next).Safe M O Q h d := by
  refine hr.framing.any trivial ?_
  rintro d₁ answer d' _ rfl hI hok hd'
  obtain ⟨rfl, hcommits⟩ := hr.frame op h d answer d' hop hd'
  exact ⟨hI, hcommits, hnext answer hI hok hd'⟩

/-- A procedure of such operations, and what comes after it. -/
lemma Reading.uses_bind (hr : Reading M O kind) {p : Proc E ε' γ} {f : γ → Proc E ε' β}
    (hE : ∀ h d e, Q h d (.error e)) (hp : p.Uses kind)
    (hf : ∀ h' c, h <+: h' → (f c).Safe M O Q h' d) : (p >>= f).Safe M O Q h d := by
  refine hr.framing.uses_bind hE hp trivial ?_
  rintro h' d' c hh _ rfl
  exact hf h' c hh

/-- An operation of the kind that fails or goes on. -/
lemma Reading.ask_bind (hr : Reading M O kind) {op : E.Op} {result : E.Answer op → Except ε' γ}
    {f : γ → Proc E ε' β} (hE : ∀ h d e, Q h d (.error e)) (hop : kind op)
    (hf : ∀ answer c, result answer = .ok c → d ∈ M.effects d op answer →
      (f c).Safe M O Q (h ++ [⟨op, answer⟩]) d) : (Proc.ask op result >>= f).Safe M O Q h d := by
  refine hr.call hop fun answer _ _ hd' => ?_
  show Proc.Safe M O Q ((Proc.lift (result answer)).bind f) _ _
  cases hresult : result answer with
  | ok c => exact hf answer c hresult hd'
  | error e => exact hE _ _ e

lemma Proc.safe_ensure_bind {condition : Prop} [Decidable condition] {e : ε'}
    {f : Unit → Proc E ε' β} (hE : ∀ h d e, Q h d (.error e))
    (hf : condition → (f ()).Safe M O Q h d) : (Proc.ensure condition e >>= f).Safe M O Q h d := by
  unfold Proc.ensure
  split
  · exact hf ‹_›
  · exact hE _ _ _

end Reading

/-! ### Runs -/

namespace Outline.Sound

variable {initial rest : δ → Prop} {x x' : δ × Option (Running E ε ρ α)}

/-- The stages of the machine: at rest, or safe. -/
theorem stages (hO : O.Sound M rest) : M.program.Stages O.condition.Holds fun s d =>
    O.inv d ∧ (s = none → rest d) ∧
      ∀ run, s = some run → run.rest.Safe M O (O.ends run.request) run.history d where
  work d s act d' s' hstage hok hwork := by
    obtain ⟨hI, hrest, hs⟩ := hstage
    cases hwork with
    | start request =>
      refine ⟨hI, (by rintro ⟨⟩), ?_⟩
      rintro run ⟨⟩
      exact hO.procedure request d (hrest rfl)
    | call hcall =>
      obtain ⟨hinv, -, hnext⟩ := hs _ rfl d .refl hI _ _ hok hcall
      refine ⟨hinv, (by rintro ⟨⟩), ?_⟩
      rintro run ⟨⟩
      exact hnext
    | returned =>
      exact ⟨hI, fun _ => hO.ended _ _ d _ hI (hs _ rfl), fun run h => by cases h⟩
    | failed =>
      exact ⟨hI, fun _ => hO.ended _ _ d _ hI (hs _ rfl), fun run h => by cases h⟩
  crash d s d' hstage hok hcrash := by
    have hrest : rest d' := by
      refine hO.crash d d' hstage.1 ?_ hcrash
      cases s <;> exact hok
    exact ⟨hO.inv d' hrest, fun _ => hrest, fun run h => by cases h⟩
  others d d' hothers s hstage := by
    obtain ⟨hI, hrest, hs⟩ := hstage
    refine ⟨hO.others d d' hI hothers, fun h => hO.undisturbed d d' (hrest h) hothers, ?_⟩
    rintro run rfl
    exact (hs run rfl).meanwhile hothers fun h' r hr => hO.ends _ h' d d' r hr hothers

lemma reachable (hO : O.Sound M rest) (hinit : ∀ d, initial d → rest d)
    (hx : M.program.ReachableBy O.condition.Holds initial x) :
    O.inv x.1 ∧ (x.2 = none → rest x.1) ∧
      ∀ run, x.2 = some run → run.rest.Safe M O (O.ends run.request) run.history x.1 := by
  refine hO.stages.reachable (fun d hd => ?_) hx
  exact ⟨hO.inv d (hinit d hd), fun _ => hinit d hd, fun run h => by cases h⟩

/-- The invariant holds in every reachable state. -/
theorem invariant (hO : O.Sound M rest) (hinit : ∀ d, initial d → rest d)
    (hx : M.program.ReachableBy O.condition.Holds initial x) : O.inv x.1 :=
  (hO.reachable hinit hx).1

/-- Every call that a run makes commits to what the outline says. -/
theorem commits (hO : O.Sound M rest) (hinit : ∀ d, initial d → rest d) {run : Running E ε ρ α}
    {d d' : δ} {s : Option (Running E ε ρ α)} {op : E.Op} {answer : E.Answer op}
    (hx : M.program.ReachableBy O.condition.Holds initial (d, some run))
    (hok : O.condition.call run.history d op answer)
    (hstep : M.program.Step (d, some run) (.work (.call op answer)) (d', s)) :
    O.commits run.history d op answer d' := by
  obtain ⟨hI, -, hs⟩ := hO.reachable hinit hx
  obtain ⟨hwork⟩ := hstep
  cases hwork with
  | call hcall => exact (hs _ rfl d .refl hI _ _ hok hcall).2.1

/-- Every request that ends has ended as the outline says. -/
theorem finished (hO : O.Sound M rest) (hinit : ∀ d, initial d → rest d) {run : Running E ε ρ α}
    {d d' : δ} {s : Option (Running E ε ρ α)} {result : Except ε α}
    (hx : M.program.ReachableBy O.condition.Holds initial (d, some run))
    (hstep : M.program.Step (d, some run) (.work (.finish result)) (d', s)) :
    O.ends run.request run.history d result := by
  obtain ⟨-, -, hs⟩ := hO.reachable hinit hx
  obtain ⟨hwork⟩ := hstep
  cases hwork with
  | returned => exact hs _ rfl
  | failed => exact hs _ rfl

end Outline.Sound

namespace Outline.Valid

variable {initial : δ → Prop} {x : δ × Option (Running E ε ρ α)}

/-- The invariant holds in every reachable state. -/
theorem inv (hO : O.Valid M) (hinit : ∀ d, initial d → O.inv d)
    (hx : M.program.ReachableBy O.condition.Holds initial x) : O.inv x.1 :=
  hO.sound.invariant hinit hx

/-- Every call that a run makes commits to what the outline says. -/
theorem commits (hO : O.Valid M) (hinit : ∀ d, initial d → O.inv d) {run : Running E ε ρ α}
    {d d' : δ} {s : Option (Running E ε ρ α)} {op : E.Op} {answer : E.Answer op}
    (hx : M.program.ReachableBy O.condition.Holds initial (d, some run))
    (hok : O.condition.call run.history d op answer)
    (hstep : M.program.Step (d, some run) (.work (.call op answer)) (d', s)) :
    O.commits run.history d op answer d' :=
  hO.sound.commits hinit hx hok hstep

/-- Every request that ends has ended as the outline says. -/
theorem ended (hO : O.Valid M) (hinit : ∀ d, initial d → O.inv d) {run : Running E ε ρ α}
    {d d' : δ} {s : Option (Running E ε ρ α)} {result : Except ε α}
    (hx : M.program.ReachableBy O.condition.Holds initial (d, some run))
    (hstep : M.program.Step (d, some run) (.work (.finish result)) (d', s)) :
    O.ends run.request run.history d result :=
  hO.sound.finished hinit hx hstep

end Outline.Valid

/-! ### Runs that are played -/

/-- How the world answers a call, and which of the listed states it leaves. -/
abbrev Plays (δ : Type) (E : Interface) := δ → (op : E.Op) → E.Answer op × Nat

namespace Machine

/-- The world plays only what a condition admits. -/
def Admits (M : Machine δ E ε ρ α) (c : Condition δ E) (plays : Plays δ E) : Prop :=
  ∀ h d op d', (M.effects d op (plays d op).1)[(plays d op).2]? = some d' →
    c.call h d op (plays d op).1

/-- Go on with a request for at most `n` calls. The world plays call number `k` by `world k`. -/
def play (M : Machine δ E ε ρ α) (world : Nat → Plays δ E) (n k : Nat) (d : δ)
    (run : Running E ε ρ α) : Option (δ × Option (Running E ε ρ α)) :=
  match run, n with
  | ⟨_, _, .pure _⟩, _ | ⟨_, _, .throw _⟩, _ => some (d, none)
  | run, 0 => some (d, some run)
  | ⟨request, history, .call op next⟩, n + 1 =>
    let (answer, i) := world k d op
    (M.effects d op answer)[i]?.bind fun d' =>
      M.play world n (k + 1) d' ⟨request, history ++ [⟨op, answer⟩], next answer⟩

/-- A request, the calls that are made for it before a crash (if it has not ended by then), and how
the world plays them. -/
structure Episode (δ : Type) (E : Interface) (ρ : Type) where
  request : ρ
  calls : Nat
  world : Nat → Plays δ E

/-- The state after some episodes, each of which is cut by a crash unless it ends. -/
def episodes (M : Machine δ E ε ρ α) (d : δ) : List (Episode δ E ρ) → Option δ
  | [] => some d
  | e :: rest => (M.play e.world e.calls 0 d ⟨e.request, [], M.procedure e.request⟩).bind fun
    | (d', none) => M.episodes d' rest
    | (d', some _) => (M.crash d').head?.bind fun d'' => M.episodes d'' rest

variable {initial : δ → Prop} {c : Condition δ E}

lemma reachable_of_play {world : Nat → Plays δ E} {n k : Nat} {d : δ} {run : Running E ε ρ α}
    {x : δ × Option (Running E ε ρ α)} (h : M.play world n k d run = some x)
    (hworld : ∀ k, M.Admits c (world k))
    (hx : M.program.ReachableBy c.Holds initial (d, some run)) :
    M.program.ReachableBy c.Holds initial x := by
  induction n generalizing k d run with
  | zero =>
    obtain ⟨request, history, rest⟩ := run
    cases rest with
    | pure a =>
      obtain rfl := Option.some.inj h
      exact hx.step (.work .returned) trivial
    | throw e =>
      obtain rfl := Option.some.inj h
      exact hx.step (.work .failed) trivial
    | call op next =>
      obtain rfl := Option.some.inj h
      exact hx
  | succ n ih =>
    obtain ⟨request, history, rest⟩ := run
    cases rest with
    | pure a =>
      obtain rfl := Option.some.inj h
      exact hx.step (.work .returned) trivial
    | throw e =>
      obtain rfl := Option.some.inj h
      exact hx.step (.work .failed) trivial
    | call op next =>
      obtain ⟨d', hd', hplay⟩ := Option.bind_eq_some_iff.1 h
      exact ih hplay (hx.step (.work (.call (List.mem_of_getElem? hd')))
        (hworld k history d op d' hd'))

/-- What is played is reached. -/
theorem reachable_of_episodes {es : List (Episode δ E ρ)} {d d' : δ}
    (h : M.episodes d es = some d')
    (hworld : ∀ e ∈ es, ∀ k, M.Admits c (e.world k))
    (hcrash : ∀ d, c.crash d) (hd : M.program.ReachableBy c.Holds initial (d, none)) :
    M.program.ReachableBy c.Holds initial (d', none) := by
  induction es generalizing d with
  | nil =>
    obtain rfl := Option.some.inj h
    exact hd
  | cons e rest ih =>
    obtain ⟨⟨d₁, s⟩, hplay, hrest⟩ := Option.bind_eq_some_iff.1 h
    have hreach := reachable_of_play hplay (hworld e List.mem_cons_self)
      (hd.step (.work (.start e.request)) trivial)
    have hlater := fun e he => hworld e (List.mem_cons_of_mem _ he)
    cases s with
    | none => exact ih hrest hlater hreach
    | some run =>
      obtain ⟨d₂, hcrash', hrest⟩ := Option.bind_eq_some_iff.1 hrest
      exact ih hrest hlater (hreach.step (.crash (List.mem_of_head? hcrash')) (hcrash d₁))

end Machine

end Procedure
