import AgentCoordinator.Library.Procedure

/-
Pre- and postconditions of procedures among others.

A triple says that a procedure which starts in a state of the invariant that satisfies the
precondition keeps invariant and commitments, and ends in a state of the invariant that satisfies
the postcondition, which also speaks of the result. Since the others may do something before each
call, the precondition of a call has to be stable.
-/

namespace Procedure

variable {E : Interface} {δ ε ε' ρ α β γ : Type}

/-- What the others do keeps the assertion. -/
def Stable (M : Machine δ E ε ρ α) (O : Outline δ E ε ρ α) (P : δ → Prop) : Prop :=
  ∀ d d', O.inv d → O.inv d' → P d → M.others d d' → P d'

/-- From `P` the procedure is safe, and ends with `Q`. -/
def Triple (M : Machine δ E ε ρ α) (O : Outline δ E ε ρ α) (P : δ → Prop) (p : Proc E ε' β)
    (Q : Except ε' β → δ → Prop) : Prop :=
  ∀ h d, O.inv d → P d → p.Safe M O (fun _ d' r => O.inv d' ∧ Q r d') h d

/-- A call from `P` keeps invariant and commitments, and leaves `Q`. -/
def Calls (M : Machine δ E ε ρ α) (O : Outline δ E ε ρ α) (P : δ → Prop) (op : E.Op)
    (Q : E.Answer op → δ → Prop) : Prop :=
  ∀ h d answer d', O.inv d → P d → O.condition.call h d op answer → d' ∈ M.effects d op answer →
    O.inv d' ∧ O.commits h d op answer d' ∧ Q answer d'

variable {M : Machine δ E ε ρ α} {O : Outline δ E ε ρ α} {P P' : δ → Prop} {p : Proc E ε' β}
  {Q Q' : Except ε' β → δ → Prop}

namespace Stable

lemma const (P : Prop) : Stable M O fun _ => P := fun _ _ _ _ h _ => h

lemma and (h : Stable M O P) (h' : Stable M O P') : Stable M O fun d => P d ∧ P' d :=
  fun d d' hI hI' hP ho => ⟨h d d' hI hI' hP.1 ho, h' d d' hI hI' hP.2 ho⟩

lemma imp {c : Prop} (h : c → Stable M O P) : Stable M O fun d => c → P d :=
  fun d d' hI hI' hP ho hc => h hc d d' hI hI' (hP hc) ho

end Stable

/-- The others keep the invariant. -/
def Tame (M : Machine δ E ε ρ α) (O : Outline δ E ε ρ α) : Prop :=
  ∀ d d', O.inv d → M.others d d' → O.inv d'

lemma Stable.meanwhile (hP : Stable M O P) (hM : Tame M O) {d d' : δ} (hd : O.inv d ∧ P d)
    (h : M.Meanwhile d d') : O.inv d' ∧ P d' := by
  induction h with
  | refl => exact hd
  | tail _ hothers ih =>
    have hI := hM _ _ ih.1 hothers
    exact ⟨hI, hP _ _ ih.1 hI ih.2 hothers⟩

lemma Calls.mono {op : E.Op} {Q Q' : E.Answer op → δ → Prop} (h : Calls M O P op Q)
    (hP : ∀ d, P' d → P d) (hQ : ∀ answer d, Q answer d → Q' answer d) : Calls M O P' op Q' := by
  intro h' d answer d' hI hP' hok hd'
  obtain ⟨hinv, hcommits, hQ₁⟩ := h h' d answer d' hI (hP d hP') hok hd'
  exact ⟨hinv, hcommits, hQ answer d' hQ₁⟩

namespace Triple

lemma pure {b : β} (h : ∀ d, P d → Q (.ok b) d) : Triple M O P (Proc.pure b) Q :=
  fun _ d hI hP => ⟨hI, h d hP⟩

lemma throw {e : ε'} (h : ∀ d, P d → Q (.error e) d) : Triple M O P (Proc.throw e) Q :=
  fun _ d hI hP => ⟨hI, h d hP⟩

lemma lift {r : Except ε' β} (h : ∀ d, P d → Q r d) : Triple M O P (Proc.lift r) Q := by
  cases r with
  | ok b => exact pure h
  | error e => exact throw h

/-- Consequence. -/
lemma mono (hp : Triple M O P p Q) (hP : ∀ d, P' d → P d) (hQ : ∀ r d, Q r d → Q' r d) :
    Triple M O P' p Q' :=
  fun h d hI hP' => (hp h d hI (hP d hP')).mono fun _ d' r hr => ⟨hr.1, hQ r d' hr.2⟩

/-- Sequencing. -/
lemma bind {f : β → Proc E ε' γ} {R : Except ε' γ → δ → Prop} (hp : Triple M O P p Q)
    (hf : ∀ b, Triple M O (Q (.ok b)) (f b) R) (herror : ∀ e d, Q (.error e) d → R (.error e) d) :
    Triple M O P (p >>= f) R :=
  fun h d hI hP => (hp h d hI hP).bind (fun h' d' b hb => hf b h' d' hb.1 hb.2)
    fun _ d' e he => ⟨he.1, herror e d' he.2⟩

/-- An attempt succeeds, with the result of the procedure. -/
lemma attempt {R : Except ε (Except ε' β) → δ → Prop} (hp : Triple M O P p Q)
    (hR : ∀ r d, Q r d → R (.ok r) d) : Triple M O P (p.attempt : Proc E ε (Except ε' β)) R :=
  fun h d hI hP => (hp h d hI hP).attempt fun _ d' r hr => ⟨hr.1, hR r d' hr.2⟩

/-- One call. -/
lemma call {op : E.Op} {next : E.Answer op → Proc E ε' β} {K : E.Answer op → δ → Prop}
    (hM : Tame M O) (hP : Stable M O P) (hcall : Calls M O P op K)
    (hnext : ∀ answer, Triple M O (K answer) (next answer) Q) :
    Triple M O P (.call op next) Q := by
  intro h d hI hPd d₁ hd₁ hI₁ answer d' hok hd'
  obtain ⟨hinv, hcommits, hK⟩ := hcall h d₁ answer d' hI₁ (hP.meanwhile hM ⟨hI, hPd⟩ hd₁).2 hok hd'
  exact ⟨hinv, hcommits, hnext answer _ d' hinv hK⟩

/-- A call that may fail. -/
lemma ask {op : E.Op} {result : E.Answer op → Except ε' β} {K : E.Answer op → δ → Prop}
    (hM : Tame M O) (hP : Stable M O P) (hcall : Calls M O P op K)
    (hQ : ∀ answer d, K answer d → Q (result answer) d) : Triple M O P (.ask op result) Q :=
  call hM hP hcall fun answer => lift (hQ answer)

lemma ensure {c : Prop} [Decidable c] {e : ε'} {Q : Except ε' Unit → δ → Prop}
    (hok : c → ∀ d, P d → Q (.ok ()) d) (herror : ∀ d, P d → Q (.error e) d) :
    Triple M O P (Proc.ensure c e) Q := by
  unfold Proc.ensure
  split
  · exact pure (hok ‹_›)
  · exact throw herror

lemma ite {c : Prop} [Decidable c] {q : Proc E ε' β} (hp : c → Triple M O P p Q)
    (hq : ¬ c → Triple M O P q Q) : Triple M O P (if c then p else q) Q := by
  split
  · exact hp ‹_›
  · exact hq ‹_›

/-- A procedure whose calls all keep the assertion. -/
lemma uses {kind : E.Op → Prop} (hM : Tame M O) (hP : Stable M O P)
    (hcall : ∀ op, kind op → Calls M O P op fun _ => P) (hp : p.Uses kind) :
    Triple M O P p fun _ => P := by
  induction p with
  | pure b => exact pure fun _ h => h
  | throw e => exact throw fun _ h => h
  | call op next ih => exact call hM hP (hcall op hp.1) fun answer => ih answer (hp.2 answer)

end Triple

end Procedure
