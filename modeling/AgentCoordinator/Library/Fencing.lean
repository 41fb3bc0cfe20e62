import Mathlib.Logic.Relation
import Mathlib.Order.Basic
import AgentCoordinator.Library.Maps

/-
Ownership grants with fencing tokens.

A ledger keeps locks and leases. A lock names its holder and the token of its latest grant; a
lease names the resource it was granted on, the token it was granted under, and whether it is
still active. Two things happen to a ledger. Leases end, and with them locks may be vacated
(`Settles`); and a lease is granted under a larger token on a resource without an active one
(`Grants`). `Sound` is what both keep: an active lease holds its lock under the lock's own token,
and every other lease of the resource has a smaller one. An ended lease never becomes active
again.
-/

namespace Fencing

open Maps

universe u v w

variable {ρ : Type u} {γ : Type v} {τ : Type w}

/-- A lock: who holds it, and the token of its latest grant. -/
structure Lock (γ : Type v) (τ : Type w) where
  holder : Option γ
  token : τ

/-- A lease on a resource. -/
structure Lease (ρ : Type u) (τ : Type w) where
  resource : ρ
  token : τ
  active : Bool

/-- The locks of all resources and the leases granted on them. -/
structure Ledger (ρ : Type u) (γ : Type v) (τ : Type w) where
  locks : ρ → Option (Lock γ τ)
  leases : γ → Option (Lease ρ τ)

/-- The same lease, which may have ended. -/
def SameLease (l l' : Lease ρ τ) : Prop :=
  l'.resource = l.resource ∧ l'.token = l.token ∧ (l'.active = true → l.active = true)

lemma SameLease.refl (l : Lease ρ τ) : SameLease l l := ⟨rfl, rfl, id⟩

namespace Ledger

/-- No lease on the resource is active. -/
def Quiet (L : Ledger ρ γ τ) (r : ρ) : Prop :=
  ∀ g l, L.leases g = some l → l.resource = r → l.active = false

/-- Leases end, locks without an active lease lose their holder, and new locks appear. -/
structure Settles (L L' : Ledger ρ γ τ) : Prop where
  old : ∀ r k, L.locks r = some k → ∃ k', L'.locks r = some k' ∧ k'.token = k.token ∧
    (k'.holder = k.holder ∨ (k'.holder = none ∧ L'.Quiet r))
  new : ∀ r k', L.locks r = none → L'.locks r = some k' → k'.holder = none
  leases : Related SameLease L.leases L'.leases

/-- A new lease on a resource without an active one, under a larger token. -/
structure Grants [Preorder τ] [DecidableEq ρ] [DecidableEq γ] (L L' : Ledger ρ γ τ) : Prop where
  grant : ∃ r g k token, L.locks r = some k ∧ k.token < token ∧ L.leases g = none ∧ L.Quiet r ∧
    L'.locks = Function.update L.locks r (some ⟨some g, token⟩) ∧
    L'.leases = Function.update L.leases g (some ⟨r, token, true⟩)

/-- One change of a ledger. -/
inductive Step [Preorder τ] [DecidableEq ρ] [DecidableEq γ] :
    Ledger ρ γ τ → Ledger ρ γ τ → Prop
  | settle {L L' : Ledger ρ γ τ} (h : Settles L L') : Step L L'
  | grant {L L' : Ledger ρ γ τ} (h : Grants L L') : Step L L'

/-- Any number of changes. -/
def Steps [Preorder τ] [DecidableEq ρ] [DecidableEq γ] : Ledger ρ γ τ → Ledger ρ γ τ → Prop :=
  Relation.ReflTransGen Step

/-- Leases agree with the locks they were granted on. -/
structure Sound [PartialOrder τ] (L : Ledger ρ γ τ) : Prop where
  lock : ∀ g l, L.leases g = some l → ∃ k, L.locks l.resource = some k ∧ l.token ≤ k.token
  distinct : ∀ g g' l l', L.leases g = some l → L.leases g' = some l' →
    l.resource = l'.resource → l.token = l'.token → g = g'
  active : ∀ g l k, L.leases g = some l → l.active = true → L.locks l.resource = some k →
    k.holder = some g ∧ l.token = k.token
  held : ∀ r k g, L.locks r = some k → k.holder = some g →
    ∃ l, L.leases g = some l ∧ l.resource = r

namespace Sound

variable [PartialOrder τ] {L L' : Ledger ρ γ τ}

/-- A resource has at most one active lease. -/
theorem unique (h : Sound L) {g g' : γ} {l l' : Lease ρ τ} (hg : L.leases g = some l)
    (hg' : L.leases g' = some l') (hr : l.resource = l'.resource) (ha : l.active = true)
    (ha' : l'.active = true) : g = g' := by
  obtain ⟨k, hk, -⟩ := h.lock g l hg
  have hholder := (h.active g l k hg ha hk).1
  rw [hr] at hk
  have hholder' := (h.active g' l' k hg' ha' hk).1
  exact Option.some.inj (hholder.symm.trans hholder')

/-- Every other lease of the resource of an active one has a smaller token. -/
theorem earlier (h : Sound L) {g g' : γ} {l l' : Lease ρ τ} (hg : L.leases g = some l)
    (ha : l.active = true) (hg' : L.leases g' = some l') (hr : l'.resource = l.resource)
    (hne : g' ≠ g) : l'.token < l.token := by
  obtain ⟨k, hk, hle⟩ := h.lock g' l' hg'
  rw [hr] at hk
  obtain ⟨-, htoken⟩ := h.active g l k hg ha hk
  rw [← htoken] at hle
  exact lt_of_le_of_ne hle fun heq => hne (h.distinct g' g l' l hg' hg hr heq)

/-- A lock whose holder's lease has ended is quiet. -/
lemma quiet (h : Sound L) {r : ρ} {k : Lock γ τ} (hk : L.locks r = some k)
    (hended : ∀ g l, k.holder = some g → L.leases g = some l → l.active = false) :
    L.Quiet r := by
  rintro g l hl rfl
  cases ha : l.active with
  | false => rfl
  | true =>
    have hholder := (h.active g l k hl ha hk).1
    exact ha.symm.trans (hended g l hholder hl)

theorem settles (h : Sound L) (hs : Settles L L') : Sound L' where
  lock g l' hl' := by
    obtain ⟨l, hl, hr, ht, -⟩ := hs.leases.old g l' hl'
    obtain ⟨k, hk, hle⟩ := h.lock g l hl
    obtain ⟨k', hk', htoken, -⟩ := hs.old l.resource k hk
    exact ⟨k', hr ▸ hk', by rw [ht, htoken]; exact hle⟩
  distinct g g' l₁ l₂ h₁ h₂ hr ht := by
    obtain ⟨l, hl, hr₁, ht₁, -⟩ := hs.leases.old g l₁ h₁
    obtain ⟨l', hl', hr₂, ht₂, -⟩ := hs.leases.old g' l₂ h₂
    exact h.distinct g g' l l' hl hl' (by rw [← hr₁, ← hr₂, hr]) (by rw [← ht₁, ← ht₂, ht])
  active g l' k' hl' ha hk' := by
    obtain ⟨l, hl, hr, ht, hact⟩ := hs.leases.old g l' hl'
    obtain ⟨k, hk, -⟩ := h.lock g l hl
    obtain ⟨hholder, htoken⟩ := h.active g l k hl (hact ha) hk
    obtain ⟨k'', hk'', htoken', hcase⟩ := hs.old l.resource k hk
    rw [hr, hk''] at hk'
    obtain rfl := Option.some.inj hk'
    rcases hcase with hsame | ⟨-, hquiet⟩
    · exact ⟨hsame.trans hholder, by rw [ht, htoken', htoken]⟩
    · rw [hquiet g l' hl' hr] at ha
      exact absurd ha (by simp)
  held r k' g hk' hholder := by
    cases hk : L.locks r with
    | none =>
      rw [hs.new r k' hk hk'] at hholder
      exact absurd hholder (by simp)
    | some k =>
      obtain ⟨k'', hk'', -, hsame | ⟨hnone, -⟩⟩ := hs.old r k hk
      · rw [hk''] at hk'
        obtain rfl := Option.some.inj hk'
        obtain ⟨l, hl, rfl⟩ := h.held r k g hk (hsame.symm.trans hholder)
        obtain ⟨l', hl', hr, -⟩ := hs.leases.new g l hl
        exact ⟨l', hl', hr⟩
      · rw [hk''] at hk'
        obtain rfl := Option.some.inj hk'
        rw [hnone] at hholder
        exact absurd hholder (by simp)

theorem grants [DecidableEq ρ] [DecidableEq γ] (h : Sound L) (hg : Grants L L') : Sound L' := by
  obtain ⟨r, g, k, token, hk, hlt, hfree, hquiet, hlocks, hleases⟩ := hg.grant
  -- the locks of the other resources and the old leases are as they were
  have hbelow : ∀ g' l, L.leases g' = some l → l.resource = r → l.token < token := by
    intro g' l hl hr
    obtain ⟨k', hk', hle⟩ := h.lock g' l hl
    rw [hr, hk] at hk'
    obtain rfl := Option.some.inj hk'
    exact lt_of_le_of_lt hle hlt
  constructor
  · intro g' l hl
    rw [hleases, update_eq_some] at hl
    rw [hlocks]
    rcases hl with ⟨-, rfl⟩ | ⟨-, hl⟩
    · exact ⟨_, Function.update_self .., le_refl token⟩
    · by_cases hr : l.resource = r
      · exact ⟨⟨some g, token⟩, by rw [hr, Function.update_self], (hbelow g' l hl hr).le⟩
      · obtain ⟨k', hk', hle⟩ := h.lock g' l hl
        exact ⟨k', by rw [Function.update_of_ne hr]; exact hk', hle⟩
  · intro g₁ g₂ l₁ l₂ h₁ h₂ hr ht
    rw [hleases, update_eq_some] at h₁ h₂
    rcases h₁ with ⟨rfl, rfl⟩ | ⟨-, h₁⟩ <;> rcases h₂ with ⟨rfl, rfl⟩ | ⟨-, h₂⟩
    · rfl
    · exact absurd ht.symm (hbelow g₂ l₂ h₂ hr.symm).ne
    · exact absurd ht (hbelow g₁ l₁ h₁ hr).ne
    · exact h.distinct g₁ g₂ l₁ l₂ h₁ h₂ hr ht
  · intro g' l k' hl ha hk'
    rw [hleases, update_eq_some] at hl
    rw [hlocks] at hk'
    rcases hl with ⟨rfl, rfl⟩ | ⟨-, hl⟩
    · rw [Function.update_self] at hk'
      obtain rfl := Option.some.inj hk'
      exact ⟨rfl, rfl⟩
    · by_cases hr : l.resource = r
      · rw [hquiet g' l hl hr] at ha
        exact absurd ha (by simp)
      · rw [Function.update_of_ne hr] at hk'
        exact h.active g' l k' hl ha hk'
  · intro r' k' g' hk' hholder
    rw [hlocks, update_eq_some] at hk'
    rw [hleases]
    rcases hk' with ⟨rfl, rfl⟩ | ⟨-, hk'⟩
    · obtain rfl := Option.some.inj hholder
      exact ⟨_, Function.update_self .., rfl⟩
    · obtain ⟨l, hl, hr⟩ := h.held r' k' g' hk' hholder
      exact ⟨l, update_of_fresh hfree hl, hr⟩

theorem steps [DecidableEq ρ] [DecidableEq γ] (h : Sound L) (hs : Steps L L') : Sound L' := by
  induction hs with
  | refl => exact h
  | tail _ hstep ih =>
    cases hstep with
    | settle hs => exact ih.settles hs
    | grant hg => exact ih.grants hg

end Sound

/-! ### Ended leases -/

/-- The lease was granted and has ended. -/
def Ended (L : Ledger ρ γ τ) (g : γ) : Prop := ∃ l, L.leases g = some l ∧ l.active = false

/-- An ended lease stays ended. -/
theorem Ended.steps [Preorder τ] [DecidableEq ρ] [DecidableEq γ] {L L' : Ledger ρ γ τ} {g : γ}
    (h : L.Ended g) (hs : Steps L L') : L'.Ended g := by
  induction hs with
  | refl => exact h
  | tail _ hstep ih =>
    obtain ⟨l, hl, ha⟩ := ih
    cases hstep with
    | settle hs =>
      obtain ⟨l', hl', -, -, hact⟩ := hs.leases.new g l hl
      refine ⟨l', hl', ?_⟩
      cases ha' : l'.active with
      | false => rfl
      | true => exact (hact ha').symm.trans ha
    | grant hg =>
      obtain ⟨r, g', k, token, -, -, hfree, -, -, hleases⟩ := hg.grant
      refine ⟨l, ?_, ha⟩
      rw [hleases]
      exact update_of_fresh hfree hl

end Ledger

end Fencing
