import Mathlib.Logic.Basic

/-
Tokens that are issued under a lock.

A subject wants a resource, and may have it locked. A token is issued to a subject that has locked
the resource it wants, and no second one while the first is out. As long as the subject stands, the
lock stays until its token comes back; a subject that is revoked may lose the lock while its token
is still out. `Step` lists what may happen to such a custody, and `Sound` is what every step keeps:
so at most one token is out for a resource among the subjects that stand.
-/

universe u v w

/-- Which subjects want, and have locked, which resources, and which tokens are out for them. -/
structure Custody (σ : Type u) (τ : Type v) (ρ : Type w) where
  wants : σ → ρ → Prop
  locked : σ → ρ → Prop
  out : τ → σ → Prop
  revoked : σ → Prop

namespace Custody

variable {σ : Type u} {τ : Type v} {ρ : Type w} {c c' : Custody σ τ ρ}

/-- No resource is locked twice. -/
def Exclusive (c : Custody σ τ ρ) : Prop := ∀ u u' x, c.locked u x → c.locked u' x → u = u'

/-- The subject has locked what it wants. -/
def Holds (c : Custody σ τ ρ) (u : σ) : Prop := ∃ x, c.wants u x ∧ c.locked u x

/-- What may happen to a custody. -/
structure Step (c c' : Custody σ τ ρ) : Prop where
  exclusive : c'.Exclusive
  revoked : ∀ u, c.revoked u → c'.revoked u
  /-- A lock stays while a token of its subject is out, unless the subject is revoked. -/
  keeps : ∀ t u, c.out t u → c'.out t u → c.Holds u → c'.revoked u ∨ c'.Holds u
  /-- A new token is the only one of a subject that has locked what it wants. -/
  issues : ∀ t u, c'.out t u → c.out t u ∨ c'.Holds u ∧ ∀ t', c'.out t' u → t' = t

/-- What every step keeps. -/
structure Sound (c : Custody σ τ ρ) : Prop where
  exclusive : c.Exclusive
  single : ∀ t t' u, c.out t u → c.out t' u → t = t'
  guarded : ∀ t u, c.out t u → c.revoked u ∨ c.Holds u

/-- A step keeps a custody sound. -/
theorem Sound.step (h : c.Sound) (hstep : Step c c') : c'.Sound where
  exclusive := hstep.exclusive
  single t t' u ht ht' := by
    rcases hstep.issues t u ht with hold | ⟨-, honly⟩
    · rcases hstep.issues t' u ht' with hold' | ⟨-, honly'⟩
      · exact h.single t t' u hold hold'
      · exact honly' t ht
    · exact (honly t' ht').symm
  guarded t u ht := by
    rcases hstep.issues t u ht with hold | ⟨hholds, -⟩
    · rcases h.guarded t u hold with hrevoked | hholds
      · exact .inl (hstep.revoked u hrevoked)
      · exact hstep.keeps t u hold ht hholds
    · exact .inr hholds

/-- A custody in which no token is out is sound, if its locks are exclusive. -/
lemma sound_of_none (hexclusive : c.Exclusive) (hnone : ∀ t u, ¬ c.out t u) : c.Sound :=
  ⟨hexclusive, fun t _ u h => absurd h (hnone t u), fun t u h => absurd h (hnone t u)⟩

/-- Two tokens that are out for the same resource, for subjects that stand, are one. -/
theorem Sound.unique (h : c.Sound) (hone : ∀ u x x', c.wants u x → c.wants u x' → x = x')
    {t t' : τ} {u u' : σ} {x : ρ} (ht : c.out t u) (ht' : c.out t' u') (hu : ¬ c.revoked u)
    (hu' : ¬ c.revoked u') (hx : c.wants u x) (hx' : c.wants u' x) : t = t' ∧ u = u' := by
  obtain ⟨y, hy, hlocked⟩ := (h.guarded t u ht).resolve_left hu
  obtain ⟨y', hy', hlocked'⟩ := (h.guarded t' u' ht').resolve_left hu'
  rw [hone u y x hy hx] at hlocked
  rw [hone u' y' x hy' hx'] at hlocked'
  obtain rfl := h.exclusive u u' x hlocked hlocked'
  exact ⟨h.single t t' u ht ht', rfl⟩

end Custody
