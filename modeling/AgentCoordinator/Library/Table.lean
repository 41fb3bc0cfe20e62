import Mathlib.Data.List.Nodup
import Mathlib.Data.List.Perm.Basic
import Mathlib.Data.List.Perm.Subperm

/-
Keyed tables: finite lists of rows with pairwise different primary keys.

A `Table` is what a relational database keeps under a primary key. Its rows are a list (in
insertion order), and the fact that no key occurs twice is a field of the structure, so a table
with a duplicate key cannot be built. Reading is by key (`get?`) or by membership; writing is by
`modify` (an `UPDATE … WHERE`, which may not touch keys), `insert?` (an `INSERT` that fails on a
taken key) and `create` (an `INSERT` under a new key). Every write has one lemma saying what
`get?` answers afterwards, and proofs about tables use nothing else.
-/

namespace Tabular

universe u v

/-- Keys of two columns are compared column by column. -/
instance lawfulBEqColumns {α : Type u} {β : Type v} [DecidableEq α] [DecidableEq β] :
    LawfulBEq (α × β) := inferInstance

/-- A row type with a primary key. -/
class Keyed (α : Type u) (κ : outParam (Type v)) where
  /-- The primary key of a row. -/
  key : α → κ

/-- A finite set of rows with pairwise different keys. -/
structure Table (α : Type u) {κ : Type v} [Keyed α κ] where
  /-- The rows, in insertion order. -/
  rows : List α
  /-- No key occurs twice. -/
  nodup : (rows.map Keyed.key).Nodup

namespace Table

variable {α : Type u} {κ : Type v} [Keyed α κ]

instance : Membership α (Table α) := ⟨fun t r => r ∈ t.rows⟩

/-- The table without rows. -/
def empty : Table α := ⟨[], List.nodup_nil⟩

instance : Inhabited (Table α) := ⟨empty⟩

instance decidableExistsMem (t : Table α) (p : α → Prop) [DecidablePred p] :
    Decidable (∃ r ∈ t, p r) :=
  inferInstanceAs (Decidable (∃ r ∈ t.rows, p r))

instance decidableForallMem (t : Table α) (p : α → Prop) [DecidablePred p] :
    Decidable (∀ r ∈ t, p r) :=
  inferInstanceAs (Decidable (∀ r ∈ t.rows, p r))

/-- The rows that satisfy `p`, in insertion order. -/
def filter (t : Table α) (p : α → Prop) [DecidablePred p] : List α :=
  t.rows.filter (fun r => decide (p r))

@[simp] lemma mem_filter {t : Table α} {p : α → Prop} [DecidablePred p] {r : α} :
    r ∈ t.filter p ↔ r ∈ t ∧ p r := by
  simp only [filter, List.mem_filter, decide_eq_true_eq]
  rfl

/-! ### Reading by key -/

variable [DecidableEq κ]

/-- The row with key `k`. -/
def get? (t : Table α) (k : κ) : Option α :=
  t.rows.find? (fun r => decide (Keyed.key r = k))

lemma get?_eq_some_iff {t : Table α} {k : κ} {r : α} :
    t.get? k = some r ↔ r ∈ t ∧ Keyed.key r = k := by
  constructor
  · intro h
    exact ⟨List.mem_of_find?_eq_some h, by simpa using List.find?_some h⟩
  · rintro ⟨hr, rfl⟩
    cases h : t.get? (Keyed.key r) with
    | none =>
      have hne := List.find?_eq_none.1 h r hr
      simp at hne
    | some r' =>
      have hkey : Keyed.key r' = Keyed.key r := by simpa using List.find?_some h
      rw [List.inj_on_of_nodup_map t.nodup (List.mem_of_find?_eq_some h) hr hkey]

lemma key_of_get? {t : Table α} {k : κ} {r : α} (h : t.get? k = some r) : Keyed.key r = k :=
  (get?_eq_some_iff.1 h).2

lemma mem_of_get? {t : Table α} {k : κ} {r : α} (h : t.get? k = some r) : r ∈ t :=
  (get?_eq_some_iff.1 h).1

lemma get?_of_mem {t : Table α} {r : α} (h : r ∈ t) : t.get? (Keyed.key r) = some r :=
  get?_eq_some_iff.2 ⟨h, rfl⟩

lemma mem_iff_get? {t : Table α} {r : α} : r ∈ t ↔ t.get? (Keyed.key r) = some r :=
  ⟨get?_of_mem, mem_of_get?⟩

/-- A key has one row. -/
lemma eq_of_get? {t : Table α} {k : κ} {r r' : α} (h : t.get? k = some r) (hr' : r' ∈ t)
    (hk : Keyed.key r' = k) : r' = r := by
  have h' := get?_of_mem hr'
  rw [hk, h] at h'
  exact (Option.some.inj h').symm

lemma exists_mem_iff {t : Table α} {p : α → Prop} :
    (∃ r ∈ t, p r) ↔ ∃ k r, t.get? k = some r ∧ p r := by
  constructor
  · rintro ⟨r, hr, hp⟩
    exact ⟨_, r, get?_of_mem hr, hp⟩
  · rintro ⟨k, r, hr, hp⟩
    exact ⟨r, mem_of_get? hr, hp⟩

lemma forall_mem_iff {t : Table α} {p : α → Prop} :
    (∀ r ∈ t, p r) ↔ ∀ k r, t.get? k = some r → p r := by
  constructor
  · intro h k r hr
    exact h r (mem_of_get? hr)
  · intro h r hr
    exact h _ r (get?_of_mem hr)

lemma get?_eq_none_iff {t : Table α} {k : κ} : t.get? k = none ↔ k ∉ t.rows.map Keyed.key := by
  simp [get?, List.find?_eq_none]

@[simp] lemma get?_empty (k : κ) : (empty : Table α).get? k = none := rfl

omit [DecidableEq κ] in
@[simp] lemma not_mem_empty (r : α) : ¬ r ∈ (empty : Table α) := List.not_mem_nil

/-- Two tables that answer every key alike have the same rows. -/
lemma mem_congr {t t' : Table α} (h : ∀ k, t.get? k = t'.get? k) (r : α) : r ∈ t ↔ r ∈ t' := by
  rw [mem_iff_get?, mem_iff_get?, h]

omit [DecidableEq κ] in
/-- Rows that correspond to rows of another table by their keys are at most as many. -/
lemma length_filter_le {β : Type u} [Keyed β κ] {t : Table α} {t' : Table β} {p : α → Prop}
    {q : β → Prop} [DecidablePred p] [DecidablePred q]
    (h : ∀ r ∈ t, p r → ∃ r' ∈ t', q r' ∧ Keyed.key r' = Keyed.key r) :
    (t.filter p).length ≤ (t'.filter q).length := by
  have hnodup : ((t.filter p).map Keyed.key).Nodup :=
    t.nodup.sublist (List.filter_sublist.map _)
  have hsubset : (t.filter p).map Keyed.key ⊆ (t'.filter q).map Keyed.key := by
    intro k hk
    obtain ⟨r, hr, rfl⟩ := List.mem_map.1 hk
    obtain ⟨hmem, hp⟩ := mem_filter.1 hr
    obtain ⟨r', hr', hq, hkey⟩ := h r hmem hp
    exact List.mem_map.2 ⟨r', mem_filter.2 ⟨hr', hq⟩, hkey⟩
  have hle := (List.subperm_of_subset hnodup hsubset).length_le
  rwa [List.length_map, List.length_map] at hle

/-! ### Updating rows -/

/-- Rewrite every row that satisfies `p` by `f`, which keeps the keys. -/
def modify (t : Table α) (p : α → Prop) [DecidablePred p] (f : α → α)
    (hf : ∀ r, Keyed.key (f r) = Keyed.key r := by intro; exact Eq.trans rfl rfl) : Table α where
  rows := t.rows.map (fun r => if p r then f r else r)
  nodup := by
    have h : (t.rows.map (fun r => if p r then f r else r)).map Keyed.key
        = t.rows.map Keyed.key := by
      rw [List.map_map]
      refine List.map_congr_left fun r _ => ?_
      by_cases hr : p r <;> simp [hr, hf]
    rw [h]
    exact t.nodup

omit [DecidableEq κ] in
lemma mem_modify {t : Table α} {p : α → Prop} [DecidablePred p] {f : α → α}
    {hf : ∀ r, Keyed.key (f r) = Keyed.key r} {r' : α} :
    r' ∈ t.modify p f hf ↔ ∃ r ∈ t, (if p r then f r else r) = r' :=
  List.mem_map

omit [DecidableEq κ] in
lemma mem_modify_of_neg {t : Table α} {p : α → Prop} [DecidablePred p] {f : α → α}
    {hf : ∀ r, Keyed.key (f r) = Keyed.key r} {r : α} (h : r ∈ t) (hp : ¬ p r) :
    r ∈ t.modify p f hf :=
  mem_modify.2 ⟨r, h, if_neg hp⟩

@[simp] lemma get?_modify (t : Table α) (p : α → Prop) [DecidablePred p] (f : α → α)
    (hf : ∀ r, Keyed.key (f r) = Keyed.key r) (k : κ) :
    (t.modify p f hf).get? k = (t.get? k).map (fun r => if p r then f r else r) := by
  have hkey : ∀ r, Keyed.key (if p r then f r else r) = Keyed.key r := by
    intro r
    by_cases hr : p r <;> simp [hr, hf]
  simp only [get?, modify, List.find?_map, Function.comp_def, hkey]

/-! ### Inserting rows -/

/-- Add a row, unless its key is taken. -/
def insert? (t : Table α) (r : α) : Option (Table α) :=
  if h : Keyed.key r ∈ t.rows.map Keyed.key then none
  else some
    { rows := t.rows ++ [r]
      nodup := by
        rw [List.map_append, List.nodup_append]
        exact ⟨t.nodup, List.nodup_singleton _, by
          intro a ha b hb hab
          rw [List.map_singleton, List.mem_singleton] at hb
          exact h (hb ▸ hab ▸ ha)⟩ }

lemma insert?_eq_some {t t' : Table α} {r : α} (h : t.insert? r = some t') :
    t.get? (Keyed.key r) = none ∧
      ∀ k, t'.get? k = if k = Keyed.key r then some r else t.get? k := by
  unfold insert? at h
  split at h
  · exact absurd h (by simp)
  · rename_i hfree
    obtain rfl := Option.some.inj h
    refine ⟨get?_eq_none_iff.2 hfree, fun k => ?_⟩
    have hnone := get?_eq_none_iff.2 hfree
    unfold get? at hnone ⊢
    rw [List.find?_append]
    by_cases hk : k = Keyed.key r
    · subst hk
      simp [hnone]
    · simp [hk, Ne.symm hk]

/-- A row under a free key is added after the others. -/
lemma insert?_of_free {t : Table α} {r : α} (h : t.get? (Keyed.key r) = none) :
    ∃ t', t.insert? r = some t' ∧ t'.rows = t.rows ++ [r] :=
  ⟨_, dif_neg (get?_eq_none_iff.1 h), rfl⟩

lemma rows_of_insert? {t t' : Table α} {r : α} (h : t.insert? r = some t') :
    t'.rows = t.rows ++ [r] := by
  obtain ⟨t'', h'', hrows⟩ := insert?_of_free (insert?_eq_some h).1
  obtain rfl := Option.some.inj (h.symm.trans h'')
  exact hrows

/-- Replace the row under `r`'s key by `r`, or add `r` when the key is not taken. -/
def put (t : Table α) (r : α) : Table α :=
  match t.insert? r with
  | some t' => t'
  | none =>
    { rows := t.rows.map (fun r' => if Keyed.key r' = Keyed.key r then r else r')
      nodup := by
        have h : (t.rows.map (fun r' => if Keyed.key r' = Keyed.key r then r else r')).map
            Keyed.key = t.rows.map Keyed.key := by
          rw [List.map_map]
          refine List.map_congr_left fun r' _ => ?_
          by_cases hr : Keyed.key r' = Keyed.key r <;> simp [hr]
        rw [h]
        exact t.nodup }

@[simp] lemma get?_put (t : Table α) (r : α) (k : κ) :
    (t.put r).get? k = if k = Keyed.key r then some r else t.get? k := by
  unfold put
  split
  · rename_i t' h
    exact (insert?_eq_some h).2 k
  · rename_i h
    have htaken : Keyed.key r ∈ t.rows.map Keyed.key := by
      by_contra hfree
      simp [insert?, hfree] at h
    obtain ⟨r', hr', hkey⟩ := List.mem_map.1 htaken
    have hmap : ∀ r', Keyed.key (if Keyed.key r' = Keyed.key r then r else r') = Keyed.key r' := by
      intro r'
      by_cases h : Keyed.key r' = Keyed.key r <;> simp [h]
    have hold : t.get? (Keyed.key r) = some r' := hkey ▸ get?_of_mem hr'
    unfold get? at hold ⊢
    simp only [List.find?_map, Function.comp_def, hmap]
    by_cases hk : k = Keyed.key r
    · subst hk
      simp [hold, hkey]
    · cases hfind : t.rows.find? (fun r => decide (Keyed.key r = k)) with
      | none => simp [hk]
      | some x =>
        have hx : Keyed.key x = k := by simpa using List.find?_some hfind
        simp [hk, hx]

lemma mem_put {t : Table α} {r r' : α} :
    r' ∈ t.put r ↔ r' = r ∨ (r' ∈ t ∧ Keyed.key r' ≠ Keyed.key r) := by
  rw [mem_iff_get?, get?_put]
  constructor
  · intro h
    split at h
    · exact .inl (Option.some.inj h).symm
    · rename_i hk
      exact .inr ⟨mem_of_get? h, hk⟩
  · rintro (rfl | ⟨hmem, hk⟩)
    · exact if_pos rfl
    · rw [if_neg hk]
      exact get?_of_mem hmem

/-! ### Removing rows -/

/-- Remove the row with key `k`. -/
def erase (t : Table α) (k : κ) : Table α where
  rows := t.rows.filter (fun r => decide (Keyed.key r ≠ k))
  nodup := t.nodup.sublist (List.filter_sublist.map _)

lemma mem_erase {t : Table α} {k : κ} {r : α} : r ∈ t.erase k ↔ r ∈ t ∧ Keyed.key r ≠ k := by
  change r ∈ t.rows.filter (fun r => decide (Keyed.key r ≠ k)) ↔ r ∈ t.rows ∧ Keyed.key r ≠ k
  rw [List.mem_filter, decide_eq_true_eq]

@[simp] lemma get?_erase (t : Table α) (k k' : κ) :
    (t.erase k).get? k' = if k' = k then none else t.get? k' := by
  split
  · rename_i hk
    cases hr : (t.erase k).get? k' with
    | none => rfl
    | some r => exact absurd ((key_of_get? hr).trans hk) (mem_erase.1 (mem_of_get? hr)).2
  · rename_i hk
    cases hr : t.get? k' with
    | none =>
      cases hr' : (t.erase k).get? k' with
      | none => rfl
      | some r =>
        have hmem := get?_of_mem (mem_erase.1 (mem_of_get? hr')).1
        rw [key_of_get? hr', hr] at hmem
        exact absurd hmem (by simp)
    | some r =>
      have hkey := key_of_get? hr
      exact get?_eq_some_iff.2 ⟨mem_erase.2 ⟨mem_of_get? hr, hkey ▸ hk⟩, hkey⟩

omit [DecidableEq κ] in
/-- Remove the rows that satisfy `p`. -/
def delete (t : Table α) (p : α → Prop) [DecidablePred p] : Table α where
  rows := t.rows.filter (fun r => decide (¬ p r))
  nodup := t.nodup.sublist (List.filter_sublist.map _)

omit [DecidableEq κ] in
lemma mem_delete {t : Table α} {p : α → Prop} [DecidablePred p] {r : α} :
    r ∈ t.delete p ↔ r ∈ t ∧ ¬ p r := by
  change r ∈ t.rows.filter (fun r => decide (¬ p r)) ↔ r ∈ t.rows ∧ ¬ p r
  rw [List.mem_filter, decide_eq_true_eq]

/-! ### Sums -/

omit [DecidableEq κ] in
/-- The sum of `f` over the rows. -/
def sum (t : Table α) (f : α → Int) : Int := t.rows.foldr (fun r total => f r + total) 0

omit [DecidableEq κ] in
lemma sum_le_sum {t : Table α} {f g : α → Int} (h : ∀ r ∈ t, f r ≤ g r) : t.sum f ≤ t.sum g := by
  obtain ⟨rows, hnodup⟩ := t
  change ∀ r ∈ rows, f r ≤ g r at h
  change rows.foldr (fun r s => f r + s) 0 ≤ rows.foldr (fun r s => g r + s) 0
  clear hnodup
  induction rows with
  | nil => exact Int.le_refl _
  | cons r rows ih =>
    rw [List.foldr_cons, List.foldr_cons]
    have hr := h r List.mem_cons_self
    have hrows := ih fun x hx => h x (List.mem_cons_of_mem _ hx)
    omega

omit [DecidableEq κ] in
lemma sum_modify {t : Table α} {p : α → Prop} [DecidablePred p] {f : α → α}
    {hf : ∀ r, Keyed.key (f r) = Keyed.key r} (g : α → Int) :
    (t.modify p f hf).sum g = t.sum fun r => g (if p r then f r else r) := by
  simp only [sum, modify, List.foldr_map]

/-- An increase of at most `c` in one row increases the sum by at most `c`. -/
lemma sum_le_add {t : Table α} {f g : α → Int} {k : κ} {c : Int} (hc : 0 ≤ c)
    (hrow : ∀ r ∈ t, Keyed.key r = k → f r ≤ g r + c)
    (hother : ∀ r ∈ t, Keyed.key r ≠ k → f r ≤ g r) : t.sum f ≤ t.sum g + c := by
  obtain ⟨rows, hnodup⟩ := t
  change ∀ r ∈ rows, Keyed.key r = k → f r ≤ g r + c at hrow
  change ∀ r ∈ rows, Keyed.key r ≠ k → f r ≤ g r at hother
  change rows.foldr (fun r s => f r + s) 0 ≤ rows.foldr (fun r s => g r + s) 0 + c
  induction rows with
  | nil => simpa using hc
  | cons r rows ih =>
    rw [List.map_cons, List.nodup_cons] at hnodup
    have hrows := ih hnodup.2 (fun x hx => hrow x (List.mem_cons_of_mem _ hx))
      (fun x hx => hother x (List.mem_cons_of_mem _ hx))
    rw [List.foldr_cons, List.foldr_cons]
    by_cases hk : Keyed.key r = k
    · -- the one row; all others keep the bound
      have hrest : rows.foldr (fun r s => f r + s) 0 ≤ rows.foldr (fun r s => g r + s) 0 := by
        refine sum_le_sum (t := ⟨rows, hnodup.2⟩) fun x hx => ?_
        refine hother x (List.mem_cons_of_mem _ hx) fun hx' => hnodup.1 ?_
        exact List.mem_map.2 ⟨x, hx, hx'.trans hk.symm⟩
      have hr := hrow r List.mem_cons_self hk
      omega
    · have hr := hother r List.mem_cons_self hk
      omega

/-! ### Rows of another type -/

section Map

variable {β : Type u} [Keyed β κ]

omit [DecidableEq κ] in
/-- What `f` makes of every row, under the same keys. -/
def mapRows (t : Table α) (f : α → β) (hf : ∀ r, Keyed.key (f r) = Keyed.key r) : Table β where
  rows := t.rows.map f
  nodup := by
    have hkeys : (t.rows.map f).map Keyed.key = t.rows.map Keyed.key := by
      rw [List.map_map]
      exact List.map_congr_left fun r _ => hf r
    rw [hkeys]
    exact t.nodup

omit [DecidableEq κ] in
lemma mem_mapRows {t : Table α} {f : α → β} {hf : ∀ r, Keyed.key (f r) = Keyed.key r} {r' : β} :
    r' ∈ t.mapRows f hf ↔ ∃ r ∈ t, f r = r' :=
  List.mem_map

end Map

end Table

/-! ### New keys

With natural numbers for keys a table can always name a key it does not use; it stands for a
freshly drawn random identity. -/

namespace Table

variable {α : Type u} [Keyed α Nat]

/-- A key that no row has. -/
def fresh (t : Table α) : Nat := (t.rows.map Keyed.key).foldr max 0 + 1

lemma key_lt_fresh {t : Table α} {k : Nat} (h : k ∈ t.rows.map Keyed.key) : k < t.fresh := by
  unfold fresh
  generalize t.rows.map Keyed.key = ks at h
  induction ks with
  | nil => exact absurd h List.not_mem_nil
  | cons k' ks ih =>
    rw [List.foldr_cons]
    rcases List.mem_cons.1 h with rfl | h'
    · omega
    · have := ih h'
      omega

lemma get?_fresh (t : Table α) : t.get? t.fresh = none :=
  get?_eq_none_iff.2 fun h => absurd (key_lt_fresh h) (Nat.lt_irrefl _)

lemma ne_fresh {t : Table α} {k : Nat} {r : α} (h : t.get? k = some r) : k ≠ t.fresh := by
  rintro rfl
  rw [get?_fresh] at h
  exact absurd h (by simp)

/-- Add the row `mk` builds for a new key. -/
def create (t : Table α) (mk : Nat → α)
    (hmk : ∀ k, Keyed.key (mk k) = k := by intro; exact Eq.trans rfl rfl) :
    Table α where
  rows := t.rows ++ [mk t.fresh]
  nodup := by
    rw [List.map_append, List.nodup_append]
    refine ⟨t.nodup, List.nodup_singleton _, ?_⟩
    intro a ha b hb hab
    rw [List.map_singleton, List.mem_singleton, hmk] at hb
    subst hab hb
    exact absurd (key_lt_fresh ha) (Nat.lt_irrefl _)

lemma mem_create {t : Table α} {mk : Nat → α} {h : ∀ k, Keyed.key (mk k) = k} {r : α} :
    r ∈ t.create mk h ↔ r ∈ t ∨ r = mk t.fresh := by
  change r ∈ t.rows ++ [mk t.fresh] ↔ r ∈ t.rows ∨ r = mk t.fresh
  simp

@[simp] lemma get?_create (t : Table α) (mk : Nat → α) (hmk : ∀ k, Keyed.key (mk k) = k)
    (k : Nat) :
    (t.create mk hmk).get? k = if k = t.fresh then some (mk t.fresh) else t.get? k := by
  have hnone := get?_fresh t
  unfold get? create at *
  rw [List.find?_append]
  by_cases hk : k = t.fresh
  · subst hk
    simp [hnone, hmk]
  · simp [hk, hmk, Ne.symm hk]

lemma sum_create (t : Table α) (mk : Nat → α) (hmk : ∀ k, Keyed.key (mk k) = k) (f : α → Int) :
    (t.create mk hmk).sum f = t.sum f + f (mk t.fresh) := by
  change (t.rows ++ [mk t.fresh]).foldr (fun r s => f r + s) 0
    = t.rows.foldr (fun r s => f r + s) 0 + f (mk t.fresh)
  induction t.rows with
  | nil => exact Int.add_comm _ _
  | cons r rows ih =>
    rw [List.cons_append, List.foldr_cons, List.foldr_cons, ih, Int.add_assoc]

end Table

end Tabular
