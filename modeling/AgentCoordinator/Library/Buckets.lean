import Mathlib.Data.Finset.Card
import Mathlib.Data.Finset.Image
import Mathlib.Data.Finset.Max
import Mathlib.Data.Int.Order.Basic

/-
The newest element of each of the latest buckets.

A key that grows with time puts the elements of a set into buckets. What is kept is the newest
element of each of the `n` latest buckets that have one. Keeping is stable: elements that are not
kept may be dropped before, after or between additions, in any order, without a change in what is
kept in the end. One pass from the newest element on, with a list of the buckets seen, finds it.
-/

namespace Buckets

variable {α κ : Type*} [LinearOrder α] [LinearOrder κ]

/-- `x` is the newest of its bucket, and fewer than `n` buckets are later. -/
structure Latest (n : ℕ) (key : α → κ) (S : Finset α) (x : α) : Prop where
  mem : x ∈ S
  newest : ∀ y ∈ S, key y = key x → y ≤ x
  few : ((S.image key).filter (key x < ·)).card < n

variable {n : ℕ} {key : α → κ} {S T U : Finset α} {x y : α}

instance : Decidable (Latest n key S x) :=
  decidable_of_iff (x ∈ S ∧ (∀ y ∈ S, key y = key x → y ≤ x) ∧
    ((S.image key).filter (key x < ·)).card < n)
    ⟨fun ⟨h, h', h''⟩ => ⟨h, h', h''⟩, fun h => ⟨h.mem, h.newest, h.few⟩⟩

/-- In a smaller set what is kept there stays kept. -/
lemma Latest.mono (h : Latest n key S x) (hsub : T ⊆ S) (hmem : x ∈ T) : Latest n key T x where
  mem := hmem
  newest := fun y hy => h.newest y (hsub hy)
  few := lt_of_le_of_lt
    (Finset.card_le_card (Finset.filter_subset_filter _ (Finset.image_subset_image hsub))) h.few

/-- Each of the latest buckets has a newest element. -/
lemma exists_latest (hy : y ∈ S) (hfew : ((S.image key).filter (key y < ·)).card < n) :
    ∃ x, Latest n key S x ∧ key x = key y := by
  obtain ⟨x, hx, hmax⟩ := (S.filter fun z => key z = key y).exists_max_image id
    ⟨y, Finset.mem_filter.2 ⟨hy, rfl⟩⟩
  obtain ⟨hmem, hkey⟩ := Finset.mem_filter.1 hx
  refine ⟨x, ⟨hmem, fun z hz hzx => ?_, hkey ▸ hfew⟩, hkey⟩
  exact hmax z (Finset.mem_filter.2 ⟨hz, hzx.trans hkey⟩)

/-- Elements that are not kept can be dropped. -/
theorem latest_absorb (hsub : T ⊆ S) (hkept : ∀ x, Latest n key S x → x ∈ T) :
    Latest n key T x ↔ Latest n key S x := by
  constructor
  · intro h
    -- the latest bucket that is lost would have an element that is kept
    have habove : ∀ k ∈ S.image key, key x < k → k ∈ T.image key := by
      by_contra hlost
      push Not at hlost
      obtain ⟨k, hk, hlt, hnot⟩ := hlost
      obtain ⟨m, hm, hmax⟩ := ((S.image key).filter fun k => key x < k ∧ k ∉ T.image key)
        |>.exists_max_image id ⟨k, Finset.mem_filter.2 ⟨hk, hlt, hnot⟩⟩
      obtain ⟨hmS, hmx, hmT⟩ := Finset.mem_filter.1 hm
      obtain ⟨y, hy, rfl⟩ := Finset.mem_image.1 hmS
      have hfew : ((S.image key).filter (key y < ·)).card < n := by
        refine lt_of_le_of_lt (Finset.card_le_card fun k hk => ?_) h.few
        obtain ⟨hkS, hky⟩ := Finset.mem_filter.1 hk
        refine Finset.mem_filter.2 ⟨?_, hmx.trans hky⟩
        by_contra hkT
        exact not_lt.2 (hmax k (Finset.mem_filter.2 ⟨hkS, hmx.trans hky, hkT⟩)) hky
      obtain ⟨z, hz, hkey⟩ := exists_latest hy hfew
      exact hmT (Finset.mem_image.2 ⟨z, hkept z hz, hkey⟩)
    have hfew : ((S.image key).filter (key x < ·)).card < n := by
      refine lt_of_le_of_lt (Finset.card_le_card fun k hk => ?_) h.few
      obtain ⟨hkS, hkx⟩ := Finset.mem_filter.1 hk
      exact Finset.mem_filter.2 ⟨habove k hkS hkx, hkx⟩
    obtain ⟨z, hz, hkey⟩ := exists_latest (hsub h.mem) hfew
    obtain rfl : x = z :=
      le_antisymm (hz.newest x (hsub h.mem) hkey.symm) (h.newest z (hkept z hz) hkey)
    exact hz
  · exact fun h => h.mono hsub (hkept x h)

/-- What was dropped earlier makes no difference to what is kept later. -/
theorem latest_union (hsub : T ⊆ S) (hkept : ∀ x, Latest n key S x → x ∈ T) :
    Latest n key (T ∪ U) x ↔ Latest n key (S ∪ U) x := by
  refine latest_absorb (Finset.union_subset_union_left hsub) fun y hy => ?_
  rcases Finset.mem_union.1 hy.mem with hS | hU
  · exact Finset.mem_union_left _ (hkept y (hy.mono Finset.subset_union_left hS))
  · exact Finset.mem_union_right _ hU

/-- The newest element of all is kept. -/
lemma latest_of_max (hmono : Monotone key) (hn : 0 < n) (hx : x ∈ S) (hmax : ∀ y ∈ S, y ≤ x) :
    Latest n key S x where
  mem := hx
  newest := fun y hy _ => hmax y hy
  few := by
    rw [Finset.card_eq_zero.2 (Finset.filter_eq_empty_iff.2 fun k hk => ?_)]
    · exact hn
    · obtain ⟨y, hy, rfl⟩ := Finset.mem_image.1 hk
      exact not_lt.2 (hmono (hmax y hy))

/-! ### One pass -/

/-- The buckets seen after an element: only the first `n` are listed. -/
def see (n : ℕ) (seen : List κ) (k : κ) : List κ :=
  if seen.length < n ∧ k ∉ seen then k :: seen else seen

/-- The list holds the buckets of the elements passed, as long as it is not full. -/
structure Seen (n : ℕ) (passed : Finset κ) (seen : List κ) : Prop where
  nodup : seen.Nodup
  mem : ∀ k ∈ seen, k ∈ passed
  all : seen.length < n → ∀ k ∈ passed, k ∈ seen

omit [LinearOrder κ] in
lemma seen_nil : Seen n (∅ : Finset κ) [] where
  nodup := List.nodup_nil
  mem := fun _ h => nomatch h
  all := fun _ k h => absurd h (Finset.notMem_empty k)

variable {passed : Finset κ} {seen : List κ} {k : κ}

/-- A bucket is put on the list exactly when it is new and fewer than `n` were before it. -/
lemma Seen.open_iff (h : Seen n passed seen) :
    seen.length < n ∧ k ∉ seen ↔ k ∉ passed ∧ passed.card < n := by
  constructor
  · rintro ⟨hlt, hnot⟩
    have heq : seen.toFinset = passed := by
      ext k
      rw [List.mem_toFinset]
      exact ⟨h.mem k, h.all hlt k⟩
    refine ⟨fun hk => hnot (h.all hlt k hk), ?_⟩
    rw [← heq, List.toFinset_card_of_nodup h.nodup]
    exact hlt
  · rintro ⟨hnot, hlt⟩
    refine ⟨lt_of_le_of_lt ?_ hlt, fun hk => hnot (h.mem k hk)⟩
    rw [← List.toFinset_card_of_nodup h.nodup]
    exact Finset.card_le_card fun k hk => h.mem k (List.mem_toFinset.1 hk)

lemma Seen.see (h : Seen n passed seen) : Seen n (insert k passed) (see n seen k) := by
  unfold Buckets.see
  split_ifs with hopen
  · refine ⟨List.nodup_cons.2 ⟨hopen.2, h.nodup⟩, fun m hm => ?_, fun _ m hm => ?_⟩
    · rcases List.mem_cons.1 hm with rfl | hm
      · exact Finset.mem_insert_self _ _
      · exact Finset.mem_insert_of_mem (h.mem m hm)
    · rcases Finset.mem_insert.1 hm with rfl | hm
      · exact List.mem_cons_self
      · exact List.mem_cons_of_mem _ (h.all hopen.1 m hm)
  · refine ⟨h.nodup, fun m hm => Finset.mem_insert_of_mem (h.mem m hm), fun hlt m hm => ?_⟩
    rcases Finset.mem_insert.1 hm with rfl | hm
    · by_contra hnot
      exact hopen ⟨hlt, hnot⟩
    · exact h.all hlt m hm

/-- With the newer elements passed, an element opens a bucket exactly when it is to be kept. -/
theorem Seen.open_iff_latest (hmono : Monotone key) (hx : x ∈ S)
    (h : Seen n ((S.filter (x < ·)).image key) seen) :
    seen.length < n ∧ key x ∉ seen ↔ Latest n key S x := by
  have hnewest : key x ∉ (S.filter (x < ·)).image key ↔ ∀ y ∈ S, key y = key x → y ≤ x := by
    constructor
    · intro hnot y hy hkey
      by_contra hlt
      exact hnot (Finset.mem_image.2 ⟨y, Finset.mem_filter.2 ⟨hy, not_le.1 hlt⟩, hkey⟩)
    · intro hall hmem
      obtain ⟨y, hy, hkey⟩ := Finset.mem_image.1 hmem
      obtain ⟨hyS, hlt⟩ := Finset.mem_filter.1 hy
      exact not_le.2 hlt (hall y hyS hkey)
  have hlater (hnot : key x ∉ (S.filter (x < ·)).image key) :
      (S.filter (x < ·)).image key = (S.image key).filter (key x < ·) := by
    ext k
    simp only [Finset.mem_image, Finset.mem_filter]
    constructor
    · rintro ⟨y, ⟨hy, hlt⟩, rfl⟩
      refine ⟨⟨y, hy, rfl⟩, lt_of_le_of_ne (hmono hlt.le) fun heq => hnot ?_⟩
      exact Finset.mem_image.2 ⟨y, Finset.mem_filter.2 ⟨hy, hlt⟩, heq.symm⟩
    · rintro ⟨⟨y, hy, rfl⟩, hlt⟩
      refine ⟨y, ⟨hy, ?_⟩, rfl⟩
      by_contra hle
      exact not_lt.2 (hmono (not_lt.1 hle)) hlt
  rw [h.open_iff]
  constructor
  · rintro ⟨hnot, hcard⟩
    exact ⟨hx, hnewest.1 hnot, hlater hnot ▸ hcard⟩
  · intro hkept
    have hnot := hnewest.2 hkept.newest
    exact ⟨hnot, (hlater hnot).symm ▸ hkept.few⟩

end Buckets
