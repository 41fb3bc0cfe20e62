import Mathlib.Data.List.Infix
import Mathlib.Tactic.Basic

/-
Finding and replacing in a text.

A text is cut at the occurrences of a pattern, from the left and without overlaps (`segments`), and
replacing puts another text between the pieces. Occurrences of a word may be counted up to a folding
of the letters. Both are the sum of the parts of a text as long as no occurrence crosses from one
part to the next (`Apart`).
-/

namespace Replace

variable {α β : Type}

/-! ### Pieces -/

section Pieces

variable [DecidableEq α]

/-- The letter before the first piece. -/
def onFirst (c : α) : List (List α) → List (List α)
  | [] => [[c]]
  | l :: ls => (c :: l) :: ls

/-- The pieces of a text between the occurrences of a pattern, after so many letters of one. -/
def segmentsFrom (pat : List α) : Nat → List α → List (List α)
  | _, [] => [[]]
  | skip + 1, _ :: s => segmentsFrom pat skip s
  | 0, c :: s =>
    if pat <+: c :: s then [] :: segmentsFrom pat (pat.length - 1) s
    else onFirst c (segmentsFrom pat 0 s)

/-- The pieces of a text between the occurrences of a pattern. -/
def segments (pat s : List α) : List (List α) := segmentsFrom pat 0 s

/-- A text with another one in place of each occurrence of a pattern. -/
def replace (pat new s : List α) : List α := new.intercalate (segments pat s)

variable {pat new s a b : List α} {c : α}

lemma segmentsFrom_ne_nil (skip : Nat) (s : List α) : segmentsFrom pat skip s ≠ [] := by
  induction s generalizing skip with
  | nil => exact List.cons_ne_nil _ _
  | cons c s ih =>
    cases skip with
    | succ skip => exact ih skip
    | zero =>
      unfold segmentsFrom
      split
      · exact List.cons_ne_nil _ _
      · unfold onFirst
        split <;> exact List.cons_ne_nil _ _

lemma segments_ne_nil (s : List α) : segments pat s ≠ [] := segmentsFrom_ne_nil 0 s

/-- The rest of an occurrence is passed over. -/
lemma segmentsFrom_append (x s : List α) :
    segmentsFrom pat x.length (x ++ s) = segments pat s := by
  induction x with
  | nil => rfl
  | cons c x ih => exact ih

lemma segments_append_pat (hpat : pat ≠ []) (s : List α) :
    segments pat (pat ++ s) = [] :: segments pat s := by
  cases pat with
  | nil => exact absurd rfl hpat
  | cons c x =>
    have hpos : c :: x <+: c :: (x ++ s) := List.prefix_append (c :: x) s
    rw [segments, List.cons_append, segmentsFrom, if_pos hpos, List.length_cons,
      Nat.add_sub_cancel, segmentsFrom_append]

lemma segments_cons (h : ¬ pat <+: c :: s) :
    segments pat (c :: s) = onFirst c (segments pat s) := by
  rw [segments, segmentsFrom, if_neg h]
  rfl

/-- The pieces with the pattern between them are the text. -/
theorem intercalate_segments (hpat : pat ≠ []) (s : List α) :
    pat.intercalate (segments pat s) = s := by
  induction hs : s.length using Nat.strong_induction_on generalizing s with
  | h n ih =>
    cases s with
    | nil => rfl
    | cons c s =>
      by_cases h : pat <+: c :: s
      · obtain ⟨t, ht⟩ := h
        have hlt : t.length < n := by
          have hlength := congrArg List.length ht
          have hpos := List.length_pos_iff.2 hpat
          rw [List.length_append] at hlength
          omega
        rw [← ht, segments_append_pat hpat, List.intercalate_cons_of_ne_nil (segments_ne_nil t),
          List.nil_append, ih _ hlt t rfl]
      · rw [segments_cons h]
        have hrest := ih s.length (by rw [← hs, List.length_cons]; omega) s rfl
        cases hsegments : segments pat s with
        | nil => exact absurd hsegments (segments_ne_nil s)
        | cons l ls =>
          rw [hsegments] at hrest
          rw [onFirst, List.intercalate_cons_cons_left, hrest]

end Pieces

/-! ### Parts of a text -/

/-- No occurrence of a word begins in one text and ends in the next. -/
def Apart (fold : α → β) (word : List β) (a b : List α) : Prop :=
  ∀ p, p ≠ [] → p <:+ a → word <+: (p ++ b).map fold → word <+: p.map fold

section Apart

variable {fold : α → β} {word : List β} {a b : List α}

lemma apart_nil (a : List α) : Apart fold word a [] := by
  intro p _ _ h
  rwa [List.append_nil] at h

/-- What a word starts with, when it reaches into the next text. -/
lemma prefix_or_split {p b : List β} (h : word <+: p ++ b) :
    word <+: p ∨ ∃ q, q ≠ [] ∧ word = p ++ q ∧ q <+: b := by
  rcases Nat.lt_or_ge p.length word.length with hlt | hle
  · refine .inr ⟨word.drop p.length, ?_, ?_, ?_⟩
    · intro hnil
      rw [List.drop_eq_nil_iff] at hnil
      omega
    · have hp : p <+: word := List.prefix_of_prefix_length_le (List.prefix_append p b) h hlt.le
      obtain ⟨q, rfl⟩ := hp
      rw [List.drop_left]
    · obtain ⟨t, ht⟩ := h
      refine ⟨t, ?_⟩
      have hdrop := congrArg (List.drop p.length) ht
      rwa [List.drop_append_of_le_length hlt.le, List.drop_left] at hdrop
  · exact .inl (List.prefix_of_prefix_length_le h (List.prefix_append p b) hle)

/-- The next text does not go on with a word. -/
lemma apart_of_head (h : ∀ c ∈ b.head?, fold c ∉ word.tail) : Apart fold word a b := by
  intro p hp _ hword
  rw [List.map_append] at hword
  rcases prefix_or_split hword with hword | ⟨q, hq, heq, hqb⟩
  · exact hword
  · obtain ⟨c, q, rfl⟩ := List.exists_cons_of_ne_nil hq
    obtain ⟨c', b, rfl⟩ : ∃ c' b', b = c' :: b' := by
      cases b with
      | nil => simp at hqb
      | cons c' b => exact ⟨c', b, rfl⟩
    obtain ⟨rfl, -⟩ := List.cons_prefix_cons.1 hqb
    refine absurd ?_ (h c' rfl)
    rw [heq]
    obtain ⟨d, p, rfl⟩ := List.exists_cons_of_ne_nil hp
    simp

/-- A text ends in a letter that the word does not have. -/
lemma apart_of_last (h : ∃ c ∈ a.getLast?, fold c ∉ word) : Apart fold word a b := by
  intro p hp hsuffix hword
  rw [List.map_append] at hword
  rcases prefix_or_split hword with hword | ⟨q, hq, heq, -⟩
  · exact hword
  · obtain ⟨c, hc, hnot⟩ := h
    refine absurd ?_ hnot
    rw [heq]
    refine List.mem_append_left _ (List.mem_map_of_mem ?_)
    obtain ⟨t, rfl⟩ := hsuffix
    rw [List.getLast?_append_of_ne_nil _ hp] at hc
    exact List.mem_of_mem_getLast? hc

/-- The next text does not have the last letter of a word. -/
lemma apart_of_end (h : ∀ c ∈ word.getLast?, c ∉ b.map fold) : Apart fold word a b := by
  intro p _ _ hword
  rw [List.map_append] at hword
  rcases prefix_or_split hword with hword | ⟨q, hq, heq, hqb⟩
  · exact hword
  · refine absurd (hqb.subset (List.getLast_mem hq)) (h _ ?_)
    rw [heq, List.getLast?_append_of_ne_nil _ hq]
    exact List.getLast?_eq_some_getLast hq

/-- A text has no first letter of the word. -/
lemma apart_of_not_mem (h : ∀ c ∈ word.head?, c ∉ a.map fold) (hword : word ≠ []) :
    Apart fold word a b := by
  intro p hp hsuffix hpre
  obtain ⟨c, w, rfl⟩ := List.exists_cons_of_ne_nil hword
  obtain ⟨d, p, rfl⟩ := List.exists_cons_of_ne_nil hp
  rw [List.cons_append, List.map_cons, List.cons_prefix_cons] at hpre
  refine absurd ?_ (h c rfl)
  rw [hpre.1]
  exact List.mem_map_of_mem (hsuffix.subset List.mem_cons_self)

lemma Apart.tail {c : α} (h : Apart fold word (c :: a) b) : Apart fold word a b :=
  fun p hp hsuffix => h p hp (hsuffix.trans (List.suffix_cons c a))

end Apart

/-! ### Counting -/

/-- In how many places a word occurs in a text, whose letters are folded. -/
def occurrences [DecidableEq β] (fold : α → β) (word : List β) : List α → Nat
  | [] => 0
  | c :: s => (if word <+: (c :: s).map fold then 1 else 0) + occurrences fold word s

section Counting

variable [DecidableEq β] {fold : α → β} {word : List β} {a b : List α}

lemma occurrences_cons (c : α) (s : List α) : occurrences fold word (c :: s) =
    (if word <+: (c :: s).map fold then 1 else 0) + occurrences fold word s := rfl

theorem occurrences_append (h : Apart fold word a b) :
    occurrences fold word (a ++ b) = occurrences fold word a + occurrences fold word b := by
  induction a with
  | nil => exact (Nat.zero_add _).symm
  | cons c a ih =>
    have hiff : word <+: ((c :: a) ++ b).map fold ↔ word <+: (c :: a).map fold :=
      ⟨h (c :: a) (List.cons_ne_nil _ _) List.suffix_rfl,
        fun h => h.trans (List.map_append ▸ List.prefix_append _ _)⟩
    rw [List.cons_append, occurrences_cons, occurrences_cons, ih h.tail, Nat.add_assoc]
    rw [List.cons_append] at hiff
    simp only [hiff]

/-- No occurrence begins in the first part. -/
lemma occurrences_skip (h : ∀ p, p ≠ [] → p <:+ a → ¬ word <+: (p ++ b).map fold) :
    occurrences fold word (a ++ b) = occurrences fold word b := by
  induction a with
  | nil => rfl
  | cons c a ih =>
    rw [List.cons_append, occurrences_cons, ih, if_neg, Nat.zero_add]
    · exact h (c :: a) (List.cons_ne_nil _ _) List.suffix_rfl
    · exact fun p hp hsuffix => h p hp (hsuffix.trans (List.suffix_cons c a))

/-- A word does not occur in a text without its first letter. -/
lemma occurrences_eq_zero (hword : word ≠ []) (h : ∀ c ∈ word.head?, c ∉ a.map fold) :
    occurrences fold word a = 0 := by
  obtain ⟨c, w, rfl⟩ := List.exists_cons_of_ne_nil hword
  have hc := h c rfl
  clear h
  induction a with
  | nil => rfl
  | cons d a ih =>
    rw [List.map_cons, List.mem_cons, not_or] at hc
    rw [occurrences_cons, ih hc.2, if_neg]
    rw [List.map_cons, List.cons_prefix_cons]
    exact fun h => hc.1 h.1

lemma occurrences_pos_iff : 0 < occurrences fold word a ↔
    ∃ p q, p ≠ [] ∧ a = q ++ p ∧ word <+: p.map fold := by
  induction a with
  | nil => simp [occurrences]
  | cons c a ih =>
    rw [occurrences_cons]
    constructor
    · intro h
      by_cases hhere : word <+: (c :: a).map fold
      · exact ⟨c :: a, [], List.cons_ne_nil _ _, rfl, hhere⟩
      · rw [if_neg hhere, Nat.zero_add] at h
        obtain ⟨p, q, hp, rfl, hword⟩ := ih.1 h
        exact ⟨p, c :: q, hp, rfl, hword⟩
    · rintro ⟨p, q, hp, heq, hword⟩
      cases q with
      | nil =>
        rw [heq, List.nil_append, if_pos hword]
        omega
      | cons d q =>
        obtain ⟨rfl, rfl⟩ := List.cons.inj heq
        have hrest := ih.2 ⟨p, q, hp, rfl, hword⟩
        omega

end Counting

/-! ### Replacing -/

section Replacing

variable [DecidableEq α] {pat new s a b : List α} {c : α}

/-- Before the first occurrence of the pattern. -/
lemma replace_cons (h : ¬ pat <+: c :: s) : replace pat new (c :: s) = c :: replace pat new s := by
  rw [replace, segments_cons h, replace]
  cases hsegments : segments pat s with
  | nil => exact absurd hsegments (segments_ne_nil s)
  | cons l ls => exact List.intercalate_cons_cons_left

lemma replace_append_pat (hpat : pat ≠ []) (s : List α) :
    replace pat new (pat ++ s) = new ++ replace pat new s := by
  rw [replace, segments_append_pat hpat, List.intercalate_cons_of_ne_nil (segments_ne_nil s)]
  rfl

/-- No occurrence begins in the first part. -/
lemma replace_skip (h : ∀ p, p ≠ [] → p <:+ a → ¬ pat <+: p ++ b) :
    replace pat new (a ++ b) = a ++ replace pat new b := by
  induction a with
  | nil => rfl
  | cons c a ih =>
    rw [List.cons_append, replace_cons, ih, List.cons_append]
    · exact fun p hp hsuffix => h p hp (hsuffix.trans (List.suffix_cons c a))
    · exact h (c :: a) (List.cons_ne_nil _ _) List.suffix_rfl

lemma replace_nil : replace pat new [] = [] := rfl

/-- In two parts, if no occurrence begins in the first and ends in the second. -/
lemma replace_append (hpat : pat ≠ []) (h : Apart id pat a b) :
    replace pat new (a ++ b) = replace pat new a ++ replace pat new b := by
  induction hs : a.length using Nat.strong_induction_on generalizing a with
  | h n ih =>
    cases a with
    | nil => rfl
    | cons c a =>
      by_cases hp : pat <+: c :: a
      · obtain ⟨t, ht⟩ := hp
        have hlt : t.length < n := by
          have hlength := congrArg List.length ht
          have hpos := List.length_pos_iff.2 hpat
          rw [List.length_append] at hlength
          omega
        have hrest : Apart id pat t b :=
          fun p hp hsuffix => h p hp (hsuffix.trans (ht ▸ List.suffix_append pat t))
        rw [← ht, List.append_assoc, replace_append_pat hpat, replace_append_pat hpat,
          ih _ hlt hrest rfl, List.append_assoc]
      · have hp' : ¬ pat <+: c :: (a ++ b) := by
          intro hpre
          have hhere := h (c :: a) (List.cons_ne_nil _ _) List.suffix_rfl
          rw [List.map_id, List.map_id] at hhere
          exact hp (hhere hpre)
        have hrest := ih a.length (by rw [← hs, List.length_cons]; omega) h.tail rfl
        rw [List.cons_append, replace_cons hp', hrest, replace_cons hp, List.cons_append]

/-- The first part has no first letter of the pattern. -/
lemma replace_append_of_not_mem (hpat : pat ≠ []) (h : ∀ c ∈ pat.head?, c ∉ a) :
    replace pat new (a ++ b) = a ++ replace pat new b := by
  obtain ⟨c, w, rfl⟩ := List.exists_cons_of_ne_nil hpat
  refine replace_skip fun p hp hsuffix hpre => ?_
  obtain ⟨d, p, rfl⟩ := List.exists_cons_of_ne_nil hp
  rw [List.cons_append, List.cons_prefix_cons] at hpre
  obtain ⟨rfl, -⟩ := hpre
  exact h c rfl (hsuffix.subset List.mem_cons_self)

/-- The pieces of a text that goes on with the pattern. -/
lemma segments_append (hpat : pat ≠ []) (h : Apart id pat a (pat ++ b)) :
    segments pat (a ++ pat ++ b) = segments pat a ++ segments pat b := by
  induction hs : a.length using Nat.strong_induction_on generalizing a with
  | h n ih =>
    cases a with
    | nil => exact segments_append_pat hpat b
    | cons c a =>
      have hiff : pat <+: c :: (a ++ pat ++ b) ↔ pat <+: c :: a := by
        constructor
        · intro hp
          have hhere := h (c :: a) (List.cons_ne_nil _ _) List.suffix_rfl
          rw [List.map_id, List.map_id] at hhere
          refine hhere ?_
          simpa using hp
        · exact fun hp => hp.trans (by simp)
      by_cases hp : pat <+: c :: a
      · obtain ⟨t, ht⟩ := hp
        have hlt : t.length < n := by
          have hlength := congrArg List.length ht
          have hpos := List.length_pos_iff.2 hpat
          rw [List.length_append] at hlength
          omega
        have hrest : Apart id pat t (pat ++ b) :=
          fun p hp hsuffix => h p hp (hsuffix.trans (ht ▸ List.suffix_append pat t))
        rw [← ht, segments_append_pat hpat, List.append_assoc, List.append_assoc,
          segments_append_pat hpat, ← List.append_assoc, ih _ hlt hrest rfl]
        rfl
      · have hrest := ih a.length (by rw [← hs, List.length_cons]; omega) h.tail rfl
        rw [List.cons_append, List.cons_append, segments_cons (mt hiff.1 hp), hrest,
          segments_cons hp]
        cases hsegments : segments pat a with
        | nil => exact absurd hsegments (segments_ne_nil a)
        | cons l ls => rfl

/-- A text that ends in a word without the first and the last letter of the pattern ends in it in
its last piece. -/
lemma exists_last_segment {w : List α} (hpat : pat ≠ []) (hhead : ∀ c ∈ pat.head?, c ∉ w)
    (hlast : ∀ c ∈ pat.getLast?, c ∉ w) (a : List α) :
    ∃ ls l, segments pat (a ++ w) = ls ++ [l ++ w] := by
  induction hs : a.length using Nat.strong_induction_on generalizing a with
  | h n ih =>
    cases a with
    | nil =>
      refine ⟨[], [], ?_⟩
      have hnone : ∀ w : List α, (∀ c ∈ pat.head?, c ∉ w) → segments pat w = [w] := by
        intro w hw
        induction w with
        | nil => rfl
        | cons c w ih =>
          rw [segments_cons, ih fun d hd hmem => hw d hd (List.mem_cons_of_mem _ hmem)]
          · rfl
          · intro hpre
            obtain ⟨d, p, rfl⟩ := List.exists_cons_of_ne_nil hpat
            obtain ⟨rfl, -⟩ := List.cons_prefix_cons.1 hpre
            exact hw d rfl List.mem_cons_self
      exact hnone w hhead
    | cons c a =>
      by_cases hp : pat <+: c :: (a ++ w)
      · have hp' : pat <+: c :: a := by
          rcases prefix_or_split (p := c :: a) hp with hp | ⟨q, hq, heq, hqw⟩
          · exact hp
          · -- the pattern would end within `w`
            refine absurd (hqw.subset (List.getLast_mem hq)) (hlast _ ?_)
            rw [heq, List.getLast?_append_of_ne_nil _ hq]
            exact List.getLast?_eq_some_getLast hq
        obtain ⟨t, ht⟩ := hp'
        have hlt : t.length < n := by
          have hlength := congrArg List.length ht
          have hpos := List.length_pos_iff.2 hpat
          rw [List.length_append] at hlength
          omega
        obtain ⟨ls, l, hrest⟩ := ih _ hlt t rfl
        refine ⟨[] :: ls, l, ?_⟩
        rw [← ht, List.append_assoc, segments_append_pat hpat, hrest]
        rfl
      · obtain ⟨ls, l, hrest⟩ := ih a.length (by rw [← hs, List.length_cons]; omega) a rfl
        rw [List.cons_append, segments_cons hp, hrest]
        cases ls with
        | nil => exact ⟨[], c :: l, rfl⟩
        | cons k ls => exact ⟨(c :: k) :: ls, l, rfl⟩

end Replacing

/-! ### What a text put in completes -/

lemma infix_intercalate (sep : List α) {l : List α} {ls : List (List α)} (h : l ∈ ls) :
    l <:+: sep.intercalate ls := by
  induction ls with
  | nil => exact absurd h List.not_mem_nil
  | cons k ls ih =>
    cases ls with
    | nil =>
      obtain rfl := List.mem_singleton.1 h
      rw [List.intercalate_singleton]
    | cons k' ls =>
      rw [List.intercalate_cons_cons]
      rcases List.mem_cons.1 h with rfl | h
      · exact ⟨[], sep ++ sep.intercalate (k' :: ls), by simp⟩
      · exact (ih h).trans (List.suffix_append _ _).isInfix

/-- Each piece but the last one is followed by what is put between them. -/
lemma exists_of_mem_dropLast (sep : List α) {l : List α} {ls : List (List α)}
    (h : l ∈ ls.dropLast) : ∃ a b, sep.intercalate ls = a ++ l ++ sep ++ b := by
  induction ls with
  | nil => exact absurd h List.not_mem_nil
  | cons k ls ih =>
    cases ls with
    | nil => exact absurd h List.not_mem_nil
    | cons k' ls =>
      rw [List.intercalate_cons_cons]
      rw [List.dropLast_cons_cons] at h
      rcases List.mem_cons.1 h with rfl | h
      · exact ⟨[], sep.intercalate (k' :: ls), by simp⟩
      · obtain ⟨a, b, hab⟩ := ih h
        exact ⟨k ++ sep ++ a, b, by rw [hab]; simp⟩

section Completing

variable [DecidableEq β] {fold : α → β} {word : List β} {new a b : List α}

lemma occurrences_pos_of_infix (h : a <:+: b) (hpos : 0 < occurrences fold word a) :
    0 < occurrences fold word b := by
  obtain ⟨p, q, hp, rfl, hword⟩ := occurrences_pos_iff.1 hpos
  obtain ⟨x, y, rfl⟩ := h
  refine occurrences_pos_iff.2 ⟨p ++ y, x ++ q, ?_, by simp, ?_⟩
  · exact fun h => hp (List.append_eq_nil_iff.1 h).1
  · rw [List.map_append]
    exact hword.trans (List.prefix_append _ _)

omit [DecidableEq β] in
/-- An occurrence that begins before a long text without its first letter does not reach behind. -/
lemma apart_append (hword : word ≠ []) (hhead : ∀ c ∈ word.head?, c ∉ new.map fold)
    (hlong : word.length ≤ new.length) : Apart fold word (a ++ new) b := by
  intro p hp hsuffix hpre
  rcases List.suffix_or_suffix_of_suffix hsuffix (List.suffix_append a new) with hnew | hnew
  · exact apart_of_not_mem hhead hword p hp hnew hpre
  · refine List.prefix_of_prefix_length_le hpre ?_ ?_
    · rw [List.map_append]
      exact List.prefix_append _ _
    · have hle := hnew.length_le
      rw [List.length_map]
      omega

/-- Where a word occurs in pieces with a text between them. -/
lemma occurrences_intercalate_eq_zero (hword : word ≠ [])
    (hhead : ∀ c ∈ word.head?, c ∉ new.map fold) (hlong : word.length ≤ new.length)
    (ls : List (List α)) : occurrences fold word (new.intercalate ls) = 0 ↔
      (∀ l ∈ ls.dropLast, occurrences fold word (l ++ new) = 0) ∧
        ∀ l ∈ ls.getLast?, occurrences fold word l = 0 := by
  induction ls with
  | nil => simp [occurrences]
  | cons k ls ih =>
    cases ls with
    | nil => simp
    | cons k' ls =>
      rw [List.intercalate_cons_cons, occurrences_append (apart_append hword hhead hlong),
        Nat.add_eq_zero_iff, ih, List.dropLast_cons_cons, List.forall_mem_cons, and_assoc]
      rfl

/-- A text ends in the stem of a word of which a text put behind can only have the last letter. -/
lemma occurrences_append_eq_zero {stem : List β} {x : β} (hword : word = stem ++ [x])
    (hstem : stem ≠ []) (hhead : ∀ c ∈ word.head?, c ∉ new.map fold)
    (honly : ∀ p q, p ≠ [] → q ≠ [] → word = p ++ q → q <+: new.map fold → q = [x])
    (ha : occurrences fold word a = 0) : occurrences fold word (a ++ new) = 0 ↔
      ¬ (stem <:+ a.map fold ∧ [x] <+: new.map fold) := by
  have hne : word ≠ [] := by simp [hword]
  rw [← not_iff_not, not_not, ← ne_eq, ← Nat.pos_iff_ne_zero]
  constructor
  · intro hpos
    obtain ⟨p, q, hp, heq, hpre⟩ := occurrences_pos_iff.1 hpos
    rcases List.suffix_or_suffix_of_suffix ⟨q, heq.symm⟩ (List.suffix_append a new) with
      hsuffix | ⟨r, rfl⟩
    · -- the occurrence would begin in the text put behind
      obtain ⟨c, w, hcw⟩ := List.exists_cons_of_ne_nil hne
      obtain ⟨d, p, rfl⟩ := List.exists_cons_of_ne_nil hp
      rw [hcw, List.map_cons, List.cons_prefix_cons] at hpre
      refine absurd ?_ (hhead c (by rw [hcw]; rfl))
      rw [hpre.1]
      exact List.mem_map_of_mem (hsuffix.subset List.mem_cons_self)
    · obtain rfl : a = q ++ r := List.append_cancel_right (heq.trans (List.append_assoc _ _ _).symm)
      rw [List.map_append] at hpre
      rcases prefix_or_split hpre with hpre | ⟨t, ht, hsplit, htnew⟩
      · refine absurd ha (Nat.pos_iff_ne_zero.1 (occurrences_pos_iff.2 ⟨r, q, ?_, rfl, hpre⟩))
        rintro rfl
        exact hne (List.prefix_nil.1 hpre)
      · have hr : r.map fold ≠ [] := by
          intro hr
          rw [hr, List.nil_append] at hsplit
          obtain ⟨c, w, hcw⟩ := List.exists_cons_of_ne_nil hne
          refine hhead c (by rw [hcw]; rfl) (htnew.subset ?_)
          rw [← hsplit, hcw]
          exact List.mem_cons_self
        obtain rfl := honly _ t hr ht hsplit htnew
        refine ⟨⟨q.map fold, ?_⟩, htnew⟩
        rw [hword] at hsplit
        rw [List.map_append, List.append_cancel_right hsplit]
  · rintro ⟨⟨u, hu⟩, hx⟩
    obtain ⟨a, p, rfl, -, rfl⟩ := List.map_eq_append_iff.1 hu.symm
    obtain ⟨c, new, rfl⟩ : ∃ c new', new = c :: new' := by
      cases new with
      | nil => simp at hx
      | cons c new => exact ⟨c, new, rfl⟩
    refine occurrences_pos_iff.2 ⟨p ++ c :: new, a, by simp, by simp, ?_⟩
    obtain ⟨rfl, -⟩ := List.cons_prefix_cons.1 hx
    rw [hword]
    exact ⟨new.map fold, by simp⟩

end Completing

end Replace
