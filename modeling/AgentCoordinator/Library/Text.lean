import Mathlib.Data.List.DropRight
import Mathlib.Data.List.Infix

/-
Texts as lists of characters.

Three readings of a text recur in parsers by hand: what stands before and after the first
occurrence of a pattern (`cut`), a text without the blanks around it (`trimBy`), and its lines.
What a line parser relies on is how a cut behaves when text is put before or after: it moves as
long as the added text cannot start, or end, the pattern.
-/

namespace Text

variable {α : Type*} {p : α → Bool} {pat s t a b : List α}

/-! ### Statements about all characters -/

/-- What is said of the characters of a text is decided by going through the text, not through
all characters. -/
instance (priority := high) decidableBallText {q : Char → Prop} [DecidablePred q]
    (t : List Char) : Decidable (∀ c ∈ t, q c) :=
  List.decidableBAll q t

instance (priority := high) decidableBallLetter {q : Char → Prop} [DecidablePred q]
    (o : Option Char) : Decidable (∀ c ∈ o, q c) :=
  o.decidableForallMem

/-! ### Around a pattern -/

section Cut

variable [DecidableEq α]

/-- What stands before and after the first occurrence of `pat`. -/
def cut (pat : List α) : List α → Option (List α × List α)
  | [] => if pat = [] then some ([], []) else none
  | c :: s =>
    if pat <+: c :: s then some ([], (c :: s).drop pat.length)
    else (cut pat s).map fun found => (c :: found.1, found.2)

lemma cut_of_isPrefix (h : pat <+: s) : cut pat s = some ([], s.drop pat.length) := by
  cases s with
  | nil => rw [List.prefix_nil.1 h]; rfl
  | cons c s => rw [cut, if_pos h]

lemma cut_cons_of_not (h : ¬ pat <+: c :: s) :
    cut pat (c :: s) = (cut pat s).map fun found => (c :: found.1, found.2) := by
  rw [cut, if_neg h]

/-- A cut takes the text apart around the pattern. -/
lemma eq_append_of_cut (h : cut pat s = some (a, b)) : s = a ++ pat ++ b := by
  induction s generalizing a with
  | nil =>
    rw [cut] at h
    split_ifs at h with hpat
    simp only [Option.some.injEq, Prod.mk.injEq] at h
    simp [hpat, ← h.1, ← h.2]
  | cons c s ih =>
    by_cases hpat : pat <+: c :: s
    · rw [cut_of_isPrefix hpat, Option.some.injEq, Prod.mk.injEq] at h
      rw [← h.1, ← h.2, List.nil_append]
      exact (List.prefix_iff_eq_append.1 hpat).symm
    · rw [cut_cons_of_not hpat, Option.map_eq_some_iff] at h
      obtain ⟨⟨a', b'⟩, hcut, heq⟩ := h
      obtain ⟨rfl, rfl⟩ := Prod.mk.inj heq
      rw [ih hcut]
      rfl

/-- Text that cannot start the pattern goes before the cut. -/
lemma cut_append_left (hpat : ∀ c ∈ pat.head?, c ∉ t) (hne : pat ≠ []) :
    cut pat (t ++ s) = (cut pat s).map fun found => (t ++ found.1, found.2) := by
  induction t with
  | nil => simp
  | cons c t ih =>
    have hnot : ¬ pat <+: c :: (t ++ s) := by
      obtain ⟨d, pat', rfl⟩ := List.exists_cons_of_ne_nil hne
      intro h
      rw [List.cons_prefix_cons] at h
      exact hpat d rfl (h.1 ▸ List.mem_cons_self)
    have ih' := ih fun d hd hmem => hpat d hd (List.mem_cons_of_mem c hmem)
    rw [List.cons_append, cut_cons_of_not hnot, ih']
    simp [Function.comp_def]

/-- Text that cannot end the pattern goes after the cut. -/
lemma cut_append_right (hpat : ∀ c ∈ pat.getLast?, c ∉ t) (hne : pat ≠ []) :
    cut pat (s ++ t) = (cut pat s).map fun found => (found.1, found.2 ++ t) := by
  -- an occurrence in `s ++ t` ends within `s`
  have hwithin (s : List α) (h : pat <+: s ++ t) : pat <+: s := by
    refine List.prefix_of_prefix_length_le h (List.prefix_append s t) ?_
    by_contra hlen
    rw [not_le] at hlen
    obtain ⟨u, hu⟩ := List.prefix_of_prefix_length_le (List.prefix_append s t) h hlen.le
    have hune : u ≠ [] := by
      rintro rfl
      rw [List.append_nil] at hu
      rw [hu] at hlen
      exact lt_irrefl _ hlen
    have hut : u <+: t := by
      rw [← hu] at h
      exact (List.prefix_append_right_inj s).1 h
    refine hpat (u.getLast hune) ?_ (hut.subset (List.getLast_mem hune))
    rw [← hu, Option.mem_def, List.getLast?_append_of_ne_nil _ hune,
      List.getLast?_eq_some_getLast hune]
  induction s with
  | nil =>
    cases hcut : cut pat ([] ++ t) with
    | none => simp [cut, hne]
    | some found =>
      have heq := eq_append_of_cut hcut
      obtain ⟨c, hc⟩ := Option.ne_none_iff_exists'.1 (mt List.getLast?_eq_none_iff.1 hne)
      refine absurd ?_ (hpat c hc)
      rw [List.nil_append] at heq
      rw [heq]
      simp [List.mem_of_getLast? hc]
  | cons c s ih =>
    by_cases hs : pat <+: c :: s
    · rw [cut_of_isPrefix hs, cut_of_isPrefix (hs.trans (List.prefix_append _ _)),
        List.drop_append_of_le_length hs.length_le]
      rfl
    · have hst : ¬ pat <+: c :: (s ++ t) := mt (hwithin (c :: s)) hs
      rw [List.cons_append, cut_cons_of_not hst, ih, cut_cons_of_not hs]
      simp [Function.comp_def]

end Cut

/-! ### Blanks around a text -/

/-- A text without the elements in `p` at either end. -/
def trimBy (p : α → Bool) (s : List α) : List α := (s.dropWhile p).rdropWhile p

/-- What is trimmed off at the end is blank. -/
lemma exists_append_rdropWhile (p : α → Bool) (s : List α) :
    ∃ t, s = s.rdropWhile p ++ t ∧ ∀ c ∈ t, p c = true :=
  ⟨s.rtakeWhile p, (List.rdropWhile_append_rtakeWhile).symm, fun _ => List.mem_rtakeWhile_imp⟩

lemma trimBy_of_head (h : ∀ c ∈ s.head?, p c = false) : trimBy p s = s.rdropWhile p := by
  cases s with
  | nil => rfl
  | cons c s => rw [trimBy, List.dropWhile_cons_of_neg (by simp [h c rfl])]

/-! ### Lines -/

/-- Pieces that each end after a `sep`, the last one apart. -/
def splitAfter [DecidableEq α] (sep : α) : List α → List (List α)
  | [] => []
  | c :: s =>
    if c = sep then [c] :: splitAfter sep s
    else match splitAfter sep s with
      | [] => [[c]]
      | l :: ls => (c :: l) :: ls

/-- A text without its end `e`, if it has it. -/
def chomp [DecidableEq α] (e s : List α) : Option (List α) :=
  if e <:+ s then some (s.take (s.length - e.length)) else none

/-- The lines of a text: each ends in a newline or a carriage return and a newline, the last one
maybe in neither. -/
def lines (s : List Char) : List (List Char) :=
  (splitAfter '\n' s).map fun l =>
    match chomp ['\n'] l with
    | none => l
    | some l => (chomp ['\r'] l).getD l

/-- A line without the carriage return at its end, if it has one. -/
def dropReturn (l : List Char) : List Char := (chomp ['\r'] l).getD l

lemma splitAfter_append [DecidableEq α] {sep : α} {l : List α} (h : sep ∉ l) (s : List α) :
    splitAfter sep (l ++ sep :: s) = (l ++ [sep]) :: splitAfter sep s := by
  induction l with
  | nil => rw [List.nil_append, splitAfter, if_pos rfl, List.nil_append]
  | cons c l ih =>
    rw [List.mem_cons, not_or] at h
    rw [List.cons_append, splitAfter, if_neg (Ne.symm h.1), ih h.2]
    rfl

lemma chomp_append [DecidableEq α] (e s : List α) : chomp e (s ++ e) = some s := by
  rw [chomp, if_pos (List.suffix_append s e), List.length_append, Nat.add_sub_cancel,
    List.take_left]

/-- A line that ends is the first of a text. -/
lemma lines_append {l : List Char} (h : '\n' ∉ l) (s : List Char) :
    lines (l ++ '\n' :: s) = dropReturn l :: lines s := by
  rw [lines, splitAfter_append h, List.map_cons, chomp_append, lines]
  rfl

/-- The lines of a text in which every line ends. -/
theorem lines_flatMap {ls : List (List Char)} (h : ∀ l ∈ ls, '\n' ∉ l) :
    lines (ls.flatMap (· ++ ['\n'])) = ls.map dropReturn := by
  induction ls with
  | nil => rfl
  | cons l ls ih =>
    rw [List.flatMap_cons, List.append_assoc, List.singleton_append,
      lines_append (h l List.mem_cons_self), ih fun l hl => h l (List.mem_cons_of_mem _ hl),
      List.map_cons]

/-! ### Words -/

/-- What stands behind `pat`, if the text starts with it. -/
def afterStart [DecidableEq α] (pat s : List α) : Option (List α) :=
  if pat <+: s then some (s.drop pat.length) else none

lemma afterStart_append [DecidableEq α] (pat s : List α) :
    afterStart pat (pat ++ s) = some s := by
  rw [afterStart, if_pos (List.prefix_append pat s), List.drop_left]

/-- A text has no element in `p`, or a first one. -/
lemma exists_first (p : α → Bool) (s : List α) :
    (∀ c ∈ s, p c = false) ∨
      ∃ x sep r, s = x ++ sep :: r ∧ (∀ c ∈ x, p c = false) ∧ p sep = true := by
  induction s with
  | nil => exact .inl nofun
  | cons c s ih =>
    cases hc : p c with
    | true => exact .inr ⟨[], c, s, rfl, nofun, hc⟩
    | false =>
      rcases ih with h | ⟨x, sep, r, rfl, hx, hsep⟩
      · exact .inl (List.forall_mem_cons.2 ⟨hc, h⟩)
      · exact .inr ⟨c :: x, sep, r, rfl, List.forall_mem_cons.2 ⟨hc, hx⟩, hsep⟩

/-- A piece that stands between elements in `p`. -/
lemma mem_splitOnP_of_eq {w : List α} (hs : s = a ++ w ++ b) (hw : ∀ c ∈ w, p c = false)
    (ha : ∀ c ∈ a.getLast?, p c = true) (hb : ∀ c ∈ b.head?, p c = true) :
    w ∈ s.splitOnP p := by
  subst hs
  have hfront : w ∈ (a ++ w).splitOnP p := by
    rcases List.eq_nil_or_concat' a with rfl | ⟨a, sep, rfl⟩
    · rw [List.nil_append, List.splitOnP_eq_singleton hw]
      exact List.mem_singleton.2 rfl
    · rw [List.append_assoc, List.singleton_append,
        List.splitOnP_append_cons _ _ (ha sep (by simp)), List.splitOnP_eq_singleton hw]
      exact List.mem_append_right _ (List.mem_singleton.2 rfl)
  cases b with
  | nil => rwa [List.append_nil]
  | cons sep b =>
    rw [List.splitOnP_append_cons _ _ (hb sep rfl)]
    exact List.mem_append_left _ hfront

/-- The pieces of a text between the elements in `p` are its maximal runs of others. -/
theorem mem_splitOnP_iff {w : List α} :
    w ∈ s.splitOnP p ↔ ∃ a b, s = a ++ w ++ b ∧ (∀ c ∈ w, p c = false) ∧
      (∀ c ∈ a.getLast?, p c = true) ∧ ∀ c ∈ b.head?, p c = true := by
  constructor
  · intro h
    induction hn : s.length using Nat.strongRecOn generalizing s with
    | ind n ih =>
      rcases exists_first p s with hall | ⟨x, sep, r, rfl, hx, hsep⟩
      · rw [List.splitOnP_eq_singleton hall, List.mem_singleton] at h
        subst h
        exact ⟨[], [], by simp, hall, nofun, nofun⟩
      · rw [List.splitOnP_append_cons_of_forall_mem hx sep hsep, List.mem_cons] at h
        rcases h with rfl | h
        · refine ⟨[], sep :: r, rfl, hx, nofun, fun c hc => ?_⟩
          obtain rfl := Option.some.inj hc
          exact hsep
        · -- a piece behind the separator
          rw [List.length_append, List.length_cons] at hn
          obtain ⟨a, b, rfl, hw, ha, hb⟩ := ih r.length (by omega) h rfl
          refine ⟨x ++ sep :: a, b, by simp, hw, fun c hc => ?_, hb⟩
          rw [List.getLast?_append, List.getLast?_cons, Option.some_or] at hc
          obtain rfl := Option.some.inj hc
          cases hlast : a.getLast? with
          | none => exact hsep
          | some c => exact ha c hlast
  · rintro ⟨a, b, hs, hw, ha, hb⟩
    exact mem_splitOnP_of_eq hs hw ha hb

/-- The pieces of a text in which every piece ends. -/
lemma splitOnP_flatMap {sep : α} (hsep : p sep = true) {ls : List (List α)}
    (h : ∀ l ∈ ls, ∀ c ∈ l, p c = false) :
    (ls.flatMap (· ++ [sep])).splitOnP p = ls ++ [[]] := by
  induction ls with
  | nil => rfl
  | cons l ls ih =>
    rw [List.flatMap_cons, List.append_assoc, List.singleton_append,
      List.splitOnP_append_cons_of_forall_mem (h l List.mem_cons_self) sep hsep,
      ih fun l hl => h l (List.mem_cons_of_mem _ hl), List.cons_append]

/-- A text is its pieces, each with a separator behind it but the last. -/
lemma flatMap_splitOnP [DecidableEq α] (sep : α) (s : List α) :
    (s.splitOnP (· = sep)).flatMap (· ++ [sep]) = s ++ [sep] := by
  induction hn : s.length using Nat.strongRecOn generalizing s with
  | ind n ih =>
    rcases exists_first (fun c => decide (c = sep)) s with hall | ⟨x, c, r, rfl, hx, hc⟩
    · rw [List.splitOnP_eq_singleton hall, List.flatMap_singleton]
    · obtain rfl := of_decide_eq_true hc
      rw [List.length_append, List.length_cons] at hn
      rw [List.splitOnP_append_cons_of_forall_mem hx c hc, List.flatMap_cons,
        ih r.length (by omega) r rfl]
      simp

/-- The last piece of a text. -/
lemma getLastD_splitOnP {sep : α} (hsep : p sep = true) {name : List α}
    (hname : ∀ c ∈ name, p c = false) (dir d : List α) :
    ((dir ++ sep :: name).splitOnP p).getLastD d = name := by
  rw [List.splitOnP_append_cons _ _ hsep, List.splitOnP_eq_singleton hname, List.getLastD_concat]

/-- A text has no element in `p`, or a last one. -/
lemma exists_last (p : α → Bool) (s : List α) :
    (∀ c ∈ s, p c = false) ∨
      ∃ x sep r, s = x ++ sep :: r ∧ (∀ c ∈ r, p c = false) ∧ p sep = true := by
  induction s with
  | nil => exact .inl nofun
  | cons c s ih =>
    rcases ih with h | ⟨x, sep, r, rfl, hr, hsep⟩
    · cases hc : p c with
      | true => exact .inr ⟨[], c, s, rfl, h, hc⟩
      | false => exact .inl (List.forall_mem_cons.2 ⟨hc, h⟩)
    · exact .inr ⟨c :: x, sep, r, rfl, hr, hsep⟩

/-! ### Looking back -/

/-- An element with `P` occurs, and all after it have `Q`. -/
def Since (P Q : α → Prop) (s : List α) : Prop :=
  ∃ a x b, s = a ++ x :: b ∧ P x ∧ ∀ y ∈ b, Q y

lemma not_since_nil {P Q : α → Prop} : ¬ Since P Q ([] : List α) := by
  rintro ⟨a, x, b, heq, -⟩
  simp at heq

/-- The last element decides, or leaves it to those before. -/
lemma since_concat {P Q : α → Prop} {x : α} :
    Since P Q (s ++ [x]) ↔ P x ∨ (Q x ∧ Since P Q s) := by
  constructor
  · rintro ⟨a, y, b, heq, hy, hb⟩
    rcases List.eq_nil_or_concat b with rfl | ⟨b, z, rfl⟩
    · obtain ⟨-, hxy⟩ := List.append_inj' heq rfl
      obtain rfl := List.singleton_inj.1 hxy
      exact .inl hy
    · rw [List.concat_eq_append, ← List.cons_append, ← List.append_assoc] at heq
      obtain ⟨rfl, hxz⟩ := List.append_inj' heq rfl
      obtain rfl := List.singleton_inj.1 hxz
      rw [List.concat_eq_append] at hb
      exact .inr ⟨hb x (by simp), a, y, b, rfl, hy, fun z hz => hb z (by simp [hz])⟩
  · rintro (hx | ⟨hx, a, y, b, rfl, hy, hb⟩)
    · exact ⟨s, x, [], rfl, hx, by simp⟩
    · refine ⟨a, y, b ++ [x], by simp, hy, ?_⟩
      simp only [List.mem_append, List.mem_singleton]
      rintro z (hz | rfl)
      · exact hb z hz
      · exact hx

end Text
