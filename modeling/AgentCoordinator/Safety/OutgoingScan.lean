import AgentCoordinator.Local.ScanLog

/-
What the scan finds of what Git writes.

No text of a commit can pass for a line of another kind: a line of a hunk starts with its mark, a
line of a header with one of a few words, and NUL ends every path. So the scan sees every added
line, every path and every line of a commit object. It misses a token only where another hex digit
stands next to it, since a token has to be a whole word, and it reads a commit object without its
NUL bytes, which can hide what they kept apart.
-/

namespace AgentCoordinator.SecretScan

open Text Utf8 Guarded

/-! ### Secrets -/

section Secrets

variable (m : Matchers) (known : List String)

/-- A coordinator token, in any letter case: 64 hex digits with a known digest. -/
def IsToken (w : List Char) : Prop :=
  w.length = 64 ∧ (∀ c ∈ w, isAsciiHexdigit c = true) ∧
    (m.digest w ∈ known ∨ m.digest (w.map Char.toLower) ∈ known)

/-- Some rule matches the text. -/
def MatchesRule (t : List Char) : Prop := ∃ rule ∈ RULES, m.isMatch rule.2 t = true

/-- The text contains a secret. -/
def Secret (t : List Char) : Prop :=
  MatchesRule m t ∨ ∃ a w b, t = a ++ w ++ b ∧ IsToken m known w

/-- The text contains a secret, and if that is a token then no hex digit is next to it. -/
def Plain (t : List Char) : Prop :=
  MatchesRule m t ∨ ∃ a w b, t = a ++ w ++ b ∧ IsToken m known w ∧
    (∀ c ∈ a.getLast?, isAsciiHexdigit c = false) ∧ ∀ c ∈ b.head?, isAsciiHexdigit c = false

variable {m known} {t : List Char}

/-- A known token is found where it is a whole word. -/
lemma containsKnownToken_iff : containsKnownToken m known t = true ↔
    ∃ a w b, t = a ++ w ++ b ∧ IsToken m known w ∧
      (∀ c ∈ a.getLast?, isAsciiHexdigit c = false) ∧
        ∀ c ∈ b.head?, isAsciiHexdigit c = false := by
  have hcandidates : ∀ w : List Char, ([w, w.map Char.toLower].any fun candidate =>
      known.contains (m.digest candidate)) = true ↔
        m.digest w ∈ known ∨ m.digest (w.map Char.toLower) ∈ known := by
    intro w
    simp
  rw [containsKnownToken, Bool.and_eq_true, List.any_eq_true]
  constructor
  · rintro ⟨-, w, hw, hknown⟩
    obtain ⟨hpiece, hlength⟩ := List.mem_filter.1 hw
    obtain ⟨a, b, ht, hhex, ha, hb⟩ := mem_splitOnP_iff.1 hpiece
    refine ⟨a, w, b, ht, ⟨of_decide_eq_true hlength, fun c hc => by simpa using hhex c hc,
      (hcandidates w).1 hknown⟩, fun c hc => by simpa using ha c hc,
      fun c hc => by simpa using hb c hc⟩
  · rintro ⟨a, w, b, ht, ⟨hlength, hhex, hknown⟩, ha, hb⟩
    refine ⟨?_, w, List.mem_filter.2 ⟨mem_splitOnP_iff.2 ⟨a, b, ht, ?_, ?_, ?_⟩,
      decide_eq_true hlength⟩, (hcandidates w).2 hknown⟩
    · cases known with
      | nil => simp at hknown
      | cons => rfl
    · intro c hc
      simp [hhex c hc]
    · intro c hc
      simp [ha c hc]
    · intro c hc
      simp [hb c hc]

lemma matchingRule_isSome : (matchingRule m known t).isSome = true ↔ Plain m known t := by
  rw [matchingRule, Plain, ← containsKnownToken_iff, MatchesRule]
  split_ifs with h
  · exact iff_of_true rfl (.inr h)
  · rw [Option.isSome_map, List.find?_isSome]
    exact ⟨fun h => .inl h, fun h' => h'.resolve_right h⟩

end Secrets

/-! ### Decoded lines -/

section Decoding

variable {s t : List Char} {l : List UInt8}

/-- The text is ASCII. -/
def AsciiText (s : List Char) : Prop := ∀ c ∈ s, c.toNat ≤ 0x7F

instance (s : List Char) : Decidable (AsciiText s) := inferInstanceAs (Decidable (∀ c ∈ s, _))

lemma toNat_encode {c : Char} (h : c.toNat ≤ 0x7F) : (UInt8.ofNat c.toNat).toNat = c.toNat := by
  rw [UInt8.toNat_ofNat']
  omega

/-- ASCII text in front is decoded to itself. -/
lemma lossy_encode (h : AsciiText s) (l : List UInt8) :
    lossy (encode s ++ l) = s ++ lossy l := by
  induction s with
  | nil => rfl
  | cons c s ih =>
    have hc := h c List.mem_cons_self
    have hstep := lossy_ascii (a := []) (c := encode s ++ l)
      (b := UInt8.ofNat c.toNat) (by rw [IsAscii, toNat_encode hc]; exact hc)
    rw [ih fun c hc => h c (List.mem_cons_of_mem _ hc), ascii, toNat_encode hc,
      Char.ofNat_toNat] at hstep
    exact hstep

lemma strict_encode (h : AsciiText s) : strict (encode s) = some s := by
  have hmap : (encode s).map ascii = s := by
    rw [encode, List.map_map]
    refine (List.map_congr_left fun c hc => ?_).trans (List.map_id s)
    rw [Function.comp_apply, ascii, toNat_encode (h c hc), Char.ofNat_toNat, id]
  rw [strict_all_ascii, hmap]
  intro b hb
  obtain ⟨c, hc, rfl⟩ := List.mem_map.1 hb
  rw [IsAscii, toNat_encode (h c hc)]
  exact h c hc

/-- Lines are decoded one by one. -/
lemma lossy_flatMap (ls : List (List UInt8)) :
    lossy (ls.flatMap (· ++ [newline])) = (ls.map lossy).flatMap (· ++ ['\n']) := by
  induction ls with
  | nil => rfl
  | cons l ls ih =>
    rw [List.flatMap_cons, List.append_assoc, List.singleton_append, lossy_ascii (by decide), ih,
      List.map_cons, List.flatMap_cons, List.append_assoc]
    rfl

lemma newline_not_mem_lossy (h : newline ∉ l) : '\n' ∉ lossy l := by
  intro hmem
  obtain ⟨b, hb, heq⟩ := mem_lossy_ascii (by decide) hmem
  have hbyte : b = newline := UInt8.toNat_inj.1 heq
  exact h (hbyte ▸ hb)

/-- The lines of decoded lines. -/
lemma lines_lossy {ls : List (List UInt8)} (h : ∀ l ∈ ls, newline ∉ l) :
    lines (lossy (ls.flatMap (· ++ [newline]))) = ls.map fun l => dropReturn (lossy l) := by
  rw [lossy_flatMap, lines_flatMap, List.map_map]
  · rfl
  · intro t ht
    obtain ⟨l, hl, rfl⟩ := List.mem_map.1 ht
    exact newline_not_mem_lossy (h l hl)

lemma dropReturn_concat (c : Char) :
    dropReturn (t ++ [c]) = if c = '\r' then t else t ++ [c] := by
  rw [dropReturn]
  split_ifs with hc
  · rw [hc, chomp_append]
    rfl
  · rw [chomp, if_neg]
    · rfl
    · rintro ⟨r, hr⟩
      exact hc (List.cons.inj (List.append_inj' hr rfl).2).1.symm

/-- A carriage return at the end is not in the text in front. -/
lemma dropReturn_append (h : s.getLast? ≠ some '\r') (t : List Char) :
    dropReturn (s ++ t) = s ++ dropReturn t := by
  rcases List.eq_nil_or_concat' t with rfl | ⟨t, c, rfl⟩
  · rw [List.append_nil]
    rcases List.eq_nil_or_concat' s with rfl | ⟨s, c, rfl⟩
    · rfl
    · rw [dropReturn_concat, if_neg fun hc => h (by rw [hc, List.getLast?_concat])]
      exact (List.append_nil _).symm
  · rw [← List.append_assoc, dropReturn_concat, dropReturn_concat]
    split_ifs
    · rfl
    · rw [List.append_assoc]

/-- The decoded text of a line. -/
def textOf (l : List UInt8) : List Char := dropReturn (lossy l)

lemma textOf_encode (hascii : AsciiText s) (h : s.getLast? ≠ some '\r') (l : List UInt8) :
    textOf (encode s ++ l) = s ++ textOf l := by
  rw [textOf, lossy_encode hascii, dropReturn_append h, ← textOf]

end Decoding

/-! ### The patch -/

section Patch

variable {m : Matchers} {known : List String} {st : PatchState} {pat s t x : List Char}

/-- The added texts of the lines of a patch, and the state after them. -/
def trace : PatchState → List (List Char) → List (List Char) × PatchState
  | st, [] => ([], st)
  | st, line :: lines =>
    ((st.advance line).2.toList ++ (trace (st.advance line).1 lines).1,
      (trace (st.advance line).1 lines).2)

lemma trace_append (st : PatchState) (ls ls' : List (List Char)) :
    trace st (ls ++ ls') = ((trace st ls).1 ++ (trace (trace st ls).2 ls').1,
      (trace (trace st ls).2 ls').2) := by
  induction ls generalizing st with
  | nil => rfl
  | cons l ls ih => rw [List.cons_append, trace, trace, ih, List.append_assoc]

/-- The scan finds nothing exactly when no added text has a rule. -/
lemma scanLines_eq_nil_iff (ls : List (List Char)) : scanLines m known st ls = [] ↔
    ∀ t ∈ (trace st ls).1, (matchingRule m known t).isSome = false := by
  induction ls generalizing st with
  | nil => exact iff_of_true rfl nofun
  | cons l ls ih =>
    rw [scanLines, trace, List.append_eq_nil_iff, ih, List.forall_mem_append]
    refine and_congr_left fun _ => ?_
    cases (st.advance l).2 with
    | none => exact iff_of_true rfl nofun
    | some t =>
      cases hrule : matchingRule m known t with
      | none => exact iff_of_true (by simp [hrule]) (by simp [hrule])
      | some rule => exact iff_of_false (by simp [hrule]) (by simp [hrule])

/-- Texts that start differently. -/
lemma not_isPrefix_append (n : Nat) (hpat : n ≤ pat.length) (hs : n ≤ s.length)
    (h : pat.take n ≠ s.take n) : ¬ pat <+: s ++ x := by
  rintro ⟨r, hr⟩
  have htake := congrArg (List.take n) hr
  rw [List.take_append_of_le_length hpat, List.take_append_of_le_length hs] at htake
  exact h htake

/-- A line that names a commit. -/
lemma advance_marker (st : PatchState) (x : List Char) :
    (st.advance ("commit:".toList ++ x)).1.inHeader = false ∧
      (st.advance ("commit:".toList ++ x)).2 = none := by
  rw [PatchState.advance, if_pos (List.prefix_append _ _)]
  exact ⟨rfl, rfl⟩

/-- The first line of a changed file. -/
lemma advance_diff (st : PatchState) (x : List Char) :
    (st.advance ("diff --".toList ++ x)).1.inHeader = true ∧
      (st.advance ("diff --".toList ++ x)).2 = none := by
  rw [PatchState.advance, if_neg (not_isPrefix_append 1 (by decide) (by decide) (by decide)),
    if_pos (List.prefix_append _ _)]
  exact ⟨rfl, rfl⟩

/-- The heading of a hunk. -/
lemma advance_hunk (st : PatchState) (x : List Char) :
    (st.advance ("@@".toList ++ x)).1.inHeader = false ∧
      (st.advance ("@@".toList ++ x)).2 = none := by
  rw [PatchState.advance, if_neg (not_isPrefix_append 1 (by decide) (by decide) (by decide)),
    if_neg (not_isPrefix_append 1 (by decide) (by decide) (by decide))]
  cases hheader : st.inHeader with
  | true =>
    rw [if_pos rfl, if_pos (List.prefix_append _ _)]
    exact ⟨rfl, rfl⟩
  | false =>
    rw [if_neg Bool.false_ne_true, afterStart,
      if_neg (not_isPrefix_append 1 (by decide) (by decide) (by decide))]
    exact ⟨hheader, rfl⟩

/-- A line of a header. -/
lemma advance_header (h : st.inHeader = true) (kind : HeaderKind) (x : List Char) :
    (st.advance (kind.start ++ x)).1.inHeader = true ∧
      (st.advance (kind.start ++ x)).2 = none := by
  have hcommit : ¬ "commit:".toList <+: kind.start ++ x :=
    not_isPrefix_append 3 (by decide) (by cases kind <;> decide) (by cases kind <;> decide)
  have hdiff : ¬ "diff --".toList <+: kind.start ++ x :=
    not_isPrefix_append 3 (by decide) (by cases kind <;> decide) (by cases kind <;> decide)
  have hhunk : ¬ "@@".toList <+: kind.start ++ x :=
    not_isPrefix_append 1 (by decide) (by cases kind <;> decide) (by cases kind <;> decide)
  rw [PatchState.advance, if_neg hcommit, if_neg hdiff, if_pos h, if_neg hhunk]
  split_ifs
  · exact ⟨h, rfl⟩
  · exact ⟨h, rfl⟩

/-- A line of a hunk. -/
lemma advance_line (h : st.inHeader = false) (mark : HunkMark) (x : List Char) :
    st.advance ([mark.start] ++ x) = (st, if mark = .added then some x else none) := by
  have hcommit : ¬ "commit:".toList <+: [mark.start] ++ x :=
    not_isPrefix_append 1 (by decide) (Nat.le_refl 1) (by cases mark <;> decide)
  have hdiff : ¬ "diff --".toList <+: [mark.start] ++ x :=
    not_isPrefix_append 1 (by decide) (Nat.le_refl 1) (by cases mark <;> decide)
  rw [PatchState.advance, if_neg hcommit, if_neg hdiff, h, if_neg Bool.false_ne_true]
  cases mark with
  | added => exact congrArg _ (afterStart_append ['+'] x)
  | _ => rfl

/-- An empty line. -/
lemma advance_nil (st : PatchState) : st.advance [] = (st, none) := by
  rw [PatchState.advance, if_neg (by decide), if_neg (by decide)]
  split_ifs with hheader hhunk hpath
  · exact absurd hhunk (by decide)
  · exact absurd hpath (by decide)
  · rfl
  · rfl

/-- The texts that a hunk adds. -/
def Hunk.added (h : Hunk) : List (List Char) :=
  h.lines.filterMap fun l => if l.1 = .added then some (textOf l.2) else none

/-- The texts that a changed file adds. -/
def FileChange.added (f : FileChange) : List (List Char) := f.hunks.flatMap Hunk.added

/-- The texts that a commit adds. -/
def OutgoingCommit.added (c : OutgoingCommit) : List (List Char) :=
  c.files.flatMap FileChange.added

/-- The lines of a hunk give the texts it adds. -/
lemma trace_lines (h : st.inHeader = false) (ls : List (HunkMark × Line)) :
    trace st (ls.map fun l => textOf (encode [l.1.start] ++ l.2)) =
      (ls.filterMap fun l => if l.1 = .added then some (textOf l.2) else none, st) := by
  induction ls with
  | nil => rfl
  | cons l ls ih =>
    have hline : textOf (encode [l.1.start] ++ l.2) = [l.1.start] ++ textOf l.2 :=
      textOf_encode (by cases l.1 <;> decide) (by cases l.1 <;> decide) _
    rw [List.map_cons, trace, hline, advance_line h, ih, List.filterMap_cons]
    split_ifs
    · rfl
    · rfl

/-- A hunk is read from its heading on, whatever was read before. -/
lemma trace_hunk (st : PatchState) (h : Hunk) :
    (trace st (h.patch.map textOf)).1 = h.added ∧
      (trace st (h.patch.map textOf)).2.inHeader = false := by
  have hheading : textOf (encode "@@".toList ++ h.heading) = "@@".toList ++ textOf h.heading :=
    textOf_encode (by decide) (by decide) _
  obtain ⟨hheader, hnone⟩ := advance_hunk st (textOf h.heading)
  rw [Hunk.patch, List.map_cons, List.map_map, trace, hheading, hnone]
  have hlines := trace_lines hheader h.lines
  rw [show (textOf ∘ fun l : HunkMark × Line => encode [l.1.start] ++ l.2) =
    fun l => textOf (encode [l.1.start] ++ l.2) from rfl, hlines]
  exact ⟨rfl, hheader⟩

/-- The lines of a listing, item by item, each read alike from any state. -/
lemma trace_flatMap {α : Type} {f : α → List (List Char)} {g : α → List (List Char)}
    (h : ∀ st a, (trace st (f a)).1 = g a) (st : PatchState) (items : List α) :
    (trace st (items.flatMap f)).1 = items.flatMap g := by
  induction items generalizing st with
  | nil => rfl
  | cons a items ih => rw [List.flatMap_cons, trace_append, h, ih, List.flatMap_cons]

lemma trace_hunks (st : PatchState) (hs : List Hunk) :
    (trace st ((hs.flatMap Hunk.patch).map textOf)).1 = hs.flatMap Hunk.added := by
  rw [List.map_flatMap]
  exact trace_flatMap (fun st h => (trace_hunk st h).1) st hs

/-- The header of a changed file gives nothing. -/
lemma trace_header (h : st.inHeader = true) (ls : List (HeaderKind × Line)) :
    (trace st (ls.map fun l => textOf (encode l.1.start ++ l.2))).1 = [] := by
  induction ls generalizing st with
  | nil => rfl
  | cons l ls ih =>
    have hline : textOf (encode l.1.start ++ l.2) = l.1.start ++ textOf l.2 :=
      textOf_encode (by cases l.1 <;> decide) (by cases l.1 <;> decide) _
    obtain ⟨hheader, hnone⟩ := advance_header h l.1 (textOf l.2)
    rw [List.map_cons, trace, hline, hnone, ih hheader]
    rfl

/-- A changed file is read from its first line on. -/
lemma trace_file (st : PatchState) (f : FileChange) :
    (trace st (f.patch.map textOf)).1 = f.added := by
  have hnames : textOf (encode "diff --".toList ++ f.names) = "diff --".toList ++ textOf f.names :=
    textOf_encode (by decide) (by decide) _
  obtain ⟨hheader, hnone⟩ := advance_diff st (textOf f.names)
  rw [FileChange.patch, List.cons_append, List.map_cons, List.map_append, List.map_map, trace,
    hnames, hnone, trace_append, trace_hunks,
    show (textOf ∘ fun l : HeaderKind × Line => encode l.1.start ++ l.2) =
      fun l => textOf (encode l.1.start ++ l.2) from rfl, trace_header hheader]
  rfl

/-- Where the hex digits are. -/
lemma toNat_of_isAsciiHexdigit {c : Char} (h : isAsciiHexdigit c = true) :
    0x30 ≤ c.toNat ∧ c.toNat ≤ 0x7F := by
  simp only [isAsciiHexdigit, Bool.or_eq_true, Bool.and_eq_true, decide_eq_true_eq, Char.le_def,
    UInt32.le_iff_toNat_le] at h
  rcases h with (h | h) | h
  · exact ⟨h.1, le_trans (b := '9'.toNat) h.2 (by decide)⟩
  · exact ⟨le_trans (b := 'a'.toNat) (by decide) h.1, le_trans (b := 'f'.toNat) h.2 (by decide)⟩
  · exact ⟨le_trans (b := 'A'.toNat) (by decide) h.1, le_trans (b := 'F'.toNat) h.2 (by decide)⟩

lemma toNat_of_mem_marker {c : OutgoingCommit} {x : Char} (hx : x ∈ c.marker) :
    0x30 ≤ x.toNat ∧ x.toNat ≤ 0x7F := by
  rcases List.mem_append.1 hx with hx | hx
  · have hcommit : ∀ x ∈ "commit:".toList, 0x30 ≤ x.toNat ∧ x.toNat ≤ 0x7F := by decide
    exact hcommit x hx
  · exact toNat_of_isAsciiHexdigit (c.oid.2.2 x hx)

lemma ascii_marker (c : OutgoingCommit) : AsciiText c.marker := fun _ hx =>
  (toNat_of_mem_marker hx).2

/-- The bytes of a marker are no separators. -/
lemma toNat_of_mem_encode_marker {c : OutgoingCommit} {b : UInt8} (hb : b ∈ encode c.marker) :
    0x30 ≤ b.toNat := by
  obtain ⟨x, hx, rfl⟩ := List.mem_map.1 hb
  rw [toNat_encode (ascii_marker c x hx)]
  exact (toNat_of_mem_marker hx).1

lemma getLast?_marker (c : OutgoingCommit) :
    ∃ x, c.marker.getLast? = some x ∧ isAsciiHexdigit x = true := by
  have hne : c.oid.val ≠ [] := by
    intro hnil
    have hlength := c.oid.2.1
    rw [hnil] at hlength
    simp at hlength
  obtain ⟨x, hx⟩ := Option.isSome_iff_exists.1 (List.getLast?_isSome.2 hne)
  refine ⟨x, ?_, c.oid.2.2 x (List.mem_of_getLast? hx)⟩
  rw [c.marker_eq, List.getLast?_append, hx, Option.some_or]

lemma newline_not_mem_marker (c : OutgoingCommit) : newline ∉ encode c.marker := fun hmem =>
  absurd (toNat_of_mem_encode_marker hmem) (by decide)

lemma textOf_marker (c : OutgoingCommit) : textOf (encode c.marker) = c.marker := by
  obtain ⟨x, hlast, hx⟩ := getLast?_marker c
  have htext := textOf_encode (ascii_marker c) (by
    rw [hlast]
    rintro h
    rw [Option.some.inj h] at hx
    exact absurd hx (by decide +kernel)) []
  rw [List.append_nil] at htext
  rw [htext]
  exact List.append_nil _

/-- The patch of a commit gives the texts it adds. -/
lemma trace_commit (st : PatchState) (c : OutgoingCommit) :
    (trace st (c.patch.map textOf)).1 = c.added := by
  obtain ⟨-, hnone⟩ := advance_marker st c.oid
  rw [← c.marker_eq] at hnone
  rw [OutgoingCommit.patch, List.cons_append, List.map_cons, trace, textOf_marker, hnone,
    List.map_append, trace_append, List.map_flatMap, trace_flatMap trace_file]
  split_ifs
  · rfl
  · -- the empty line before the files
    rw [List.map_singleton, show textOf [] = [] from rfl, trace, trace, advance_nil]
    rfl

/-- No line of a patch has a newline. -/
lemma newline_not_mem_patch (c : OutgoingCommit) : ∀ l ∈ c.patch, newline ∉ l := by
  have happend : ∀ {s : List Char} (l : Line), newline ∉ encode s → newline ∉ encode s ++ l :=
    fun l h hmem => (List.mem_append.1 hmem).elim h l.2
  have hkind : ∀ kind : HeaderKind, newline ∉ encode kind.start := by
    intro kind
    cases kind <;> decide
  have hmark : ∀ mark : HunkMark, newline ∉ encode [mark.start] := by
    intro mark
    cases mark <;> decide
  have hchange : ∀ f : FileChange, ∀ l ∈ f.patch, newline ∉ l := by
    intro f l hl
    rw [FileChange.patch, List.cons_append, List.mem_cons, List.mem_append] at hl
    rcases hl with rfl | hl | hl
    · exact happend _ (by decide)
    · obtain ⟨⟨kind, l⟩, -, rfl⟩ := List.mem_map.1 hl
      exact happend l (hkind kind)
    · obtain ⟨h, -, hl⟩ := List.mem_flatMap.1 hl
      rw [Hunk.patch, List.mem_cons] at hl
      rcases hl with rfl | hl
      · exact happend _ (by decide)
      · obtain ⟨⟨mark, l⟩, -, rfl⟩ := List.mem_map.1 hl
        exact happend l (hmark mark)
  intro l hl
  rw [OutgoingCommit.patch, List.cons_append, List.mem_cons, List.mem_append] at hl
  rcases hl with rfl | hl | hl
  · exact newline_not_mem_marker c
  · split_ifs at hl
    · cases hl
    · rw [List.mem_singleton.1 hl]
      exact List.not_mem_nil
  · obtain ⟨f, -, hl⟩ := List.mem_flatMap.1 hl
    exact hchange f l hl

/-- The scan of the patch finds something exactly when an added text has a rule. -/
lemma scanPatch_ne_nil_iff (commits : List OutgoingCommit) :
    scanPatch m known (lossy (gitPatch commits)) ≠ [] ↔
      ∃ c ∈ commits, ∃ t ∈ c.added, Plain m known t := by
  have hlines : lines (lossy (gitPatch commits)) =
      commits.flatMap fun c => c.patch.map textOf := by
    rw [gitPatch, lines_lossy, List.map_flatMap]
    · rfl
    · intro l hl
      obtain ⟨c, -, hl⟩ := List.mem_flatMap.1 hl
      exact newline_not_mem_patch c l hl
  rw [scanPatch, Ne, List.destutter_eq_nil, hlines, scanLines_eq_nil_iff,
    trace_flatMap trace_commit]
  simp only [List.mem_flatMap, ← matchingRule_isSome, not_forall, Bool.not_eq_false]
  constructor
  · rintro ⟨t, ⟨c, hc, ht⟩, hrule⟩
    exact ⟨c, hc, t, ht, hrule⟩
  · rintro ⟨c, hc, t, ht, hrule⟩
    exact ⟨t, ⟨c, hc, ht⟩, hrule⟩

end Patch

/-! ### Paths -/

section Paths

variable {e x : List Char} {p : List UInt8} {es : List (List Char)} {commit : List Char}

/-- `/`. -/
def slash : UInt8 := 47

/-- The file name of a path. -/
def fileName (p : List UInt8) : List UInt8 := (p.splitOnP (· = slash)).getLastD p

/-- The file name of a path is forbidden. -/
def ForbiddenName (p : List UInt8) : Prop :=
  (∃ file ∈ FORBIDDEN_FILES, fileName p = encode file) ∨ encode ".pem".toList <:+ fileName p

/-- Text without a slash is its file name. -/
lemma forbiddenFile_of_no_slash {name : List Char} (h : '/' ∉ name) :
    forbiddenFile name = (FORBIDDEN_FILES.contains name || ".pem".toList.isSuffixOf name) := by
  have hsplit : name.splitOnP (· = '/') = [name] :=
    List.splitOnP_eq_singleton fun c hc => decide_eq_false fun heq => h (heq ▸ hc)
  rw [forbiddenFile, hsplit]
  rfl

/-- Only what is behind the last slash counts. -/
lemma forbiddenFile_append_slash (dir : List Char) {name : List Char} (h : '/' ∉ name) :
    forbiddenFile (dir ++ '/' :: name) = forbiddenFile name := by
  have hname : ∀ c ∈ name, decide (c = '/') = false :=
    fun c hc => decide_eq_false fun heq => h (heq ▸ hc)
  rw [forbiddenFile_of_no_slash h, forbiddenFile,
    getLastD_splitOnP (p := fun c => decide (c = '/')) (decide_eq_true rfl) hname]

/-- A name that ends in a hex digit does not end in `.pem`. -/
lemma not_pem_of_hex {name : List Char} {c : Char} (hlast : name.getLast? = some c)
    (hc : isAsciiHexdigit c = true) : ".pem".toList.isSuffixOf name = false := by
  rw [Bool.eq_false_iff, Ne, List.isSuffixOf_iff_suffix]
  rintro ⟨r, rfl⟩
  rw [List.getLast?_append, show ".pem".toList.getLast? = some 'm' from rfl, Option.some_or,
    Option.some.injEq] at hlast
  subst hlast
  exact absurd hc (by decide +kernel)

/-- A marker is no forbidden file. -/
lemma not_forbiddenFile_of_commitMarker {hash : List Char} (h : commitMarker e = some hash) :
    forbiddenFile e = false := by
  rw [commitMarker] at h
  cases hstart : afterStart "commit:".toList e with
  | none => rw [hstart] at h; cases h
  | some rest =>
    rw [hstart] at h
    simp only [Option.ite_none_right_eq_some, Option.some.injEq, Bool.and_eq_true,
      Bool.or_eq_true, decide_eq_true_eq, List.all_eq_true] at h
    obtain ⟨⟨hlength, hhex⟩, rfl⟩ := h
    rw [afterStart] at hstart
    split_ifs at hstart with hprefix
    obtain ⟨r, rfl⟩ := hprefix
    rw [List.drop_left, Option.some.injEq] at hstart
    subst hstart
    have hslash : '/' ∉ "commit:".toList ++ r := by
      intro hmem
      rcases List.mem_append.1 hmem with hmem | hmem
      · exact absurd hmem (by decide)
      · exact absurd (hhex _ hmem) (by decide +kernel)
    rw [forbiddenFile_of_no_slash hslash, Bool.or_eq_false_iff]
    refine ⟨?_, ?_⟩
    · -- a marker is too long for one of the names
      rw [Bool.eq_false_iff, Ne, List.contains_iff_mem]
      intro hmem
      have hshort : ∀ name ∈ FORBIDDEN_FILES, name.length ≤ 16 := by decide
      have hle := hshort _ hmem
      rw [List.length_append] at hle
      omega
    · cases r using List.reverseRecOn with
      | nil => simp at hlength
      | append_singleton r c =>
        exact not_pem_of_hex (by rw [← List.append_assoc, List.getLast?_concat]) (hhex c (by simp))

/-- A forbidden entry gives a finding. -/
lemma mem_scanEntries (commit : List Char) (he : e ∈ es)
    (h : forbiddenFile (dropNewline e) = true) :
    ∃ f ∈ scanEntries commit es, f.rule = "credential_file" ∧ f.path = dropNewline e := by
  induction es generalizing commit with
  | nil => cases he
  | cons e' es ih =>
    rw [scanEntries]
    rcases List.mem_cons.1 he with rfl | he
    · cases hmarker : commitMarker (dropNewline e) with
      | some hash => rw [not_forbiddenFile_of_commitMarker hmarker] at h; cases h
      | none =>
        rw [if_pos h]
        exact ⟨_, List.mem_cons_self, rfl, rfl⟩
    · cases commitMarker (dropNewline e') with
      | some hash => exact ih _ he
      | none =>
        split_ifs
        · obtain ⟨f, hf, hfinding⟩ := ih commit he
          exact ⟨f, List.mem_cons_of_mem _ hf, hfinding⟩
        · exact ih _ he

/-- The entries give a finding exactly when one is forbidden. -/
lemma scanEntries_ne_nil_iff :
    scanEntries commit es ≠ [] ↔ ∃ e ∈ es, forbiddenFile (dropNewline e) = true := by
  constructor
  · intro h
    induction es generalizing commit with
    | nil => exact absurd rfl h
    | cons e es ih =>
      rw [scanEntries] at h
      cases hmarker : commitMarker (dropNewline e) with
      | some hash =>
        rw [hmarker] at h
        obtain ⟨e', he', hforbidden⟩ := ih h
        exact ⟨e', List.mem_cons_of_mem _ he', hforbidden⟩
      | none =>
        rw [hmarker] at h
        by_cases hforbidden : forbiddenFile (dropNewline e) = true
        · exact ⟨e, List.mem_cons_self, hforbidden⟩
        · simp only [if_neg hforbidden] at h
          obtain ⟨e', he', hforbidden⟩ := ih h
          exact ⟨e', List.mem_cons_of_mem _ he', hforbidden⟩
  · rintro ⟨e, he, hforbidden⟩ hnil
    obtain ⟨f, hf, -⟩ := mem_scanEntries commit he hforbidden
    rw [hnil] at hf
    cases hf

/-- A forbidden name is one in the decoded path. -/
lemma forbiddenFile_lossy (h : ForbiddenName p) : forbiddenFile (lossy p) = true := by
  have hname : ∀ name : List UInt8, slash ∉ name →
      ((∃ file ∈ FORBIDDEN_FILES, name = encode file) ∨ encode ".pem".toList <:+ name) →
        '/' ∉ lossy name ∧ forbiddenFile (lossy name) = true := by
    intro name hslash hforbidden
    have hnot : '/' ∉ lossy name := by
      intro hmem
      obtain ⟨b, hb, heq⟩ := mem_lossy_ascii (by decide) hmem
      have hbyte : b = slash := UInt8.toNat_inj.1 heq
      exact hslash (hbyte ▸ hb)
    refine ⟨hnot, ?_⟩
    rw [forbiddenFile_of_no_slash hnot, Bool.or_eq_true, List.contains_iff_mem,
      List.isSuffixOf_iff_suffix]
    rcases hforbidden with ⟨file, hfile, rfl⟩ | ⟨r, rfl⟩
    · have hascii : ∀ file ∈ FORBIDDEN_FILES, AsciiText file := by decide
      have hlossy := lossy_encode (hascii file hfile) []
      rw [List.append_nil] at hlossy
      rw [hlossy]
      exact .inl (by simpa [lossy, run, State.flush] using hfile)
    · have hdot := lossy_ascii (a := r) (b := 46) (c := encode "pem".toList) (by decide)
      rw [show (46 : UInt8) :: encode "pem".toList = encode ".pem".toList from rfl] at hdot
      rw [hdot]
      exact .inr (List.suffix_append _ _)
  rcases exists_last (fun b => decide (b = slash)) p with hall | ⟨dir, b, name, rfl, hrest, hb⟩
  · have hslash : slash ∉ p := fun hmem => by simpa using hall slash hmem
    rw [ForbiddenName, fileName, List.splitOnP_eq_singleton hall] at h
    exact (hname p hslash h).2
  · obtain rfl := of_decide_eq_true hb
    have hslash : slash ∉ name := fun hmem => by simpa using hrest slash hmem
    rw [ForbiddenName, fileName,
      getLastD_splitOnP (p := fun b => decide (b = slash)) (decide_eq_true rfl) hrest] at h
    obtain ⟨hnot, hforbidden⟩ := hname name hslash h
    rw [lossy_ascii (by decide)]
    exact (forbiddenFile_append_slash _ hnot).trans hforbidden

/-- A newline in front does not make a name forbidden. -/
lemma forbiddenFile_of_newline (h : forbiddenFile ('\n' :: x) = true) : forbiddenFile x = true := by
  rcases exists_last (fun c => decide (c = '/')) x with hall | ⟨dir, c, name, rfl, hrest, hc⟩
  · have hslash : '/' ∉ x := fun hmem => by simpa using hall '/' hmem
    rw [forbiddenFile_of_no_slash (by simpa using hslash)] at h
    rw [forbiddenFile_of_no_slash hslash]
    rw [Bool.or_eq_true, List.contains_iff_mem, List.isSuffixOf_iff_suffix] at h ⊢
    rcases h with h | h
    · have hhead : ∀ file ∈ FORBIDDEN_FILES, file.head? ≠ some '\n' := by decide
      exact absurd rfl (hhead _ h)
    · rcases List.suffix_cons_iff.1 h with h | h
      · have hdot : some '.' = some '\n' := congrArg List.head? h
        exact absurd hdot (by decide)
      · exact .inr h
  · obtain rfl := of_decide_eq_true hc
    have hslash : '/' ∉ name := fun hmem => by simpa using hrest '/' hmem
    rw [← List.cons_append, forbiddenFile_append_slash _ hslash] at h
    rwa [forbiddenFile_append_slash _ hslash]

/-- A path that is listed, with a newline in front if it is the first. -/
lemma mem_entries {c : OutgoingCommit} (hp : p ∈ c.paths.map Subtype.val) :
    newline :: p ∈ c.entries ∨ p ∈ c.entries := by
  rw [OutgoingCommit.entries]
  cases hpaths : c.paths with
  | nil => rw [hpaths] at hp; cases hp
  | cons first paths =>
    rw [hpaths, List.map_cons, List.mem_cons] at hp
    rcases hp with rfl | hp
    · exact .inl List.mem_cons_self
    · exact .inr (List.mem_cons_of_mem _ hp)

lemma nul_not_mem_entries {c : OutgoingCommit} {e : List UInt8}
    (he : e ∈ encode c.marker :: c.entries) : ∀ b ∈ e, decide (b = 0) = false := by
  intro b hb
  rw [decide_eq_false_iff_not]
  rintro rfl
  rcases List.mem_cons.1 he with rfl | he
  · exact absurd (toNat_of_mem_encode_marker hb) (by decide)
  · rw [OutgoingCommit.entries] at he
    cases hpaths : c.paths with
    | nil => rw [hpaths] at he; cases he
    | cons first paths =>
      rw [hpaths] at he
      rcases List.mem_cons.1 he with rfl | he
      · rcases List.mem_cons.1 hb with hb | hb
        · exact absurd hb (by decide)
        · exact first.2 hb
      · obtain ⟨p, -, rfl⟩ := List.mem_map.1 he
        exact p.2 hb

/-- The entries of the listing. -/
lemma splitOnP_gitPaths (commits : List OutgoingCommit) :
    (gitPaths commits).splitOnP (· = 0) =
      (commits.flatMap fun c => encode c.marker :: c.entries) ++ [[]] := by
  refine splitOnP_flatMap (p := fun b => decide (b = 0)) (decide_eq_true rfl) fun e he => ?_
  obtain ⟨c, -, he⟩ := List.mem_flatMap.1 he
  exact nul_not_mem_entries he

/-- The line that names a commit is a marker. -/
lemma commitMarker_marker (c : OutgoingCommit) : commitMarker c.marker = some c.oid := by
  rw [commitMarker, c.marker_eq, afterStart_append]
  refine if_pos ?_
  rw [Bool.and_eq_true, Bool.or_eq_true, decide_eq_true_eq, decide_eq_true_eq, List.all_eq_true]
  exact c.oid.2

lemma lossy_marker (c : OutgoingCommit) : lossy (encode c.marker) = c.marker := by
  have hlossy := lossy_encode (ascii_marker c) []
  rw [List.append_nil] at hlossy
  exact hlossy.trans (List.append_nil _)

/-- The line that names a commit is no forbidden path. -/
lemma not_forbiddenFile_marker (c : OutgoingCommit) :
    forbiddenFile (dropNewline (lossy (encode c.marker))) = false := by
  have hdrop : dropNewline c.marker = c.marker := by
    rw [c.marker_eq, dropNewline, afterStart,
      if_neg (not_isPrefix_append 1 (by decide) (by decide) (by decide)), Option.getD_none]
  rw [lossy_marker, hdrop]
  exact not_forbiddenFile_of_commitMarker (commitMarker_marker c)

/-- The scan of the paths finds something exactly when an entry is forbidden. -/
lemma scanPaths_ne_nil_iff (commits : List OutgoingCommit) : scanPaths (gitPaths commits) ≠ [] ↔
    ∃ c ∈ commits, ∃ e ∈ c.entries, forbiddenFile (dropNewline (lossy e)) = true := by
  rw [scanPaths, scanEntries_ne_nil_iff, splitOnP_gitPaths]
  constructor
  · rintro ⟨text, htext, hforbidden⟩
    obtain ⟨e, he, rfl⟩ := List.mem_map.1 htext
    rcases List.mem_append.1 he with he | he
    · obtain ⟨c, hc, he⟩ := List.mem_flatMap.1 he
      rcases List.mem_cons.1 he with rfl | he
      · rw [not_forbiddenFile_marker] at hforbidden
        cases hforbidden
      · exact ⟨c, hc, e, he, hforbidden⟩
    · rw [List.mem_singleton.1 he] at hforbidden
      exact absurd hforbidden (by decide +kernel)
  · rintro ⟨c, hc, e, he, hforbidden⟩
    exact ⟨lossy e, List.mem_map_of_mem (List.mem_append_left _
      (List.mem_flatMap.2 ⟨c, hc, List.mem_cons_of_mem _ he⟩)), hforbidden⟩

/-- A forbidden path has a finding. -/
lemma exists_finding_of_forbidden {commits : List OutgoingCommit} {c : OutgoingCommit}
    (hc : c ∈ commits) (hp : p ∈ c.paths.map Subtype.val) (hforbidden : ForbiddenName p) :
    ∃ f ∈ scanPaths (gitPaths commits), f.rule = "credential_file" ∧
      (f.path = lossy p ∨ '\n' :: f.path = lossy p) := by
  have hmem : ∀ e ∈ c.entries, lossy e ∈ ((gitPaths commits).splitOnP (· = 0)).map lossy := by
    intro e he
    rw [splitOnP_gitPaths]
    exact List.mem_map_of_mem (List.mem_append_left _
      (List.mem_flatMap.2 ⟨c, hc, List.mem_cons_of_mem _ he⟩))
  have hlossy := forbiddenFile_lossy hforbidden
  rw [scanPaths]
  rcases mem_entries hp with he | he
  · -- the newline in front of the first path is dropped
    have hfirst : lossy (newline :: p) = ['\n'] ++ lossy p := lossy_ascii (a := []) (by decide)
    have hdrop : dropNewline (lossy (newline :: p)) = lossy p := by
      rw [hfirst, dropNewline, afterStart_append, Option.getD_some]
    obtain ⟨f, hf, hrule, hpath⟩ := mem_scanEntries [] (hmem _ he)
      (by rw [hdrop]; exact hlossy)
    exact ⟨f, hf, hrule, .inl (hpath.trans hdrop)⟩
  · by_cases hnewline : ['\n'] <+: lossy p
    · obtain ⟨x, hx⟩ := hnewline
      have hdrop : dropNewline (lossy p) = x := by
        rw [← hx, dropNewline, afterStart_append, Option.getD_some]
      have hx' : '\n' :: x = lossy p := hx
      obtain ⟨f, hf, hrule, hpath⟩ := mem_scanEntries [] (hmem _ he)
        (by rw [hdrop]; exact forbiddenFile_of_newline (hx' ▸ hlossy))
      exact ⟨f, hf, hrule, .inr (by rw [hpath, hdrop, hx'])⟩
    · have hdrop : dropNewline (lossy p) = lossy p := by
        rw [dropNewline, afterStart, if_neg hnewline, Option.getD_none]
      obtain ⟨f, hf, hrule, hpath⟩ := mem_scanEntries [] (hmem _ he)
        (by rw [hdrop]; exact hlossy)
      exact ⟨f, hf, hrule, .inl (hpath.trans hdrop)⟩

end Paths

/-! ### Commit objects -/

section Objects

variable {m : Matchers} {known : List String}

lemma findIdx?_newline {l : List UInt8} (h : newline ∉ l) (rest : List UInt8) :
    (l ++ newline :: rest).findIdx? (· = 10) = some l.length := by
  induction l with
  | nil => rfl
  | cons b l ih =>
    rw [List.mem_cons, not_or] at h
    have hb : decide (b = newline) = false := decide_eq_false (Ne.symm h.1)
    rw [List.cons_append, List.findIdx?_cons, show decide (b = 10) = false from hb,
      if_neg Bool.false_ne_true, ih h.2]
    rfl

/-- A size is read back. -/
lemma parseUsize_repr {n : Nat} (h : n < 2 ^ 64) : parseUsize n.repr.toList = some n := by
  have hdigits : ∀ c ∈ n.repr.toList, c.isDigit = true := by
    rw [Nat.toList_repr]
    exact fun c hc => Nat.isDigit_of_mem_toDigits (b := 10) (by decide) (by decide) hc
  have hplain : afterStart ['+'] n.repr.toList = none := by
    refine if_neg fun hstart => ?_
    exact absurd (hdigits '+' (hstart.subset List.mem_cons_self)) (by decide)
  have hne : n.repr.toList ≠ [] := by
    rw [Nat.toList_repr]
    exact Nat.toDigits_ne_nil
  have hvalue : Nat.ofDigitChars 10 n.repr.toList 0 = n := by
    rw [Nat.toList_repr, Nat.ofDigitChars_ten_toDigits]
  rw [parseUsize, hplain, Option.getD_none,
    if_pos ⟨hne, List.all_eq_true.2 hdigits, by rwa [hvalue]⟩, hvalue]

/-- A field that has no blank ends at the next one. -/
lemma splitOnce_append {field : List Char} (h : ' ' ∉ field) (rest : List Char) :
    splitOnce (field ++ ' ' :: rest) = some (field, rest) := by
  have hblank : ∀ c ∈ [' '].head?, c ∉ field := by
    rintro c hc
    obtain rfl := Option.some.inj hc
    exact h
  have hcut : cut [' '] (' ' :: rest) = some ([], rest) :=
    cut_of_isPrefix (List.prefix_append [' '] rest)
  rw [splitOnce, cut_append_left hblank (List.cons_ne_nil _ _), hcut, Option.map_some,
    List.append_nil]

/-- The header of a commit object names its ID and size. -/
lemma objectHeader_eq (c : OutgoingCommit) :
    objectHeader c.objectHeader = some (c.oid.val, c.object.val.length) := by
  have hoid : ' ' ∉ c.oid.val := fun hmem => absurd (c.oid.2.2 _ hmem) (by decide +kernel)
  have hheader : c.objectHeader =
      c.oid.val ++ ' ' :: ("commit".toList ++ ' ' :: c.object.val.length.repr.toList) :=
    List.append_assoc _ _ _
  have hkind : splitOnce ("commit".toList ++ ' ' :: c.object.val.length.repr.toList) =
      some ("commit".toList, c.object.val.length.repr.toList) := splitOnce_append (by decide) _
  rw [objectHeader, hheader, splitOnce_append hoid]
  simp only [Option.bind_eq_bind, Option.bind_some, hkind, parseUsize_repr c.object.2, if_true]

/-- The characters of a header are ASCII, and none is a newline. -/
lemma toNat_of_mem_objectHeader {c : OutgoingCommit} {x : Char} (hx : x ∈ c.objectHeader) :
    0x20 ≤ x.toNat ∧ x.toNat ≤ 0x7F := by
  rw [OutgoingCommit.objectHeader, List.mem_append, List.mem_append] at hx
  rcases hx with (hx | hx) | hx
  · obtain ⟨hlow, hhigh⟩ := toNat_of_isAsciiHexdigit (c.oid.2.2 x hx)
    omega
  · have hcommit : ∀ x ∈ " commit ".toList, 0x20 ≤ x.toNat ∧ x.toNat ≤ 0x7F := by decide
    exact hcommit x hx
  · rw [Nat.toList_repr] at hx
    have hdigit := Nat.isDigit_of_mem_toDigits (b := 10) (by decide) (by decide) hx
    simp only [Char.isDigit, Bool.and_eq_true, decide_eq_true_eq, ge_iff_le,
      UInt32.le_iff_toNat_le] at hdigit
    exact ⟨le_trans (b := '0'.toNat) (by decide) hdigit.1,
      le_trans (b := '9'.toNat) hdigit.2 (by decide)⟩

/-- The listing of one commit object. -/
def OutgoingCommit.listing (c : OutgoingCommit) : List Char :=
  c.marker ++ '\n' :: objectText c.object.val ++ ['\n']

/-- One turn reads one commit object. -/
lemma commitBatchLoop_cons (turns : Nat) (c : OutgoingCommit) (rest : List UInt8)
    (listing : List Char) :
    commitBatchLoop (turns + 1)
        (encode c.objectHeader ++ newline :: c.object.val ++ [newline] ++ rest) listing =
      commitBatchLoop turns rest (listing ++ c.listing) := by
  have hascii : AsciiText c.objectHeader := fun x hx => (toNat_of_mem_objectHeader hx).2
  have hnewline : newline ∉ encode c.objectHeader := by
    intro hmem
    obtain ⟨x, hx, heq⟩ := List.mem_map.1 hmem
    have hnat := congrArg UInt8.toNat heq
    rw [toNat_encode (hascii x hx)] at hnat
    have hlow := (toNat_of_mem_objectHeader hx).1
    rw [hnat] at hlow
    exact absurd hlow (by decide)
  have hstrict := strict_encode hascii
  obtain ⟨header, hheader⟩ : ∃ header, encode c.objectHeader = header := ⟨_, rfl⟩
  rw [hheader] at hnewline hstrict ⊢
  have hbatch : header ++ newline :: c.object.val ++ [newline] ++ rest =
      header ++ newline :: (c.object.val ++ newline :: rest) := by simp
  rw [hbatch, commitBatchLoop]
  · have htake : (header ++ newline :: (c.object.val ++ newline :: rest)).take header.length =
        header := List.take_left
    have hlong : ¬ (header ++ newline :: (c.object.val ++ newline :: rest)).length <
        header.length + 1 + c.object.val.length := by
      simp only [List.length_append, List.length_cons]
      omega
    have hbody : ((header ++ newline :: (c.object.val ++ newline :: rest)).drop
        (header.length + 1)).take c.object.val.length = c.object.val := by
      rw [List.append_cons, List.drop_left' (by simp), List.take_left]
    have hrest : (header ++ newline :: (c.object.val ++ newline :: rest)).drop
        (header.length + 2 + c.object.val.length) = rest := by
      rw [← hbatch, List.drop_left']
      simp only [List.length_append, List.length_cons, List.length_nil]
      omega
    simp only [findIdx?_newline hnewline, htake, hstrict, objectHeader_eq, if_neg hlong, hbody,
      hrest]
    rfl
  · intro h
    simp at h

/-- Git's batch is read to its end. -/
lemma commitBatchListing_gitObjects (commits : List OutgoingCommit) :
    commitBatchListing (gitObjects commits) = .ok (commits.flatMap OutgoingCommit.listing) := by
  have hloop : ∀ (commits : List OutgoingCommit) (turns : Nat) (listing : List Char),
      commits.length ≤ turns → commitBatchLoop turns (gitObjects commits) listing =
        .ok (listing ++ commits.flatMap OutgoingCommit.listing) := by
    intro commits
    induction commits with
    | nil =>
      intro turns listing _
      rw [List.flatMap_nil, List.append_nil]
      cases turns <;> rfl
    | cons c commits ih =>
      intro turns listing hturns
      obtain ⟨turns, rfl⟩ := Nat.exists_eq_succ_of_ne_zero (Nat.ne_of_gt
        (Nat.lt_of_lt_of_le (Nat.succ_pos _) hturns))
      rw [gitObjects, List.flatMap_cons, ← gitObjects, commitBatchLoop_cons,
        ih turns _ (Nat.le_of_succ_le_succ hturns), List.flatMap_cons, List.append_assoc]
  have hlength : commits.length ≤ (gitObjects commits).length := by
    rw [gitObjects]
    induction commits with
    | nil => exact Nat.le_refl 0
    | cons c commits ih =>
      rw [List.flatMap_cons, List.length_append, List.length_cons, List.length_append]
      simp only [List.length_singleton]
      omega
  rw [commitBatchListing, hloop commits _ [] hlength, List.nil_append]

/-- The lines of a commit object. -/
def OutgoingCommit.objectLines (c : OutgoingCommit) : List (List UInt8) :=
  c.object.val.splitOnP (· = newline)

/-- A line of a commit object as the scan reads it: without its NUL bytes. -/
def withoutNul (l : List UInt8) : List Char := textOf (l.filter (· ≠ 0))

/-- Dropping NUL bytes leaves the lines as they are. -/
lemma splitOnP_filter (l : List UInt8) : (l.filter (· ≠ 0)).splitOnP (· = newline) =
    (l.splitOnP (· = newline)).map (List.filter (· ≠ 0)) := by
  induction hn : l.length using Nat.strongRecOn generalizing l with
  | ind n ih =>
    rcases exists_first (fun b => decide (b = newline)) l with hall | ⟨x, b, r, rfl, hx, hb⟩
    · rw [List.splitOnP_eq_singleton hall,
        List.splitOnP_eq_singleton fun b hb => hall b (List.mem_of_mem_filter hb)]
      rfl
    · obtain rfl := of_decide_eq_true hb
      rw [List.length_append, List.length_cons] at hn
      rw [List.filter_append, List.filter_cons_of_pos (by decide),
        List.splitOnP_append_cons_of_forall_mem
          (fun b hb => hx b (List.mem_of_mem_filter hb)) _ (decide_eq_true rfl),
        List.splitOnP_append_cons_of_forall_mem hx _ (decide_eq_true rfl),
        ih r.length (by omega) r rfl, List.map_cons]

/-- The listing of a commit object, line by line. -/
lemma listing_eq (c : OutgoingCommit) : c.listing =
    (c.marker :: c.objectLines.map fun l => lossy (l.filter (· ≠ 0))).flatMap (· ++ ['\n']) := by
  have hlossy : objectText c.object.val ++ ['\n'] =
      lossy (c.object.val.filter (· ≠ 0) ++ [newline]) :=
    (lossy_ascii (a := c.object.val.filter (· ≠ 0)) (b := newline) (c := []) (by decide)).symm
  rw [OutgoingCommit.listing, List.append_assoc, List.cons_append, hlossy, ← flatMap_splitOnP,
    lossy_flatMap, splitOnP_filter, List.map_map, List.flatMap_cons, List.append_assoc]
  rfl

lemma newline_not_mem_listing (c : OutgoingCommit) :
    ∀ t ∈ c.marker :: c.objectLines.map fun l => lossy (l.filter (· ≠ 0)), '\n' ∉ t := by
  intro t ht
  rcases List.mem_cons.1 ht with rfl | ht
  · exact fun hmem => absurd (toNat_of_mem_marker hmem).1 (by decide)
  · obtain ⟨l, hl, rfl⟩ := List.mem_map.1 ht
    obtain ⟨-, -, -, hnot, -⟩ := mem_splitOnP_iff.1 hl
    refine newline_not_mem_lossy fun hmem => ?_
    simpa using hnot newline (List.mem_of_mem_filter hmem)

/-- The scan of lines finds something exactly when one has a rule. -/
lemma scanMessageLines_ne_nil_iff {commit : List Char} (ls : List (List Char)) :
    scanMessageLines m known commit ls ≠ [] ↔ ∃ t ∈ ls, Plain m known t := by
  induction ls generalizing commit with
  | nil => exact iff_of_false (absurd rfl) nofun
  | cons l ls ih =>
    rw [scanMessageLines, Ne, List.append_eq_nil_iff, not_and_or, ← Ne, ← Ne, ih,
      List.exists_mem_cons_iff, ← matchingRule_isSome]
    refine or_congr_left ?_
    cases matchingRule m known l with
    | none => exact iff_of_false (absurd rfl) nofun
    | some rule => exact iff_of_true (List.cons_ne_nil _ _) rfl

/-- The lines that the scan reads of the commit objects. -/
lemma lines_listing (commits : List OutgoingCommit) :
    lines (commits.flatMap OutgoingCommit.listing) =
      commits.flatMap fun c => c.marker :: c.objectLines.map withoutNul := by
  have hmarker : ∀ c : OutgoingCommit, dropReturn c.marker = c.marker := by
    intro c
    rw [← lossy_marker, ← textOf, textOf_marker, lossy_marker]
  have hlisting : commits.flatMap OutgoingCommit.listing =
      (commits.flatMap fun c => c.marker :: c.objectLines.map fun l =>
        lossy (l.filter (· ≠ 0))).flatMap (· ++ ['\n']) := by
    rw [List.flatMap_assoc]
    exact List.flatMap_congr fun c _ => listing_eq c
  rw [hlisting, lines_flatMap, List.map_flatMap]
  · refine List.flatMap_congr fun c _ => ?_
    rw [List.map_cons, List.map_map, hmarker]
    rfl
  · intro t ht
    obtain ⟨c, -, ht⟩ := List.mem_flatMap.1 ht
    exact newline_not_mem_listing c t ht

end Objects

/-! ### All findings -/

/-- The texts of a commit: the ones it adds, and the lines of its object. -/
def OutgoingCommit.texts (c : OutgoingCommit) : List (List Char) :=
  c.added ++ c.objectLines.map textOf

/-- The texts that the scan reads of a commit. -/
def OutgoingCommit.scanned (c : OutgoingCommit) : List (List Char) :=
  c.added ++ c.marker :: c.objectLines.map withoutNul

/-- The scan catches what outgoing commits hold. -/
structure Caught (m : Matchers) (known : List String) (commits : List OutgoingCommit) : Prop where
  /-- If a text of a commit contains a secret, there is a finding. -/
  secrets : (∃ c ∈ commits, ∃ t ∈ c.texts, Secret m known t) →
    ∃ f findings, outgoingFindings m known commits = .ok (f :: findings)
  /-- A path with a forbidden file name has a finding. -/
  paths : ∀ c ∈ commits, ∀ p ∈ c.paths.map Subtype.val, ForbiddenName p →
    ∃ f ∈ scanPaths (gitPaths commits), f.rule = "credential_file" ∧
      (f.path = lossy p ∨ '\n' :: f.path = lossy p)

/-- Something in the commits is plain for the scan. -/
def Exposed (m : Matchers) (known : List String) (commits : List OutgoingCommit) : Prop :=
  ∃ c ∈ commits, (∃ t ∈ c.scanned, Plain m known t) ∨
    ∃ e ∈ c.entries, forbiddenFile (dropNewline (lossy e)) = true

/-- There are findings exactly when something is exposed. -/
lemma outgoingFindings_spec (m : Matchers) (known : List String) (commits : List OutgoingCommit) :
    ∃ findings, outgoingFindings m known commits = .ok findings ∧
      (findings ≠ [] ↔ Exposed m known commits) := by
  refine ⟨scanPatch m known (lossy (gitPatch commits)) ++ scanPaths (gitPaths commits) ++
    scanMessages m known (commits.flatMap OutgoingCommit.listing), ?_, ?_⟩
  · simp only [outgoingFindings, secretFindingsForRevisions, bind, Except.bind,
      commitBatchListing_gitObjects]
    rfl
  · rw [Ne, List.append_eq_nil_iff, List.append_eq_nil_iff, not_and_or, not_and_or, ← Ne, ← Ne,
      ← Ne, scanPatch_ne_nil_iff, scanPaths_ne_nil_iff, scanMessages, Ne, List.destutter_eq_nil,
      ← Ne, scanMessageLines_ne_nil_iff, lines_listing]
    constructor
    · rintro ((⟨c, hc, t, ht, hplain⟩ | ⟨c, hc, e, he, hforbidden⟩) | ⟨t, ht, hplain⟩)
      · exact ⟨c, hc, .inl ⟨t, List.mem_append_left _ ht, hplain⟩⟩
      · exact ⟨c, hc, .inr ⟨e, he, hforbidden⟩⟩
      · obtain ⟨c, hc, ht⟩ := List.mem_flatMap.1 ht
        exact ⟨c, hc, .inl ⟨t, List.mem_append_right _ ht, hplain⟩⟩
    · rintro ⟨c, hc, ⟨t, ht, hplain⟩ | ⟨e, he, hforbidden⟩⟩
      · rcases List.mem_append.1 ht with ht | ht
        · exact .inl (.inl ⟨c, hc, t, ht, hplain⟩)
        · exact .inr ⟨t, List.mem_flatMap.2 ⟨c, hc, ht⟩, hplain⟩
      · exact .inl (.inr ⟨c, hc, e, he, hforbidden⟩)

/-- The scan catches what outgoing commits hold exactly when, if one of them contains a secret,
then something is exposed: a rule matches, or a token has no other hex digit next to it, in an added
line or in a line of a commit object without its NUL bytes, or a listed path has a forbidden file
name. -/
theorem scan_catches_iff (m : Matchers) (known : List String) (commits : List OutgoingCommit) :
    Caught m known commits ↔
      ((∃ c ∈ commits, ∃ t ∈ c.texts, Secret m known t) → Exposed m known commits) := by
  obtain ⟨findings, hfindings, hexposed⟩ := outgoingFindings_spec m known commits
  constructor
  · intro h hsecret
    obtain ⟨f, rest, heq⟩ := h.secrets hsecret
    obtain rfl : findings = f :: rest := Except.ok.inj (hfindings.symm.trans heq)
    exact hexposed.1 (List.cons_ne_nil _ _)
  · intro h
    refine ⟨fun hsecret => ?_, fun c hc p hp hforbidden =>
      exists_finding_of_forbidden hc hp hforbidden⟩
    obtain ⟨f, rest, rfl⟩ := List.exists_cons_of_ne_nil (hexposed.2 (h hsecret))
    exact ⟨f, rest, hfindings⟩

/-- A digest that tells the token of 64 digits `f` from all other texts. -/
def oneDigest : Matchers :=
  ⟨fun _ _ => false, fun t => if t = List.replicate 64 'f' then "known" else "other"⟩

/-- A commit that adds the line `af…f`, the digit `a` and then that token. -/
def joinedCommit : OutgoingCommit where
  oid := ⟨List.replicate 40 'c', by decide +kernel⟩
  files := [⟨⟨encode "git a/x b/x".toList, by decide⟩,
    [(.after, ⟨encode "b/x".toList, by decide⟩)],
    [⟨⟨encode " -0,0 +1 @@".toList, by decide⟩,
      [(.added, ⟨encode ('a' :: List.replicate 64 'f'), by decide +kernel⟩)]⟩]⟩]
  paths := []
  object := ⟨encode "add x".toList, by decide⟩

/-- A token behind another hex digit is not found. -/
theorem joined_token_missed : ¬ Caught oneDigest ["known"] [joinedCommit] := by
  intro h
  have htext : 'a' :: List.replicate 64 'f' ∈ joinedCommit.texts := by decide +kernel
  have hsecret : Secret oneDigest ["known"] ('a' :: List.replicate 64 'f') := by
    refine .inr ⟨['a'], List.replicate 64 'f', [], by decide +kernel, by decide +kernel, ?_, ?_⟩
    · decide +kernel
    · exact .inl (by decide +kernel)
  obtain ⟨f, findings, hfound⟩ :=
    h.secrets ⟨joinedCommit, List.mem_cons_self, _, htext, hsecret⟩
  have hnone : (outgoingFindings oneDigest ["known"] [joinedCommit]).toOption = some [] := by
    decide +kernel
  rw [hfound] at hnone
  cases hnone

end AgentCoordinator.SecretScan
