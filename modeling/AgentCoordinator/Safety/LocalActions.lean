import AgentCoordinator.Integrator.ActionRefs
import AgentCoordinator.Library.Yaml

/-
What the reader of local actions makes of a value, against what YAML makes of it.

The reader finds every key, and reads every value in double quotes as YAML does or not at all. It
goes wrong where it takes the first part of a value for the whole: a plain value with a blank, a
comma, a closing bracket or a quote in it, and a value in single quotes with a quote in it. A plain
value that begins or ends with white space other than blanks loses that too.
-/

namespace AgentCoordinator.ActionRefs

open Text Yaml

/-! ### The first line -/

section Lines

variable {x s : List Char}

/-- The first line of a text that is not empty, and the lines behind it. -/
def firstLine (s : List Char) : List Char × List (List Char) :=
  match cut ['\n'] s with
  | none => (s, [])
  | some (l, s) => (dropReturn l, lines s)

lemma dropReturn_nil : dropReturn [] = [] := rfl

lemma dropReturn_append (hx : ∀ c ∈ x.getLast?, c ≠ '\r') :
    dropReturn (x ++ s) = x ++ dropReturn s := by
  rcases List.eq_nil_or_concat' s with rfl | ⟨s, c, rfl⟩
  · have hnot : ¬ ['\r'] <:+ x := by
      rintro ⟨y, rfl⟩
      exact hx '\r' (by simp) rfl
    rw [dropReturn_nil, List.append_nil, dropReturn, chomp, if_neg hnot, Option.getD_none]
  · by_cases hc : c = '\r'
    · subst hc
      rw [← List.append_assoc, dropReturn, dropReturn, chomp_append, chomp_append]
      rfl
    · have hnot (y : List Char) : ¬ ['\r'] <:+ y ++ [c] := by
        rintro ⟨z, hz⟩
        exact hc (List.singleton_inj.1 (List.append_inj' hz rfl).2).symm
      rw [← List.append_assoc, dropReturn, dropReturn, chomp, chomp, if_neg (hnot _),
        if_neg (hnot _)]
      simp

lemma firstLine_append (hx : '\n' ∉ x) (hlast : ∀ c ∈ x.getLast?, c ≠ '\r') :
    firstLine (x ++ s) = (x ++ (firstLine s).1, (firstLine s).2) := by
  have hcut : cut ['\n'] (x ++ s) = (cut ['\n'] s).map fun found => (x ++ found.1, found.2) :=
    cut_append_left (by rintro c ⟨⟩; exact hx) (by simp)
  rw [firstLine, firstLine, hcut]
  cases cut ['\n'] s with
  | none => rfl
  | some found => simp only [Option.map_some, dropReturn_append hlast]

lemma firstLine_of_break {l : List Char} (h : '\n' ∉ l) (s : List Char) :
    firstLine (l ++ '\n' :: s) = (dropReturn l, lines s) := by
  have hcut : cut ['\n'] (l ++ '\n' :: s) = some (l, s) := by
    rw [cut_append_left (by simpa using h) (by simp),
      cut_of_isPrefix (show ['\n'] <+: '\n' :: s from List.prefix_append ['\n'] s)]
    simp
  rw [firstLine, hcut]

lemma splitAfter_of_notMem {l : List Char} (h : '\n' ∉ l) (hne : l ≠ []) :
    splitAfter '\n' l = [l] := by
  induction l with
  | nil => exact absurd rfl hne
  | cons c l ih =>
    rw [List.mem_cons, not_or] at h
    rw [splitAfter, if_neg (Ne.symm h.1)]
    cases l with
    | nil => rfl
    | cons d l => rw [ih h.2 (by simp)]

lemma cut_newline_of_notMem (h : '\n' ∉ s) : cut ['\n'] s = none := by
  have hcut : cut ['\n'] (s ++ []) = (cut ['\n'] []).map fun found => (s ++ found.1, found.2) :=
    cut_append_left (by simpa using h) (by simp)
  simpa [cut] using hcut

lemma lines_eq_firstLine (hs : s ≠ []) : lines s = (firstLine s).1 :: (firstLine s).2 := by
  rcases exists_first (· = '\n') s with hall | ⟨l, c, r, rfl, hl, hc⟩
  · have hmem : '\n' ∉ s := fun h => by simpa using hall '\n' h
    have hchomp : chomp ['\n'] s = none := by
      rw [chomp, if_neg]
      rintro ⟨y, rfl⟩
      exact hmem (by simp)
    rw [firstLine, cut_newline_of_notMem hmem, lines, splitAfter_of_notMem hmem hs,
      List.map_singleton, hchomp]
  · obtain rfl := of_decide_eq_true hc
    have hmem : '\n' ∉ l := fun h => by simpa using hl '\n' h
    rw [lines_append hmem, firstLine_of_break hmem]

/-- The lines of a text that ends at the start of a line come first. -/
lemma lines_append_of_getLast? (hx : ∀ c ∈ x.getLast?, c = '\n') (s : List Char) :
    lines (x ++ s) = lines x ++ lines s := by
  induction hn : x.length using Nat.strongRecOn generalizing x with
  | ind n ih =>
    rcases exists_first (· = '\n') x with hall | ⟨l, c, r, rfl, hl, hc⟩
    · cases hlast : x.getLast? with
      | none => rw [List.getLast?_eq_none_iff.1 hlast]; rfl
      | some c =>
        have := hall c (List.mem_of_getLast? hlast)
        simp [hx c hlast] at this
    · obtain rfl := of_decide_eq_true hc
      have hmem : '\n' ∉ l := fun h => by simpa using hl '\n' h
      have hr : ∀ c ∈ r.getLast?, c = '\n' := by
        intro c hc
        refine hx c ?_
        rw [List.getLast?_append, List.getLast?_cons, Option.mem_def.1 hc]
        rfl
      rw [List.length_append, List.length_cons] at hn
      rw [List.append_assoc, List.cons_append, lines_append hmem, lines_append hmem,
        ih r.length (by omega) hr rfl, List.cons_append]

lemma firstLine_isPrefix (s : List Char) : (firstLine s).1 <+: s := by
  rcases exists_first (· = '\n') s with hall | ⟨l, c, r, rfl, hl, hc⟩
  · have hcut : cut ['\n'] s = none := cut_newline_of_notMem fun h => by simpa using hall '\n' h
    rw [firstLine, hcut]
  · obtain rfl := of_decide_eq_true hc
    have hmem : '\n' ∉ l := fun h => by simpa using hl '\n' h
    rw [firstLine_of_break hmem]
    refine List.IsPrefix.trans ?_ (List.prefix_append l _)
    rw [dropReturn, chomp]
    split_ifs
    · exact List.take_prefix _ _
    · exact List.prefix_rfl

lemma rdropWhile_append_of_last {p : Char → Bool}
    (hx : ∀ c ∈ x.getLast?, p c = false) (w : List Char) :
    (x ++ w).rdropWhile p = x ++ w.rdropWhile p := by
  induction w using List.reverseRecOn with
  | nil =>
    rw [List.append_nil]
    rcases List.eq_nil_or_concat' x with rfl | ⟨x, c, rfl⟩
    · rfl
    · rw [List.rdropWhile_concat_neg _ _ _ (by simp [hx c (by simp)])]
      simp
  | append_singleton w c ih =>
    rw [← List.append_assoc]
    by_cases hc : p c = true
    · rw [List.rdropWhile_concat_pos _ _ _ hc, List.rdropWhile_concat_pos _ _ _ hc, ih]
    · rw [List.rdropWhile_concat_neg _ _ _ hc, List.rdropWhile_concat_neg _ _ _ hc,
        List.append_assoc]

end Lines

/-! ### Finding the key -/

section Keys

variable {key a b : List Char} {c : Char} {k : List Char}

/-- The first occurrence stands no later than any other. -/
lemma exists_cut (key a b : List Char) :
    ∃ x y, cut key (a ++ key ++ b) = some (x, y) ∧ x.length ≤ a.length := by
  induction a with
  | nil => exact ⟨[], _, cut_of_isPrefix (List.prefix_append key b), le_rfl⟩
  | cons c a ih =>
    by_cases hpre : key <+: c :: (a ++ key ++ b)
    · exact ⟨[], _, cut_of_isPrefix hpre, Nat.zero_le _⟩
    · obtain ⟨x, y, hcut, hlen⟩ := ih
      refine ⟨c :: x, y, ?_, Nat.succ_le_succ hlen⟩
      rw [List.cons_append, List.cons_append, cut_cons_of_not hpre, hcut]
      rfl

/-- A key whose first letter is in it once is found wherever it stands. -/
lemma mem_keyStarts (hkey : key = c :: k) (hk : c ∉ k) (a b : List Char) {turns : Nat} (n : Nat)
    (hturns : a.length < turns) :
    n + a.length ∈ keyStarts key turns n (a ++ key ++ b) := by
  induction turns generalizing n a with
  | zero => omega
  | succ turns ih =>
    obtain ⟨x, y, hcut, hlen⟩ := exists_cut key a b
    have heq := eq_append_of_cut hcut
    rw [keyStarts, hcut]
    rcases Nat.lt_or_eq_of_le hlen with hlt | hlen
    · -- the next place the scan finds does not overlap with this one
      refine List.mem_cons_of_mem _ ?_
      obtain ⟨r, rfl⟩ : x <+: a := by
        rw [List.append_assoc, List.append_assoc] at heq
        exact List.prefix_of_prefix_length_le (heq ▸ List.prefix_append x _)
          (List.prefix_append a _) hlen
      obtain ⟨u, rfl, rfl⟩ : ∃ u, r = key ++ u ∧ y = u ++ key ++ b := by
        rw [List.append_assoc, List.append_assoc, List.append_assoc,
          List.append_cancel_left_eq] at heq
        rcases List.append_eq_append_iff.1 heq with ⟨u, hu, hy⟩ | ⟨u, hr, hy⟩
        · cases u with
          | nil =>
            rw [List.append_nil] at hu
            subst hu
            exact ⟨[], (List.append_nil _).symm, by simpa using hy.symm⟩
          | cons d u =>
            exfalso
            cases r with
            | nil => simp at hlt
            | cons e r =>
              rw [hkey, List.cons_append, List.cons.injEq] at hu
              rw [hkey, List.cons_append, List.cons_append, List.cons.injEq] at hy
              exact hk (hu.2 ▸ by simp [hy.1])
        · exact ⟨u, hr, by rw [hy, List.append_assoc]⟩
      have hpos : 0 < key.length := by rw [hkey]; exact Nat.succ_pos _
      have hmem := ih u (n + x.length + key.length) (by
        simp only [List.length_append] at hturns
        omega)
      convert hmem using 1
      simp only [List.length_append]
      omega
    · exact hlen ▸ List.mem_cons_self

lemma colonAfter_append {q blanks : List Char} (hq : q = [] ∨ ∃ c, q = [c] ∧ isQuote c = true)
    (hblanks : ∀ c ∈ blanks, isBlank c = true) (t : List Char) :
    colonAfter (q ++ blanks ++ ':' :: t) = some (q.length + blanks.length + 1) := by
  have hdrop : (blanks ++ ':' :: t).dropWhile isBlank = ':' :: t := by
    rw [List.dropWhile_append_of_pos hblanks, List.dropWhile_cons_of_neg (by decide)]
  have hquote : afterQuote (q ++ blanks ++ ':' :: t) = blanks ++ ':' :: t := by
    rcases hq with rfl | ⟨c, rfl, hc⟩
    · cases blanks with
      | nil => rfl
      | cons c blanks =>
        have hc := hblanks c List.mem_cons_self
        have hnot : isQuote c = false := by
          rw [isBlank, Bool.or_eq_true, decide_eq_true_eq, decide_eq_true_eq] at hc
          rcases hc with rfl | rfl <;> decide
        simp [afterQuote, hnot]
    · simp [afterQuote, hc]
  unfold colonAfter
  rw [hquote, hdrop]
  simp only [List.head?_cons, if_true, List.length_append, List.length_cons]
  congr 1
  omega

end Keys

/-! ### References by place -/

section Places

/-- What is read behind each key, with the place of the key: its line, and how far in it stands. -/
def placedValues (n : Nat) : List (List Char) → List ((Nat × Nat) × Option (List Char))
  | [] => []
  | line :: following =>
    ((lineStarts USES line).filterMap fun start =>
      (keyEnd USES (line.map Char.toLower) start).map fun stop =>
        ((n, start), valueAfter (line.drop stop) following)) ++
      placedValues (n + 1) following

/-- The references of a text, each with the place of its key. -/
def refsAt (text : List Char) : List ((Nat × Nat) × Ref) :=
  (placedValues 0 (lines text)).map fun found => (found.1, refOf found.2)

lemma placedValues_map_snd (n : Nat) (ls : List (List Char)) :
    (placedValues n ls).map Prod.snd = keyValues USES ls := by
  induction ls generalizing n with
  | nil => rfl
  | cons line following ih =>
    rw [placedValues, keyValues, List.map_append, ih, keyEnds, List.map_filterMap,
      List.map_filterMap]
    congr 2
    funext start
    rw [Option.map_map]
    rfl

/-- The places are those of the references that are reported. -/
theorem refsAt_map_snd (text : List Char) : (refsAt text).map Prod.snd = usesRefs text := by
  rw [usesRefs, ← placedValues_map_snd 0, refsAt, List.map_map, List.map_map]
  rfl

lemma mem_placedValues (ls : List (List Char)) (n i start : Nat) (v : Option (List Char)) :
    ((n + i, start), v) ∈ placedValues n ls ↔ ∃ line, ls[i]? = some line ∧
      start ∈ lineStarts USES line ∧ ∃ stop, keyEnd USES (line.map Char.toLower) start = some stop ∧
        valueAfter (line.drop stop) (ls.drop (i + 1)) = v := by
  induction ls generalizing n i with
  | nil => simp [placedValues]
  | cons line following ih =>
    rw [placedValues, List.mem_append, List.mem_filterMap]
    cases i with
    | zero =>
      have hlater : ((n + 0, start), v) ∉ placedValues (n + 1) following := by
        have hline (ls : List (List Char)) (n m : Nat) (hlt : m < n) :
            ((m, start), v) ∉ placedValues n ls := by
          induction ls generalizing n with
          | nil => simp [placedValues]
          | cons line following ih =>
            rw [placedValues, List.mem_append, List.mem_filterMap, not_or]
            refine ⟨?_, ih (n + 1) (by omega)⟩
            rintro ⟨start', -, hfound⟩
            obtain ⟨stop, -, heq⟩ := Option.map_eq_some_iff.1 hfound
            simp only [Prod.mk.injEq] at heq
            omega
        exact hline _ _ _ (by omega)
      rw [or_iff_left hlater]
      simp
    | succ i =>
      have hhere : ¬ ∃ start', start' ∈ lineStarts USES line ∧
          (keyEnd USES (line.map Char.toLower) start').map (fun stop =>
            ((n, start'), valueAfter (line.drop stop) following)) =
              some ((n + (i + 1), start), v) := by
        rintro ⟨start', -, hfound⟩
        obtain ⟨stop, -, heq⟩ := Option.map_eq_some_iff.1 hfound
        simp only [Prod.mk.injEq] at heq
        omega
      rw [or_iff_right hhere, show n + (i + 1) = n + 1 + i by omega, ih]
      rfl

end Places

/-! ### What is read -/

/-- The text that is read behind a key: what is behind the colon, or, where that is blank, a comment
or the head of a block, the next line that is not blank. -/
def textBehind (rest : List Char) (following : List (List Char)) : List Char :=
  let value := trimStart rest
  if value = [] ∨ value.head? = some '#' ∨ blockHeader value = true then
    ((following.map trim).find? (· ≠ [])).getD []
  else value

lemma valueAfter_eq (rest : List Char) (following : List (List Char)) :
    valueAfter rest following = scalar (textBehind rest following) := by
  unfold valueAfter textBehind
  simp only
  split_ifs with h
  · cases (following.map trim).find? (· ≠ []) with
    | none => rfl
    | some l => rfl
  · rfl

/-! ### Entries -/

/-- How a key is spelled. -/
inductive Spelling | plain | single | double
  deriving DecidableEq, Repr

def Spelling.quote : Spelling → List Char
  | .plain => []
  | .single => ['\'']
  | .double => ['"']

/-- What may stand in front of a key: white space, and in a flow collection what starts an entry. -/
def startsKey (ctx : Context) (c : Char) : Bool :=
  isWhite c || isBreak c || (ctx = .flow && (c = ',' || c = '[' || c = '\x7b'))

/-- Where the value stands: behind the colon, or alone on the next line. -/
inductive Layout
  | here (gap : List Char)
  | below (gap : List Char) (lineBreak : List Char) (indent : List Char)

def Layout.text : Layout → List Char
  | .here gap => gap
  | .below gap lineBreak indent => gap ++ lineBreak ++ indent

/-- The breaks of a line: a line feed, with a carriage return in front or without, and a carriage
return. -/
def LINE_BREAKS : List (List Char) := [['\n'], ['\r', '\n'], ['\r']]

def Layout.Valid : Layout → Prop
  | .here gap => ∀ c ∈ gap, isWhite c = true
  | .below gap lineBreak indent => (∀ c ∈ gap ++ indent, isWhite c = true) ∧
      lineBreak ∈ LINE_BREAKS

/-- The value stands on another line for the reader, to which a carriage return breaks no line. -/
def Layout.Crosses : Layout → Prop
  | .here _ => False
  | .below _ lineBreak _ => '\n' ∈ lineBreak

instance : (l : Layout) → Decidable l.Crosses
  | .here _ => .isFalse id
  | .below _ lineBreak _ => inferInstanceAs (Decidable ('\n' ∈ lineBreak))

/-- A `uses` key of a block or a flow mapping, with its value. -/
structure UsesEntry where
  ctx : Context
  /-- The text in front of the key. -/
  before : List Char
  spelling : Spelling
  /-- Blanks in front of the colon. -/
  blanks : List Char
  layout : Layout
  scalar : Scalar ctx
  /-- What follows the value on its line. -/
  trailer : List Char
  /-- The lines behind. -/
  tail : List Char
  hbefore : ∀ c ∈ before.getLast?, startsKey ctx c = true
  hblanks : ∀ c ∈ blanks, isWhite c = true
  hlayout : layout.Valid
  htrailer : Follows ctx trailer
  htail : ∀ c ∈ tail.head?, isBreak c = true

namespace UsesEntry

variable (e : UsesEntry)

/-- The text behind the colon. -/
def rest : List Char := e.layout.text ++ (e.scalar.text ++ (e.trailer ++ e.tail))

/-- The key up to its colon. -/
def head : List Char :=
  e.spelling.quote ++ USES ++ e.spelling.quote ++ e.blanks ++ [':']

def text : List Char := e.before ++ (e.head ++ e.rest)

/-- The lines in front of the key's, and what is in front of it on its own. -/
def above : List Char := e.before.rdropWhile (· ≠ '\n')

def beside : List Char := e.before.rtakeWhile (· ≠ '\n')

/-- The place of the key: how many lines are above its own, and how far in it stands. -/
def place : Nat × Nat := ((lines e.above).length, (e.beside ++ e.spelling.quote).length)

variable {e}

lemma not_newline_beside : '\n' ∉ e.beside := by
  intro h
  simpa using List.mem_rtakeWhile_imp h

lemma above_append_beside : e.above ++ e.beside = e.before := List.rdropWhile_append_rtakeWhile

lemma getLast?_above : ∀ c ∈ e.above.getLast?, c = '\n' := by
  intro c hc
  have hne : e.above ≠ [] := by
    intro hnil
    rw [hnil] at hc
    cases hc
  have hlast := List.rdropWhile_last_not (fun c : Char => decide (c ≠ '\n')) e.before hne
  rw [decide_eq_true_eq, not_not] at hlast
  rw [Option.mem_def, List.getLast?_eq_some_getLast hne, Option.some.injEq] at hc
  exact hc.symm.trans hlast

lemma getLast?_beside : ∀ c ∈ e.beside.getLast?, startsKey e.ctx c = true := by
  intro c hc
  refine e.hbefore c ?_
  rw [← above_append_beside, List.getLast?_append, Option.mem_def.1 hc]
  rfl

lemma quote_eq : e.spelling.quote = [] ∨ ∃ c, e.spelling.quote = [c] ∧ isQuote c = true := by
  cases e.spelling with
  | plain => exact .inl rfl
  | single => exact .inr ⟨_, rfl, rfl⟩
  | double => exact .inr ⟨_, rfl, rfl⟩

/-- The line of the key. -/
def line (e : UsesEntry) : List Char := e.beside ++ (e.head ++ (firstLine e.rest).1)

lemma isWhite_eq {c : Char} (h : isWhite c = true) : c = ' ' ∨ c = '\t' := by
  rwa [isWhite, Bool.or_eq_true, decide_eq_true_eq, decide_eq_true_eq] at h

lemma not_newline_head : '\n' ∉ e.head := by
  have hquote : '\n' ∉ e.spelling.quote := by cases e.spelling <;> decide
  have hblanks : '\n' ∉ e.blanks := fun h => absurd (e.hblanks _ h) (by decide)
  have huses : '\n' ∉ USES := by decide
  simp [head, hquote, hblanks, huses]

lemma lines_text : lines e.text = lines e.above ++ e.line :: (firstLine e.rest).2 := by
  have hmem : '\n' ∉ e.beside ++ e.head := by
    rw [List.mem_append, not_or]
    exact ⟨not_newline_beside, not_newline_head⟩
  have hlast : (e.beside ++ e.head).getLast? = some ':' := by
    rw [head, ← List.append_assoc, List.getLast?_append]
    rfl
  have hne : e.beside ++ e.head ++ e.rest ≠ [] := by
    rw [head]
    simp
  rw [text, ← above_append_beside, List.append_assoc, ← List.append_assoc e.beside,
    lines_append_of_getLast? getLast?_above, lines_eq_firstLine hne,
    firstLine_append hmem (by rw [hlast]; rintro c ⟨⟩; decide), line, List.append_assoc]

/-- What stands in front of a key is no quote and continues no word. -/
lemma toLower_of_startsKey {ctx : Context} {c : Char} (h : startsKey ctx c = true) :
    isQuote c.toLower = false ∧
      (isAsciiAlphanumeric c.toLower || c.toLower = '_' || c.toLower = '-') = false := by
  have hcases : c ∈ [' ', '\t', '\n', '\r', ',', '[', '\x7b'] := by
    simp only [startsKey, isWhite, isBreak, Bool.or_eq_true, Bool.and_eq_true,
      decide_eq_true_eq] at h
    simp only [List.mem_cons, List.not_mem_nil, or_false]
    tauto
  clear h
  revert c
  decide +kernel

/-- A key is not the end of a longer word. -/
lemma wordBefore_beside :
    wordBefore ((e.beside ++ e.spelling.quote).map Char.toLower) = false := by
  have hdrop : dropQuote ((e.beside ++ e.spelling.quote).map Char.toLower) =
      e.beside.map Char.toLower := by
    rcases e.quote_eq with hq | ⟨c, hq, hc⟩
    · rw [hq, List.append_nil, dropQuote, List.getLast?_map]
      cases hlast : e.beside.getLast? with
      | none => rfl
      | some c =>
        have hnot := (toLower_of_startsKey (e.getLast?_beside c hlast)).1
        rw [Option.map_some, Option.any_some, hnot]
        rfl
    · have hlower : c.toLower = c := by
        rw [isQuote, Bool.or_eq_true, decide_eq_true_eq, decide_eq_true_eq] at hc
        rcases hc with rfl | rfl <;> decide
      rw [hq, List.map_append, List.map_singleton, hlower, dropQuote, List.getLast?_concat,
        Option.any_some, if_pos hc, List.dropLast_concat]
  rw [wordBefore, hdrop, List.getLast?_map]
  cases hlast : e.beside.getLast? with
  | none => rfl
  | some c => exact (toLower_of_startsKey (e.getLast?_beside c hlast)).2

lemma keyEnd_line : keyEnd USES (e.line.map Char.toLower) (e.beside ++ e.spelling.quote).length =
    some (e.beside ++ e.head).length := by
  have hline : e.line = e.beside ++ e.spelling.quote ++
      (USES ++ (e.spelling.quote ++ e.blanks ++ ':' :: (firstLine e.rest).1)) := by
    simp [line, head]
  have hquote : e.spelling.quote.map Char.toLower = e.spelling.quote := by
    cases e.spelling <;> decide
  have hblanks : e.blanks.map Char.toLower = e.blanks := by
    refine (List.map_congr_left fun c hc => ?_).trans (List.map_id _)
    rcases isWhite_eq (e.hblanks c hc) with rfl | rfl <;> decide
  have hafter : colonAfter (((e.line.map Char.toLower).drop
      ((e.beside ++ e.spelling.quote).length + USES.length))) =
        some (e.spelling.quote.length + e.blanks.length + 1) := by
    have hlower : e.line.map Char.toLower = (e.beside ++ e.spelling.quote).map Char.toLower ++
        (USES ++ (e.spelling.quote ++ e.blanks ++
          ':' :: (firstLine e.rest).1.map Char.toLower)) := by
      have huses : USES.map Char.toLower = USES := by decide
      rw [hline]
      simp only [List.map_append, List.map_cons, huses, hquote, hblanks]
      rfl
    rw [hlower, ← List.drop_drop, List.drop_left' (List.length_map _), List.drop_left]
    exact colonAfter_append e.quote_eq e.hblanks _
  have htake : (e.line.map Char.toLower).take (e.beside ++ e.spelling.quote).length =
      (e.beside ++ e.spelling.quote).map Char.toLower := by
    rw [hline, List.map_append, List.take_left' (List.length_map _)]
  rw [keyEnd, htake, wordBefore_beside, hafter]
  simp only [Bool.false_eq_true, if_false, Option.map_some, head, List.length_append,
    List.length_singleton]
  congr 1
  omega

/-- One reference is reported at the place of a key. -/
theorem mem_refsAt_iff {r : Ref} : (e.place, r) ∈ refsAt e.text ↔
    r = refOf (valueAfter (firstLine e.rest).1 (firstLine e.rest).2) := by
  have hstart : (e.beside ++ e.spelling.quote).length ∈ lineStarts USES e.line := by
    have hlower : e.line.map Char.toLower =
        (e.beside ++ e.spelling.quote).map Char.toLower ++ USES ++
          (e.spelling.quote ++ e.blanks ++ ':' :: (firstLine e.rest).1).map Char.toLower := by
      have huses : USES.map Char.toLower = USES := by decide
      simp [line, head, huses]
    have hlength : (e.line.map Char.toLower).length = e.line.length := List.length_map _
    have hmem := mem_keyStarts (show USES = 'u' :: ['s', 'e', 's'] from rfl) (by decide)
      ((e.beside ++ e.spelling.quote).map Char.toLower)
      ((e.spelling.quote ++ e.blanks ++ ':' :: (firstLine e.rest).1).map Char.toLower) 0
      (show _ < e.line.length + 1 by
        rw [← hlength, hlower]
        simp only [List.length_append]
        omega)
    rwa [← hlower, List.length_map, Nat.zero_add] at hmem
  have hline : (lines e.text)[(lines e.above).length]? = some e.line := by
    rw [lines_text, List.getElem?_append_right le_rfl, Nat.sub_self]
    rfl
  have hfollowing : (lines e.text).drop ((lines e.above).length + 1) = (firstLine e.rest).2 := by
    rw [lines_text, ← List.drop_drop, List.drop_left]
    rfl
  have hdrop : e.line.drop (e.beside ++ e.head).length = (firstLine e.rest).1 := by
    rw [line, ← List.append_assoc, List.drop_left]
  have hvalue (v : Option (List Char)) : (e.place, v) ∈ placedValues 0 (lines e.text) ↔
      valueAfter (firstLine e.rest).1 (firstLine e.rest).2 = v := by
    have hiff := mem_placedValues (lines e.text) 0 (lines e.above).length
      (e.beside ++ e.spelling.quote).length v
    rw [Nat.zero_add] at hiff
    rw [place, hiff, hline, hfollowing]
    constructor
    · rintro ⟨_, ⟨⟩, -, stop, hstop, hv⟩
      rw [keyEnd_line, Option.some.injEq] at hstop
      rwa [← hstop, hdrop] at hv
    · intro hv
      exact ⟨_, rfl, hstart, _, keyEnd_line, by rwa [hdrop]⟩
  rw [refsAt, List.mem_map]
  constructor
  · rintro ⟨⟨place, v⟩, hmem, heq⟩
    obtain ⟨rfl, rfl⟩ := Prod.mk.inj heq
    rw [(hvalue v).1 hmem]
  · rintro rfl
    exact ⟨_, (hvalue _).2 rfl, rfl⟩

variable (e) in
def behind : List Char := textBehind (firstLine e.rest).1 (firstLine e.rest).2

variable (e) in
/-- What follows the value on its line, where a carriage return breaks no line. -/
def after : List Char := (firstLine (e.trailer ++ e.tail)).1

variable (e) in
/-- A line without the white space at its end, if the reader drops that. -/
def visible (s : List Char) : List Char :=
  if e.layout.Crosses then s.rdropWhile isWhitespace else s

lemma visible_append {x : List Char} (hx : ∀ c ∈ x.getLast?, isWhitespace c = false)
    (w : List Char) : e.visible (x ++ w) = x ++ e.visible w := by
  unfold visible
  split_ifs
  · exact rdropWhile_append_of_last hx w
  · rfl

lemma isWhitespace_of_isWhite {c : Char} (h : isWhite c = true) : isWhitespace c = true := by
  rcases isWhite_eq h with rfl | rfl <;> decide

lemma trimStart_append {x s : List Char} (hx : ∀ c ∈ x, isWhitespace c = true) :
    trimStart (x ++ s) = trimStart s := by
  rw [trimStart, trimStart, List.dropWhile_append_of_pos hx]

/-- The line up to a value goes on with what follows the value. -/
lemma firstLine_scalar {x : List Char} (hx : '\n' ∉ x) :
    firstLine (x ++ (e.scalar.text ++ (e.trailer ++ e.tail))) =
      (x ++ (e.scalar.text ++ e.after), (firstLine (e.trailer ++ e.tail)).2) := by
  have hmem : '\n' ∉ x ++ e.scalar.text := by
    rw [List.mem_append, not_or]
    exact ⟨hx, fun h => absurd (e.scalar.not_isBreak_text _ h) (by decide)⟩
  have hlast : ∀ c ∈ (x ++ e.scalar.text).getLast?, c ≠ '\r' := by
    rw [List.getLast?_append_of_ne_nil _ e.scalar.text_ne_nil]
    rintro c hc rfl
    exact absurd (e.scalar.not_isBreak_text _ (List.mem_of_getLast? hc)) (by decide)
  rw [← List.append_assoc, firstLine_append hmem hlast, List.append_assoc, after]

/-- Where the value stands for the reader: on the line of the key, or at the start of the next. -/
lemma firstLine_rest :
    (¬ e.layout.Crosses ∧ ∃ gap, (∀ c ∈ gap, isWhitespace c = true) ∧
      (firstLine e.rest).1 = gap ++ (e.scalar.text ++ e.after)) ∨
    (e.layout.Crosses ∧ (∀ c ∈ (firstLine e.rest).1, isWhitespace c = true) ∧
      ∃ indent, (∀ c ∈ indent, isWhitespace c = true) ∧ ∃ following,
        (firstLine e.rest).2 = (indent ++ (e.scalar.text ++ e.after)) :: following) := by
  have hline {x : List Char} (hx : ∀ c ∈ x, isWhite c = true) : '\n' ∉ x := fun h =>
    absurd (hx _ h) (by decide)
  have hvalid := e.hlayout
  rw [rest]
  generalize e.layout = layout at hvalid ⊢
  cases layout with
  | here gap =>
    refine .inl ⟨id, gap, fun c hc => isWhitespace_of_isWhite (hvalid c hc), ?_⟩
    rw [Layout.text, firstLine_scalar (hline hvalid)]
  | below gap lineBreak indent =>
    obtain ⟨hblank, hbreak⟩ := hvalid
    obtain ⟨hgap, hindent⟩ := List.forall_mem_append.1 hblank
    have hnext : lines (indent ++ (e.scalar.text ++ (e.trailer ++ e.tail))) =
        (indent ++ (e.scalar.text ++ e.after)) :: (firstLine (e.trailer ++ e.tail)).2 := by
      rw [lines_eq_firstLine (by simp [e.scalar.text_ne_nil]), firstLine_scalar (hline hindent)]
    have hwhite : ∀ c ∈ gap, isWhitespace c = true := fun c hc => isWhitespace_of_isWhite (hgap c hc)
    simp only [LINE_BREAKS, List.mem_cons, List.not_mem_nil, or_false] at hbreak
    rcases hbreak with rfl | rfl | rfl
    · have hreturn : dropReturn gap = gap := by
        have h := dropReturn_append (x := gap) (s := []) (by
          rintro c hc rfl
          exact absurd (hgap _ (List.mem_of_getLast? hc)) (by decide))
        rwa [List.append_nil, dropReturn_nil, List.append_nil] at h
      refine .inr ⟨by simp [Layout.Crosses], ?_⟩
      rw [Layout.text, List.append_assoc, List.append_assoc, List.singleton_append,
        firstLine_of_break (hline hgap), hreturn]
      exact ⟨hwhite, indent, fun c hc => isWhitespace_of_isWhite (hindent c hc), _, hnext⟩
    · have hreturn : dropReturn (gap ++ ['\r']) = gap := by
        rw [dropReturn, chomp_append, Option.getD_some]
      have hcr : '\n' ∉ gap ++ ['\r'] := by
        simpa using hline hgap
      refine .inr ⟨by simp [Layout.Crosses], ?_⟩
      have htext : Layout.text (.below gap ['\r', '\n'] indent) ++
          (e.scalar.text ++ (e.trailer ++ e.tail)) = gap ++ ['\r'] ++
            '\n' :: (indent ++ (e.scalar.text ++ (e.trailer ++ e.tail))) := by
        simp [Layout.text]
      rw [htext, firstLine_of_break hcr, hreturn]
      exact ⟨hwhite, indent, fun c hc => isWhitespace_of_isWhite (hindent c hc), _, hnext⟩
    · -- the reader takes a carriage return for a blank
      refine .inl ⟨by simp [Layout.Crosses], gap ++ ['\r'] ++ indent, ?_, ?_⟩
      · intro c hc
        simp only [List.mem_append, List.mem_singleton] at hc
        rcases hc with (hc | rfl) | hc
        · exact hwhite c hc
        · decide
        · exact isWhitespace_of_isWhite (hindent c hc)
      · have hcr : '\n' ∉ gap ++ ['\r'] ++ indent := by
          simp [hline hgap, hline hindent]
        rw [Layout.text, firstLine_scalar hcr]

lemma rdropWhile_cons {c : Char} (hc : isWhitespace c = false) (s : List Char) :
    (c :: s).rdropWhile isWhitespace = c :: s.rdropWhile isWhitespace :=
  rdropWhile_append_of_last (x := [c]) (by rintro d ⟨⟩; exact hc) s

/-- What the value starts with, if that is a start the reader goes by. -/
lemma behind_eq {c : Char} {s : List Char} (htext : e.scalar.text = c :: s)
    (hc : isWhitespace c = false) (hstart : c ∉ ['#', '|', '>']) :
    e.behind = e.visible (e.scalar.text ++ e.after) := by
  simp only [List.mem_cons, List.not_mem_nil, or_false, not_or] at hstart
  obtain ⟨hcomment, hpipe, hfold⟩ := hstart
  have hdrop (x : List Char) : trimStart (c :: x) = c :: x :=
    List.dropWhile_cons_of_neg (by simp [hc])
  have hblock (x : List Char) : blockHeader (c :: x) = false := by
    rw [blockHeader, List.takeWhile_cons_of_pos (by simp [hcomment]), rdropWhile_cons hc]
    simp [hpipe, hfold]
  rcases e.firstLine_rest with ⟨hcross, gap, hgap, hline⟩ | ⟨hcross, hblank, indent, hindent,
    following, hlines⟩
  · have hvalue : trimStart (firstLine e.rest).1 = c :: (s ++ e.after) := by
      rw [hline, trimStart_append hgap, htext, List.cons_append, hdrop]
    rw [behind, textBehind, hvalue, visible, if_neg hcross, htext]
    simp [hblock, hcomment]
  · have hvalue : trimStart (firstLine e.rest).1 = [] := by
      have h := trimStart_append (s := []) hblank
      rwa [List.append_nil] at h
    have htrim : trim (indent ++ (e.scalar.text ++ e.after)) =
        c :: (s ++ e.after).rdropWhile isWhitespace := by
      rw [trim, trimBy, List.dropWhile_append_of_pos hindent, htext, List.cons_append,
        List.dropWhile_cons_of_neg (by simp [hc]), rdropWhile_cons hc]
    rw [behind, textBehind, hvalue, hlines, visible, if_pos hcross, List.map_cons, htrim, htext,
      List.cons_append, rdropWhile_cons hc]
    simp

lemma visible_isPrefix {s : List Char} : e.visible s <+: s := by
  unfold visible
  split_ifs
  · exact List.rdropWhile_prefix _ _
  · exact List.prefix_rfl

lemma head?_after : ∀ c ∈ e.after.head?, isWhite c = true ∨ isBreak c = true ∨
    c = ',' ∨ c = ']' ∨ c = '\x7d' := by
  intro c hc
  have hhead : c ∈ (e.trailer ++ e.tail).head? := by
    obtain ⟨t, ht⟩ := firstLine_isPrefix (e.trailer ++ e.tail)
    rw [← ht, List.head?_append, ← after, Option.mem_def.1 hc]
    rfl
  cases htrailer : e.trailer with
  | nil =>
    rw [htrailer, List.nil_append] at hhead
    exact .inr (.inl (e.htail c hhead))
  | cons d t =>
    rw [htrailer] at hhead
    obtain rfl := Option.some.inj hhead
    have hd := e.htrailer.head
    rw [htrailer] at hd
    exact (hd d rfl).imp_right .inr

end UsesEntry

/-! ### What is made of it -/

section Values

variable {v c : List Char}

/-- The reference is right for the value that YAML reads. -/
def Right (v : List Char) : Ref → Prop
  | .unparsed => True
  | .remote => ¬ ['.', '/'] <+: v
  | .local dir => ∃ path, v = '.' :: '/' :: path ∧ dir = resolve path

/-- What is read of a value is left open for its escapes, or names the directory of the value. -/
def Names (c v : List Char) : Prop :=
  '\\' ∈ c ∨ ∀ path, v = '.' :: '/' :: path → resolve (c.drop 2) = resolve path

/-- A text that is read as a local path: plainly, or in quotes. -/
def ReadsLocal (t : List Char) : Prop :=
  ∃ path, scalar t = some ('.' :: '/' :: path)

lemma isPrefix_dotSlash {s : List Char} : ['.', '/'] <+: s ↔ ∃ path, s = '.' :: '/' :: path := by
  constructor
  · rintro ⟨path, rfl⟩
    exact ⟨path, rfl⟩
  · rintro ⟨path, rfl⟩
    exact ⟨path, rfl⟩

lemma classifyUses_local (path : List Char) :
    classifyUses ('.' :: '/' :: path) = .local (resolve path) := by
  have h : afterStart ['.', '/'] ('.' :: '/' :: path) = some path :=
    afterStart_append ['.', '/'] path
  rw [classifyUses, h]

/-- A text that starts otherwise is no local path. -/
lemma classifyUses_other (h : ¬ ['.', '/'] <+: c) :
    classifyUses c = .remote ∨ classifyUses c = .unparsed := by
  rw [classifyUses, afterStart, if_neg h]
  split_ifs
  · exact .inl rfl
  · exact .inr rfl

lemma right_of_not_local (hv : ¬ ['.', '/'] <+: v) {value : Option (List Char)} :
    Right v (refOf value) ↔ ¬ ∃ path, value = some ('.' :: '/' :: path) := by
  cases value with
  | none => exact iff_of_true trivial nofun
  | some c =>
    rw [refOf, Option.map_some, Option.getD_some]
    by_cases hc : ['.', '/'] <+: c
    · obtain ⟨path, rfl⟩ := isPrefix_dotSlash.1 hc
      rw [classifyUses_local]
      refine iff_of_false ?_ (not_not_intro ⟨path, rfl⟩)
      rintro ⟨path, rfl, -⟩
      exact hv ⟨path, rfl⟩
    · have hnone : ¬ ∃ path, some c = some ('.' :: '/' :: path) := by
        rintro ⟨path, heq⟩
        exact hc ⟨path, (Option.some.inj heq).symm⟩
      refine iff_of_true ?_ hnone
      rcases classifyUses_other hc with h | h
      · rw [h]
        exact hv
      · rw [h]
        trivial

lemma right_refOf_readable (hstart : ['.', '/'] <+: c ↔ ['.', '/'] <+: v) :
    Right v (refOf (readable c)) ↔ Names c v := by
  rw [readable]
  split_ifs with hread
  · obtain ⟨-, hescape⟩ := hread
    rw [Names, or_iff_right hescape]
    by_cases hv : ['.', '/'] <+: v
    · obtain ⟨path, rfl⟩ := isPrefix_dotSlash.1 (hstart.2 hv)
      obtain ⟨path', rfl⟩ := isPrefix_dotSlash.1 hv
      rw [refOf, Option.map_some, Option.getD_some, classifyUses_local]
      constructor
      · rintro ⟨path'', heq, hdir⟩ path''' heq'
        obtain rfl := (List.cons.inj (List.cons.inj heq).2).2
        obtain rfl := (List.cons.inj (List.cons.inj heq').2).2
        exact hdir
      · intro h
        exact ⟨path', rfl, h path' rfl⟩
    · rw [right_of_not_local hv]
      refine iff_of_true ?_ fun path heq => absurd ⟨path, heq.symm⟩ hv
      rintro ⟨path, heq⟩
      exact hv (hstart.1 ⟨path, (Option.some.inj heq).symm⟩)
  · refine iff_of_true trivial ?_
    by_cases hescape : '\\' ∈ c
    · exact .inl hescape
    · refine .inr fun path heq => ?_
      have hc : c = [] := by
        by_contra hne
        exact hread ⟨hne, hescape⟩
      have hpre := hstart.2 ⟨path, heq.symm⟩
      rw [hc, List.prefix_nil] at hpre
      cases hpre

/-- In single quotes the reader stops at the first quote of the value. -/
lemma cut_singleQuoted (v s : List Char) : ∃ t,
    cut ['\''] (singleQuoted v ++ '\'' :: s) = some (v.takeWhile (· ≠ '\''), t) := by
  induction v with
  | nil => exact ⟨_, cut_of_isPrefix (show ['\''] <+: '\'' :: s from ⟨s, rfl⟩)⟩
  | cons c v ih =>
    obtain ⟨t, ih⟩ := ih
    by_cases hc : c = '\''
    · subst hc
      have hpre : ['\''] <+: singleQuoted ('\'' :: v) ++ '\'' :: s := ⟨_, rfl⟩
      exact ⟨_, cut_of_isPrefix hpre⟩
    · have hquoted : singleQuoted (c :: v) = c :: singleQuoted v := by
        rw [singleQuoted, List.flatMap_cons, if_neg hc]
        rfl
      have hnot : ¬ ['\''] <+: c :: (singleQuoted v ++ '\'' :: s) := by
        rintro ⟨t, ht⟩
        exact hc (List.cons.inj ht).1.symm
      rw [hquoted, List.cons_append, cut_cons_of_not hnot, ih,
        List.takeWhile_cons_of_pos (by simp [hc])]
      exact ⟨t, rfl⟩

lemma cut_doubleQuoted (raw s : List Char) : ∃ t,
    cut ['"'] (raw ++ '"' :: s) = some (raw.takeWhile (· ≠ '"'), t) := by
  induction raw with
  | nil => exact ⟨_, cut_of_isPrefix (show ['"'] <+: '"' :: s from ⟨s, rfl⟩)⟩
  | cons c raw ih =>
    obtain ⟨t, ih⟩ := ih
    by_cases hc : c = '"'
    · subst hc
      exact ⟨_, cut_of_isPrefix (show ['"'] <+: '"' :: (raw ++ '"' :: s) from ⟨_, rfl⟩)⟩
    · have hnot : ¬ ['"'] <+: c :: (raw ++ '"' :: s) := by
        rintro ⟨t, ht⟩
        exact hc (List.cons.inj ht).1.symm
      rw [List.cons_append, cut_cons_of_not hnot, ih, List.takeWhile_cons_of_pos (by simp [hc])]
      exact ⟨t, rfl⟩

/-- In double quotes the reader sees a backslash, or the value. -/
lemma takeWhile_escaped {raw : List Char} (h : Escaped raw v) :
    '\\' ∈ raw.takeWhile (· ≠ '"') ∨ raw.takeWhile (· ≠ '"') = v := by
  induction h with
  | nil => exact .inr rfl
  | char _ hquote _ _ ih =>
    rw [List.takeWhile_cons_of_pos (by simp [hquote])]
    exact ih.imp (List.mem_cons_of_mem _) (congrArg _)
  | escape => exact .inl (by simp)
  | numbered => exact .inl (by simp)

lemma scalar_singleQuoted (v s : List Char) :
    scalar ('\'' :: (singleQuoted v ++ '\'' :: s)) = readable (v.takeWhile (· ≠ '\'')) := by
  obtain ⟨t, hcut⟩ := cut_singleQuoted v s
  rw [scalar, if_pos (by decide), hcut]
  rfl

lemma scalar_doubleQuoted (raw s : List Char) :
    scalar ('"' :: (raw ++ '"' :: s)) = readable (raw.takeWhile (· ≠ '"')) := by
  obtain ⟨t, hcut⟩ := cut_doubleQuoted raw s
  rw [scalar, if_pos (by decide), hcut]
  rfl

/-- A value in double quotes is read as it is, or not at all. -/
lemma right_doubleQuoted {raw : List Char} (h : Escaped raw v) (s : List Char) :
    Right v (refOf (scalar ('"' :: (raw ++ '"' :: s)))) := by
  rw [scalar_doubleQuoted]
  rcases takeWhile_escaped h with hescape | heq
  · rw [readable, if_neg fun hread => hread.2 hescape]
    trivial
  · rw [heq, right_refOf_readable Iff.rfl]
    refine .inr fun path hv => ?_
    rw [hv]
    rfl

lemma right_singleQuoted (v s : List Char) :
    Right v (refOf (scalar ('\'' :: (singleQuoted v ++ '\'' :: s)))) ↔
      Names (v.takeWhile (· ≠ '\'')) v := by
  rw [scalar_singleQuoted]
  refine right_refOf_readable ⟨fun h => h.trans (List.takeWhile_prefix _), fun h => ?_⟩
  obtain ⟨path, rfl⟩ := isPrefix_dotSlash.1 h
  exact ⟨path.takeWhile (· ≠ '\''), by simp⟩

/-- A plain value starts with no mark that the reader goes by. -/
lemma not_mark_of_startsPlain {ctx : Context} {first : Char} {second : Option Char}
    (h : startsPlain ctx first second = true) :
    isQuote first = false ∧ first ∉ ['#', '|', '>'] := by
  have hmark : first ∉ ['"', '\'', '#', '|', '>'] := by
    intro hmem
    have hall : ∀ c ∈ ['"', '\'', '#', '|', '>'], isIndicator c = true ∧
        (c = '?' || c = ':' || c = '-') = false := by decide
    obtain ⟨hindicator, hnot⟩ := hall first hmem
    rw [startsPlain, hindicator, hnot] at h
    simp at h
  simp only [List.mem_cons, List.not_mem_nil, or_false, not_or] at hmark
  refine ⟨by simp [isQuote, hmark], by simp [hmark]⟩

/-- A plain value is read up to where the reader takes it to end. -/
lemma right_plain {first : Char} {s w t : List Char} (hfirst : isQuote first = false)
    (ht : t <+: first :: s ++ w) (hw : w.head? ≠ some '/')
    (hlocal : ∀ path, first :: s = '.' :: '/' :: path → ['.', '/'] <+: t)
    (hhead : t.head? = some first) :
    Right (first :: s) (refOf (scalar t)) ↔ Names (plain t) (first :: s) := by
  obtain ⟨t, rfl⟩ : ∃ t', t = first :: t' := by
    cases t with
    | nil => cases hhead
    | cons c t => exact ⟨t, by rw [Option.some.inj hhead]⟩
  have hstart : ['.', '/'] <+: plain (first :: t) ↔ ['.', '/'] <+: first :: s := by
    constructor
    · intro h
      obtain ⟨path, hpath⟩ := (h.trans (List.takeWhile_prefix _)).trans ht
      cases s with
      | nil =>
        obtain rfl : w = '/' :: path := (List.cons.inj hpath).2.symm
        exact absurd rfl hw
      | cons d s =>
        simp only [List.cons_append, List.cons.injEq] at hpath
        exact ⟨s, by rw [hpath.1, hpath.2.1]; rfl⟩
    · intro h
      obtain ⟨path, hpath⟩ := isPrefix_dotSlash.1 h
      obtain ⟨path', hpath'⟩ := isPrefix_dotSlash.1 (hlocal path hpath)
      rw [hpath']
      exact ⟨plain path', by simp [plain, endsPlain]⟩
  rw [scalar, if_neg (by simp [hfirst])]
  split_ifs with hplain
  · exact right_refOf_readable hstart
  · refine iff_of_true trivial (.inr fun path hpath => ?_)
    obtain ⟨rfl, -⟩ := List.cons.inj hpath
    exact (hplain (by decide)).elim

end Values

namespace UsesEntry

/-- What the reader makes of the value is what YAML makes of it, or is left open. -/
def ReadsAlike (e : UsesEntry) : Prop :=
  match e.scalar with
  | .double .. => True
  | .single v _ => Names (v.takeWhile (· ≠ '\'')) v
  | .plain v _ =>
    if v.head?.any isWhitespace = true then ¬ ReadsLocal e.behind
    else Names (ActionRefs.plain (e.visible (v ++ e.after))) v

end UsesEntry

/-- The reader reports one reference for a key. It is right for the value if and only if the part
of the value that the reader sees names the same directory, or has a backslash. -/
theorem uses_ref_right_iff (e : UsesEntry) :
    (refsAt e.text).map Prod.snd = usesRefs e.text ∧
      ∃ r, (∀ r', (e.place, r') ∈ refsAt e.text ↔ r' = r) ∧
        (Right e.scalar.value r ↔ e.ReadsAlike) := by
  refine ⟨refsAt_map_snd e.text, _, fun r' => e.mem_refsAt_iff, ?_⟩
  rw [valueAfter_eq]
  change Right e.scalar.value (refOf (scalar e.behind)) ↔ e.ReadsAlike
  cases hs : e.scalar with
  | plain v h =>
    rw [UsesEntry.ReadsAlike, hs]
    obtain ⟨first, s, rfl, hfirst⟩ := h.first
    have htext : e.scalar.text = first :: s := by rw [hs]; rfl
    obtain ⟨hquote, hmark⟩ := not_mark_of_startsPlain hfirst
    change Right (first :: s) _ ↔ if (first :: s).head?.any isWhitespace = true then _ else _
    by_cases hwhite : (first :: s).head?.any isWhitespace = true
    · rw [if_pos hwhite]
      refine right_of_not_local ?_
      rintro ⟨path, hpath⟩
      obtain rfl : '.' = first := (List.cons.inj hpath).1
      rw [List.head?_cons, Option.any_some] at hwhite
      exact absurd hwhite (by decide)
    · rw [if_neg hwhite]
      rw [List.head?_cons, Option.any_some, Bool.not_eq_true] at hwhite
      rw [e.behind_eq htext hwhite hmark, htext]
      refine right_plain hquote e.visible_isPrefix ?_ ?_ ?_
      · intro h
        have := e.head?_after '/' h
        revert this
        decide
      · intro path hpath
        rw [hpath]
        exact ⟨_, (e.visible_append (x := ['.', '/']) (by decide) _).symm⟩
      · rw [List.cons_append, ← List.singleton_append, e.visible_append (by simpa using hwhite)]
        rfl
  | single v h =>
    have htext : e.scalar.text = '\'' :: (singleQuoted v ++ ['\'']) := by rw [hs]; rfl
    have hbehind : e.behind = '\'' :: (singleQuoted v ++ '\'' :: e.visible e.after) := by
      rw [e.behind_eq htext (by decide) (by decide), e.visible_append, htext]
      · simp
      · rw [htext, ← List.cons_append, List.getLast?_concat]
        rintro c ⟨⟩
        decide
    rw [hbehind, UsesEntry.ReadsAlike, hs]
    exact right_singleQuoted v _
  | double raw v h =>
    have htext : e.scalar.text = '"' :: (raw ++ ['"']) := by rw [hs]; rfl
    have hbehind : e.behind = '"' :: (raw ++ '"' :: e.visible e.after) := by
      rw [e.behind_eq htext (by decide) (by decide), e.visible_append, htext]
      · simp
      · rw [htext, ← List.cons_append, List.getLast?_concat]
        rintro c ⟨⟩
        decide
    rw [hbehind, UsesEntry.ReadsAlike, hs]
    exact iff_of_true (right_doubleQuoted h _) trivial

/-- A step with a blank in the path of its action. -/
def blankEntry : UsesEntry where
  ctx := .block
  before := "- ".toList
  spelling := .plain
  blanks := []
  layout := .here [' ']
  scalar := .plain "./a b".toList {
    first := ⟨'.', "/a b".toList, by decide, by decide⟩
    last := by decide
    chars := by decide
    colon := fun a b h => absurd (h ▸ List.mem_append_right a List.mem_cons_self) (by decide)
    comment := fun a b h => absurd (h ▸ List.mem_append_right a List.mem_cons_self) (by decide) }
  trailer := []
  tail := ['\n']
  hbefore := by decide
  hblanks := by decide
  hlayout := by simp [Layout.Valid, isWhite]
  htrailer := .blanks nofun
  htail := by decide

/-- A path with a blank is cut off: another directory is reported as the one in use. -/
theorem path_with_blank_misread :
    blankEntry.text = "- uses: ./a b\n".toList ∧ blankEntry.scalar.value = "./a b".toList ∧
      usesRefs blankEntry.text = [.local ['a']] ∧ resolve "a b".toList = "a b".toList ∧
      ¬ ∀ e : UsesEntry, ∀ r, (e.place, r) ∈ refsAt e.text → Right e.scalar.value r := by
  have hlocal : (blankEntry.place, Ref.local ['a']) ∈ refsAt blankEntry.text := by decide +kernel
  refine ⟨by decide +kernel, by decide +kernel, by decide +kernel, by decide +kernel, fun h => ?_⟩
  obtain ⟨path, hpath, hdir⟩ := h blankEntry _ hlocal
  have hvalue : "./a b".toList = ['.', '/', 'a', ' ', 'b'] := by decide
  obtain rfl : ['a', ' ', 'b'] = path := by
    rw [show blankEntry.scalar.value = "./a b".toList from rfl, hvalue] at hpath
    exact (List.cons.inj (List.cons.inj hpath).2).2
  exact absurd hdir (by decide)

end AgentCoordinator.ActionRefs
