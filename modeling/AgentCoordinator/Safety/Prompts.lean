import Mathlib.Data.List.Forall2
import Mathlib.Logic.Function.Basic
import AgentCoordinator.Library.Text
import AgentCoordinator.Supervisor.Prompt

/-
Data in a prompt cannot close its own block.

The instruction files stay between their tags. The title does as well, unless it holds the start of
its closing tag followed by the placeholder of the session, which is filled in behind the title: a
session that starts with the last letter of the tag completes it.
-/

namespace AgentCoordinator.Prompt

open Replace

/-! ### Quiet texts -/

/-- No closing tag and no placeholder begins in a text, whatever follows it. -/
def quiet : List Char → Bool
  | [] => true
  | [c] => c ≠ '<' && c ≠ '\x7b'
  | c :: d :: s => !(c = '<' && d = '/') && !(c = '\x7b' && d = '\x7b') && quiet (d :: s)

/-- The texts among some parts are quiet, and the placeholders have plain names. -/
def QuietParts : List Part → Prop
  | [] => True
  | .text s :: parts => quiet s.toList = true ∧ QuietParts parts
  | .field name :: parts =>
    (∀ c ∈ name.toList, c ≠ '<' ∧ c ≠ '\x7b' ∧ c ≠ '\x7d') ∧ QuietParts parts

/-- The letters of a string are those it was made of. -/
lemma quiet_toList {s : String} {l : List Char} (hs : s = String.ofList l) (hl : quiet l = true) :
    quiet s.toList = true := by
  rwa [hs, String.toList_ofList]

set_option maxRecDepth 20000 in
lemma quietParts_head : QuietParts contractHead := by
  unfold contractHead
  refine ⟨quiet_toList rfl (by decide +kernel), by decide, ?_⟩
  refine ⟨quiet_toList rfl (by decide +kernel), by decide, ?_⟩
  refine ⟨quiet_toList rfl (by decide +kernel), by decide, ?_⟩
  exact ⟨quiet_toList rfl (by decide +kernel), trivial⟩

set_option maxRecDepth 20000 in
lemma quietParts_tail : QuietParts contractTail := by
  unfold contractTail
  repeat' first
    | exact trivial
    | refine And.intro (quiet_toList rfl (by decide +kernel)) ?_
    | refine And.intro (by decide) ?_

section Quiet

variable {a b s : List Char} {c d : Char} {word : List Char}

lemma quiet_tail (h : quiet (c :: s) = true) : quiet s = true := by
  cases s with
  | nil => rfl
  | cons d s =>
    rw [quiet, Bool.and_eq_true] at h
    exact h.2

lemma quiet_of_suffix (h : quiet a = true) (hs : s <:+ a) : quiet s = true := by
  induction a with
  | nil => rw [List.suffix_nil.1 hs]; rfl
  | cons c a ih =>
    rcases List.suffix_cons_iff.1 hs with rfl | hs
    · exact h
    · exact ih (quiet_tail h) hs

/-- A letter that is none of the alphabet is folded from itself only. -/
lemma eq_of_toLower (h : c.toLower = d) (hd : d.toNat < 97) : c = d := by
  subst h
  unfold Char.toLower at hd ⊢
  split at hd
  · rename_i hupper
    obtain ⟨hlow, hhigh⟩ := hupper
    refine absurd hd ?_
    have hlow' : 65 ≤ c.val.toNat := hlow
    have hhigh' : c.val.toNat ≤ 90 := hhigh
    change ¬ (c.val + 32).toNat < 97
    rw [UInt32.toNat_add]
    change ¬ (c.val.toNat + 32) % 2 ^ 32 < 97
    omega
  · rename_i hupper
    rw [dif_neg hupper]

/-- The two closing tags. -/
def IsTag (word : List Char) : Prop := word = titleTag ∨ word = instructionsTag

lemma IsTag.eq (h : IsTag word) : ∃ w, word = '<' :: '/' :: w := by
  rcases h with rfl | rfl
  · exact ⟨_, rfl⟩
  · exact ⟨_, rfl⟩

/-- No closing tag begins in a quiet text. -/
lemma not_tag_of_quiet (hword : IsTag word) (h : quiet a = true) :
    ∀ p, p ≠ [] → p <:+ a → ¬ word <+: (p ++ b).map Char.toLower := by
  obtain ⟨w, rfl⟩ := hword.eq
  intro p hp hsuffix hpre
  have hquiet := quiet_of_suffix h hsuffix
  match p, hp with
  | [c], _ =>
    rw [List.cons_append, List.map_cons, List.cons_prefix_cons] at hpre
    obtain rfl := eq_of_toLower hpre.1.symm (by decide)
    exact absurd hquiet (by decide)
  | c :: d :: p, _ =>
    rw [List.cons_append, List.cons_append, List.map_cons, List.map_cons, List.cons_prefix_cons,
      List.cons_prefix_cons] at hpre
    obtain rfl := eq_of_toLower hpre.1.symm (by decide)
    obtain rfl := eq_of_toLower hpre.2.1.symm (by decide)
    simp [quiet] at hquiet

lemma field_eq (name : String) :
    field name = '\x7b' :: '\x7b' :: (name.toList ++ ['\x7d', '\x7d']) := rfl

lemma field_ne_nil (name : String) : field name ≠ [] := List.cons_ne_nil _ _

/-- No placeholder begins in a quiet text. -/
lemma not_field_of_quiet (name : String) (h : quiet a = true) :
    ∀ p, p ≠ [] → p <:+ a → ¬ field name <+: p ++ b := by
  intro p hp hsuffix hpre
  have hquiet := quiet_of_suffix h hsuffix
  rw [field_eq] at hpre
  match p, hp with
  | [c], _ =>
    rw [List.cons_append, List.cons_prefix_cons] at hpre
    obtain ⟨rfl, -⟩ := hpre
    exact absurd hquiet (by decide)
  | c :: d :: p, _ =>
    rw [List.cons_append, List.cons_append, List.cons_prefix_cons, List.cons_prefix_cons] at hpre
    obtain ⟨rfl, rfl, -⟩ := hpre
    simp [quiet] at hquiet

/-- Texts up to a letter that they do not have. -/
lemma eq_of_append_prefix {n m x y : List Char} {e : Char} (hn : e ∉ n) (hm : e ∉ m)
    (h : n ++ e :: x <+: m ++ e :: y) : n = m := by
  induction n generalizing m with
  | nil =>
    cases m with
    | nil => rfl
    | cons d m =>
      obtain ⟨rfl, -⟩ := List.cons_prefix_cons.1 h
      exact absurd List.mem_cons_self hm
  | cons c n ih =>
    cases m with
    | nil =>
      obtain ⟨rfl, -⟩ := List.cons_prefix_cons.1 h
      exact absurd List.mem_cons_self hn
    | cons d m =>
      obtain ⟨rfl, hrest⟩ := List.cons_prefix_cons.1 h
      rw [ih (List.not_mem_of_not_mem_cons hn) (List.not_mem_of_not_mem_cons hm) hrest]

/-- A placeholder is no other one. -/
lemma not_field_of_field {name other : String} (hne : name ≠ other)
    (hname : ∀ c ∈ name.toList, c ≠ '<' ∧ c ≠ '\x7b' ∧ c ≠ '\x7d')
    (hother : ∀ c ∈ other.toList, c ≠ '<' ∧ c ≠ '\x7b' ∧ c ≠ '\x7d') :
    ∀ p, p ≠ [] → p <:+ field other → ¬ field name <+: p ++ b := by
  intro p hp hsuffix hpre
  rw [field_eq] at hsuffix hpre
  have hplain : ∀ c ∈ other.toList ++ ['\x7d', '\x7d'], c ≠ '\x7b' := by
    intro c hc
    rcases List.mem_append.1 hc with hc | hc
    · exact (hother c hc).2.1
    · simp only [List.mem_cons, List.not_mem_nil, or_false, or_self] at hc
      rw [hc]
      decide
  rcases List.suffix_cons_iff.1 hsuffix with rfl | hsuffix
  · rw [List.cons_append, List.cons_append, List.cons_prefix_cons, List.cons_prefix_cons,
      List.append_assoc] at hpre
    have heq := eq_of_append_prefix (fun h => (hname _ h).2.2 rfl) (fun h => (hother _ h).2.2 rfl)
      hpre.2.2
    exact hne (String.toList_inj.1 heq)
  · obtain ⟨c, p, rfl⟩ := List.exists_cons_of_ne_nil hp
    rw [List.cons_append, List.cons_prefix_cons] at hpre
    obtain ⟨rfl, hpre⟩ := hpre
    rcases List.suffix_cons_iff.1 hsuffix with heq | hsuffix
    · obtain rfl := (List.cons.inj heq).2
      cases hlist : other.toList ++ ['\x7d', '\x7d'] with
      | nil => simp at hlist
      | cons d l =>
        rw [hlist, List.cons_append, List.cons_prefix_cons] at hpre
        exact hplain d (by rw [hlist]; exact List.mem_cons_self) hpre.1.symm
    · exact hplain _ (hsuffix.subset List.mem_cons_self) rfl

end Quiet

/-! ### Filling the contract -/

/-- A template with some of its placeholders filled in. -/
def fill (values : String → Option (List Char)) (parts : List Part) : List Char :=
  parts.flatMap fun
    | .text s => s.toList
    | .field name => (values name).getD (field name)

lemma flat_eq (parts : List Part) : flat parts = fill (fun _ => none) parts := by
  unfold flat fill
  refine congrArg (fun f => parts.flatMap f) (funext fun part => ?_)
  cases part <;> rfl

/-- A text that opens neither a tag nor a placeholder. -/
def Plain (s : List Char) : Prop := '<' ∉ s ∧ '\x7b' ∉ s

section Fill

variable {values : String → Option (List Char)} {parts : List Part} {b v : List Char}
  {name : String}

lemma fill_cons (part : Part) : fill values (part :: parts) = (match part with
    | .text s => s.toList
    | .field name => (values name).getD (field name)) ++ fill values parts := rfl

/-- The parts of a template have no closing tag. -/
lemma occurrences_fill {word : List Char} (hword : IsTag word) (hparts : QuietParts parts)
    (hvalues : ∀ name v, values name = some v → Plain v) :
    occurrences Char.toLower word (fill values parts ++ b) = occurrences Char.toLower word b := by
  induction parts with
  | nil => rfl
  | cons part parts ih =>
    rw [fill_cons, List.append_assoc]
    cases part with
    | text s =>
      obtain ⟨hs, hparts⟩ := hparts
      rw [occurrences_skip (not_tag_of_quiet hword hs), ih hparts]
    | field name =>
      obtain ⟨hname, hparts⟩ := hparts
      have hopen : '<' ∉ (values name).getD (field name) := by
        cases hvalue : values name with
        | some v => exact (hvalues name v hvalue).1
        | none =>
          intro hmem
          rw [Option.getD_none, field_eq] at hmem
          simp only [List.mem_cons, List.mem_append, List.not_mem_nil, or_false, or_self] at hmem
          rcases hmem with hmem | hmem | hmem | hmem
          · exact absurd hmem (by decide)
          · exact absurd hmem (by decide)
          · exact (hname _ hmem).1 rfl
          · exact absurd hmem (by decide)
      rw [occurrences_skip, ih hparts]
      intro p hp hsuffix hpre
      obtain ⟨w, rfl⟩ := hword.eq
      obtain ⟨c, p, rfl⟩ := List.exists_cons_of_ne_nil hp
      rw [List.cons_append, List.map_cons, List.cons_prefix_cons] at hpre
      obtain rfl := eq_of_toLower hpre.1.symm (by decide)
      exact hopen (hsuffix.subset List.mem_cons_self)

/-- Another placeholder of a template is filled in. -/
lemma replace_fill (hparts : QuietParts parts)
    (hvalues : ∀ name v, values name = some v → Plain v) (hnone : values name = none)
    (hname : ∀ c ∈ name.toList, c ≠ '<' ∧ c ≠ '\x7b' ∧ c ≠ '\x7d') :
    replace (field name) v (fill values parts ++ b) =
      fill (Function.update values name (some v)) parts ++ replace (field name) v b := by
  induction parts with
  | nil => rfl
  | cons part parts ih =>
    rw [fill_cons, fill_cons, List.append_assoc, List.append_assoc]
    cases part with
    | text s =>
      obtain ⟨hs, hparts⟩ := hparts
      rw [replace_skip (not_field_of_quiet name hs), ih hparts]
    | field other =>
      obtain ⟨hother, hparts⟩ := hparts
      by_cases heq : other = name
      · subst heq
        simp only [hnone, Option.getD_none, Function.update_self, Option.getD_some]
        rw [replace_append_pat (field_ne_nil _), ih hparts]
      · simp only [Function.update_of_ne heq]
        cases hvalue : values other with
        | some w =>
          rw [Option.getD_some, replace_append_of_not_mem (field_ne_nil _), ih hparts]
          rintro c ⟨⟩
          exact (hvalues other w hvalue).2
        | none =>
          rw [Option.getD_none, replace_skip (not_field_of_field (Ne.symm heq) hname hother),
            ih hparts]

end Fill

/-! ### The prompt in parts -/

/-- What is filled in for the placeholders but the title. -/
def valuesOf (launch : Launch) (lease : Lease) : String → Option (List Char) :=
  Function.update (Function.update (Function.update (Function.update (Function.update
    (Function.update (Function.update (fun _ => none)
      "project" (some launch.project)) "attempt" (some lease.attempt))
      "generation" (some (digits lease.generation))) "checkout" (some launch.checkout))
      "task_id" (some launch.suggestion.task))
      "task_revision" (some (digits launch.suggestion.revision)))
      "session" (some launch.session.text)

/-- The title as it stands in the prompt. -/
def filledTitle (launch : Launch) : List Char :=
  replace (field "session") launch.session.text (defuse (oneLine launch.suggestion.title))

/-- The identities are plain texts. -/
structure Identities (launch : Launch) (lease : Lease) : Prop where
  project : Plain launch.project
  task : Plain launch.suggestion.task
  checkout : Plain launch.checkout
  attempt : Plain lease.attempt

section Render

variable {launch : Launch} {lease : Lease} {values : String → Option (List Char)}
  {v : List Char} {name : String}

/-- An identity is filled in before the title. -/
lemma replace_contract (hvalues : ∀ name v, values name = some v → Plain v)
    (hnone : values name = none) (hne : name ≠ "task_title")
    (hname : ∀ c ∈ name.toList, c ≠ '<' ∧ c ≠ '\x7b' ∧ c ≠ '\x7d') :
    replace (field name) v (fill values contractHead ++
        (field "task_title" ++ ("</task-title>".toList ++ fill values contractTail))) =
      fill (Function.update values name (some v)) contractHead ++ (field "task_title" ++
        ("</task-title>".toList ++ fill (Function.update values name (some v)) contractTail)) := by
  have htail := replace_fill (b := []) (v := v) quietParts_tail hvalues hnone hname
  rw [List.append_nil, replace_nil, List.append_nil] at htail
  rw [replace_fill quietParts_head hvalues hnone hname,
    replace_skip (not_field_of_field hne hname (by decide)),
    replace_append_of_not_mem (field_ne_nil _) (by rintro c ⟨⟩; decide), htail]

lemma plain_none : ∀ (name : String) (v : List Char),
    (fun _ => none : String → Option (List Char)) name = some v → Plain v := by
  rintro name v ⟨⟩

lemma plain_update (name : String) (hvalues : ∀ name v, values name = some v → Plain v)
    (hv : Plain v) : ∀ other w, Function.update values name (some v) other = some w → Plain w := by
  intro other w hw
  by_cases h : other = name
  · subst h
    rw [Function.update_self] at hw
    obtain rfl := Option.some.inj hw
    exact hv
  · rw [Function.update_of_ne h] at hw
    exact hvalues other w hw

lemma plain_digits (n : Nat) : Plain (digits n) := by
  have hdigit : ∀ c ∈ digits n, c.isDigit = true := by
    intro c hc
    rw [digits, Nat.toString_eq_repr, Nat.toList_repr] at hc
    exact Nat.isDigit_of_mem_toDigits (b := 10) (by decide) (by decide) hc
  exact ⟨fun h => absurd (hdigit _ h) (by decide), fun h => absurd (hdigit _ h) (by decide)⟩

/-- The letters of a session. -/
lemma mem_uuid {u : Uuid} {c : Char} (hc : c ∈ u.text) : c ∈ "0123456789abcdef-".toList := by
  have hdigit : ∀ d : Fin 16, hexDigit d ∈ "0123456789abcdef-".toList := by decide
  have hdigits : ∀ c ∈ u.digits.map hexDigit, c ∈ "0123456789abcdef-".toList := by
    intro c hc
    obtain ⟨d, -, rfl⟩ := List.mem_map.1 hc
    exact hdigit d
  simp only [Uuid.text, List.append_assoc, List.cons_append, List.mem_append, List.mem_cons] at hc
  have htake {n m : Nat} (h : c ∈ ((u.digits.map hexDigit).drop n).take m) :
      c ∈ u.digits.map hexDigit := List.mem_of_mem_drop (List.mem_of_mem_take h)
  rcases hc with hc | rfl | hc | rfl | hc | rfl | hc | rfl | hc
  · exact hdigits c (List.mem_of_mem_take hc)
  · decide
  · exact hdigits c (htake hc)
  · decide
  · exact hdigits c (htake hc)
  · decide
  · exact hdigits c (htake hc)
  · decide
  · exact hdigits c (List.mem_of_mem_drop hc)

lemma plain_uuid (u : Uuid) : Plain u.text :=
  ⟨fun h => absurd (mem_uuid h) (by decide), fun h => absurd (mem_uuid h) (by decide)⟩

lemma length_uuid (u : Uuid) : u.text.length = 36 := by
  have hlength := u.length_digits
  simp only [Uuid.text, List.append_assoc, List.cons_append, List.length_append, List.length_cons,
    List.length_take, List.length_drop, List.length_map, hlength]
  omega

/-- The names of the placeholders of a template. -/
def names : List Part → List String
  | [] => []
  | .text _ :: parts => names parts
  | .field name :: parts => name :: names parts

/-- A value that a template does not ask for. -/
lemma fill_update {parts : List Part} (h : name ∉ names parts) :
    fill (Function.update values name (some v)) parts = fill values parts := by
  induction parts with
  | nil => rfl
  | cons part parts ih =>
    rw [fill_cons, fill_cons]
    cases part with
    | text s => rw [ih h]
    | field other =>
      rw [names, List.mem_cons, not_or] at h
      rw [ih h.2]
      simp only [Function.update_of_ne (Ne.symm h.1)]

/-- The title is filled in. -/
lemma replace_title (hvalues : ∀ name v, values name = some v → Plain v)
    (hnone : values "task_title" = none) :
    replace (field "task_title") v (fill values contractHead ++
        (field "task_title" ++ ("</task-title>".toList ++ fill values contractTail))) =
      fill values contractHead ++ (v ++ ("</task-title>".toList ++ fill values contractTail)) := by
  have htail := replace_fill (b := []) (v := v) quietParts_tail hvalues hnone (by decide)
  rw [List.append_nil, replace_nil, List.append_nil, fill_update (by decide)] at htail
  rw [replace_fill quietParts_head hvalues hnone (by decide), fill_update (by decide),
    replace_append_pat (field_ne_nil _),
    replace_append_of_not_mem (field_ne_nil _) (by rintro c ⟨⟩; decide), htail]

/-- The session is filled in last, also in the title. -/
lemma replace_session {title : List Char} (hvalues : ∀ name v, values name = some v → Plain v)
    (hnone : values "session" = none) :
    replace (field "session") v (fill values contractHead ++
        (title ++ ("</task-title>".toList ++ fill values contractTail))) =
      fill (Function.update values "session" (some v)) contractHead ++
        (replace (field "session") v title ++ ("</task-title>".toList ++
          fill (Function.update values "session" (some v)) contractTail)) := by
  have htail := replace_fill (b := []) (v := v) quietParts_tail hvalues hnone (by decide)
  rw [List.append_nil, replace_nil, List.append_nil] at htail
  rw [replace_fill quietParts_head hvalues hnone (by decide), replace_append (field_ne_nil _),
    replace_append_of_not_mem (field_ne_nil _) (by rintro c ⟨⟩; decide), htail]
  refine apart_of_head ?_
  rintro c ⟨⟩
  decide

lemma contract_eq : IMPLEMENTER_CONTRACT = fill (fun _ => none) contractHead ++
    (field "task_title" ++ ("</task-title>".toList ++ fill (fun _ => none) contractTail)) := by
  rw [IMPLEMENTER_CONTRACT, ← flat_eq, ← flat_eq]
  simp only [flat, List.flatMap_append, List.flatMap_cons]

/-- The prompt is the contract with everything filled in, followed by the files. -/
theorem renderPrompt_eq (h : Identities launch lease) (files : List (List Char × List Char)) :
    renderPrompt launch lease files =
      fill (valuesOf launch lease) contractHead ++ (filledTitle launch ++
        ("</task-title>".toList ++ fill (valuesOf launch lease) contractTail)) ++
        instructionBlocks files := by
  unfold renderPrompt filledTitle valuesOf
  have hproject := plain_update "project" plain_none h.project
  have hattempt := plain_update "attempt" hproject h.attempt
  have hgeneration := plain_update "generation" hattempt (plain_digits lease.generation)
  have hcheckout := plain_update "checkout" hgeneration h.checkout
  have htask := plain_update "task_id" hcheckout h.task
  have hrevision := plain_update "task_revision" htask
    (plain_digits launch.suggestion.revision)
  rw [contract_eq]
  dsimp only
  rw [replace_contract plain_none rfl (by decide) (by decide),
    replace_contract hproject rfl (by decide) (by decide),
    replace_contract hattempt rfl (by decide) (by decide),
    replace_contract hgeneration rfl (by decide) (by decide),
    replace_contract hcheckout rfl (by decide) (by decide),
    replace_contract htask rfl (by decide) (by decide),
    replace_title hrevision rfl, replace_session hrevision rfl]

end Render

/-! ### Defusing -/

/-- A text with a backslash in each of its closing tags, of which none is left. -/
structure Escaped (s t : List Char) : Prop where
  pieces : ∃ ls, s = ['<'].intercalate ls ∧ t = ['<', '\\'].intercalate ls ∧
    ls.length = occurrences Char.toLower titleTag s +
      occurrences Char.toLower instructionsTag s + 1
  title : occurrences Char.toLower titleTag t = 0
  instructions : occurrences Char.toLower instructionsTag t = 0

section Defuse

variable {s w y : List Char} {c : Char}

lemma defuse_of_opens (h : Opens (c :: s)) : defuse (c :: s) = c :: '\\' :: defuse s := by
  rw [defuse, if_pos h]

lemma defuse_of_not_opens (h : ¬ Opens (c :: s)) : defuse (c :: s) = c :: defuse s := by
  rw [defuse, if_neg h]

/-- A closing tag starts with its `<` and its slash. -/
lemma opens_iff : Opens s ↔ ∃ word, IsTag word ∧ word <+: s.map Char.toLower := by
  constructor
  · rintro (h | h)
    · exact ⟨_, .inr rfl, h⟩
    · exact ⟨_, .inl rfl, h⟩
  · rintro ⟨word, rfl | rfl, h⟩
    · exact .inr h
    · exact .inl h

lemma slash_of_opens (h : Opens s) : ∃ t, s = '<' :: '/' :: t := by
  obtain ⟨word, hword, hpre⟩ := opens_iff.1 h
  obtain ⟨w, rfl⟩ := hword.eq
  match s, hpre with
  | [], hpre => simp at hpre
  | [c], hpre => simp at hpre
  | c :: d :: s, hpre =>
    rw [List.map_cons, List.map_cons, List.cons_prefix_cons, List.cons_prefix_cons] at hpre
    obtain rfl := eq_of_toLower hpre.1.symm (by decide)
    obtain rfl := eq_of_toLower hpre.2.1.symm (by decide)
    exact ⟨s, rfl⟩

/-- At most one of the tags begins in a place. -/
lemma counts_of_opens : (if titleTag <+: s.map Char.toLower then 1 else 0) +
    (if instructionsTag <+: s.map Char.toLower then 1 else 0) = if Opens s then 1 else 0 := by
  have hboth : titleTag <+: s.map Char.toLower → ¬ instructionsTag <+: s.map Char.toLower := by
    intro ht hi
    have hlong := List.prefix_of_prefix_length_le ht hi (by decide)
    exact absurd hlong (by decide)
  by_cases ht : titleTag <+: s.map Char.toLower
  · have hopen : Opens s := .inr ht
    rw [if_pos ht, if_neg (hboth ht), if_pos hopen]
  · by_cases hi : instructionsTag <+: s.map Char.toLower
    · have hopen : Opens s := .inl hi
      rw [if_neg ht, if_pos hi, if_pos hopen]
    · have hopen : ¬ Opens s := not_or.2 ⟨hi, ht⟩
      rw [if_neg ht, if_neg hi, if_neg hopen]

/-- What has no `<` is the same in front of a defused text. -/
lemma prefix_defuse (fold : Char → Char) (hfold : fold '<' = '<') (hy : '<' ∉ y) :
    y <+: (defuse s).map fold ↔ y <+: s.map fold := by
  induction y generalizing s with
  | nil => simp
  | cons d y ih =>
    rw [List.mem_cons, not_or] at hy
    cases s with
    | nil => rfl
    | cons c s =>
      by_cases hopen : Opens (c :: s)
      · obtain ⟨t, heq⟩ := slash_of_opens hopen
        obtain ⟨rfl, -⟩ := List.cons.inj heq
        rw [defuse_of_opens hopen, List.map_cons, List.map_cons, List.map_cons,
          List.cons_prefix_cons, List.cons_prefix_cons, hfold]
        exact iff_of_false (fun h => hy.1 h.1.symm) (fun h => hy.1 h.1.symm)
      · rw [defuse_of_not_opens hopen, List.map_cons, List.map_cons, List.cons_prefix_cons,
          List.cons_prefix_cons, ih hy.2]

/-- No closing tag is left. -/
lemma occurrences_defuse {word : List Char} (hword : IsTag word) (s : List Char) :
    occurrences Char.toLower word (defuse s) = 0 := by
  induction s with
  | nil => rfl
  | cons c s ih =>
    by_cases hopen : Opens (c :: s)
    · obtain ⟨w, rfl⟩ := hword.eq
      rw [defuse_of_opens hopen, occurrences_cons, occurrences_cons, ih, if_neg, if_neg]
      · rw [List.map_cons, List.cons_prefix_cons]
        exact fun h => absurd h.1 (by decide)
      · rw [List.map_cons, List.map_cons, List.cons_prefix_cons, List.cons_prefix_cons]
        exact fun h => absurd h.2.1 (by decide)
    · rw [defuse_of_not_opens hopen, occurrences_cons, ih, if_neg]
      intro hpre
      refine hopen (opens_iff.2 ⟨word, hword, ?_⟩)
      have hrest : '<' ∉ word.tail := by rcases hword with rfl | rfl <;> decide
      obtain ⟨w, rfl⟩ := hword.eq
      rw [List.map_cons, List.cons_prefix_cons] at hpre ⊢
      exact ⟨hpre.1, (prefix_defuse Char.toLower rfl hrest).1 hpre.2⟩

lemma intercalate_onFirst (sep : List Char) {ls : List (List Char)} (h : ls ≠ []) :
    sep.intercalate (onFirst c ls) = c :: sep.intercalate ls := by
  obtain ⟨l, ls, rfl⟩ := List.exists_cons_of_ne_nil h
  exact List.intercalate_cons_cons_left

lemma length_onFirst {ls : List (List Char)} (h : ls ≠ []) :
    (onFirst c ls).length = ls.length := by
  obtain ⟨l, ls, rfl⟩ := List.exists_cons_of_ne_nil h
  rfl

/-- Defusing puts a backslash in each closing tag and changes nothing else. -/
theorem escaped_defuse (s : List Char) : Escaped s (defuse s) := by
  refine ⟨?_, occurrences_defuse (.inl rfl) s, occurrences_defuse (.inr rfl) s⟩
  induction s with
  | nil => exact ⟨[[]], rfl, rfl, rfl⟩
  | cons c s ih =>
    obtain ⟨ls, hs, hdefuse, hlength⟩ := ih
    have hne : ls ≠ [] := by
      rintro rfl
      rw [List.length_nil] at hlength
      omega
    have hcounts := counts_of_opens (s := c :: s)
    rw [occurrences_cons, occurrences_cons]
    by_cases hopen : Opens (c :: s)
    · rw [if_pos hopen] at hcounts
      obtain ⟨t, heq⟩ := slash_of_opens hopen
      obtain ⟨rfl, -⟩ := List.cons.inj heq
      refine ⟨[] :: ls, ?_, ?_, ?_⟩
      · rw [List.intercalate_cons_of_ne_nil hne, ← hs]
        rfl
      · rw [List.intercalate_cons_of_ne_nil hne, ← hdefuse, defuse_of_opens hopen]
        rfl
      · rw [List.length_cons, hlength]
        omega
    · rw [if_neg hopen] at hcounts
      refine ⟨onFirst c ls, ?_, ?_, ?_⟩
      · rw [intercalate_onFirst _ hne, ← hs]
      · rw [intercalate_onFirst _ hne, ← hdefuse, defuse_of_not_opens hopen]
      · rw [length_onFirst hne, hlength]
        omega

/-- A text that goes on from the stem of a tag to something else is the same when defused. -/
lemma infix_defuse (hw : '<' ∉ y) (hnot : ∀ b, ¬ Opens ('<' :: '/' :: y ++ b)) :
    '<' :: '/' :: y <:+: defuse s ↔ '<' :: '/' :: y <:+: s := by
  have hslash : '<' ∉ '/' :: y := by
    rw [List.mem_cons, not_or]
    exact ⟨by decide, hw⟩
  induction s with
  | nil => rfl
  | cons c s ih =>
    by_cases hopen : Opens (c :: s)
    · have hhere : ¬ '<' :: '/' :: y <+: c :: s := by
        rintro ⟨b, hb⟩
        exact hnot b (hb ▸ hopen)
      obtain ⟨t, heq⟩ := slash_of_opens hopen
      obtain ⟨rfl, -⟩ := List.cons.inj heq
      have hrest : '<' :: '/' :: y <:+: '<' :: s ↔
          '<' :: '/' :: y <+: '<' :: s ∨ '<' :: '/' :: y <:+: s := List.infix_cons_iff
      rw [defuse_of_opens hopen, List.infix_cons_iff, List.infix_cons_iff,
        hrest, List.cons_prefix_cons, List.cons_prefix_cons,
        List.cons_prefix_cons]
      simp [hhere, ih]
    · rw [defuse_of_not_opens hopen, List.infix_cons_iff, List.infix_cons_iff,
        List.cons_prefix_cons, List.cons_prefix_cons]
      have hrest := prefix_defuse id (s := s) rfl hslash
      rw [List.map_id, List.map_id] at hrest
      rw [hrest, propext ih]

end Defuse

/-! ### The title in the prompt -/

/-- The closing tag of a title without its last letter. -/
def titleStem : List Char := ['<', '/', 't', 'a', 's', 'k', '-', 't', 'i', 't', 'l']

lemma titleTag_eq : titleTag = titleStem ++ ['e'] := rfl

/-- The title, on one line, has the start of its closing tag, in any case, followed by the
placeholder of the session. -/
def Spells (title : List Char) : Prop :=
  ∃ a w b, oneLine title = a ++ w ++ field "session" ++ b ∧
    w.map Char.toLower = titleStem

section Title

variable {u : Uuid} {l s w : List Char}

/-- Sessions are written in lower case. -/
lemma lower_uuid (u : Uuid) : u.text.map Char.toLower = u.text := by
  have hlower : ∀ c ∈ "0123456789abcdef-".toList, c.toLower = c := by decide
  calc u.text.map Char.toLower = u.text.map id :=
        List.map_congr_left fun c hc => hlower c (mem_uuid hc)
    _ = u.text := List.map_id _

/-- A session has only the last letter of the tag of a title. -/
lemma suffix_uuid {p q : List Char} (hq : q ≠ []) (heq : titleTag = p ++ q)
    (hpre : q <+: u.text) : q = ['e'] := by
  have hmem : ∀ c ∈ q, c ∈ "0123456789abcdef-".toList :=
    fun c hc => mem_uuid (hpre.subset hc)
  rcases List.suffix_or_suffix_of_suffix ⟨p, heq.symm⟩
      (⟨titleStem.dropLast, rfl⟩ : ['l', 'e'] <:+ titleTag) with hsuffix | hsuffix
  · rcases List.suffix_cons_iff.1 hsuffix with rfl | hsuffix
    · exact absurd (hmem 'l' (by decide)) (by decide)
    · rcases List.suffix_cons_iff.1 hsuffix with rfl | hsuffix
      · rfl
      · exact absurd (List.suffix_nil.1 hsuffix) hq
  · exact absurd (hmem 'l' (hsuffix.subset List.mem_cons_self)) (by decide)

/-- Replacing the session does not write the tag of the files. -/
lemma instructions_session (h : occurrences Char.toLower instructionsTag s = 0) :
    occurrences Char.toLower instructionsTag (replace (field "session") u.text s) = 0 := by
  have hinf : ∀ l ∈ segments (field "session") s,
      occurrences Char.toLower instructionsTag l = 0 := by
    intro l hl
    by_contra hne
    have hpos := occurrences_pos_of_infix (infix_intercalate (field "session") hl)
      (Nat.pos_of_ne_zero hne)
    rw [intercalate_segments (field_ne_nil _), h] at hpos
    omega
  have hhead : ∀ c ∈ instructionsTag.head?, c ∉ u.text.map Char.toLower := by
    rintro c ⟨⟩
    rw [lower_uuid]
    exact (plain_uuid u).1
  have hlong : instructionsTag.length ≤ u.text.length := by
    rw [length_uuid]
    decide +kernel
  have hlast : instructionsTag.getLast? = some 's' := by decide +kernel
  rw [replace, occurrences_intercalate_eq_zero (by decide) hhead hlong]
  refine ⟨fun l hl => ?_, fun l hl => hinf l (List.mem_of_mem_getLast? hl)⟩
  rw [occurrences_append (apart_of_end ?_), hinf l (List.mem_of_mem_dropLast hl),
    occurrences_eq_zero (by decide) hhead]
  intro c hc hmem
  rw [hlast] at hc
  obtain rfl := Option.some.inj hc
  rw [lower_uuid] at hmem
  exact absurd (mem_uuid hmem) (by decide)

/-- A text with the start of the tag of a title, followed by the placeholder of the session. -/
lemma spells_iff_defuse (w : List Char) (hw : w.map Char.toLower = titleStem) :
    w ++ field "session" <:+: defuse s ↔ w ++ field "session" <:+: s := by
  obtain ⟨c, w, rfl, hc, htail⟩ := List.map_eq_cons_iff.1 hw
  obtain ⟨d, w, rfl, hd, hrest⟩ := List.map_eq_cons_iff.1 htail
  obtain rfl := eq_of_toLower hc (by decide)
  obtain rfl := eq_of_toLower hd (by decide)
  refine infix_defuse (y := w ++ field "session") ?_ ?_
  · intro hmem
    rcases List.mem_append.1 hmem with hmem | hmem
    · have hlower := List.mem_map_of_mem (f := Char.toLower) hmem
      rw [hrest] at hlower
      exact absurd hlower (by decide)
    · exact absurd hmem (by decide)
  · intro b hopen
    obtain ⟨word, hword, hpre⟩ := opens_iff.1 hopen
    have hfront : titleStem ++ ['\x7b'] <+: ('<' :: '/' :: (w ++ field "session") ++ b).map
        Char.toLower := by
      rw [List.cons_append, List.cons_append, List.map_cons, List.map_cons, List.map_append,
        List.map_append, hrest, field_eq, List.map_cons]
      exact List.prefix_append (titleStem ++ ['\x7b']) _
    rcases hword with rfl | rfl
    · have hlong := List.prefix_of_prefix_length_le hpre hfront (by decide)
      exact absurd hlong (by decide)
    · have hlong := List.prefix_of_prefix_length_le hfront hpre (by decide)
      exact absurd hlong (by decide)

/-- The last letter of the start of a tag is not in a placeholder. -/
lemma last_of_spelled (hw : w.map Char.toLower = titleStem) :
    ∃ c ∈ w.getLast?, c ∉ field "session" := by
  have hlast := congrArg List.getLast? hw
  rw [List.getLast?_map] at hlast
  obtain ⟨c, hc, hlower⟩ := Option.map_eq_some_iff.1 hlast
  refine ⟨c, hc, fun hmem => ?_⟩
  have hall : ∀ c ∈ field "session", c.toLower ≠ 'l' := by decide
  exact hall c hmem hlower

/-- A piece of a title is followed by the session if it is followed by its placeholder. -/
lemma exists_segment_iff : (∃ l ∈ (segments (field "session") s).dropLast,
      titleStem <:+ l.map Char.toLower) ↔
    ∃ w, w.map Char.toLower = titleStem ∧ w ++ field "session" <:+: s := by
  constructor
  · rintro ⟨l, hl, t, ht⟩
    obtain ⟨k, w, rfl, -, hw⟩ := List.map_eq_append_iff.1 ht.symm
    obtain ⟨a, b, hab⟩ := exists_of_mem_dropLast (field "session") hl
    rw [intercalate_segments (field_ne_nil _)] at hab
    exact ⟨w, hw, a ++ k, b, by rw [hab]; simp⟩
  · rintro ⟨w, hw, a, b, hab⟩
    obtain ⟨c, hc, hnot⟩ := last_of_spelled hw
    have hlast : ∃ c ∈ (a ++ w).getLast?, id c ∉ field "session" := by
      refine ⟨c, ?_, hnot⟩
      rw [List.getLast?_append, Option.mem_def.1 hc]
      rfl
    have hpieces := segments_append (b := b) (field_ne_nil "session") (apart_of_last hlast)
    have hmem : ∀ d ∈ w, d.toLower ∈ titleStem := by
      intro d hd
      rw [← hw]
      exact List.mem_map_of_mem hd
    obtain ⟨ls, l, hl⟩ := exists_last_segment (w := w) (field_ne_nil "session")
      (by rintro d ⟨⟩ hd; exact absurd (hmem _ hd) (by decide))
      (by rintro d ⟨⟩ hd; exact absurd (hmem _ hd) (by decide)) a
    refine ⟨l ++ w, ?_, ?_⟩
    · have hs : s = a ++ w ++ field "session" ++ b := by
        rw [← hab]
        simp
      rw [hs, hpieces, hl, List.dropLast_append_of_ne_nil (segments_ne_nil b)]
      simp
    · rw [List.map_append, hw]
      exact List.suffix_append _ _

/-- Replacing the session writes the tag of a title exactly if a placeholder follows the start of
the tag and the session goes on with its last letter. -/
lemma title_session (h : occurrences Char.toLower titleTag s = 0) :
    occurrences Char.toLower titleTag (replace (field "session") u.text s) = 0 ↔
      ¬ (['e'] <+: u.text ∧ ∃ w, w.map Char.toLower = titleStem ∧
        w ++ field "session" <:+: s) := by
  have hinf : ∀ l ∈ segments (field "session") s,
      occurrences Char.toLower titleTag l = 0 := by
    intro l hl
    by_contra hne
    have hpos := occurrences_pos_of_infix (infix_intercalate (field "session") hl)
      (Nat.pos_of_ne_zero hne)
    rw [intercalate_segments (field_ne_nil _), h] at hpos
    omega
  have hhead : ∀ c ∈ titleTag.head?, c ∉ u.text.map Char.toLower := by
    rintro c ⟨⟩
    rw [lower_uuid]
    exact (plain_uuid u).1
  have hpiece : ∀ l ∈ (segments (field "session") s).dropLast,
      (occurrences Char.toLower titleTag (l ++ u.text) = 0 ↔
        ¬ (titleStem <:+ l.map Char.toLower ∧ ['e'] <+: u.text)) := by
    intro l hl
    rw [occurrences_append_eq_zero titleTag_eq (by decide) hhead
      ?_ (hinf l (List.mem_of_mem_dropLast hl)), lower_uuid]
    rw [lower_uuid]
    exact fun p q _ hq heq hpre => suffix_uuid hq heq hpre
  have hlong : titleTag.length ≤ u.text.length := by
    rw [length_uuid]
    decide +kernel
  rw [replace, occurrences_intercalate_eq_zero (by decide) hhead hlong, ← exists_segment_iff]
  constructor
  · rintro ⟨hpieces, -⟩ ⟨he, l, hl, hstem⟩
    exact (hpiece l hl).1 (hpieces l hl) ⟨hstem, he⟩
  · intro hnot
    refine ⟨fun l hl => (hpiece l hl).2 ?_, fun l hl => hinf l (List.mem_of_mem_getLast? hl)⟩
    rintro ⟨hstem, he⟩
    exact hnot ⟨he, l, hl, hstem⟩

end Title

/-! ### Blocks -/

section Blocks

variable {word rest : List Char} {launch : Launch} {lease : Lease}
  {files : List (List Char × List Char)}

/-- The block of a file closes what it opens. -/
lemma occurrences_block (hword : IsTag word) (file : List Char × List Char)
    (hname : '<' ∉ file.1) : occurrences Char.toLower word (block file ++ rest) =
      (if word = instructionsTag then 1 else 0) + occurrences Char.toLower word rest := by
  have hnames : ∀ p, p ≠ [] → p <:+ file.1 → ∀ b, ¬ word <+: (p ++ b).map Char.toLower := by
    intro p hp hsuffix b hpre
    obtain ⟨w, rfl⟩ := hword.eq
    obtain ⟨c, p, rfl⟩ := List.exists_cons_of_ne_nil hp
    rw [List.cons_append, List.map_cons, List.cons_prefix_cons] at hpre
    obtain rfl := eq_of_toLower hpre.1.symm (by decide)
    exact hname (hsuffix.subset List.mem_cons_self)
  have hnewline : '\n'.toLower ∉ word := by rcases hword with rfl | rfl <;> decide +kernel
  have hclose : occurrences Char.toLower word "\n</repository-instructions>\n".toList =
      if word = instructionsTag then 1 else 0 := by
    rcases hword with rfl | rfl <;> decide +kernel
  unfold block
  simp only [List.append_assoc]
  rw [occurrences_skip (not_tag_of_quiet hword (by decide +kernel)),
    occurrences_skip (fun p hp hsuffix => hnames p hp hsuffix _),
    occurrences_skip (not_tag_of_quiet hword (by decide +kernel)),
    occurrences_append (apart_of_head ?_), occurrences_defuse hword, Nat.zero_add,
    occurrences_append (apart_of_last ⟨'\n', by decide +kernel, hnewline⟩), hclose]
  rintro c ⟨⟩ hmem
  exact hnewline (List.mem_of_mem_tail hmem)

lemma occurrences_blocks (hword : IsTag word) (hnames : ∀ file ∈ files, '<' ∉ file.1) :
    occurrences Char.toLower word (instructionBlocks files) =
      if word = instructionsTag then files.length else 0 := by
  induction files with
  | nil => simp [instructionBlocks, occurrences]
  | cons file files ih =>
    rw [instructionBlocks, List.flatMap_cons, occurrences_block hword file
      (hnames file List.mem_cons_self), ← instructionBlocks,
      ih fun file hfile => hnames file (List.mem_cons_of_mem _ hfile), List.length_cons]
    split <;> omega

/-- The tags of a filled contract and the files behind it. -/
lemma occurrences_template {values : String → Option (List Char)} (title rest : List Char)
    (hword : IsTag word) (hvalues : ∀ name v, values name = some v → Plain v) :
    occurrences Char.toLower word (fill values contractHead ++ (title ++
        ("</task-title>".toList ++ fill values contractTail)) ++ rest) =
      occurrences Char.toLower word title + (if word = titleTag then 1 else 0) +
        occurrences Char.toLower word rest := by
  have hopen : '<' ∉ word.tail := by rcases hword with rfl | rfl <;> decide +kernel
  have hend : '>'.toLower ∉ word := by rcases hword with rfl | rfl <;> decide +kernel
  have hclose : occurrences Char.toLower word "</task-title>".toList =
      if word = titleTag then 1 else 0 := by
    rcases hword with rfl | rfl <;> decide +kernel
  simp only [List.append_assoc]
  rw [occurrences_fill hword quietParts_head hvalues, occurrences_append (apart_of_head ?_),
    occurrences_append (apart_of_last ⟨'>', by decide +kernel, hend⟩), hclose,
    occurrences_fill hword quietParts_tail hvalues, Nat.add_assoc]
  rintro c ⟨⟩
  exact hopen

end Blocks

/-! ### Data in its block -/

/-- The text of a file between its own tags. -/
def tagged (file : List Char × List Char) (text : List Char) : List Char :=
  "\n<repository-instructions file=\"".toList ++ file.1 ++ "\">\n".toList ++ text ++
    "\n</repository-instructions>\n".toList

/-- The title and the files stay between their tags. -/
structure Contained (launch : Launch) (lease : Lease) (files : List (List Char × List Char)) :
    Prop where
  titles : occurrences Char.toLower titleTag (renderPrompt launch lease files) =
    occurrences Char.toLower titleTag IMPLEMENTER_CONTRACT
  instructions : occurrences Char.toLower instructionsTag (renderPrompt launch lease files) =
    occurrences Char.toLower instructionsTag IMPLEMENTER_CONTRACT + files.length
  title : ∃ front defused text back, Escaped (oneLine launch.suggestion.title) defused ∧
    text = replace (field "session") launch.session.text defused ∧
    occurrences Char.toLower titleTag text = 0 ∧
    renderPrompt launch lease files =
      front ++ "<task-title>".toList ++ text ++ "</task-title>".toList ++ back
  blocks : ∃ front texts, List.Forall₂ (fun file text => Escaped file.2 text) files texts ∧
    renderPrompt launch lease files = front ++ (List.zipWith tagged files texts).flatten

section Contained

variable {launch : Launch} {lease : Lease} {files : List (List Char × List Char)}

lemma occurrences_contract {word : List Char} (hword : IsTag word) :
    occurrences Char.toLower word IMPLEMENTER_CONTRACT = if word = titleTag then 1 else 0 := by
  have hfield : occurrences Char.toLower word (field "task_title") = 0 := by
    obtain ⟨w, rfl⟩ := hword.eq
    refine occurrences_eq_zero (List.cons_ne_nil _ _) ?_
    rintro c ⟨⟩
    decide
  have hcontract := occurrences_template (field "task_title") [] hword
    plain_none
  rw [List.append_nil, hfield, Nat.zero_add] at hcontract
  rw [contract_eq, hcontract]
  rfl

lemma plain_values (h : Identities launch lease) :
    ∀ name v, valuesOf launch lease name = some v → Plain v :=
  plain_update _ (plain_update _ (plain_update _ (plain_update _ (plain_update _ (plain_update _
    (plain_update _ plain_none h.project) h.attempt) (plain_digits _)) h.checkout) h.task)
    (plain_digits _)) (plain_uuid _)

/-- The tags of a prompt are those of the contract, of the title and of the files. -/
lemma occurrences_prompt {word : List Char} (hword : IsTag word) (h : Identities launch lease)
    (hnames : ∀ file ∈ files, '<' ∉ file.1) :
    occurrences Char.toLower word (renderPrompt launch lease files) =
      occurrences Char.toLower word (filledTitle launch) + (if word = titleTag then 1 else 0) +
        if word = instructionsTag then files.length else 0 := by
  rw [renderPrompt_eq h, occurrences_template _ _ hword (plain_values h),
    occurrences_blocks hword hnames]

/-- The session completes no tag in a title, unless the title spells it. -/
lemma occurrences_filledTitle : occurrences Char.toLower titleTag (filledTitle launch) = 0 ↔
    ¬ (['e'] <+: launch.session.text ∧ Spells launch.suggestion.title) := by
  rw [filledTitle, title_session (occurrences_defuse (.inl rfl) _), not_iff_not,
    and_congr_right_iff]
  intro _
  constructor
  · rintro ⟨w, hw, hinf⟩
    obtain ⟨a, b, hab⟩ := (spells_iff_defuse w hw).1 hinf
    exact ⟨a, w, b, by rw [← hab]; simp, hw⟩
  · rintro ⟨a, w, b, heq, hw⟩
    exact ⟨w, hw, (spells_iff_defuse w hw).2 ⟨a, b, by rw [heq]; simp⟩⟩

/-- The prompt has the closing tag of the contract only, unless the title spells another. -/
lemma titles_iff (h : Identities launch lease) (hnames : ∀ file ∈ files, '<' ∉ file.1) :
    occurrences Char.toLower titleTag (renderPrompt launch lease files) =
        occurrences Char.toLower titleTag IMPLEMENTER_CONTRACT ↔
      ¬ (['e'] <+: launch.session.text ∧ Spells launch.suggestion.title) := by
  have hne : titleTag ≠ instructionsTag := by decide
  rw [occurrences_prompt (.inl rfl) h hnames, occurrences_contract (.inl rfl), if_pos rfl,
    if_neg hne, ← occurrences_filledTitle]
  omega

/-- The contract opens the block of the title. -/
lemma head_opens (values : String → Option (List Char)) :
    ∃ front, fill values contractHead = front ++ "<task-title>".toList := by
  have hlast : "), titled (data, written by\n  the task's author): <task-title>".toList =
      "), titled (data, written by\n  the task's author): ".toList ++ "<task-title>".toList := by
    decide +kernel
  simp only [contractHead, fill, List.flatMap_cons, List.flatMap_nil, List.append_nil]
  rw [hlast]
  simp only [← List.append_assoc]
  exact ⟨_, rfl⟩

lemma instructionBlocks_eq (files : List (List Char × List Char)) : instructionBlocks files =
    (List.zipWith tagged files (files.map fun file => defuse file.2)).flatten := by
  induction files with
  | nil => rfl
  | cons file files ih =>
    rw [instructionBlocks, List.flatMap_cons, ← instructionBlocks, ih]
    rfl

/-- The data of a prompt stays in its blocks, exactly if the title does not go on from the start of
its closing tag with the session or the session does not start with the last letter of the tag. -/
theorem contained_iff (h : Identities launch lease) (hnames : ∀ file ∈ files, '<' ∉ file.1) :
    Contained launch lease files ↔
      ¬ (['e'] <+: launch.session.text ∧ Spells launch.suggestion.title) := by
  constructor
  · intro hcontained
    exact (titles_iff h hnames).1 hcontained.titles
  · intro hnot
    have hprompt := renderPrompt_eq h files
    refine ⟨(titles_iff h hnames).2 hnot, ?_, ?_, ?_⟩
    · have hne : instructionsTag ≠ titleTag := by decide
      have hfilled := instructions_session (u := launch.session)
        (occurrences_defuse (.inr rfl) (oneLine launch.suggestion.title))
      rw [occurrences_prompt (.inr rfl) h hnames, occurrences_contract (.inr rfl), if_neg hne,
        if_pos rfl, filledTitle, hfilled]
    · obtain ⟨front, hfront⟩ := head_opens (valuesOf launch lease)
      refine ⟨front, _, _, fill (valuesOf launch lease) contractTail ++ instructionBlocks files,
        escaped_defuse _, rfl, occurrences_filledTitle.2 hnot, ?_⟩
      rw [hprompt, hfront, filledTitle]
      simp only [List.append_assoc]
    · refine ⟨_, files.map fun file => defuse file.2, ?_, by rw [hprompt, instructionBlocks_eq]⟩
      rw [List.forall₂_map_right_iff]
      exact List.forall₂_same.2 fun file _ => escaped_defuse file.2

/-- A launch of a task with some title, in a session of one digit. -/
def titled (digit : Fin 16) (title : List Char) : Launch where
  project := "p".toList
  suggestion := ⟨"t".toList, 1, title⟩
  session := ⟨List.replicate 32 digit, rfl⟩
  checkout := "/clone/agentc-checkout".toList

/-- The lease of its attempt. -/
def leased : Lease := ⟨"a".toList, 1⟩

lemma identities_titled (digit : Fin 16) (title : List Char) :
    Identities (titled digit title) leased :=
  ⟨(⟨by decide, by decide⟩ : Plain "p".toList), (⟨by decide, by decide⟩ : Plain "t".toList),
    (⟨by decide, by decide⟩ : Plain "/clone/agentc-checkout".toList),
    (⟨by decide, by decide⟩ : Plain "a".toList)⟩

/-- A title and a file that would close their blocks are kept in them. -/
theorem contained_iff_closing : Contained (titled 0 "</task-title>".toList) leased
    [("AGENTS.md".toList, "</REPOSITORY-INSTRUCTIONS".toList)] := by
  refine (contained_iff (identities_titled _ _) (by decide)).2 ?_
  rintro ⟨he, -⟩
  exact absurd he (by decide)

/-- The session completes the tag of a title that ends with its start and a placeholder. -/
theorem session_closes : ¬ ∀ (launch : Launch) (lease : Lease)
    (files : List (List Char × List Char)), Identities launch lease →
    (∀ file ∈ files, '<' ∉ file.1) → Contained launch lease files := by
  intro h
  have htitles := (h (titled 14 "</task-titl\x7b\x7bsession\x7d\x7d".toList) leased []
    (identities_titled _ _) (fun _ h => absurd h List.not_mem_nil)).titles
  refine (titles_iff (identities_titled _ _) (fun _ h => absurd h List.not_mem_nil)).1 htitles ?_
  exact ⟨⟨_, rfl⟩, [], titleStem, [], by decide +kernel, by decide +kernel⟩

end Contained

end AgentCoordinator.Prompt
