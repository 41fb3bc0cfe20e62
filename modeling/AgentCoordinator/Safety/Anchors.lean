import AgentCoordinator.Backlog.Markdown
import AgentCoordinator.Scenario

/-
Which marker names which checklist item.

A marker is meant to name the item on its own line, or, alone on its line, the first item after it.
The line loop keeps one pending marker, and an item that has its own leaves it pending: the next
item without one takes it over, and its own name is lost. So the markers name what they should in
exactly the chunks where no such left-over marker reaches an item.
-/

namespace AgentCoordinator

open Guarded Headings Text

/-! ### Lines -/

section Lines

variable {line s t : List Char} {b : Checkbox}

lemma isWhitespace_of_mem_anchorMarker_getLast :
    ∀ c ∈ anchorMarker.getLast?, isWhitespace c = false := by decide

/-- Blanks after a line do not change its marker. -/
lemma explicitAnchor_append_blank (ht : ∀ c ∈ t, isWhitespace c = true) :
    explicitAnchor (s ++ t) = explicitAnchor s := by
  have hnot {pat : List Char} (hlast : ∀ c ∈ pat.getLast?, isWhitespace c = false) :
      ∀ c ∈ pat.getLast?, c ∉ t := by
    intro c hc hmem
    have hblank := ht c hmem
    rw [hlast c hc] at hblank
    cases hblank
  rw [explicitAnchor, cut_append_right (hnot isWhitespace_of_mem_anchorMarker_getLast) (by decide),
    explicitAnchor]
  cases cut anchorMarker s with
  | none => rfl
  | some found =>
    simp only [Option.map_some, Option.bind_eq_bind, Option.bind_some]
    rw [cut_append_right (hnot (by decide)) (by decide)]
    cases cut "-->".toList found.2 with
    | none => rfl
    | some value => rfl

/-- Neither does text before it without an opening bracket. -/
lemma explicitAnchor_append_left (ht : '<' ∉ t) : explicitAnchor (t ++ s) = explicitAnchor s := by
  have hhead : ∀ c ∈ anchorMarker.head?, c ∉ t := by
    have hopen : anchorMarker.head? = some '<' := by decide
    rintro c hc
    rw [hopen, Option.mem_some_iff] at hc
    rwa [← hc]
  rw [explicitAnchor, cut_append_left hhead (by decide), explicitAnchor]
  cases cut anchorMarker s with
  | none => rfl
  | some found => rfl

/-- A checklist line is a box and the raw title, after blanks. -/
lemma eq_append_of_checklist (h : checklist line = some b) :
    ∃ box : List Char, box ∈ checkboxes.map (·.1) ∧
      line.dropWhile isWhitespace = box ++ b.rawTitle := by
  rw [checklist] at h
  obtain ⟨⟨box, closed⟩, hmem, hbox⟩ := List.exists_of_findSome?_eq_some h
  split_ifs at hbox with hstart
  obtain rfl := Option.some.inj hbox
  exact ⟨box, List.mem_map_of_mem hmem, List.prefix_iff_eq_append.1 hstart |>.symm⟩

/-- The marker of a checklist line is that of its raw title. -/
lemma explicitAnchor_of_checklist (h : checklist line = some b) :
    explicitAnchor (trimmed line) = explicitAnchor b.rawTitle := by
  obtain ⟨box, hbox, heq⟩ := eq_append_of_checklist h
  obtain ⟨t, ht, hblank⟩ := exists_append_rdropWhile isWhitespace (line.dropWhile isWhitespace)
  have hopen : ∀ box ∈ checkboxes.map (·.1), '<' ∉ box := by decide
  rw [trimmed, trimBy, ← explicitAnchor_append_blank hblank, ← ht, heq,
    explicitAnchor_append_left (hopen box hbox)]

/-- A checklist line starts with a dash or a star. -/
lemma head_of_checklist (h : checklist line = some b) :
    ∃ c s, trimmed line = c :: s ∧ (c = '-' ∨ c = '*') := by
  obtain ⟨box, hbox, heq⟩ := eq_append_of_checklist h
  have hstart : ∀ box ∈ checkboxes.map (·.1), box.head? = some '-' ∨ box.head? = some '*' := by
    decide
  have hsolid : ∀ c : Char, c = '-' ∨ c = '*' → isWhitespace c = false := by
    rintro c (rfl | rfl) <;> decide
  obtain ⟨c, rest, hline, hc⟩ : ∃ c rest, line.dropWhile isWhitespace = c :: rest ∧
      (c = '-' ∨ c = '*') := by
    rw [heq]
    rcases hstart box hbox with hc | hc
    · obtain ⟨rest, rfl⟩ := List.head?_eq_some_iff.1 hc
      exact ⟨'-', rest ++ b.rawTitle, rfl, .inl rfl⟩
    · obtain ⟨rest, rfl⟩ := List.head?_eq_some_iff.1 hc
      exact ⟨'*', rest ++ b.rawTitle, rfl, .inr rfl⟩
  have hpre := List.rdropWhile_prefix isWhitespace (l := line.dropWhile isWhitespace)
  rw [trimmed, trimBy]
  cases hs : (line.dropWhile isWhitespace).rdropWhile isWhitespace with
  | nil =>
    have hall := List.rdropWhile_eq_nil_iff.1 hs c (by rw [hline]; simp)
    rw [hsolid c hc] at hall
    cases hall
  | cons d s =>
    rw [hs, hline, List.cons_prefix_cons] at hpre
    exact ⟨d, s, rfl, hpre.1 ▸ hc⟩

/-- Only a line that starts with `#` is a heading. -/
lemma heading_of_head (h : ∀ s, trimmed line ≠ '#' :: s) : heading line = none := by
  rw [heading, dif_neg]
  rintro ⟨hpos, -⟩
  cases hline : trimmed line with
  | nil => simp [hline] at hpos
  | cons c s =>
    have hc : c ≠ '#' := fun hc => h s (hc ▸ hline)
    simp [hline, hc] at hpos

/-- A checklist line is no heading. -/
lemma heading_of_checklist (h : checklist line = some b) : heading line = none := by
  obtain ⟨c, s, hline, hc⟩ := head_of_checklist h
  refine heading_of_head fun s' heq => ?_
  rw [hline] at heq
  obtain ⟨rfl, -⟩ := List.cons.inj heq
  revert hc
  decide

/-- The line is a marker and nothing else. -/
def standsAlone (line : List Char) : Bool :=
  match cut anchorMarker (trimmed line) with
  | some ([], rest) =>
    match cut "-->".toList rest with
    | some (_, []) => true
    | _ => false
  | _ => false

/-- A marker alone on its line starts the line. -/
lemma head_of_standsAlone (h : standsAlone line = true) : ∃ s, trimmed line = '<' :: s := by
  rw [standsAlone] at h
  split at h
  · rename_i rest hcut
    have heq := eq_append_of_cut hcut
    have hopen : anchorMarker = '<' :: anchorMarker.tail := by decide
    rw [List.nil_append, hopen] at heq
    exact ⟨_, heq⟩
  · cases h

lemma heading_of_standsAlone (h : standsAlone line = true) : heading line = none := by
  obtain ⟨s, hline⟩ := head_of_standsAlone h
  refine heading_of_head fun s' heq => ?_
  rw [hline] at heq
  exact absurd (List.cons.inj heq).1 (by decide)

lemma checklist_of_standsAlone (h : standsAlone line = true) : checklist line = none := by
  obtain ⟨s, hline⟩ := head_of_standsAlone h
  by_contra hne
  obtain ⟨b, hb⟩ := Option.ne_none_iff_exists'.1 hne
  obtain ⟨c, s', heq, hc⟩ := head_of_checklist hb
  rw [hline] at heq
  obtain ⟨rfl, -⟩ := List.cons.inj heq
  revert hc
  decide

end Lines

/-! ### Pending markers -/

/-- The place behind the lines of a chunk. -/
def placeAt (ls : List (List Char)) : Place := ls.foldl Place.step .start

lemma placeAt_concat (ls : List (List Char)) (line : List Char) :
    placeAt (ls ++ [line]) = (placeAt ls).step line := by
  rw [placeAt, List.foldl_concat]
  rfl

/-- The marker on a line names an item that comes later: it is alone on its line, and neither a
heading nor another item stands between. -/
def Named (before : List (List Char)) (name : String) : Prop :=
  Since (fun l => standsAlone l = true ∧ explicitAnchor (trimmed l) = some name)
    (fun l => heading l = none ∧ checklist l = none) before

/-- A marker is left over from a line before: there is no heading, no other marker, and no item
that would take it since. -/
def LeftOver (before : List (List Char)) (name : String) : Prop :=
  Since (fun l => heading l = none ∧ explicitAnchor (trimmed l) = some name)
    (fun l => heading l = none ∧ explicitAnchor (trimmed l) = none ∧
      ∀ b, checklist l = some b → ¬ b.Valid) before

/-- The pending marker is the one left over. -/
lemma pendingAnchor_placeAt (ls : List (List Char)) (name : String) :
    (placeAt ls).pendingAnchor = some name ↔ LeftOver ls name := by
  induction ls using List.reverseRecOn with
  | nil => exact iff_of_false (by simp [placeAt, Place.start]) not_since_nil
  | append_singleton ls line ih =>
    rw [placeAt_concat, LeftOver, since_concat]
    cases hb : checklist line with
    | some b =>
      have hheading := heading_of_checklist hb
      have hmarker := explicitAnchor_of_checklist hb
      cases hm : explicitAnchor (trimmed line) with
      | some m =>
        -- its own marker stays pending
        have hpending : ((placeAt ls).step line).pendingAnchor = some m := by
          rw [Place.step, hb]
          simp only [Place.reach, hheading, Place.take, ← hmarker, hm, Option.some_or]
          split_ifs <;> simp_all
        simp [hpending, hheading]
      | none =>
        by_cases hvalid : b.Valid
        · have hpending : ((placeAt ls).step line).pendingAnchor = none := by
            rw [Place.step, hb]
            simp only [if_pos hvalid, Place.take, ← hmarker, hm, if_true]
          simp [hpending, hvalid]
        · have hpending :
              ((placeAt ls).step line).pendingAnchor = (placeAt ls).pendingAnchor := by
            rw [Place.step, hb]
            simp only [if_neg hvalid, Place.reach, hheading, hm, Option.none_or]
          rw [hpending, ih]
          simp [hheading, hvalid, LeftOver]
    | none =>
      cases hheading : heading line with
      | some h =>
        have hpending : ((placeAt ls).step line).pendingAnchor = none := by
          rw [Place.step, hb]
          simp only [Place.reach, hheading]
        simp [hpending]
      | none =>
        have hpending : ((placeAt ls).step line).pendingAnchor =
            (explicitAnchor (trimmed line)).or (placeAt ls).pendingAnchor := by
          rw [Place.step, hb]
          simp only [Place.reach, hheading]
        rw [hpending]
        cases hm : explicitAnchor (trimmed line) with
        | some m => simp
        | none =>
          rw [Option.none_or, ih]
          simp [LeftOver]

/-- Where a marker names an item, some marker is left over. -/
lemma exists_leftOver_of_named {before : List (List Char)} {name : String}
    (h : Named before name) : ∃ m, LeftOver before m := by
  induction before using List.reverseRecOn with
  | nil => exact absurd h not_since_nil
  | append_singleton ls line ih =>
    rw [Named, since_concat] at h
    rcases h with ⟨halone, hm⟩ | ⟨⟨hheading, hnone⟩, h⟩
    · exact ⟨name, since_concat.2 (.inl ⟨heading_of_standsAlone halone, hm⟩)⟩
    · cases hm : explicitAnchor (trimmed line) with
      | some m => exact ⟨m, since_concat.2 (.inl ⟨hheading, hm⟩)⟩
      | none =>
        obtain ⟨m, hleft⟩ := ih h
        refine ⟨m, since_concat.2 (.inr ⟨⟨hheading, hm, ?_⟩, hleft⟩)⟩
        simp [hnone]

/-! ### Names of items -/

section Names

variable (alphanumeric : Char → Bool)

/-- The name an item without a marker on its line should have: that of a marker that names it, or
else its own title. -/
def NamedOrTitled (before : List (List Char)) (b : Checkbox) (name : String) : Prop :=
  Named before name ∨ ((∀ m, ¬ Named before m) ∧
    name = normalizeIdentityText alphanumeric (cleanTitle b.rawTitle))

/-- The name an item should have: that of the marker on its own line first. -/
def RightName (before : List (List Char)) (b : Checkbox) (name : String) : Prop :=
  match explicitAnchor b.rawTitle with
  | some m => name = m
  | none => NamedOrTitled alphanumeric before b name

/-- A checklist item of the chunk stands behind the lines `before`. -/
def ItemAt (ls before : List (List Char)) (b : Checkbox) : Prop :=
  ∃ line after, ls = before ++ line :: after ∧ checklist line = some b ∧ b.Valid

/-- Every item of the chunk has the name it should have. -/
def NamesRight (ls : List (List Char)) : Prop :=
  ∀ before b, ItemAt ls before b → RightName alphanumeric before b
    ((placeAt before).anchor alphanumeric b)

/-- No item without its own marker takes over one that does not name it: what is left over there
names it, or reads like the name it should have. -/
def LeftOversRight (ls : List (List Char)) : Prop :=
  ∀ before b, ItemAt ls before b → explicitAnchor b.rawTitle = none → ∀ m, LeftOver before m →
    NamedOrTitled alphanumeric before b m

/-- Every item has the name it should have exactly when no left-over marker takes its place. -/
lemma namesRight_iff (ls : List (List Char)) :
    NamesRight alphanumeric ls ↔ LeftOversRight alphanumeric ls := by
  refine forall_congr' fun before => forall_congr' fun b => imp_congr_right fun _ => ?_
  rw [RightName, Place.anchor]
  cases hown : explicitAnchor b.rawTitle with
  | some m => simp
  | none =>
    simp only [Option.none_or, true_imp_iff]
    cases hpending : (placeAt before).pendingAnchor with
    | some m =>
      have hleft := (pendingAnchor_placeAt before m).1 hpending
      refine ⟨fun hright m' hm' => ?_, fun hall => hall m hleft⟩
      rw [← pendingAnchor_placeAt, hpending, Option.some.injEq] at hm'
      exact hm' ▸ hright
    | none =>
      have hnone (m : String) : ¬ LeftOver before m := by
        rw [← pendingAnchor_placeAt, hpending]
        exact nofun
      refine iff_of_true (.inr ⟨fun m hm => ?_, rfl⟩) fun m hm => absurd hm (hnone m)
      obtain ⟨m', hm'⟩ := exists_leftOver_of_named hm
      exact hnone m' hm'

/-- Two items of the same section have different names. -/
def NamesDiffer (ls : List (List Char)) : Prop :=
  ∀ before b before' b', ItemAt ls before b → ItemAt ls before' b' →
    before.length < before'.length →
    (placeAt before).section = (placeAt before').section →
    ∀ name name', RightName alphanumeric before b name →
      RightName alphanumeric before' b' name' → name ≠ name'

end Names

/-! ### Reading a chunk -/

section Reading

variable {alphanumeric : Char → Bool} {source : ImportSource} {path : String} {paths : List String}

/-- The text of a chunk as its lines. -/
def MarkdownChunk.lines (chunk : MarkdownChunk) : List (List Char) :=
  Text.lines chunk.markdown.toList

/-- The item of a checklist line is that of the place behind the lines before. -/
lemma item_reach {p : Place} {line : List Char} {b : Checkbox} (h : checklist line = some b)
    (index : Nat) : (p.reach line).item alphanumeric source path index b =
      p.item alphanumeric source path index b := by
  have hsection : (p.reach line).section = p.section := by
    rw [Place.section, Place.section, Place.reach, heading_of_checklist h]
  have hanchor : (p.reach line).anchor alphanumeric b = p.anchor alphanumeric b := by
    rw [Place.anchor, Place.anchor, Place.reach, heading_of_checklist h,
      explicitAnchor_of_checklist h]
    simp only
    cases explicitAnchor b.rawTitle with
    | none => rfl
    | some m => rfl
  rw [Place.item, Place.item, hsection, hanchor]

/-- An item of the chunk, as it is read behind the lines `before`. -/
def itemAfter (alphanumeric : Char → Bool) (source : ImportSource) (path : String)
    (before : List (List Char)) (b : Checkbox) : ImportItem :=
  (placeAt before).item alphanumeric source path before.length b

/-- An item of a chunk, not before the line `from`. -/
def ReadFrom (alphanumeric : Char → Bool) (source : ImportSource) (path : String)
    (ls : List (List Char)) («from» : Nat) (item : ImportItem) : Prop :=
  ∃ before b, ItemAt ls before b ∧ «from» ≤ before.length ∧
    item = itemAfter alphanumeric source path before b

/-- Two items of a chunk have the same identity. -/
def Repeats (alphanumeric : Char → Bool) (source : ImportSource) (path : String)
    (ls : List (List Char)) : Prop :=
  ∃ before b before' b', ItemAt ls before b ∧ ItemAt ls before' b' ∧
    before.length < before'.length ∧
    (itemAfter alphanumeric source path before b).stableIdentity =
      (itemAfter alphanumeric source path before' b').stableIdentity

/-- A conflict about an item that repeats an identity. -/
def ImportConflict.Ambiguous (c : ImportConflict) : Prop := c.code = "ambiguous_source_identity"

lemma Gathered.mem_items_file {g : Gathered} {item x : ImportItem} {repeats : ImportItem → String}
    (h : x ∈ (g.file item repeats).items) : x ∈ g.items ∨ x = item := by
  rw [Gathered.file] at h
  split at h
  · exact .inl h
  · exact (List.mem_append.1 h).imp_right List.mem_singleton.1

/-- Filing an item adds at most the conflict that its identity is taken. -/
lemma Gathered.mem_conflicts_file {g : Gathered} {item : ImportItem}
    {repeats : ImportItem → String} {c : ImportConflict}
    (h : c ∈ (g.file item repeats).conflicts) :
    c ∈ g.conflicts ∨ ∃ first ∈ g.items, first.stableIdentity = item.stableIdentity ∧
      c.sourcePath = item.sourcePath ∧ c.message = repeats first := by
  rw [Gathered.file] at h
  split at h
  · rename_i first hfirst
    refine (List.mem_append.1 h).imp_right fun hc => ?_
    obtain rfl := List.mem_singleton.1 hc
    exact ⟨first, List.mem_of_find?_eq_some hfirst, by simpa using List.find?_some hfirst, rfl, rfl⟩
  · exact .inl h

/-- An item of the chunk has the identity of one before it, in the chunk or among `first`. -/
def Clashes (alphanumeric : Char → Bool) (source : ImportSource) (path : String)
    (ls : List (List Char)) («from» : Nat) (first : List ImportItem) : Prop :=
  ∃ before b item, ItemAt ls before b ∧ «from» ≤ before.length ∧
    item.stableIdentity = (itemAfter alphanumeric source path before b).stableIdentity ∧
    (item ∈ first ∨ ∃ before' b', ItemAt ls before' b' ∧ before'.length < before.length ∧
      item = itemAfter alphanumeric source path before' b')

/-- What one line adds: its item, and a conflict when the identity is taken. -/
lemma Gathered.readLine_spec (alphanumeric : Char → Bool) (source : ImportSource) (path : String)
    (paths : List String) (before rest : List (List Char)) (line : List Char) (g : Gathered) :
    (∀ item ∈ (g.readLine alphanumeric source path paths (placeAt before) before.length line).items,
      item ∈ g.items ∨ ∃ b, ItemAt (before ++ line :: rest) before b ∧
        item = itemAfter alphanumeric source path before b) ∧
    ∀ c ∈ (g.readLine alphanumeric source path paths (placeAt before) before.length line).conflicts,
      c.Ambiguous → c ∈ g.conflicts ∨ (c.sourcePath = path ∧
        Clashes alphanumeric source path (before ++ line :: rest) before.length g.items) := by
  rw [Gathered.readLine]
  cases hb : checklist line with
  | none => exact ⟨fun _ => .inl, fun _ hc _ => .inl hc⟩
  | some b =>
    simp only
    split_ifs with hvalid
    · have hat : ItemAt (before ++ line :: rest) before b := ⟨line, rest, rfl, hb, hvalid⟩
      rw [item_reach hb]
      constructor
      · intro item hitem
        exact (Gathered.mem_items_file hitem).imp_right fun heq => ⟨b, hat, heq⟩
      · intro c hc _
        refine (Gathered.mem_conflicts_file hc).imp_right ?_
        rintro ⟨first, hfirst, hidentity, hpath, -⟩
        exact ⟨hpath, before, b, first, hat, le_rfl, hidentity, .inl hfirst⟩
    · refine ⟨fun _ => .inl, fun c hc hcode => ?_⟩
      refine (List.mem_append.1 hc).imp_right fun hlast => ?_
      rw [List.mem_singleton.1 hlast, ImportConflict.Ambiguous] at hcode
      exact absurd hcode (show "invalid_checklist_item" ≠ "ambiguous_source_identity" by decide)

/-- The items read from a chunk stand in it, and a conflict about an identity is about one of
them. -/
lemma Gathered.readLines_spec (alphanumeric : Char → Bool) (source : ImportSource) (path : String)
    (paths : List String) (before rest : List (List Char)) (g : Gathered) :
    (∀ item ∈ (g.readLines alphanumeric source path paths (placeAt before) before.length
        rest).items, item ∈ g.items ∨
      ReadFrom alphanumeric source path (before ++ rest) before.length item) ∧
    ∀ c ∈ (g.readLines alphanumeric source path paths (placeAt before) before.length
        rest).conflicts, c.Ambiguous → c ∈ g.conflicts ∨ (c.sourcePath = path ∧
      Clashes alphanumeric source path (before ++ rest) before.length g.items) := by
  induction rest generalizing before g with
  | nil => exact ⟨fun _ => .inl, fun _ hc _ => .inl hc⟩
  | cons line rest ih =>
    obtain ⟨hitem, hconflict⟩ :=
      Gathered.readLine_spec alphanumeric source path paths before rest line g
    obtain ⟨hitems, hconflicts⟩ := ih (before ++ [line])
      (g.readLine alphanumeric source path paths (placeAt before) before.length line)
    rw [placeAt_concat, List.length_append, List.length_singleton, List.append_assoc,
      List.singleton_append] at hitems hconflicts
    rw [Gathered.readLines]
    constructor
    · intro item hmem
      rcases hitems item hmem with hmem | ⟨before', b, hat, hle, heq⟩
      · refine (hitem item hmem).imp_right ?_
        rintro ⟨b, hat, heq⟩
        exact ⟨before, b, hat, le_rfl, heq⟩
      · exact .inr ⟨before', b, hat, by omega, heq⟩
    · intro c hc hcode
      rcases hconflicts c hc hcode with hc | ⟨hpath, before', b, item, hat, hle, hidentity, hitem'⟩
      · exact hconflict c hc hcode
      · refine .inr ⟨hpath, before', b, item, hat, by omega, hidentity, ?_⟩
        rcases hitem' with hmem | hearlier
        · -- an item that was there when the later lines were read
          refine (hitem item hmem).imp_right ?_
          rintro ⟨b', hat', heq⟩
          exact ⟨before, b', hat', by omega, heq⟩
        · exact .inr hearlier

/-- A chunk adds the items that stand in it, and conflicts about their identities. -/
lemma Gathered.readChunk_spec (alphanumeric : Char → Bool) (source : ImportSource)
    (paths : List String) (g : Gathered) (chunk : String × String) :
    (∀ item ∈ (g.readChunk alphanumeric source paths chunk).items, item ∈ g.items ∨
      ReadFrom alphanumeric source chunk.1 (lines chunk.2.toList) 0 item) ∧
    ∀ c ∈ (g.readChunk alphanumeric source paths chunk).conflicts, c.Ambiguous → c ∈ g.conflicts ∨
      (c.sourcePath = chunk.1 ∧
        Clashes alphanumeric source chunk.1 (lines chunk.2.toList) 0 g.items) := by
  rw [Gathered.readChunk]
  split_ifs with hgenerated
  · obtain ⟨hitems, hconflicts⟩ := Gathered.readLines_spec alphanumeric source chunk.1 paths []
      (lines chunk.2.toList) (g.block "generated_projection" chunk.1 "(document)"
        "Generated exports are projections and cannot be imported as authority.")
    refine ⟨hitems, fun c hc hcode => ?_⟩
    rcases hconflicts c hc hcode with hc | hclash
    · refine (List.mem_append.1 hc).imp_right fun hlast => ?_
      rw [List.mem_singleton.1 hlast, ImportConflict.Ambiguous] at hcode
      exact absurd hcode (show "generated_projection" ≠ "ambiguous_source_identity" by decide)
    · exact .inr hclash
  · exact Gathered.readLines_spec alphanumeric source chunk.1 paths [] (lines chunk.2.toList) g

/-- Where the items and the conflicts about identities of some chunks come from. -/
def Sourced (alphanumeric : Char → Bool) (source : ImportSource) (chunks : List (String × String))
    (g : Gathered) : Prop :=
  (∀ item ∈ g.items, item.recordKind = .task → ∃ chunk ∈ chunks,
    ReadFrom alphanumeric source chunk.1 (lines chunk.2.toList) 0 item) ∧
  ∀ c ∈ g.conflicts, c.Ambiguous →
    c.message = "Historical mapping duplicates another source identity." ∨
      ∃ chunk ∈ chunks, c.sourcePath = chunk.1 ∧
        Repeats alphanumeric source chunk.1 (lines chunk.2.toList)

/-- Chunks with different paths share no identity. -/
lemma sourced_readChunks (chunks : List (String × String)) (hpaths : (chunks.map (·.1)).Nodup) :
    Sourced alphanumeric source chunks
        (chunks.foldl (Gathered.readChunk alphanumeric source paths) .empty) ∧
      ∀ item ∈ (chunks.foldl (Gathered.readChunk alphanumeric source paths) .empty).items,
        item.recordKind = .task := by
  induction chunks using List.reverseRecOn with
  | nil => exact ⟨⟨nofun, nofun⟩, nofun⟩
  | append_singleton chunks chunk ih =>
    rw [List.map_append, List.nodup_append] at hpaths
    obtain ⟨hchunks, -, hfresh⟩ := hpaths
    obtain ⟨⟨hitems, hconflicts⟩, hkind⟩ := ih hchunks
    rw [List.foldl_append, List.foldl_cons, List.foldl_nil]
    obtain ⟨hitem, hconflict⟩ := Gathered.readChunk_spec alphanumeric source paths
      (chunks.foldl (Gathered.readChunk alphanumeric source paths) .empty) chunk
    refine ⟨⟨fun item hmem htask => ?_, fun c hc hcode => ?_⟩, fun item hmem => ?_⟩
    · rcases hitem item hmem with hmem | hread
      · obtain ⟨first, hfirst, hread⟩ := hitems item hmem htask
        exact ⟨first, List.mem_append_left _ hfirst, hread⟩
      · exact ⟨chunk, by simp, hread⟩
    · rcases hconflict c hc hcode with hc | ⟨hpath, before, b, item, hat, -, hidentity, hearlier⟩
      · refine (hconflicts c hc hcode).imp_right ?_
        rintro ⟨first, hfirst, hrepeats⟩
        exact ⟨first, List.mem_append_left _ hfirst, hrepeats⟩
      · refine .inr ⟨chunk, by simp, hpath, ?_⟩
        rcases hearlier with hmem | ⟨before', b', hat', hlt, rfl⟩
        · -- an item of an earlier chunk has another path in its identity
          obtain ⟨first, hfirst, before', b', -, -, rfl⟩ := hitems item hmem (hkind item hmem)
          have hsame : first.1 = chunk.1 := congrArg StableIdentity.path hidentity
          exact absurd hsame (hfresh first.1 (List.mem_map_of_mem hfirst) chunk.1 (by simp))
        · exact ⟨before', b', before, b, hat', hat, hlt, hidentity⟩
    · rcases hitem item hmem with hmem | ⟨before, b, -, -, rfl⟩
      · exact hkind item hmem
      · rfl

/-- A historical mapping adds an item that is no task, or the conflict that says so. -/
lemma Sourced.readMapping {chunks : List (String × String)} {g g' : Gathered}
    {mapping : HistoricalMapping} (h : Sourced alphanumeric source chunks g)
    (hread : AgentCoordinator.readMapping alphanumeric source paths g mapping = .ok g') :
    Sourced alphanumeric source chunks g' := by
  simp only [AgentCoordinator.readMapping, bind_eq_ok, pure_eq_ok] at hread
  obtain ⟨path, -, -, -, -, -, -, -, -, -, disposition, -, rfl⟩ := hread
  constructor
  · intro item hmem htask
    rcases Gathered.mem_items_file hmem with hmem | rfl
    · exact h.1 item hmem htask
    · cases htask
  · intro c hc hcode
    rcases Gathered.mem_conflicts_file hc with hc | ⟨first, -, -, -, hmessage⟩
    · exact h.2 c hc hcode
    · exact .inl hmessage

/-- The entry is the chunk under its normalized path. -/
def Normalizes (chunk : MarkdownChunk) (entry : String × String) : Prop :=
  normalizePath chunk.path = .ok entry.1 ∧ entry.2 = chunk.markdown

/-- The chunks under their normalized paths, which are pairwise different. -/
structure Normalized (chunks : List MarkdownChunk) (entries : List (String × String)) : Prop where
  chunk : ∀ entry ∈ entries, ∃ chunk ∈ chunks, Normalizes chunk entry
  entry : ∀ chunk ∈ chunks, ∃ entry ∈ entries, Normalizes chunk entry
  nodup : (entries.map (·.1)).Nodup

lemma normalized_of_foldlM {chunks : List MarkdownChunk} {entries : List (String × String)}
    (h : chunks.foldlM normalizeChunk [] = .ok entries) : Normalized chunks entries := by
  refine foldlM_induction (P := Normalized) h ⟨nofun, nofun, List.nodup_nil⟩ ?_
  intro done chunk entries entries' hdone hstep
  simp only [normalizeChunk, bind_eq_ok, pure_eq_ok, refuseIf_eq_ok] at hstep
  obtain ⟨path, hpath, -, -, -, hfresh, rfl⟩ := hstep
  refine ⟨fun entry hentry => ?_, fun chunk' hchunk' => ?_, ?_⟩
  · rcases List.mem_append.1 hentry with hentry | hentry
    · obtain ⟨first, hfirst, hnorm⟩ := hdone.chunk entry hentry
      exact ⟨first, List.mem_append_left _ hfirst, hnorm⟩
    · obtain rfl := List.mem_singleton.1 hentry
      exact ⟨chunk, by simp, hpath, rfl⟩
  · rcases List.mem_append.1 hchunk' with hchunk' | hchunk'
    · obtain ⟨entry, hentry, hnorm⟩ := hdone.entry chunk' hchunk'
      exact ⟨entry, List.mem_append_left _ hentry, hnorm⟩
    · obtain rfl := List.mem_singleton.1 hchunk'
      exact ⟨(path, chunk'.markdown), by simp, hpath, rfl⟩
  · rw [List.map_append, List.nodup_append]
    refine ⟨hdone.nodup, by simp, ?_⟩
    intro p hp q hq heq
    obtain rfl : q = path := by simpa using hq
    exact hfresh (heq ▸ hp)

/-- Where the items and conflicts of a source come from. -/
lemma sourced_parseChunks {chunks : List MarkdownChunk} {mappings : List HistoricalMapping}
    {g : Gathered} (h : parseChunks alphanumeric source chunks mappings = .ok g) :
    ∃ entries, Normalized chunks entries ∧ Sourced alphanumeric source entries g := by
  simp only [parseChunks, bind_eq_ok, pure_eq_ok] at h
  obtain ⟨-, -, -, -, entries, hentries, g, hmappings, -, -, rfl⟩ := h
  have hnormalized := normalized_of_foldlM hentries
  refine ⟨entries, hnormalized, ?_⟩
  exact foldlM_induction (P := fun _ g => Sourced alphanumeric source entries g) hmappings
    (sourced_readChunks entries hnormalized.nodup).1 fun _ _ _ _ hdone hread =>
      hdone.readMapping hread

/-- Items that repeat an identity have the same name in the same section. -/
lemma not_repeats {ls : List (List Char)} (hright : NamesRight alphanumeric ls)
    (hdiffer : NamesDiffer alphanumeric ls) : ¬ Repeats alphanumeric source path ls := by
  rintro ⟨before, b, before', b', hat, hat', hlt, hidentity⟩
  have hsection := congrArg StableIdentity.section hidentity
  have hanchor := congrArg StableIdentity.anchor hidentity
  exact hdiffer before b before' b' hat hat' hlt hsection _ _ (hright before b hat)
    (hright before' b' hat') hanchor

end Reading

/-- What an import is meant to make of the markers of a chunk: each item has the name it should
have, and items with different names in their sections are no conflict. -/
def MarkersHold (alphanumeric : Char → Bool) (g : Gathered) (chunk : MarkdownChunk) : Prop :=
  NamesRight alphanumeric chunk.lines ∧
    (NamesDiffer alphanumeric chunk.lines → ∀ c ∈ g.conflicts, c.Ambiguous →
      normalizePath chunk.path = .ok c.sourcePath →
      c.message = "Historical mapping duplicates another source identity.")

/-- An accepted source has the items that stand in its chunks, and the markers of a chunk name what
they should exactly when no left-over marker reaches an item without one. -/
theorem markers_hold_iff (alphanumeric : Char → Bool) (source : ImportSource)
    (chunks : List MarkdownChunk) (mappings : List HistoricalMapping) (g : Gathered)
    (h : parseChunks alphanumeric source chunks mappings = .ok g) :
    (∀ item ∈ g.items, item.recordKind = .task → ∃ chunk ∈ chunks, ∃ path,
      normalizePath chunk.path = .ok path ∧
        ReadFrom alphanumeric source path chunk.lines 0 item) ∧
    ∀ chunk ∈ chunks,
      MarkersHold alphanumeric g chunk ↔ LeftOversRight alphanumeric chunk.lines := by
  obtain ⟨entries, hnormalized, hitems, hconflicts⟩ := sourced_parseChunks h
  constructor
  · intro item hmem htask
    obtain ⟨entry, hentry, hread⟩ := hitems item hmem htask
    obtain ⟨chunk, hchunk, hpath, hmarkdown⟩ := hnormalized.chunk entry hentry
    rw [hmarkdown] at hread
    exact ⟨chunk, hchunk, entry.1, hpath, hread⟩
  · intro chunk hchunk
    rw [MarkersHold, namesRight_iff]
    refine and_iff_left_of_imp fun hleft hdiffer c hc hcode hpath => ?_
    refine (hconflicts c hc hcode).resolve_right ?_
    rintro ⟨entry, hentry, hsource, hrepeats⟩
    -- the conflict is about this chunk, whose path no other has
    obtain ⟨entry', hentry', hpath', hmarkdown⟩ := hnormalized.entry chunk hchunk
    have hsame : entry.1 = entry'.1 := by
      rw [hpath, Except.ok.injEq] at hpath'
      rw [← hsource, hpath']
    obtain rfl := List.inj_on_of_nodup_map hnormalized.nodup hentry hentry' hsame
    rw [hmarkdown] at hrepeats
    exact not_repeats ((namesRight_iff alphanumeric _).2 hleft) hdiffer hrepeats

namespace Scenario

/-- A repository that imports are read from. -/
def checkout : ImportSource := ⟨"repository", base, "2026-09-09T20:00:00Z", "main", ""⟩

/-- An item with its own marker, and one without. -/
def markedItem : MarkdownChunk :=
  ⟨"TASKS.md", "# Release\n- [ ] Ship <!-- coordinator-id: ship -->\n- [ ] Announce\n"⟩

/-- A marker alone on its line, before two items. -/
def markedLine : MarkdownChunk :=
  ⟨"TASKS.md", "# Release\n<!-- coordinator-id: ship -->\n- [ ] Ship\n- [ ] Announce\n"⟩

end Scenario

/-- The item after one with its own marker takes that marker over: its name is lost, and it becomes
a conflict with the item the marker names. -/
theorem marked_item_names_the_next :
    ∃ g, parseChunks Char.isAlphanum Scenario.checkout [Scenario.markedItem] [] = .ok g ∧
      g.items.map (·.title) = ["Ship"] ∧
      g.conflicts.map (·.code) = ["ambiguous_source_identity"] ∧
      ¬ MarkersHold Char.isAlphanum g Scenario.markedItem := by
  have hrun : (parseChunks Char.isAlphanum Scenario.checkout [Scenario.markedItem] []).toOption.map
      (fun g => (g.items.map (·.title), g.conflicts.map (·.code))) =
        some (["Ship"], ["ambiguous_source_identity"]) := by decide +kernel
  obtain ⟨g, hg, hread⟩ := Option.map_eq_some_iff.1 hrun
  obtain ⟨hitems, hconflicts⟩ := Prod.mk.inj hread
  refine ⟨g, toOption_eq_some.1 hg, hitems, hconflicts, fun hhold => ?_⟩
  -- the third line, behind the marked item
  have hright := hhold.1 (Scenario.markedItem.lines.take 2) ⟨false, "Announce".toList⟩
    ⟨"- [ ] Announce".toList, [], by decide +kernel, by decide +kernel, by decide +kernel⟩
  have hname : (placeAt (Scenario.markedItem.lines.take 2)).anchor Char.isAlphanum
      ⟨false, "Announce".toList⟩ = "ship" := by decide +kernel
  have hown : explicitAnchor "Announce".toList = none := by decide +kernel
  rw [hname, RightName, hown] at hright
  rcases hright with hnamed | ⟨-, htitle⟩
  · have hlines : Scenario.markedItem.lines.take 2 = ["# Release".toList] ++
        ["- [ ] Ship <!-- coordinator-id: ship -->".toList] := by decide +kernel
    rw [hlines, Named, since_concat] at hnamed
    rcases hnamed with ⟨halone, -⟩ | ⟨⟨-, hitem⟩, -⟩
    · exact absurd halone (by decide +kernel)
    · exact absurd hitem (by decide +kernel)
  · exact absurd htitle (by decide +kernel)

theorem markers_hold_iff_markedLine :
    ∃ g, parseChunks Char.isAlphanum Scenario.checkout [Scenario.markedLine] [] = .ok g ∧
      ((∀ item ∈ g.items, item.recordKind = .task → ∃ chunk ∈ [Scenario.markedLine], ∃ path,
        normalizePath chunk.path = .ok path ∧
          ReadFrom Char.isAlphanum Scenario.checkout path chunk.lines 0 item) ∧
      ∀ chunk ∈ [Scenario.markedLine],
        MarkersHold Char.isAlphanum g chunk ↔ LeftOversRight Char.isAlphanum chunk.lines) := by
  have hrun : (parseChunks Char.isAlphanum Scenario.checkout [Scenario.markedLine] []).toOption.isSome
      = true := by decide +kernel
  obtain ⟨g, hg⟩ := Option.isSome_iff_exists.1 hrun
  exact ⟨g, toOption_eq_some.1 hg, markers_hold_iff Char.isAlphanum Scenario.checkout
    [Scenario.markedLine] [] g (toOption_eq_some.1 hg)⟩

end AgentCoordinator
