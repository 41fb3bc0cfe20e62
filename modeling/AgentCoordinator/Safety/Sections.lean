import AgentCoordinator.Safety.Anchors

/-
Which headings the section of a checklist item joins.

The line loop keeps its headings by position: a heading of level `l` leaves the first `l - 1` of
them. Where a level was skipped, a heading above the skipped level stays after it was closed. The
section of an item is its heading ancestry in exactly the texts where every heading around an item
is at its own depth, or the first one below its parent; there it does not depend on the sections
beside its own.
-/

namespace AgentCoordinator

open Headings Text

/-- The headings of some lines. -/
def headingsOf (ls : List (List Char)) : List (Heading String) := ls.filterMap heading

/-- The section that joins some headings. -/
def joinHeadings (hs : List (Heading String)) : String :=
  if hs = [] then "(root)" else " / ".intercalate (hs.map (·.title))

/-! ### The stack of headings -/

lemma headings_take (p : Place) (b : Checkbox) : (p.take b).headings = p.headings := by
  rw [Place.take]
  split_ifs <;> rfl

/-- A line changes the headings only when it is one. -/
lemma headings_step (p : Place) (line : List Char) : (p.step line).headings =
    match heading line with
    | some h => p.headings.take (h.level - 1) ++ [h.title]
    | none => p.headings := by
  have hreach : (p.step line).headings = (p.reach line).headings := by
    rw [Place.step]
    cases checklist line with
    | none => rfl
    | some b =>
      simp only
      split_ifs
      · exact headings_take _ b
      · rfl
  rw [hreach, Place.reach]
  cases heading line <;> rfl

/-- The headings of a place are the stack kept by position. -/
lemma headings_placeAt (ls : List (List Char)) :
    (placeAt ls).headings = (stack (headingsOf ls)).map (·.title) := by
  induction ls using List.reverseRecOn with
  | nil => rfl
  | append_singleton ls line ih =>
    rw [placeAt_concat, headings_step, headingsOf, List.filterMap_append]
    cases hline : heading line with
    | none =>
      rw [List.filterMap_cons_none hline, List.filterMap_nil, List.append_nil]
      exact ih
    | some h =>
      rw [List.filterMap_cons_some hline, List.filterMap_nil, stack_concat, List.map_append,
        List.map_take]
      simp only
      rw [ih]
      rfl

lemma section_placeAt (ls : List (List Char)) :
    (placeAt ls).section = joinHeadings (stack (headingsOf ls)) := by
  simp only [Place.section, joinHeadings, headings_placeAt, List.map_eq_nil_iff]

/-! ### Joined titles -/

/-- The length of joined titles, with one more separator. -/
lemma length_intercalate (titles : List String) (hne : titles ≠ []) :
    (" / ".intercalate titles).length + 3 = (titles.map fun t => t.length + 3).sum := by
  induction titles with
  | nil => exact absurd rfl hne
  | cons t titles ih =>
    cases titles with
    | nil => simp [String.intercalate_singleton]
    | cons t' titles =>
      have hrest := ih (by simp)
      have hsep : (" / " : String).length = 3 := by decide
      rw [String.intercalate_cons_cons, String.length_append, String.length_append, hsep,
        List.map_cons, List.sum_cons, ← hrest]
      omega

/-- Leaving titles out makes the sum of their lengths smaller. -/
lemma sum_add_le_of_sublist {hs hs' : List (Heading String)} (h : hs.Sublist hs') :
    (hs.map fun h => h.title.length + 3).sum + (hs'.length - hs.length) ≤
      (hs'.map fun h => h.title.length + 3).sum := by
  induction h with
  | slnil => simp
  | cons a hsub ih =>
    have hlen := hsub.length_le
    rw [List.map_cons, List.sum_cons, List.length_cons]
    omega
  | cons_cons a hsub ih =>
    rw [List.map_cons, List.sum_cons, List.map_cons, List.sum_cons, List.length_cons,
      List.length_cons]
    omega

/-- A section that leaves headings out reads differently. -/
lemma eq_of_joinHeadings_eq {hs hs' : List (Heading String)} (h : hs.Sublist hs') (hne : hs ≠ [])
    (heq : joinHeadings hs = joinHeadings hs') : hs = hs' := by
  have hne' : hs' ≠ [] := fun hnil => hne (List.sublist_nil.1 (hnil ▸ h))
  rw [joinHeadings, joinHeadings, if_neg hne, if_neg hne'] at heq
  have hlen := congrArg (fun s => String.length s + 3) heq
  rw [length_intercalate _ (by simpa using hne), length_intercalate _ (by simpa using hne'),
    List.map_map, List.map_map] at hlen
  have hsum := sum_add_le_of_sublist h
  have hle := h.length_le
  refine h.eq_of_length ?_
  simp only [Function.comp_def] at hlen
  omega

/-- The section of a place joins the enclosing headings exactly when the stack is made of them. -/
lemma section_eq_iff (before : List (List Char)) :
    (placeAt before).section = joinHeadings (enclosing (headingsOf before)) ↔
      stack (headingsOf before) = enclosing (headingsOf before) := by
  rw [section_placeAt]
  refine ⟨fun heq => ?_, fun heq => congrArg joinHeadings heq⟩
  rcases List.eq_nil_or_concat (headingsOf before) with hnil | ⟨hs, h, hconcat⟩
  · rw [hnil]
    rfl
  · refine (eq_of_joinHeadings_eq (enclosing_sublist_stack _) ?_ heq.symm).symm
    rw [hconcat, List.concat_eq_append, enclosing_concat]
    simp

/-! ### Sections of a text -/

/-- Every item of the text has the section that joins the headings enclosing it. -/
def SectionsRight (ls : List (List Char)) : Prop :=
  ∀ before b, ItemAt ls before b →
    (placeAt before).section = joinHeadings (enclosing (headingsOf before))

/-- Every heading that encloses an item of the text is at its own depth, or it directly follows its
parent. -/
def LevelsSettled (ls : List (List Char)) : Prop :=
  ∀ before b, ItemAt ls before b → ∀ a h c, headingsOf before = a ++ h :: c →
    (∀ g ∈ c, h.level < g.level) → Settled a h.level

lemma sectionsRight_iff (ls : List (List Char)) : SectionsRight ls ↔ LevelsSettled ls := by
  refine forall_congr' fun before => forall_congr' fun b => imp_congr_right fun _ => ?_
  rw [section_eq_iff, stack_eq_enclosing_iff]

/-- The pending marker of a place depends on the one before, not on the headings. -/
lemma pendingAnchor_step {p q : Place} (line : List Char)
    (h : p.pendingAnchor = q.pendingAnchor) :
    (p.step line).pendingAnchor = (q.step line).pendingAnchor := by
  have hreach : (p.reach line).pendingAnchor = (q.reach line).pendingAnchor := by
    rw [Place.reach, Place.reach]
    cases heading line with
    | none => simp only [h]
    | some h => rfl
  rw [Place.step, Place.step]
  cases checklist line with
  | none => exact hreach
  | some b =>
    simp only
    split_ifs
    · rw [Place.take, Place.take]
      split_ifs
      · rfl
      · exact hreach
    · exact hreach

/-- A heading forgets the markers before it. -/
lemma pendingAnchor_after_heading {headline : List Char} {h : Heading String}
    (hline : heading headline = some h) (pre pre' c : List (List Char)) :
    (placeAt (pre ++ headline :: c)).pendingAnchor =
      (placeAt (pre' ++ headline :: c)).pendingAnchor := by
  induction c using List.reverseRecOn with
  | nil =>
    have hnone (x : List (List Char)) : (placeAt (x ++ [headline])).pendingAnchor = none := by
      rw [placeAt_concat, Place.step]
      cases hb : checklist headline with
      | none => simp only [Place.reach, hline]
      | some b =>
        rw [heading_of_checklist hb] at hline
        cases hline
    rw [hnone, hnone]
  | append_singleton c line ih =>
    have hconcat (x : List (List Char)) :
        x ++ headline :: (c ++ [line]) = x ++ headline :: c ++ [line] := by simp
    rw [hconcat, hconcat, placeAt_concat, placeAt_concat]
    exact pendingAnchor_step line ih

/-- Sections beside its own do not show in the identity of an item, where its section is right. -/
lemma identity_eq (alphanumeric : Char → Bool) (source : ImportSource) (path : String)
    {pre mid mid' c : List (List Char)} {headline : List Char} {h : Heading String}
    (hline : heading headline = some h)
    (hmid : ∀ g ∈ headingsOf mid, h.level ≤ g.level)
    (hmid' : ∀ g ∈ headingsOf mid', h.level ≤ g.level) {b : Checkbox}
    (hright : (placeAt (pre ++ mid ++ headline :: c)).section =
      joinHeadings (enclosing (headingsOf (pre ++ mid ++ headline :: c))))
    (hright' : (placeAt (pre ++ mid' ++ headline :: c)).section =
      joinHeadings (enclosing (headingsOf (pre ++ mid' ++ headline :: c)))) :
    (itemAfter alphanumeric source path (pre ++ mid ++ headline :: c) b).stableIdentity =
      (itemAfter alphanumeric source path (pre ++ mid' ++ headline :: c) b).stableIdentity := by
  have hheadings (x : List (List Char)) : headingsOf (pre ++ x ++ headline :: c) =
      headingsOf pre ++ headingsOf x ++ h :: headingsOf c := by
    simp only [headingsOf, List.filterMap_append, List.filterMap_cons_some hline]
  have hsection : (placeAt (pre ++ mid ++ headline :: c)).section =
      (placeAt (pre ++ mid' ++ headline :: c)).section := by
    rw [hright, hright', hheadings, hheadings, enclosing_append_of_le hmid,
      enclosing_append_of_le hmid']
  have hpending := pendingAnchor_after_heading hline (pre ++ mid) (pre ++ mid') c
  simp only [itemAfter, Place.item, Place.anchor, hsection, hpending]

/-- The enclosing headings are those that no later one of the same or a smaller level closes, ever
deeper. The section of every item of a text joins them exactly when the levels around the items are
settled; and then the identity of an item stays the same when the sections before its own
are replaced by others that are as deep. -/
theorem sections_right_iff (alphanumeric : Char → Bool) (source : ImportSource) (path : String)
    (paths : List String) (text : List Char) :
    (∀ item ∈ (Gathered.empty.readLines alphanumeric source path paths .start 0 (lines text)).items,
      ReadFrom alphanumeric source path (lines text) 0 item) ∧
    (∀ hs : List (Heading String), (enclosing hs).Sublist hs ∧
      ((enclosing hs).Pairwise fun h g => h.level < g.level) ∧
      ∀ h, h ∈ enclosing hs ↔ ∃ a b, hs = a ++ h :: b ∧ ∀ g ∈ b, h.level < g.level) ∧
    (SectionsRight (lines text) ↔ LevelsSettled (lines text)) ∧
    ∀ pre mid mid' own headline h, heading headline = some h →
      lines text = pre ++ mid ++ headline :: own →
      (∀ g ∈ headingsOf mid ++ headingsOf mid', h.level ≤ g.level) →
      LevelsSettled (lines text) → LevelsSettled (pre ++ mid' ++ headline :: own) →
      ∀ c b, ItemAt (headline :: own) (headline :: c) b →
        (itemAfter alphanumeric source path (pre ++ mid ++ headline :: c) b).stableIdentity =
          (itemAfter alphanumeric source path (pre ++ mid' ++ headline :: c) b).stableIdentity := by
  refine ⟨fun item hitem => ?_, fun hs => ?_, sectionsRight_iff _, ?_⟩
  · have hread := (Gathered.readLines_spec alphanumeric source path paths [] (lines text)
      .empty).1 item hitem
    exact hread.resolve_left nofun
  · exact ⟨enclosing_sublist hs, pairwise_enclosing hs, fun h => mem_enclosing⟩
  · intro pre mid mid' own headline h hline htext hlevels hsettled hsettled' c b hitem
    rw [htext] at hsettled
    have hat (x : List (List Char)) :
        ItemAt (pre ++ x ++ headline :: own) (pre ++ x ++ headline :: c) b := by
      obtain ⟨line, after, hown, hb, hvalid⟩ := hitem
      exact ⟨line, after, by rw [hown, List.append_assoc _ _ (line :: after)], hb, hvalid⟩
    exact identity_eq alphanumeric source path hline
      (fun g hg => hlevels g (List.mem_append_left _ hg))
      (fun g hg => hlevels g (List.mem_append_right _ hg))
      ((sectionsRight_iff _).2 hsettled _ b (hat mid))
      ((sectionsRight_iff _).2 hsettled' _ b (hat mid'))

/-! ### A skipped level -/

namespace Scenario

/-- Two sections three deep right below the title. -/
def skippedLevel : MarkdownChunk :=
  ⟨"TASKS.md", "# Release\n### First\n- [ ] Ship\n### Second\n- [ ] Announce\n"⟩

end Scenario

/-- The second section is read as one within the first, which it closes. -/
theorem skipped_level_nests :
    (∃ g, parseChunks Char.isAlphanum Scenario.checkout [Scenario.skippedLevel] [] = .ok g ∧
      g.items.map (fun item => (item.title, item.sectionIdentity)) =
        [("Ship", "Release / First"), ("Announce", "Release / First / Second")]) ∧
      ¬ SectionsRight Scenario.skippedLevel.lines := by
  constructor
  · have hrun : (parseChunks Char.isAlphanum Scenario.checkout
        [Scenario.skippedLevel] []).toOption.map
          (fun g => g.items.map fun item => (item.title, item.sectionIdentity)) =
        some [("Ship", "Release / First"), ("Announce", "Release / First / Second")] := by
      decide +kernel
    obtain ⟨g, hg, hitems⟩ := Option.map_eq_some_iff.1 hrun
    exact ⟨g, Guarded.toOption_eq_some.1 hg, hitems⟩
  · intro hright
    have hsection := hright (Scenario.skippedLevel.lines.take 4) ⟨false, "Announce".toList⟩
      ⟨"- [ ] Announce".toList, [], by decide +kernel, by decide +kernel, by decide +kernel⟩
    exact absurd hsection (by decide +kernel)

end AgentCoordinator
