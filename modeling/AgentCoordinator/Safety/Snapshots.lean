import AgentCoordinator.Backlog.Exports

/-
What a completed export shows.

Every page but the last is held to one state by the next one: a commit that changes the records of
the project records an event of it, so the revisions of two pages differ when something came between
them. Nothing comes after the last page. Its records are those of the state its revision was read in
exactly when no commit between its two statements changed the records behind its cursor.
-/

namespace AgentCoordinator.Exports

open Guarded Tabular Paging

/-! ### Sort keys -/

section Keys

variable {s : Store} {project : String}

lemma padded_injective {m n : Nat} (h : padded m = padded n) : m = n := by
  have hvalue (k : Nat) : Nat.ofDigitChars 10 (padded k).toList 0 = k := by
    rw [padded, String.toList_append, String.toList_ofList, Nat.ofDigitChars_append,
      Nat.ofDigitChars_replicate_zero, Nat.mul_zero, Nat.toList_repr, Nat.ofDigitChars_ten_toDigits]
  rw [← hvalue m, ← hvalue n, h]

/-- What a sort key starts with. -/
def kindOf (key : String) : List Char := key.toList.takeWhile (· != ':')

lemma kindOf_append (kind rest : String) (h : kind.toList.all (· != ':') = true) :
    kindOf (kind ++ ":" ++ rest) = kind.toList := by
  rw [kindOf, String.toList_append, String.toList_append, List.append_assoc,
    List.takeWhile_append_of_pos (List.all_eq_true.1 h)]
  simp

/-- Rows of a table that a text tells apart have it only once. -/
lemma nodup_map_filter {α κ : Type} [Keyed α κ] (t : Table α) (p : α → Prop) [DecidablePred p]
    (f : α → String) (hf : ∀ r r', p r → p r' → f r = f r' → Keyed.key r = Keyed.key r') :
    ((t.filter p).map f).Nodup := by
  refine List.Nodup.map_on ?_ ((List.Nodup.of_map _ t.nodup).filter _)
  intro r hr r' hr' heq
  obtain ⟨hmem, hp⟩ := Table.mem_filter.1 hr
  obtain ⟨hmem', hp'⟩ := Table.mem_filter.1 hr'
  exact List.inj_on_of_nodup_map t.nodup hmem hmem' (hf r r' hp hp' heq)

/-- A task has at most one import record, so it makes one record. -/
lemma exists_importIdentity (s : Store) (task : String) :
    ∃ identity, s.importIdentity task = [identity] := by
  rw [Store.importIdentity]
  have hnodup : (s.importRecords.filter fun r => r.task = some task).Nodup :=
    (List.Nodup.of_map _ s.importRecords.nodup).filter _
  cases hrs : s.importRecords.filter fun r => r.task = some task with
  | nil => exact ⟨none, rfl⟩
  | cons r rs =>
    refine ⟨some r.stableIdentity, ?_⟩
    rw [hrs] at hnodup
    have hmem {x : ImportRecord} (hx : x ∈ r :: rs) : x ∈ s.importRecords ∧ x.task = some task := by
      rw [← hrs] at hx
      exact Table.mem_filter.1 hx
    cases rs with
    | nil => rfl
    | cons r' rs =>
      obtain ⟨hr, htask⟩ := hmem (x := r) (by simp)
      obtain ⟨hr', htask'⟩ := hmem (x := r') (by simp)
      have heq := s.linked r hr r' hr' (by rw [htask, htask']) (by simp [htask])
      simp [heq] at hnodup

lemma taskRecords_keys (s : Store) (project : String) :
    (s.taskRecords project).map ExportRecord.sortKey =
      (s.tasks.filter fun t => t.project = project ∧ t.id ∉ s.activityTasks).map
        fun t => "task" ++ ":" ++ t.id := by
  rw [Store.taskRecords, List.map_flatMap]
  induction (s.tasks.filter fun t => t.project = project ∧ t.id ∉ s.activityTasks) with
  | nil => rfl
  | cons t ts ih =>
    obtain ⟨identity, hidentity⟩ := exists_importIdentity s t.id
    rw [List.flatMap_cons, ih, hidentity]
    rfl

/-- Texts of different kinds are different. -/
lemma nodup_flatten_of_kinds (sections : List (List Char × List String))
    (hkinds : (sections.map (·.1)).Nodup) (hnodup : ∀ sec ∈ sections, sec.2.Nodup)
    (hkind : ∀ sec ∈ sections, ∀ key ∈ sec.2, kindOf key = sec.1) :
    (sections.map (·.2)).flatten.Nodup := by
  rw [List.nodup_flatten]
  constructor
  · simp only [List.mem_map]
    rintro l ⟨sec, hsec, rfl⟩
    exact hnodup sec hsec
  · rw [List.Nodup, List.pairwise_map] at hkinds
    rw [List.pairwise_map]
    refine hkinds.imp_of_mem fun {sec sec'} hsec hsec' hne => ?_
    intro key hkey hkey'
    exact hne (by rw [← hkind sec hsec key hkey, hkind sec' hsec' key hkey'])

/-- The keys of the records, kind by kind. -/
def keySections (s : Store) (project : String) : List (List Char × List String) :=
  [("task".toList, (s.taskRecords project).map ExportRecord.sortKey),
    ("submission".toList, (s.submissionRecords project).map ExportRecord.sortKey),
    ("project-policy".toList, (s.policyRecords project).map ExportRecord.sortKey),
    ("workflow-policy".toList, (s.workflowPolicyRecords project).map ExportRecord.sortKey),
    ("knowledge".toList, (s.knowledgeExports project).map ExportRecord.sortKey),
    ("decision".toList, (s.decisionRecords project).map ExportRecord.sortKey),
    ("historical".toList, (s.historicalRecords project).map ExportRecord.sortKey)]

/-- The records of one kind have pairwise different keys of that kind. -/
lemma nodup_section {α κ : Type} [Keyed α κ] (t : Table α) (p : α → Prop) [DecidablePred p]
    (kind : String) (id : α → String) (hkind : kind.toList.all (· != ':') = true)
    (hid : ∀ r r', p r → p r' → id r = id r' → Keyed.key r = Keyed.key r') :
    ((t.filter p).map fun r => kind ++ ":" ++ id r).Nodup ∧
      ∀ key ∈ (t.filter p).map fun r => kind ++ ":" ++ id r, kindOf key = kind.toList := by
  constructor
  · refine nodup_map_filter t p _ fun r r' hp hp' heq => hid r r' hp hp' ?_
    exact String.append_right_inj _ |>.1 heq
  · simp only [List.mem_map]
    rintro key ⟨r, -, rfl⟩
    exact kindOf_append kind (id r) hkind

/-- The keys of each kind are pairwise different and say their kind. -/
lemma keySections_spec (s : Store) (project : String) : ∀ sec ∈ keySections s project,
    sec.1 ≠ [] ∧ sec.2.Nodup ∧ ∀ key ∈ sec.2, kindOf key = sec.1 := by
  simp only [keySections, List.forall_mem_cons, List.not_mem_nil, false_imp_iff, implies_true,
    and_true]
  refine ⟨⟨by decide, ?_⟩, ⟨by decide, ?_⟩, ⟨by decide, ?_⟩, ⟨by decide, ?_⟩, ⟨by decide, ?_⟩,
    ⟨by decide, ?_⟩, ⟨by decide, ?_⟩⟩
  · rw [taskRecords_keys]
    exact nodup_section _ _ _ _ (by decide) fun _ _ _ _ => id
  · rw [Store.submissionRecords, List.map_map]
    exact nodup_section _ _ "submission" _ (by decide) fun _ _ _ _ => id
  · rw [Store.policyRecords, List.map_map]
    exact nodup_section _ _ "project-policy" _ (by decide) fun _ _ hp hp' heq =>
      Prod.ext (hp.trans hp'.symm) (padded_injective heq)
  · rw [Store.workflowPolicyRecords, List.map_map]
    exact nodup_section _ _ "workflow-policy" _ (by decide) fun _ _ hp hp' heq =>
      Prod.ext (hp.trans hp'.symm) (padded_injective heq)
  · rw [Store.knowledgeExports, List.map_map]
    exact nodup_section _ _ "knowledge" _ (by decide) fun _ _ _ _ => id
  · rw [Store.decisionRecords, List.map_map]
    exact nodup_section _ _ "decision" _ (by decide) fun _ _ _ _ => id
  · rw [Store.historicalRecords, List.map_map]
    exact nodup_section _ _ "historical" _ (by decide) fun _ _ _ _ => id

lemma perm_exportRecords_keys (s : Store) (project : String) :
    ((s.exportRecords project).map ExportRecord.sortKey).Perm
      ((keySections s project).map (·.2)).flatten := by
  refine ((List.perm_insertionSort _ _).map _).trans (List.Perm.of_eq ?_)
  simp [keySections, List.map_append]

/-- No two records of a project have the same sort key. -/
lemma increasing_exportRecords (s : Store) (project : String) :
    Increasing ExportRecord.sortKey (s.exportRecords project) := by
  have hnodup := (perm_exportRecords_keys s project).nodup_iff.2 (nodup_flatten_of_kinds _
    (by simp only [keySections, List.map_cons]; decide)
    (fun sec hmem => (keySections_spec s project sec hmem).2.1)
    fun sec hmem => (keySections_spec s project sec hmem).2.2)
  rw [Store.exportRecords] at hnodup ⊢
  exact increasing_insertionSort (((List.perm_insertionSort _ _).map _).nodup_iff.1 hnodup)

/-- The first page starts before every record. -/
lemma after_empty (s : Store) (project : String) :
    after ExportRecord.sortKey "" (s.exportRecords project) = s.exportRecords project := by
  refine after_eq_self fun r hr => ?_
  have hkey := (perm_exportRecords_keys s project).mem_iff.1 (List.mem_map_of_mem hr)
  obtain ⟨keys, hkeys, hmem⟩ := List.mem_flatten.1 hkey
  obtain ⟨sec, hsec, rfl⟩ := List.mem_map.1 hkeys
  obtain ⟨hne, -, hkind⟩ := keySections_spec s project sec hsec
  refine lt_of_le_of_ne ?_ fun hempty => hne ?_
  · rw [← not_lt]
    intro hlt
    exact absurd (String.lt_iff_toList_lt.1 hlt) (by simp)
  · rw [← hkind _ hmem, ← hempty]
    rfl

end Keys

/-! ### Revisions -/

section Revisions

variable {s s' : Store} {project : String} {h : Nat → Store}

/-- A committed transaction: it adds events at the end, and one of the project's own when it changes
the records of the project. -/
structure Commits (project : String) (s s' : Store) : Prop where
  events : s.events <+: s'.events
  recorded : s'.exportRecords project ≠ s.exportRecords project →
    ∃ e ∈ s'.events.drop s.events.length,
      e.project = some project ∧ e.kind ≠ "import.preview_created"

lemma le_foldl_max (l : List (Event × Nat)) (last : Nat) :
    last ≤ l.foldl (fun last e => max last (e.2 + 1)) last ∧
      ∀ e ∈ l, e.2 < l.foldl (fun last e => max last (e.2 + 1)) last := by
  induction l generalizing last with
  | nil => exact ⟨le_rfl, nofun⟩
  | cons e l ih =>
    obtain ⟨hle, hmem⟩ := ih (max last (e.2 + 1))
    rw [List.foldl_cons]
    refine ⟨(le_max_left _ _).trans hle, ?_⟩
    intro e' he'
    rcases List.mem_cons.1 he' with rfl | he'
    · exact (le_max_right _ _).trans hle
    · exact hmem e' he'

lemma foldl_max_le (l : List (Event × Nat)) (last bound : Nat) (hlast : last ≤ bound)
    (hl : ∀ e ∈ l, e.2 < bound) : l.foldl (fun last e => max last (e.2 + 1)) last ≤ bound := by
  induction l generalizing last with
  | nil => exact hlast
  | cons e l ih =>
    rw [List.foldl_cons]
    refine ih _ (max_le hlast (hl e (by simp))) fun e' he' => hl e' (by simp [he'])

/-- A revision is the number of an event there is. -/
lemma projectEventRevision_le (s : Store) (project : String) :
    s.projectEventRevision project ≤ s.events.length := by
  refine foldl_max_le _ _ _ (Nat.zero_le _) fun e he => ?_
  have hmem := List.mem_zipIdx (List.mem_of_mem_filter he)
  omega

/-- Events at the end do not lower the revision, and one of the project raises it. -/
lemma Commits.revision (hc : Commits project s s') :
    s.projectEventRevision project ≤ s'.projectEventRevision project ∧
      (s'.exportRecords project ≠ s.exportRecords project →
        s.projectEventRevision project < s'.projectEventRevision project) := by
  obtain ⟨new, hnew⟩ := hc.events
  have hrevision : s'.projectEventRevision project =
      ((new.zipIdx s.events.length).filter fun e => decide
        (e.1.project = some project ∧ e.1.kind ≠ "import.preview_created")).foldl
          (fun last e => max last (e.2 + 1)) (s.projectEventRevision project) := by
    rw [Store.projectEventRevision, ← hnew, List.zipIdx_append, List.filter_append,
      List.foldl_append, Nat.zero_add]
    rfl
  rw [hrevision]
  refine ⟨(le_foldl_max _ _).1, fun hne => ?_⟩
  obtain ⟨e, he, hproject⟩ := hc.recorded hne
  rw [← hnew, List.drop_left] at he
  obtain ⟨i, hi, rfl⟩ := List.mem_iff_getElem.1 he
  refine lt_of_le_of_lt (projectEventRevision_le s project) ?_
  refine lt_of_le_of_lt (Nat.le_add_right _ i) ((le_foldl_max _ _).2 (new[i], _) ?_)
  refine List.mem_filter.2 ⟨?_, decide_eq_true hproject⟩
  rw [List.mk_mem_zipIdx_iff_le_and_getElem?_sub]
  exact ⟨Nat.le_add_right _ _, by simp [hi]⟩

lemma revision_mono (hh : ∀ n, Commits project (h n) (h (n + 1))) :
    Monotone fun n => (h n).projectEventRevision project :=
  monotone_nat_of_le_succ fun n => (hh n).revision.1

/-- Where the revision is the same, nothing has changed. -/
lemma records_eq (hh : ∀ n, Commits project (h n) (h (n + 1))) {m n : Nat}
    (heq : (h m).projectEventRevision project = (h n).projectEventRevision project) :
    (h m).exportRecords project = (h n).exportRecords project := by
  wlog hle : m ≤ n generalizing m n
  · exact (this heq.symm (le_of_not_ge hle)).symm
  obtain ⟨k, rfl⟩ := Nat.exists_eq_add_of_le hle
  clear hle
  induction k with
  | zero => rfl
  | succ k ih =>
    have hmono := revision_mono hh
    have hlow := hmono (Nat.le_add_right m k)
    have hhigh := hmono (Nat.le_succ (m + k))
    simp only at hlow hhigh
    have hmid : (h m).projectEventRevision project = (h (m + k)).projectEventRevision project :=
      le_antisymm hlow (hhigh.trans heq.ge)
    rw [ih hmid]
    by_contra hne
    have hlt := (hh (m + k)).revision.2 (Ne.symm hne)
    rw [← hmid, heq] at hlt
    exact lt_irrefl _ hlt

end Revisions

/-! ### One page -/

section Pages

variable {e : Encoder} {history : Nat → Store} {project key : String} {v : Visit} {page : ExportPage}

/-- A page that fits has the records from the start; it is complete when it has all of them. -/
lemma fit_ok {build : List ExportRecord → Bool → ExportPage} {fuel : Nat}
    {records : List ExportRecord} {more : Bool} (hmore : more = true → records ≠ [])
    (h : fit e build fuel records more = .ok page) :
    ∃ kept rest more', page = build kept more' ∧ records = kept ++ rest ∧
      (more' = true → kept ≠ []) ∧ (more' = false → rest = [] ∧ more = false) := by
  induction fuel generalizing records more with
  | zero =>
    rw [fit] at h
    split_ifs at h
    exact ⟨records, [], more, (Except.ok.inj h).symm, (List.append_nil _).symm, hmore,
      fun hmore' => ⟨rfl, hmore'⟩⟩
  | succ fuel ih =>
    rw [fit] at h
    split_ifs at h with hsize hlength
    · exact ⟨records, [], more, (Except.ok.inj h).symm, (List.append_nil _).symm, hmore,
        fun hmore' => ⟨rfl, hmore'⟩⟩
    · have hne : records ≠ [] := by
        rintro rfl
        exact hlength (Nat.zero_le 1)
      have hdrop : records.dropLast ≠ [] := by
        intro hnil
        have hlen := congrArg List.length hnil
        rw [List.length_dropLast, List.length_nil] at hlen
        omega
      obtain ⟨kept, rest, more', hpage, hsplit, hkept, hmore'⟩ := ih (fun _ => hdrop) h
      refine ⟨kept, rest ++ [records.getLast hne], more', hpage, ?_, hkept, fun hfalse => ?_⟩
      · rw [← List.append_assoc, ← hsplit, List.dropLast_append_getLast]
      · exact absurd (hmore' hfalse).2 (by decide)

/-- Digits are read as the number they write. -/
lemma parseI64_digits {text : List Char} {n : Int} (hall : text.all Char.isDigit = true)
    (h : parseI64 text = some n) : n = Nat.ofDigitChars 10 text 0 := by
  unfold parseI64 at h
  obtain ⟨hparsed, -⟩ := Option.filter_eq_some_iff.1 h
  split at hparsed
  · exact absurd hall (by simp)
  · exact absurd hall (by simp)
  · simp only [Option.map_eq_some_iff, Option.ite_none_right_eq_some] at hparsed
    obtain ⟨m, ⟨-, hm⟩, rfl⟩ := hparsed
    rw [Option.some.inj hm]
    rfl

lemma isDigit_of_mem_repr {n : Nat} {c : Char} (hc : c ∈ n.repr.toList) : c.isDigit = true := by
  rw [Nat.toList_repr] at hc
  exact Nat.isDigit_of_mem_toDigits (b := 10) (by decide) (by decide) hc

/-- What a cursor written by an export names. -/
lemma readCursor_of_export {snapshot snapshot' : Nat} {sortKey : String}
    (h : readCursor snapshot' (some (snapshot.repr ++ "~" ++ sortKey)) = .ok key) :
    snapshot' = snapshot ∧ key = sortKey := by
  have hdigits : ∀ c ∈ snapshot.repr.toList, (c != '~') = true := by
    intro c hc
    have hdigit := isDigit_of_mem_repr hc
    rw [bne_iff_ne]
    rintro rfl
    revert hdigit
    decide
  have htext : (snapshot.repr ++ "~" ++ sortKey).toList =
      snapshot.repr.toList ++ '~' :: sortKey.toList := by
    rw [String.toList_append, String.toList_append, List.append_assoc]
    rfl
  have htake : ('~' :: sortKey.toList).takeWhile (· != '~') = [] := rfl
  have hdrop : ('~' :: sortKey.toList).dropWhile (· != '~') = '~' :: sortKey.toList := rfl
  simp only [readCursor, bind_eq_ok, refuseIf_eq_ok, pure_eq_ok, htext,
    List.takeWhile_append_of_pos hdigits, List.dropWhile_append_of_pos hdigits, htake, hdrop,
    List.append_nil, not_not] at h
  obtain ⟨-, -, -, -, -, hrevision, rfl⟩ := h
  have hvalue := parseI64_digits (List.all_eq_true.2 fun c hc => isDigit_of_mem_repr hc) hrevision
  rw [Nat.toList_repr, Nat.ofDigitChars_ten_toDigits] at hvalue
  exact ⟨by exact_mod_cast hvalue, by simp⟩

/-- A page has the revision of the state it was counted in, and from the state it was listed in the
records behind its cursor: all of them when it is complete, and else those up to its next cursor. -/
lemma exportRecords_ok (h : exportRecords e history project v = .ok page) :
    ∃ key rest, readCursor ((history v.counted).projectEventRevision project) v.cursor = .ok key ∧
      page.snapshotEventRevision = (history v.counted).projectEventRevision project ∧
      after ExportRecord.sortKey key ((history v.listed).exportRecords project) =
        page.records ++ rest ∧
      (page.pageComplete = true → rest = [] ∧ page.nextCursor = none) ∧
      (page.pageComplete = false → ∃ a r, page.records = a ++ [r] ∧
        page.nextCursor = some (page.snapshotEventRevision.repr ++ "~" ++ r.sortKey)) := by
  simp only [exportRecords, bind_eq_ok, refuseIf_eq_ok] at h
  obtain ⟨-, hlimit, -, -, key, hkey, hfit⟩ := h
  set all := after ExportRecord.sortKey key ((history v.listed).exportRecords project) with hall
  set limit := (v.limit.getD 50).toNat with hn
  have hpos : 0 < limit := by omega
  have hmore : decide (limit < (all.take (limit + 1)).length) = true →
      (all.take (limit + 1)).take limit ≠ [] := by
    intro hlt hnil
    have hlt' := of_decide_eq_true hlt
    have hlen := congrArg List.length hnil
    rw [List.length_take, List.length_nil] at hlen
    omega
  obtain ⟨kept, rest, more', rfl, hsplit, hkept, hcomplete⟩ := fit_ok hmore hfit
  have htake : all = kept ++ (rest ++ all.drop limit) := by
    rw [← List.append_assoc, ← hsplit, List.take_take, min_eq_left (Nat.le_succ _),
      List.take_append_drop]
  refine ⟨key, rest ++ all.drop limit, hkey, rfl, htake, fun hpage => ?_, fun hpage => ?_⟩
  · obtain rfl : more' = false := by simpa [exportPage] using hpage
    obtain ⟨rfl, hall'⟩ := hcomplete rfl
    refine ⟨?_, rfl⟩
    have hle := of_decide_eq_false hall'
    rw [List.length_take] at hle
    rw [List.nil_append, List.drop_eq_nil_iff]
    omega
  · obtain rfl : more' = true := by simpa [exportPage] using hpage
    have hlast := List.dropLast_append_getLast (hkept rfl)
    refine ⟨kept.dropLast, kept.getLast (hkept rfl), hlast.symm, ?_⟩
    rw [exportPage, cursorAfter, if_pos rfl, List.getLast?_eq_some_getLast (hkept rfl)]
    rfl

end Pages

/-! ### A whole export -/

/-- An export that reaches a complete page: each page is asked for with the cursor of the one
before, the first one without. -/
inductive Exported (e : Encoder) (history : Nat → Store) (project : String) :
    Option String → List Visit → List ExportPage → Prop
  | last {v : Visit} {page : ExportPage} : exportRecords e history project v = .ok page →
      page.pageComplete = true → Exported e history project v.cursor [v] [page]
  | next {v : Visit} {page : ExportPage} {cursor : String} {visits : List Visit}
      {pages : List ExportPage} : exportRecords e history project v = .ok page →
      page.nextCursor = some cursor → Exported e history project (some cursor) visits pages →
      Exported e history project v.cursor (v :: visits) (page :: pages)

/-- The statements of the requests run one after the other. -/
def InOrder (visits : List Visit) : Prop :=
  (visits.flatMap fun v => [v.found, v.counted, v.listed]).Pairwise (· ≤ ·)

/-- The pages show one state: all of its records, each once and by sort key, and its revision. -/
structure ShowsState (project : String) (pages : List ExportPage) (s : Store) : Prop where
  records : pages.flatMap (·.records) = s.exportRecords project
  increasing : Increasing ExportRecord.sortKey (pages.flatMap (·.records))
  revision : ∀ page ∈ pages, page.snapshotEventRevision = s.projectEventRevision project

/-- Between the two statements of a page no commit left different records behind its cursor. -/
def Undisturbed (history : Nat → Store) (project : String) (v : Visit) : Prop :=
  ∀ key, readCursor ((history v.counted).projectEventRevision project) v.cursor = .ok key →
    after ExportRecord.sortKey key ((history v.listed).exportRecords project) =
      after ExportRecord.sortKey key ((history v.counted).exportRecords project)

section Exports

variable {e : Encoder} {history : Nat → Store} {project : String}

lemma Exported.pages_ne_nil {cursor : Option String} {visits : List Visit}
    {pages : List ExportPage} (h : Exported e history project cursor visits pages) :
    pages ≠ [] := by
  cases h with
  | last => exact List.cons_ne_nil _ _
  | next => exact List.cons_ne_nil _ _

/-- The pages of an export have one revision, that of each state it was counted in; put together
they are the records of such a state behind the first cursor exactly when the last page was
undisturbed. -/
lemma Exported.spec (hh : ∀ n, Commits project (history n) (history (n + 1)))
    {cursor : Option String} {visits : List Visit} {pages : List ExportPage}
    (hexport : Exported e history project cursor visits pages) (horder : InOrder visits) :
    ∃ v ∈ visits.head?, ∃ last ∈ visits.getLast?, ∃ key, v.cursor = cursor ∧
      readCursor ((history v.counted).projectEventRevision project) cursor = .ok key ∧
      (∀ page ∈ pages,
        page.snapshotEventRevision = (history v.counted).projectEventRevision project) ∧
      (pages.flatMap (·.records) =
          after ExportRecord.sortKey key ((history v.counted).exportRecords project) ↔
        Undisturbed history project last) := by
  induction hexport with
  | @last v page hpage hcomplete =>
    obtain ⟨key, rest, hkey, hsnapshot, hrecords, hend, -⟩ := exportRecords_ok hpage
    obtain ⟨rfl, -⟩ := hend hcomplete
    refine ⟨v, rfl, v, rfl, key, rfl, hkey, by simpa using hsnapshot, ?_⟩
    rw [List.append_nil] at hrecords
    simp only [List.flatMap_cons, List.flatMap_nil, List.append_nil, Undisturbed, ← hrecords]
    constructor
    · intro heq key' hkey'
      rw [hkey, Except.ok.injEq] at hkey'
      rwa [← hkey']
    · exact fun hall => hall key hkey
  | @next v page cursor visits pages hpage hcursor hexport ih =>
    have horder' : InOrder visits := by
      rw [InOrder, List.flatMap_cons, List.pairwise_append] at horder
      exact horder.2.1
    obtain ⟨v', hv', last, hlast, key', -, hkey', hpages, hiff⟩ := ih horder'
    obtain ⟨key, rest, hkey, hsnapshot, hrecords, hend, hnext⟩ := exportRecords_ok hpage
    have hmore : page.pageComplete = false := by
      by_contra hne
      have hnone := (hend (by simpa using hne)).2
      rw [hcursor] at hnone
      cases hnone
    obtain ⟨a, r, hlastRecord, hnextCursor⟩ := hnext hmore
    rw [hcursor, Option.some.injEq] at hnextCursor
    rw [hnextCursor] at hkey'
    obtain ⟨hsame, rfl⟩ := readCursor_of_export hkey'
    rw [hsnapshot] at hsame
    -- the page was listed between two counts of the same revision
    have hlisted : (history v.listed).exportRecords project =
        (history v.counted).exportRecords project := by
      refine (records_eq hh ?_).symm
      obtain ⟨rest', rfl⟩ : ∃ rest', visits = v' :: rest' := by
        cases visits with
        | nil => cases hv'
        | cons w rest' => exact ⟨rest', by rw [Option.mem_some_iff.1 hv']⟩
      rw [InOrder, List.flatMap_cons, List.pairwise_append] at horder
      obtain ⟨hpair, -, hcross⟩ := horder
      have hle : v.counted ≤ v.listed := by
        have hpair' := (List.pairwise_cons.1 hpair).2
        exact (List.pairwise_cons.1 hpair').1 v.listed (by simp)
      have hle' : v.listed ≤ v'.counted := hcross v.listed (by simp) v'.counted (by simp)
      exact le_antisymm (revision_mono hh hle) ((revision_mono hh hle').trans hsame.le)
    have hrecords' : (history v'.counted).exportRecords project =
        (history v.counted).exportRecords project := records_eq hh hsame
    refine ⟨v, rfl, last, ?_, key, rfl, hkey, ?_, ?_⟩
    · cases visits with
      | nil => cases hv'
      | cons w rest' => rwa [List.getLast?_cons_cons]
    · intro page' hpage'
      rcases List.mem_cons.1 hpage' with rfl | hpage'
      · exact hsnapshot
      · rw [hpages page' hpage', hsame]
    · rw [← hiff, List.flatMap_cons, hrecords']
      rw [hlisted, hlastRecord, List.append_assoc, List.singleton_append] at hrecords
      rw [← page_append_after (increasing_exportRecords _ _) hrecords, hlastRecord,
        List.append_right_inj]

/-- A completed export shows one state of the database exactly when no commit left different records
behind the cursor of its last page between the two statements of that page. -/
theorem completed_export_shows_state (e : Encoder) (history : Nat → Store) (project : String)
    (hh : ∀ n, Commits project (history n) (history (n + 1))) (visits : List Visit)
    (pages : List ExportPage) (horder : InOrder visits)
    (hexport : Exported e history project none visits pages) :
    (∃ n, ShowsState project pages (history n)) ↔
      ∀ v ∈ visits.getLast?, Undisturbed history project v := by
  obtain ⟨v, -, last, hlast, key, -, hkey, hpages, hiff⟩ := hexport.spec hh horder
  obtain rfl : "" = key := Except.ok.inj hkey
  rw [after_empty] at hiff
  rw [Option.mem_def.1 hlast]
  simp only [Option.mem_some_iff, forall_eq']
  rw [← hiff]
  constructor
  · rintro ⟨n, hrecords, -, hrevision⟩
    -- a state with the revision of the pages has the records of the one they were counted in
    obtain ⟨page, hpage⟩ := List.exists_mem_of_ne_nil pages hexport.pages_ne_nil
    rw [hrecords]
    exact records_eq hh (by rw [← hrevision page hpage, hpages page hpage])
  · intro hrecords
    exact ⟨v.counted, hrecords, hrecords ▸ increasing_exportRecords _ _, hpages⟩

end Exports

/-! ### A write between two statements -/

namespace Scenario

/-- The database with the first tasks of a project, each with the event that recorded it. -/
def tasks (n : Nat) : Store where
  projects := ["p"]
  tasks := (List.range n).foldl
    (fun t i => t.put ⟨i.repr, "p", "Task " ++ i.repr, "", "open", 1, 0⟩) .empty
  activityTasks := []
  submissions := .empty
  policyRevisions := .empty
  workflowPolicyRevisions := .empty
  knowledgeRecords := .empty
  decisions := .empty
  decisionCycles := .empty
  decisionAnswers := .empty
  importRecords := .empty
  events := List.replicate n ⟨some "p", "task.created"⟩
  linked := nofun

/-- One task, and from the first commit on two. -/
def taskAdded (n : Nat) : Store := if n = 0 then tasks 1 else tasks 2

/-- Everything fits on a page. -/
def encoder : Encoder := ⟨fun _ => [], fun _ => 0⟩

/-- The only page: the second task is committed between its two statements. -/
def interrupted : Visit := ⟨none, none, 0, 0, 1, "now"⟩

/-- The only page: the second task was there before. -/
def undisturbed : Visit := ⟨none, none, 1, 1, 1, "now"⟩

lemma taskAdded_commits (n : Nat) : Commits "p" (taskAdded n) (taskAdded (n + 1)) := by
  cases n with
  | zero =>
    refine ⟨⟨[⟨some "p", "task.created"⟩], rfl⟩, fun _ => ?_⟩
    exact ⟨⟨some "p", "task.created"⟩, List.mem_singleton_self _, rfl, by decide⟩
  | succ n => exact ⟨List.prefix_rfl, fun hne => absurd rfl hne⟩

end Scenario

/-- A page that read its revision before a commit and its records after it is complete, and shows
no state of the database: there is no revision 1 with two tasks. -/
theorem interrupted_page_shows_no_state :
    ∃ page, Exported Scenario.encoder Scenario.taskAdded "p" none [Scenario.interrupted] [page] ∧
      page.snapshotEventRevision = 1 ∧ page.records.map (·.id) = ["0", "1"] ∧
      ¬ ∃ n, ShowsState "p" [page] (Scenario.taskAdded n) := by
  have hrun : (exportRecords Scenario.encoder Scenario.taskAdded "p"
      Scenario.interrupted).toOption.map (fun page => (page.snapshotEventRevision,
        page.records.map (·.id), page.pageComplete)) = some (1, ["0", "1"], true) := by
    decide +kernel
  obtain ⟨page, hpage, hread⟩ := Option.map_eq_some_iff.1 hrun
  simp only [Prod.mk.injEq] at hread
  obtain ⟨hsnapshot, hids, hcomplete⟩ := hread
  refine ⟨page, .last (toOption_eq_some.1 hpage) hcomplete, hsnapshot, hids, ?_⟩
  rintro ⟨n, hrecords, -, hrevision⟩
  have hrevision' := hrevision page (by simp)
  have hids' : ((Scenario.taskAdded n).exportRecords "p").map (·.id) = ["0", "1"] := by
    rw [← hrecords]
    simpa using hids
  rw [hsnapshot] at hrevision'
  cases n with
  | zero => exact absurd hids' (by decide +kernel)
  | succ n => exact absurd hrevision' (show ¬ 1 = (Scenario.tasks 2).projectEventRevision "p" by
      decide +kernel)

theorem completed_export_shows_state_undisturbed :
    ∃ page, Exported Scenario.encoder Scenario.taskAdded "p" none [Scenario.undisturbed] [page] ∧
      ((∃ n, ShowsState "p" [page] (Scenario.taskAdded n)) ↔
        ∀ v ∈ [Scenario.undisturbed].getLast?, Undisturbed Scenario.taskAdded "p" v) := by
  have hrun : (exportRecords Scenario.encoder Scenario.taskAdded "p"
      Scenario.undisturbed).toOption.map (·.pageComplete) = some true := by decide +kernel
  obtain ⟨page, hpage, hcomplete⟩ := Option.map_eq_some_iff.1 hrun
  have hexport : Exported Scenario.encoder Scenario.taskAdded "p" none [Scenario.undisturbed]
      [page] := .last (toOption_eq_some.1 hpage) hcomplete
  have horder : InOrder [Scenario.undisturbed] := by
    change [1, 1, 1].Pairwise (· ≤ ·)
    decide
  exact ⟨page, hexport, completed_export_shows_state Scenario.encoder Scenario.taskAdded "p"
    Scenario.taskAdded_commits [Scenario.undisturbed] [page] horder hexport⟩

end AgentCoordinator.Exports
