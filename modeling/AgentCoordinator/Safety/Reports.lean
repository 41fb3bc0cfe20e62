import Mathlib.Algebra.GroupWithZero.Nat
import Mathlib.Logic.Relation
import AgentCoordinator.Library.Monitor
import AgentCoordinator.Supervisor.Report

/-
No cost row leaves the unsent ones unnoticed.

A pass counts every unsent row once. A row that is not unsent any more was stored, or a line of
`costs.quarantined` was written for it, or the append of one failed; and without such a line it is
unsent again, unless it was stored or refused on its own.
-/

namespace AgentCoordinator.Report

open CandidatePush (Json)
open Procedure

/-! ### Counting -/

/-- The rows that a summary counts. -/
def Summary.total (s : Summary) : Nat :=
  s.accepted + s.duplicates + s.rejected + s.quarantined + s.pending

/-- An answer that rows were stored counts them. -/
def CountsBatch : Called driver → Prop
  | ⟨.send _ _ batch _, .stored accepted duplicates⟩ => accepted + duplicates = batch.length
  | _ => True

/-- The monitor of the answers that count. -/
def counting : Monitor driver Unit where
  step _ _ := ()
  expects _ := CountsBatch
  allows _ _ := True

section Counting

variable {outside : Outside} {host project : String} {α : Type}

lemma obeys_perform {μ : Type} {N : Monitor driver μ} {m : μ} {op : Op}
    {f : driver.Answer op → Pass α} {Q : μ → Except Empty α → Prop} :
    (perform op >>= f).Obeys N Q m ↔
      ∀ answer, N.expects m ⟨op, answer⟩ → N.allows m ⟨op, answer⟩ ∧
        (f answer).Obeys N Q (N.step m ⟨op, answer⟩) := Iff.rfl

/-- So many rows are counted. -/
def Counts (total : Nat) (_ : Unit) (r : Except Empty (α × Summary)) : Prop :=
  ∃ a s, r = .ok (a, s) ∧ s.total = total

/-- What a batch of rows that is not split adds. -/
lemma settle_obeys (batch : List Unsent) (s : Summary) (delivery : Delivery)
    (hcounts : ∀ accepted duplicates, delivery = .stored accepted duplicates →
      accepted + duplicates = batch.length)
    (hsplits : ¬ delivery.Splits batch) (hne : batch ≠ []) :
    (settle project batch s delivery).Obeys counting
      (Counts (s.total + batch.length)) () := by
  cases delivery with
  | stored accepted duplicates =>
    refine obeys_perform.2 fun appended _ => ⟨trivial, _, _, rfl, ?_⟩
    have hall := hcounts accepted duplicates rfl
    simp only [Summary.total]
    omega
  | retry stop reason =>
    refine ⟨_, _, rfl, ?_⟩
    simp only [Summary.total]
    omega
  | rejected reason =>
    refine obeys_perform.2 fun appended _ => ⟨trivial, ?_⟩
    refine obeys_perform.2 fun appended _ => ⟨trivial, _, _, rfl, ?_⟩
    have hpos := List.length_pos_iff.2 hne
    have hone : ¬ 1 < batch.length := hsplits
    simp only [Summary.total]
    omega
  | missingProject reason =>
    refine obeys_perform.2 fun appended _ => ⟨trivial, ?_⟩
    obtain ⟨ok, lines⟩ := appended
    cases ok with
    | true =>
      refine ⟨_, _, rfl, ?_⟩
      simp only [Summary.total]
      omega
    | false =>
      refine ⟨_, _, rfl, ?_⟩
      simp only [Summary.total]
      omega

lemma deliverRow_obeys (row : Unsent) (s : Summary) :
    (deliverRow outside host project row s).Obeys counting (Counts (s.total + 1)) () := by
  refine obeys_perform.2 fun delivery hdelivery => ⟨trivial, ?_⟩
  refine settle_obeys [row] s delivery ?_ ?_ (List.cons_ne_nil _ _)
  · rintro accepted duplicates rfl
    exact hdelivery
  · cases delivery with
    | rejected reason => exact Nat.lt_irrefl 1
    | _ => exact id

lemma deliverRows_obeys (rows : List Unsent) (s : Summary) :
    (deliverRows outside host project rows s).Obeys counting
      (Counts (s.total + rows.length)) () := by
  induction rows generalizing s with
  | nil => exact ⟨_, _, rfl, rfl⟩
  | cons row rows ih =>
    refine (deliverRow_obeys row s).bind ?_ (fun _ e => e.elim)
    rintro - ⟨flow, s'⟩ ⟨_, _, heq, htotal⟩
    obtain ⟨rfl, rfl⟩ := Prod.mk.inj (Except.ok.inj heq)
    have hlength : s.total + (row :: rows).length = s'.total + rows.length := by
      rw [htotal, List.length_cons]
      omega
    rw [hlength]
    cases flow with
    | go => exact ih s'
    | skipProject =>
      refine ⟨_, _, rfl, ?_⟩
      simp only [Summary.total]
      omega
    | stop =>
      refine ⟨_, _, rfl, ?_⟩
      simp only [Summary.total]
      omega

lemma deliver_obeys {batch : List Unsent} (hne : batch ≠ []) (s : Summary) :
    (deliver outside host project batch s).Obeys counting
      (Counts (s.total + batch.length)) () := by
  refine obeys_perform.2 fun delivery hdelivery => ⟨trivial, ?_⟩
  split
  · exact deliverRows_obeys batch s
  · rename_i hsplits
    refine settle_obeys batch s delivery ?_ hsplits hne
    rintro accepted duplicates rfl
    exact hdelivery

lemma flushBatches_obeys (outside : Outside) (host project : String)
    (batches : List (List Unsent)) (hne : ∀ batch ∈ batches, batch ≠ []) (stopped failed : Bool) (s : Summary) :
    (flushBatches outside host project batches stopped failed s).Obeys counting
      (Counts (s.total + batches.flatten.length)) () := by
  induction batches generalizing stopped failed s with
  | nil => exact ⟨_, _, rfl, rfl⟩
  | cons batch batches ih =>
    obtain ⟨hbatch, hbatches⟩ := List.forall_mem_cons.1 hne
    have hlength : s.total + (batch :: batches).flatten.length =
        s.total + batch.length + batches.flatten.length := by
      rw [List.flatten_cons, List.length_append]
      omega
    rw [hlength, flushBatches]
    split
    · have hrest := ih hbatches stopped failed
        { s with pending := s.pending + batch.length }
      refine hrest.mono ?_
      rintro - _ ⟨a, s', rfl, htotal⟩
      refine ⟨a, s', rfl, ?_⟩
      rw [htotal]
      simp only [Summary.total]
      omega
    · refine (deliver_obeys hbatch s).bind ?_ (fun _ e => e.elim)
      rintro - ⟨flow, s'⟩ ⟨_, _, heq, htotal⟩
      obtain ⟨rfl, rfl⟩ := Prod.mk.inj (Except.ok.inj heq)
      rw [← htotal]
      exact ih hbatches _ _ s'

lemma ne_nil_of_mem_chunks {α : Type} {size : Nat} (hsize : 0 < size) {l chunk : List α}
    (h : chunk ∈ chunks size l) : chunk ≠ [] := by
  have hwithin : ∀ bound (l : List α), chunk ∈ chunksWithin size bound l → chunk ≠ [] := by
    intro bound
    induction bound with
    | zero => exact fun _ h => absurd h List.not_mem_nil
    | succ bound ih =>
      rintro (_ | ⟨a, l⟩) h
      · exact absurd h List.not_mem_nil
      · rcases List.mem_cons.1 h with rfl | h
        · obtain ⟨size, rfl⟩ := Nat.exists_eq_succ_of_ne_zero hsize.ne'
          exact List.cons_ne_nil _ _
        · exact ih _ h
  exact hwithin _ _ h

lemma nodup_eraseDups : ∀ (n : Nat) (l : List String), l.length ≤ n → l.eraseDups.Nodup
  | _, [], _ => List.nodup_nil
  | 0, _ :: _, h => absurd h (Nat.not_succ_le_zero _)
  | n + 1, a :: l, h => by
    rw [List.eraseDups_cons]
    refine List.nodup_cons.2 ⟨?_, nodup_eraseDups n _ ?_⟩
    · rw [List.mem_eraseDups, List.mem_filter]
      simp
    · have hfilter := List.length_filter_le (fun b => !b == a) l
      rw [List.length_cons] at h
      omega

/-- The rows of different projects are the rows of one and of the others. -/
lemma length_filter_projects (rows : List Unsent) (projects : List String)
    (hnodup : projects.Nodup) :
    (projects.map fun p => (rows.filter fun r => r.project = p).length).sum =
      (rows.filter fun r => r.project ∈ projects).length := by
  induction projects with
  | nil => simp
  | cons p projects ih =>
    obtain ⟨hp, hnodup⟩ := List.nodup_cons.1 hnodup
    rw [List.map_cons, List.sum_cons, ih hnodup]
    clear ih
    induction rows with
    | nil => rfl
    | cons r rows ih =>
      by_cases hr : r.project = p
      · have hout : r.project ∉ projects := hr ▸ hp
        simp only [List.filter_cons, hr, decide_true, if_true, List.length_cons, List.mem_cons,
          true_or]
        rw [hr] at hout
        simp only [hout, decide_false, Bool.false_eq_true, if_false]
        simp only [List.mem_cons] at ih
        omega
      · simp only [List.filter_cons, List.mem_cons, hr, false_or, decide_false,
          Bool.false_eq_true, if_false]
        simp only [List.mem_cons] at ih
        split
        · simp only [List.length_cons]
          omega
        · exact ih

lemma flushProjects_obeys (rows : List Unsent) (projects : List String) (stopped : Bool)
    (s : Summary) : (flushProjects outside host rows projects stopped s).Obeys counting
      (fun _ r => ∃ s', r = .ok s' ∧ s'.total = s.total +
        (projects.map fun p => (rows.filter fun r => r.project = p).length).sum) () := by
  induction projects generalizing stopped s with
  | nil => exact ⟨_, rfl, rfl⟩
  | cons p projects ih =>
    have hbatches := flushBatches_obeys outside host p
      (chunks BATCH (rows.filter fun r => r.project = p))
      (fun _ => ne_nil_of_mem_chunks (by decide)) stopped false s
    rw [flatten_chunks (by decide)] at hbatches
    refine hbatches.bind ?_ (fun _ e => e.elim)
    rintro - ⟨stopped', s'⟩ ⟨_, _, heq, htotal⟩
    obtain ⟨rfl, rfl⟩ := Prod.mk.inj (Except.ok.inj heq)
    refine (ih stopped' s').mono ?_
    rintro - _ ⟨s'', rfl, hs⟩
    refine ⟨s'', rfl, ?_⟩
    rw [hs, htotal, List.map_cons, List.sum_cons]
    omega

lemma flush_obeys (rows : List Unsent) : (flush outside host rows).Obeys counting
    (fun _ r => ∃ s, r = .ok s ∧ s.total = rows.length) () := by
  refine (flushProjects_obeys rows _ false _).mono ?_
  rintro - _ ⟨s, rfl, hs⟩
  refine ⟨s, rfl, hs.trans ?_⟩
  rw [length_filter_projects _ _ (nodup_eraseDups _ _ le_rfl), List.filter_eq_self.2]
  · exact Nat.zero_add _
  · intro r hr
    rw [decide_eq_true_eq, List.mem_eraseDups]
    exact List.mem_map_of_mem hr

end Counting

/-! ### Where the marks come from -/

/-- The coordinator answered that a batch with the row was stored. -/
def Stored (calls : List (Called driver)) (id : String) : Prop :=
  ∃ project host batch key accepted duplicates,
    ⟨.send project host batch key, .stored accepted duplicates⟩ ∈ calls ∧ ∃ r ∈ batch, r.id = id

/-- The coordinator refused the row on its own. -/
def Refused (calls : List (Called driver)) (id : String) : Prop :=
  ∃ project host row key reason,
    ⟨.send project host [row] key, .rejected reason⟩ ∈ calls ∧ row.id = id

/-- A line of `costs.quarantined` was written for the row. -/
def Written (calls : List (Called driver)) (id : String) : Prop :=
  ∃ project batch kind reason appended, ⟨.quarantine project batch kind reason, appended⟩ ∈ calls ∧
    (∃ r ∈ batch, r.id = id) ∧ (appended.ok = true ∨ id ∈ appended.lines)

/-- The append of a line of `costs.quarantined` failed for the row. -/
def Unwritten (calls : List (Called driver)) (id : String) : Prop :=
  ∃ project batch kind reason appended, ⟨.quarantine project batch kind reason, appended⟩ ∈ calls ∧
    (∃ r ∈ batch, r.id = id) ∧ appended.ok = false

/-- An append leaves lines of its own. -/
def Kept : Called driver → Prop
  | ⟨.markDone ids, appended⟩ => appended.lines ⊆ ids
  | ⟨.quarantine _ batch _ _, appended⟩ => appended.lines ⊆ batch.map Unsent.id
  | _ => True

/-- Rows are marked that were stored together, or a row that was refused on its own and for which
the append of a line was tried. -/
def Marks (calls : List (Called driver)) (ids : List String) : Prop :=
  (∃ project host batch key accepted duplicates,
    ⟨.send project host batch key, .stored accepted duplicates⟩ ∈ calls ∧
      ids = batch.map Unsent.id) ∨
  ∃ project host row key reason kind appended,
    ⟨.send project host [row] key, .rejected reason⟩ ∈ calls ∧
      ⟨.quarantine project [row] kind reason, appended⟩ ∈ calls ∧ ids = [row.id]

/-- The key of a request is that of its rows. -/
def KeyedByRows (outside : Outside) : Called driver → Prop
  | ⟨.send project _ batch key, _⟩ => key = batchKey outside project (batch.map Unsent.id)
  | _ => True

/-- The monitor that keeps all calls. -/
def recording (outside : Outside) : Monitor driver (List (Called driver)) where
  step calls c := calls ++ [c]
  expects _ _ := True
  allows calls
    | ⟨.markDone ids, _⟩ => Marks calls ids
    | c => KeyedByRows outside c

section Recording

variable {outside : Outside} {host project : String} {calls : List (Called driver)}

/-- Nothing is said of what is returned. -/
abbrev Whatever {α : Type} (_ : List (Called driver)) (_ : Except Empty α) : Prop := True

lemma settle_records {batch : List Unsent} {s : Summary} {delivery : Delivery} {key : String}
    (hsent : ⟨.send project host batch key, delivery⟩ ∈ calls)
    (hsplits : ¬ delivery.Splits batch) (hne : batch ≠ []) :
    (settle project batch s delivery).Obeys (recording outside) Whatever calls := by
  cases delivery with
  | stored accepted duplicates =>
    refine obeys_perform.2 fun appended _ => ⟨.inl ?_, trivial⟩
    exact ⟨project, host, batch, key, accepted, duplicates, hsent, rfl⟩
  | retry stop reason => trivial
  | rejected reason =>
    obtain ⟨row, rfl⟩ : ∃ row, batch = [row] := by
      have hone : ¬ 1 < batch.length := hsplits
      match batch, hne, hone with
      | [row], _, _ => exact ⟨row, rfl⟩
      | _ :: _ :: _, _, hone => exact absurd (by simp) hone
    refine obeys_perform.2 fun quarantined _ => ⟨trivial, ?_⟩
    refine obeys_perform.2 fun appended _ => ⟨.inr ?_, trivial⟩
    exact ⟨project, host, row, key, reason, "rejected", quarantined,
      List.mem_append_left _ hsent, List.mem_append_right _ (List.mem_singleton.2 rfl), rfl⟩
  | missingProject reason =>
    refine obeys_perform.2 fun appended _ => ⟨trivial, ?_⟩
    obtain ⟨ok, lines⟩ := appended
    cases ok <;> trivial

lemma deliverRow_records (row : Unsent) (s : Summary) :
    (deliverRow outside host project row s).Obeys (recording outside) Whatever calls := by
  refine obeys_perform.2 fun delivery _ => ⟨rfl, ?_⟩
  refine settle_records (List.mem_append_right _ (List.mem_singleton.2 rfl)) ?_
    (List.cons_ne_nil _ _)
  cases delivery with
  | rejected reason => exact Nat.lt_irrefl 1
  | _ => exact id

lemma deliverRows_records (rows : List Unsent) (s : Summary) :
    (deliverRows outside host project rows s).Obeys (recording outside) Whatever calls := by
  induction rows generalizing s calls with
  | nil => trivial
  | cons row rows ih =>
    refine (deliverRow_records row s).bind ?_ (fun _ e => e.elim)
    rintro calls' ⟨flow, s'⟩ -
    cases flow with
    | go => exact ih s'
    | skipProject => trivial
    | stop => trivial

lemma deliver_records {batch : List Unsent} (hne : batch ≠ []) (s : Summary) :
    (deliver outside host project batch s).Obeys (recording outside) Whatever calls := by
  refine obeys_perform.2 fun delivery _ => ⟨rfl, ?_⟩
  split
  · exact deliverRows_records batch s
  · rename_i hsplits
    exact settle_records (List.mem_append_right _ (List.mem_singleton.2 rfl)) hsplits hne

lemma flushBatches_records (batches : List (List Unsent)) (hne : ∀ batch ∈ batches, batch ≠ [])
    (stopped failed : Bool) (s : Summary) :
    (flushBatches outside host project batches stopped failed s).Obeys (recording outside) Whatever
      calls := by
  induction batches generalizing stopped failed s calls with
  | nil => trivial
  | cons batch batches ih =>
    obtain ⟨hbatch, hbatches⟩ := List.forall_mem_cons.1 hne
    rw [flushBatches]
    split
    · exact ih hbatches _ _ _
    · refine (deliver_records hbatch s).bind ?_ (fun _ e => e.elim)
      rintro calls' ⟨flow, s'⟩ -
      exact ih hbatches _ _ s'

lemma flushProjects_records (rows : List Unsent) (projects : List String) (stopped : Bool)
    (s : Summary) :
    (flushProjects outside host rows projects stopped s).Obeys (recording outside) Whatever
      calls := by
  induction projects generalizing stopped s calls with
  | nil => trivial
  | cons p projects ih =>
    refine (flushBatches_records _ (fun _ => ne_nil_of_mem_chunks (by decide)) _ _ _).bind ?_
      (fun _ e => e.elim)
    rintro calls' ⟨stopped', s'⟩ -
    exact ih stopped' s'

lemma after_recording (calls more : List (Called driver)) :
    (recording outside).after calls more = calls ++ more := by
  induction more generalizing calls with
  | nil => exact (List.append_nil calls).symm
  | cons c more ih =>
    refine (ih (calls ++ [c])).trans ?_
    rw [List.append_assoc]
    rfl

/-- What a pass marks it has reason to, and its requests have the keys of their rows. -/
lemma flush_records {rows : List Unsent} {rest : Pass Summary}
    (htrace : (flush outside host rows).Trace calls rest) {c : Called driver} (hmem : c ∈ calls) :
    ∃ before, before ⊆ calls ∧ (recording outside).allows before c := by
  have hrecords : (flush outside host rows).Obeys (recording outside) Whatever [] :=
    flushProjects_records rows _ _ _
  obtain ⟨hallowed, -⟩ := hrecords.trace htrace
    (Monitor.throughout_iff.2 fun _ _ _ _ => trivial)
  obtain ⟨before, behind, rfl⟩ := List.append_of_mem hmem
  have hallows := Monitor.throughout_iff.1 hallowed before c behind rfl
  rw [after_recording, List.nil_append] at hallows
  exact ⟨before, List.subset_append_left _ _, hallows⟩

lemma marks_of_mem {rows : List Unsent} {rest : Pass Summary}
    (htrace : (flush outside host rows).Trace calls rest) {ids : List String} {answer : Appended}
    (hmem : ⟨.markDone ids, answer⟩ ∈ calls) : Marks calls ids := by
  obtain ⟨before, hsub, hmarks⟩ := flush_records htrace hmem
  rcases hmarks with ⟨project, host, batch, key, accepted, duplicates, hsent, hids⟩ |
    ⟨project, host, row, key, reason, kind, appended, hsent, hquarantine, hids⟩
  · exact .inl ⟨project, host, batch, key, accepted, duplicates, hsub hsent, hids⟩
  · exact .inr ⟨project, host, row, key, reason, kind, appended, hsub hsent, hsub hquarantine, hids⟩

lemma keyedByRows_of_mem {rows : List Unsent} {rest : Pass Summary}
    (htrace : (flush outside host rows).Trace calls rest) {c : Called driver} (hmem : c ∈ calls) :
    KeyedByRows outside c := by
  obtain ⟨before, -, hallows⟩ := flush_records htrace hmem
  match c with
  | ⟨.send .., _⟩ => exact hallows
  | ⟨.markDone _, _⟩ => trivial
  | ⟨.quarantine .., _⟩ => trivial

end Recording

/-! ### Runs -/

/-- The files, with all calls so far. -/
structure World where
  files : Files
  calls : List (Called driver)

/-- The files after a pass. -/
def Files.after (files : Files) (calls : List (Called driver)) : Files :=
  calls.foldl Files.step files

/-- A pass, also one that is cut short; a change of the ledger; or lines that somebody removes. -/
inductive Step (outside : Outside) (w : World) : World → Prop
  | pass (host : String) (defaultProject : Option String) {calls : List (Called driver)}
      {rest : Pass Summary}
      (htrace : (flush outside host (unsent outside w.files defaultProject)).Trace calls rest)
      (hkept : ∀ c ∈ calls, Kept c) :
      Step outside w ⟨w.files.after calls, w.calls ++ calls⟩
  | ledger (lines : List (List Char)) :
      Step outside w { w with files := { w.files with ledger := lines } }
  | remove {reported quarantined : List String} (hreported : reported ⊆ w.files.reported)
      (hquarantined : quarantined ⊆ w.files.quarantined) :
      Step outside w { w with files := { w.files with
        reported := reported
        quarantined := quarantined } }

/-- A world that starts without `costs.reported` and `costs.quarantined`. -/
def Reached (outside : Outside) (w : World) : Prop :=
  ∃ ledger, Relation.ReflTransGen (Step outside) ⟨⟨ledger, [], []⟩, []⟩ w

/-- The marks of a row can be traced. -/
structure Traced (w : World) : Prop where
  reported : ∀ id ∈ w.files.reported, Stored w.calls id ∨
    Refused w.calls id ∧ (Written w.calls id ∨ Unwritten w.calls id)
  quarantined : ∀ id ∈ w.files.quarantined, Written w.calls id

section Runs

variable {outside : Outside} {w w' : World} {calls calls' : List (Called driver)} {id : String}

lemma Stored.mono (h : Stored calls id) (hsub : calls ⊆ calls') : Stored calls' id := by
  obtain ⟨project, host, batch, key, accepted, duplicates, hmem, hr⟩ := h
  exact ⟨project, host, batch, key, accepted, duplicates, hsub hmem, hr⟩

lemma Refused.mono (h : Refused calls id) (hsub : calls ⊆ calls') : Refused calls' id := by
  obtain ⟨project, host, row, key, reason, hmem, hr⟩ := h
  exact ⟨project, host, row, key, reason, hsub hmem, hr⟩

lemma Written.mono (h : Written calls id) (hsub : calls ⊆ calls') : Written calls' id := by
  obtain ⟨project, batch, kind, reason, appended, hmem, hr⟩ := h
  exact ⟨project, batch, kind, reason, appended, hsub hmem, hr⟩

lemma Unwritten.mono (h : Unwritten calls id) (hsub : calls ⊆ calls') : Unwritten calls' id := by
  obtain ⟨project, batch, kind, reason, appended, hmem, hr⟩ := h
  exact ⟨project, batch, kind, reason, appended, hsub hmem, hr⟩

/-- Where the marks of the files come from. -/
lemma mem_after (files : Files) (id : String) :
    (id ∈ (files.after calls).reported → id ∈ files.reported ∨
      ∃ ids answer, ⟨.markDone ids, answer⟩ ∈ calls ∧ id ∈ answer.lines) ∧
    (id ∈ (files.after calls).quarantined → id ∈ files.quarantined ∨
      ∃ project batch kind reason answer,
        ⟨.quarantine project batch kind reason, answer⟩ ∈ calls ∧ id ∈ answer.lines) := by
  induction calls generalizing files with
  | nil => exact ⟨.inl, .inl⟩
  | cons c calls ih =>
    obtain ⟨hreported, hquarantined⟩ := ih (files.step c)
    constructor
    · intro h
      rcases hreported h with h | ⟨ids, answer, hmem, hid⟩
      · unfold Files.step at h
        split at h
        · rcases List.mem_append.1 h with h | h
          · exact .inl h
          · exact .inr ⟨_, _, List.mem_cons_self, h⟩
        · exact .inl h
        · exact .inl h
      · exact .inr ⟨ids, answer, List.mem_cons_of_mem _ hmem, hid⟩
    · intro h
      rcases hquarantined h with h | ⟨project, batch, kind, reason, answer, hmem, hid⟩
      · unfold Files.step at h
        split at h
        · exact .inl h
        · rcases List.mem_append.1 h with h | h
          · exact .inl h
          · exact .inr ⟨_, _, _, _, _, List.mem_cons_self, h⟩
        · exact .inl h
      · exact .inr ⟨project, batch, kind, reason, answer, List.mem_cons_of_mem _ hmem, hid⟩

lemma Traced.step (h : Traced w) (hstep : Step outside w w') : Traced w' := by
  cases hstep with
  | ledger lines => exact ⟨h.reported, h.quarantined⟩
  | remove hreported hquarantined =>
    exact ⟨fun id hid => h.reported id (hreported hid),
      fun id hid => h.quarantined id (hquarantined hid)⟩
  | @pass host defaultProject calls rest htrace hkept =>
    have hold : w.calls ⊆ w.calls ++ calls := List.subset_append_left _ _
    have hnew : calls ⊆ w.calls ++ calls := List.subset_append_right _ _
    refine ⟨fun id hid => ?_, fun id hid => ?_⟩
    · rcases (mem_after w.files id).1 hid with hid | ⟨ids, answer, hmem, hid⟩
      · rcases h.reported id hid with hstored | ⟨hrefused, hline⟩
        · exact .inl (hstored.mono hold)
        · exact .inr ⟨hrefused.mono hold, hline.imp (·.mono hold) (·.mono hold)⟩
      · have hids : id ∈ ids := hkept _ hmem hid
        rcases marks_of_mem htrace hmem with
          ⟨project, host, batch, key, accepted, duplicates, hsent, rfl⟩ |
          ⟨project, host, row, key, reason, kind, appended, hsent, hquarantine, rfl⟩
        · exact .inl ⟨project, host, batch, key, accepted, duplicates, hnew hsent,
            List.mem_map.1 hids⟩
        · obtain rfl := List.mem_singleton.1 hids
          refine .inr ⟨⟨project, host, row, key, reason, hnew hsent, rfl⟩, ?_⟩
          have hrow : ∃ r ∈ [row], r.id = row.id := ⟨row, List.mem_singleton.2 rfl, rfl⟩
          cases hok : appended.ok with
          | true => exact .inl ⟨project, [row], kind, reason, appended, hnew hquarantine, hrow,
              .inl hok⟩
          | false => exact .inr ⟨project, [row], kind, reason, appended, hnew hquarantine, hrow,
              hok⟩
    · rcases (mem_after w.files id).2 hid with hid |
        ⟨project, batch, kind, reason, answer, hmem, hid⟩
      · exact (h.quarantined id hid).mono hold
      · have hids : id ∈ batch.map Unsent.id := hkept _ hmem hid
        exact ⟨project, batch, kind, reason, answer, hnew hmem, List.mem_map.1 hids, .inr hid⟩

lemma Reached.traced (h : Reached outside w) : Traced w := by
  obtain ⟨ledger, hrun⟩ := h
  induction hrun with
  | refl => exact ⟨nofun, nofun⟩
  | tail _ hstep ih => exact ih.step hstep

end Runs

/-! ### The unsent rows -/

section Rows

variable {outside : Outside} {defaultProject : Option String}

/-- The row of a line of the ledger, unless it is blank or no launch cost. -/
def rowOfLine (outside : Outside) (defaultProject : Option String) (line : List Char) :
    Option Unsent :=
  if Text.trimBy isWhitespace line ≠ [] then
    convert outside (identity outside line) line defaultProject
  else none

lemma id_of_convert {id : String} {line : List Char} {row : Unsent}
    (h : convert outside id line defaultProject = some row) : row.id = id := by
  simp only [convert, Option.bind_eq_bind, Option.bind_eq_some_iff, Option.pure_def,
    Option.some.injEq] at h
  obtain ⟨_, -, _, -, _, -, rfl⟩ := h
  rfl

lemma id_of_rowOfLine {line : List Char} {row : Unsent}
    (h : rowOfLine outside defaultProject line = some row) : row.id = identity outside line := by
  unfold rowOfLine at h
  split at h
  · exact id_of_convert h
  · cases h

/-- The unsent rows are the rows of the ledger that no mark names. -/
lemma unsent_eq (files : Files) : unsent outside files defaultProject =
    (files.ledger.filterMap (rowOfLine outside defaultProject)).filter fun r =>
      r.id ∉ files.reported ∧ r.id ∉ files.quarantined := by
  obtain ⟨ledger, reported, quarantined⟩ := files
  unfold unsent
  induction ledger with
  | nil => rfl
  | cons line ledger ih =>
    by_cases hblank : Text.trimBy isWhitespace line = []
    · have hrow : rowOfLine outside defaultProject line = none := by simp [rowOfLine, hblank]
      simp only [List.filter_cons, hblank, ne_eq, not_true, decide_false, Bool.false_eq_true,
        if_false, List.filterMap_cons, hrow]
      exact ih
    · have hrow : rowOfLine outside defaultProject line =
          convert outside (identity outside line) line defaultProject := by
        simp [rowOfLine, hblank]
      simp only [List.filter_cons, hblank, ne_eq, not_false_eq_true, decide_true, if_true,
        List.map_cons, List.filterMap_cons, hrow]
      cases hconvert : convert outside (identity outside line) line defaultProject with
      | none =>
        simp only
        split
        · rw [List.filterMap_cons, hconvert]
          exact ih
        · exact ih
      | some row =>
        simp only [List.filter_cons, id_of_convert hconvert]
        split
        · rw [List.filterMap_cons, hconvert]
          exact congrArg _ ih
        · exact ih

lemma mem_unsent {files : Files} {row : Unsent} : row ∈ unsent outside files defaultProject ↔
    (∃ line ∈ files.ledger, rowOfLine outside defaultProject line = some row) ∧
      row.id ∉ files.reported ∧ row.id ∉ files.quarantined := by
  rw [unsent_eq, List.mem_filter, List.mem_filterMap, decide_eq_true_eq]

/-- Selecting by a key, in a list that was appended to: as many of each are the same ones. -/
lemma filter_append_eq_of_perm {α β : Type} [DecidableEq β] (f : α → β) (P P' : β → Prop)
    [DecidablePred P] [DecidablePred P'] {l added : List α}
    (hperm : (l.filter (fun a => P' (f a)) ++ added.filter fun a => P' (f a)).Perm
      (l.filter fun a => P (f a))) :
    l.filter (fun a => P' (f a)) ++ added.filter (fun a => P' (f a)) =
      l.filter fun a => P (f a) := by
  have hadded : added.filter (fun a => P' (f a)) = [] := by
    refine List.filter_eq_nil_iff.2 fun a ha hP => ?_
    rw [decide_eq_true_eq] at hP
    -- the key of `a` occurs once more than in the whole of `l`
    have hcount := hperm.countP_eq fun x => f x = f a
    have hall : (l.filter fun a => P' (f a)).countP (fun x => f x = f a) =
        l.countP fun x => f x = f a := by
      rw [List.countP_filter]
      refine List.countP_congr fun x _ => ?_
      simp only [Bool.and_eq_true, decide_eq_true_eq, and_iff_left_iff_imp]
      exact fun h => h ▸ hP
    have hsome : 0 < (added.filter fun a => P' (f a)).countP fun x => f x = f a :=
      List.countP_pos_iff.2 ⟨a, List.mem_filter.2 ⟨ha, by simpa using hP⟩, by simp⟩
    have hfew : (l.filter fun a => P (f a)).countP (fun x => f x = f a) ≤
        l.countP fun x => f x = f a := List.filter_sublist.countP_le
    rw [List.countP_append] at hcount
    omega
  rw [hadded, List.append_nil] at hperm ⊢
  refine List.filter_congr fun a ha => ?_
  rw [decide_eq_decide]
  have hkey (h : a ∈ l.filter fun a => P' (f a)) : P (f a) := by
    simpa [ha] using hperm.subset h
  constructor
  · exact fun h => hkey (List.mem_filter.2 ⟨ha, by simpa using h⟩)
  · intro h
    simpa [ha] using hperm.symm.subset (List.mem_filter.2 ⟨ha, by simpa using h⟩)

/-- The unsent rows of a ledger that was only appended to are the same ones in the same order, if
they are as many of each. -/
lemma unsent_eq_of_perm {files files' : Files} {more : List (List Char)}
    (hledger : files'.ledger = files.ledger ++ more)
    (hperm : (unsent outside files' defaultProject).Perm (unsent outside files defaultProject)) :
    unsent outside files' defaultProject = unsent outside files defaultProject := by
  rw [unsent_eq, unsent_eq, hledger, List.filterMap_append, List.filter_append] at hperm ⊢
  exact filter_append_eq_of_perm Unsent.id
    (fun id => id ∉ files.reported ∧ id ∉ files.quarantined)
    (fun id => id ∉ files'.reported ∧ id ∉ files'.quarantined) hperm

end Rows

/-! ### Accounting -/

/-- What is right in a state of the files. -/
structure Accounted (outside : Outside) (w : World) : Prop where
  /-- A row of the ledger is unsent until it was stored or a line of `costs.quarantined` was written
  for it, if no append of such a line failed. -/
  leaves : ∀ defaultProject, ∀ line ∈ w.files.ledger, ∀ row,
    rowOfLine outside defaultProject line = some row → ¬ Unwritten w.calls row.id →
    row ∈ unsent outside w.files defaultProject ∨ Stored w.calls row.id ∨ Written w.calls row.id
  /-- A pass counts every unsent row once, if the answers count what was stored. -/
  counts : ∀ host defaultProject calls summary,
    (flush outside host (unsent outside w.files defaultProject)).Trace calls (.pure summary) →
    (∀ c ∈ calls, CountsBatch c) →
    summary.total = (unsent outside w.files defaultProject).length
  /-- A request has the key of its project and rows, and the unsent rows of a ledger that was only
  appended to make the same pass, if they are as many of each. -/
  keys : ∀ host defaultProject,
    (∀ calls rest, (flush outside host (unsent outside w.files defaultProject)).Trace calls rest →
      ∀ c ∈ calls, KeyedByRows outside c) ∧
    ∀ files' more, files'.ledger = w.files.ledger ++ more →
      (unsent outside files' defaultProject).Perm (unsent outside w.files defaultProject) →
      flush outside host (unsent outside files' defaultProject) =
        flush outside host (unsent outside w.files defaultProject)
  /-- Without its lines in `costs.quarantined` a row is unsent, unless it was stored or refused on
  its own. -/
  released : ∀ defaultProject, ∀ line ∈ w.files.ledger, ∀ row,
    rowOfLine outside defaultProject line = some row → ¬ Stored w.calls row.id →
    ¬ Refused w.calls row.id → row ∈ unsent outside { w.files with
      quarantined := w.files.quarantined.filter (· ≠ row.id) } defaultProject

lemma throughout_const {P : Called driver → Prop} {calls : List (Called driver)} :
    counting.Throughout (fun _ => P) () calls ↔ ∀ c ∈ calls, P c := by
  rw [Monitor.throughout_iff]
  constructor
  · intro h c hc
    obtain ⟨before, behind, rfl⟩ := List.append_of_mem hc
    exact h before c behind rfl
  · rintro h before c behind rfl
    exact h c (List.mem_append_right _ List.mem_cons_self)

/-- In every run of passes the rows are accounted for. -/
theorem accounted {outside : Outside} {w : World} (h : Reached outside w) :
    Accounted outside w where
  leaves := by
    intro defaultProject line hline row hrow hwritten
    have htraced := h.traced
    by_cases hreported : row.id ∈ w.files.reported
    · rcases htraced.reported row.id hreported with hstored | ⟨-, hline | hline⟩
      · exact .inr (.inl hstored)
      · exact .inr (.inr hline)
      · exact absurd hline hwritten
    · by_cases hquarantined : row.id ∈ w.files.quarantined
      · exact .inr (.inr (htraced.quarantined row.id hquarantined))
      · exact .inl (mem_unsent.2 ⟨⟨line, hline, hrow⟩, hreported, hquarantined⟩)
  counts := by
    intro host defaultProject calls summary htrace hcounts
    obtain ⟨-, s, heq, htotal⟩ := (flush_obeys _).trace htrace (throughout_const.2 hcounts)
    obtain rfl := Except.ok.inj heq
    exact htotal
  keys := by
    intro host defaultProject
    constructor
    · exact fun calls rest htrace c hc => keyedByRows_of_mem htrace hc
    · intro files' more hledger hperm
      rw [unsent_eq_of_perm hledger hperm]
  released := by
    intro defaultProject line hline row hrow hstored hrefused
    refine mem_unsent.2 ⟨⟨line, hline, hrow⟩, fun hreported => ?_, by simp⟩
    rcases h.traced.reported row.id hreported with h | ⟨h, -⟩
    · exact hstored h
    · exact hrefused h

section Example

private def costLine : List Char := "\x7b\"role\":\"impl\",\"project\":\"p\"\x7d".toList

private def costId : String := "7e3ef9f65d0b126a06196e8b7ae4851f27ae009c44306ba60850e63647fae3bf"

private def costEntry : Json := .object [("role", .string "impl"), ("project", .string "p")]

/-- JSON and SHA-256, as far as they are needed. -/
private def someOutside : Outside where
  parse line := if line = costLine then some costEntry else none
  sha256 text := if text = costLine then costId else
    "2babd5c95465deb5884739b051c9923ee711d945a7df30963ad5b96562660f90"

private def costRow : Unsent := ⟨costId, "p", rowOf costId "impl" costEntry⟩

/-- The coordinator refuses the row. -/
private def refusal (written : Appended) : List (Called driver) :=
  [⟨.send "p" "host" [costRow] "cost-2babd5c95465deb5884739b051c9923ee711d945",
      .rejected "HTTP 422 bad"⟩,
    ⟨.quarantine "p" [costRow] "rejected" "HTTP 422 bad", written⟩,
    ⟨.markDone [costId], ⟨true, [costId]⟩⟩]

private def refusedWorld (written : Appended) : World :=
  ⟨Files.after ⟨[costLine], [], []⟩ (refusal written), refusal written⟩

private lemma refusal_trace (written : Appended) :
    (flush someOutside "host" (unsent someOutside ⟨[costLine], [], []⟩ none)).Trace
      (refusal written) (.pure ⟨0, 0, 1, 0, 0⟩) :=
  .cons (.cons (.cons (.nil _)))

private lemma refusedWorld_reached (written : Appended) (hwritten : written.lines ⊆ [costId]) :
    Reached someOutside (refusedWorld written) := by
  refine ⟨[costLine], .single (.pass "host" none (refusal_trace written) ?_)⟩
  rintro c hc
  rcases List.mem_cons.1 hc with rfl | hc
  · trivial
  · rcases List.mem_cons.1 hc with rfl | hc
    · exact hwritten
    · obtain rfl := List.mem_singleton.1 hc
      exact List.Subset.refl _

theorem accounted_refusal : Accounted someOutside (refusedWorld ⟨true, [costId]⟩) :=
  accounted (refusedWorld_reached _ (List.Subset.refl _))

/-- A row that was refused on its own leaves the unsent ones although the append of its line failed;
and when its line was written, removing it does not make the row unsent again. -/
theorem refused_row_gone :
    (∃ w row, Reached someOutside w ∧
      (∃ line ∈ w.files.ledger, rowOfLine someOutside none line = some row) ∧
      row ∉ unsent someOutside w.files none ∧ ¬ Stored w.calls row.id ∧
        ¬ Written w.calls row.id) ∧
    ∃ w row, Reached someOutside w ∧
      (∃ line ∈ w.files.ledger, rowOfLine someOutside none line = some row) ∧
      ¬ Stored w.calls row.id ∧ row ∉ unsent someOutside { w.files with
        quarantined := w.files.quarantined.filter (· ≠ row.id) } none := by
  have hline : ∃ line ∈ [costLine], rowOfLine someOutside none line = some costRow :=
    ⟨costLine, List.mem_singleton.2 rfl, rfl⟩
  have hstored (written : Appended) : ¬ Stored (refusal written) costId := by
    rintro ⟨project, host, batch, key, accepted, duplicates, hmem, -⟩
    simp [refusal] at hmem
  refine ⟨⟨refusedWorld ⟨false, []⟩, costRow, refusedWorld_reached _ (List.nil_subset _), hline,
    ?_, hstored _, ?_⟩, refusedWorld ⟨true, [costId]⟩, costRow,
    refusedWorld_reached _ (List.Subset.refl _), hline, hstored _, ?_⟩
  · exact fun h => (mem_unsent.1 h).2.1 (List.mem_singleton.2 rfl)
  · rintro ⟨project, batch, kind, reason, appended, hmem, -, hwritten⟩
    simp only [refusedWorld, refusal, List.mem_cons, Called.mk.injEq, reduceCtorEq, false_and,
      List.not_mem_nil, or_false, false_or] at hmem
    obtain ⟨heq, happended⟩ := hmem
    cases heq
    obtain rfl := eq_of_heq happended
    simp at hwritten
  · exact fun h => (mem_unsent.1 h).2.1 (List.mem_singleton.2 rfl)

end Example

end AgentCoordinator.Report
