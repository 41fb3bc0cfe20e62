import AgentCoordinator.Backup

/-
Retention keeps exactly the recent snapshots.

A repository of snapshots is brought to the newest snapshot of each of the latest hours and days,
whatever was pruned before. A run that ended early leaves a repository that the next run brings to
the same state, unless it left a directory without its marker or without its manifest: no later run
gets past that directory.
-/

namespace AgentCoordinator.Backup

/-! ### Repositories -/

/-- The bytes of a file. -/
def Node.size : Node → ℕ
  | .file bytes => bytes.length
  | _ => 0

/-- The bytes of files. -/
def size : List (String × Node) → ℕ
  | [] => 0
  | file :: files => file.2.size + size files

/-- The most bytes with which a snapshot is published. -/
def MAX_SNAPSHOT_BYTES : ℕ :=
  MAX_BACKUP_DATABASE_BYTES + (MAX_BACKUP_ARTIFACTS * MAX_BACKUP_ARTIFACT_BYTES +
    MAX_BACKUP_MANIFEST_BYTES)

/-- A snapshot as it is published: a directory of regular files, within the limits, whose marker
and manifest give its creation time. -/
structure Published (f : Formats) (c : Candidate) : Prop where
  directory : c.snapshot.node = .directory
  metadata : ∃ m, readManifestMetadata f c.snapshot = .ok m ∧ m.createdAtMs = c.created
  supported : f.supported c.created = true
  regular : ∀ file ∈ c.snapshot.contents, file.2 ≠ .symlink ∧ file.2 ≠ .special
  entries : c.snapshot.contents.length ≤ MAX_BACKUP_ARTIFACTS + 16
  bytes : size c.snapshot.contents ≤ MAX_SNAPSHOT_BYTES

/-- Published snapshots, with distinct paths and creation times. -/
structure Repository (f : Formats) (R : List Candidate) : Prop where
  published : ∀ c ∈ R, Published f c
  paths : (R.map fun c => c.snapshot.path).Nodup
  times : (R.map Candidate.created).Nodup

/-- The creation times of snapshots. -/
def times (R : List Candidate) : Finset ℤ := (R.map Candidate.created).toFinset

/-- The snapshot of this time is the newest of one of the 24 latest hours that have one, or of one
of the 30 latest days that have one. -/
def Recent (S : Finset ℤ) (t : ℤ) : Prop :=
  Buckets.Latest HOURLY_BUCKETS hour S t ∨ Buckets.Latest DAILY_BUCKETS day S t

/-- What is kept of the snapshots are the recent ones. -/
def Keeps (R : List Candidate) (kept : List Entry) : Prop :=
  ∀ e, e ∈ kept ↔ ∃ c ∈ R, c.snapshot = e ∧ Recent (times R) c.created

/-- Backups that were each followed by retention, and what is kept after them. The directory lists
its entries in any order. -/
inductive PrunedEach (f : Formats) : List Candidate → List Entry → Prop
  | nil : PrunedEach f [] []
  | snoc {R kept entries kept' c result} : PrunedEach f R kept →
      entries.Perm (kept ++ [c.snapshot]) →
      applyRetention f entries none = (kept', .ok result) → PrunedEach f (R ++ [c]) kept'

/-- Retention is exact, and an interruption of it does no harm. -/
structure Right (f : Formats) (R : List Candidate) (stop : Interruption) : Prop where
  exact : ∃ kept result,
    applyRetention f (R.map Candidate.snapshot) none = (kept, .ok result) ∧ Keeps R kept
  newest : ∀ kept result, applyRetention f (R.map Candidate.snapshot) none = (kept, .ok result) →
    ∀ c ∈ R, (∀ d ∈ R, d.created ≤ c.created) → c.snapshot ∈ kept
  each : ∀ backups, backups.Perm R → (∃ kept, PrunedEach f backups kept) ∧
    ∀ kept, PrunedEach f backups kept → Keeps R kept
  resumes : ∀ added entries, Repository f (R ++ added) →
    (R ++ added).length ≤ MAX_REPOSITORY_SNAPSHOTS →
    entries.Perm ((applyRetention f (R.map Candidate.snapshot) (some stop)).1 ++
      added.map Candidate.snapshot) →
    ∃ kept result, applyRetention f entries none = (kept, .ok result) ∧ Keeps (R ++ added) kept

/-- If the run is interrupted at a snapshot that is not recent, the marker and the manifest of that
snapshot are not removed. -/
def Intact (R : List Candidate) (stop : Interruption) : Prop :=
  ∀ c, (newestFirst R)[stop.after]? = some c → ¬ Recent (times R) c.created →
    stop.left "COMPLETE" = true ∧ stop.left "manifest.json" = true

/-! ### Recent times -/

section Recent

variable {S T U : Finset ℤ} {t : ℤ}

lemma hour_mono {t u : ℤ} (h : t ≤ u) : hour t ≤ hour u := Int.ediv_le_ediv (by decide) h

lemma day_mono {t u : ℤ} (h : t ≤ u) : day t ≤ day u := Int.ediv_le_ediv (by decide) h

lemma Recent.mem (h : Recent S t) : t ∈ S := h.elim (·.mem) (·.mem)

lemma recent_union (hsub : T ⊆ S) (hkept : ∀ t, Recent S t → t ∈ T) :
    Recent (T ∪ U) t ↔ Recent (S ∪ U) t :=
  or_congr (Buckets.latest_union hsub fun t ht => hkept t (.inl ht))
    (Buckets.latest_union hsub fun t ht => hkept t (.inr ht))

lemma Recent.mono (h : Recent S t) (hsub : T ⊆ S) (hmem : t ∈ T) : Recent T t :=
  h.imp (·.mono hsub hmem) (·.mono hsub hmem)

lemma recent_of_max (ht : t ∈ S) (hmax : ∀ y ∈ S, y ≤ t) : Recent S t :=
  .inl (Buckets.latest_of_max (fun _ _ => hour_mono) (by decide) ht hmax)

end Recent

/-! ### Reading the directories -/

section Reading

variable {f : Formats} {R : List Candidate} {c : Candidate} {e : Entry} {left : String → Bool}

lemma candidates_eq (h : ∀ c ∈ R, Published f c) (found : List Candidate)
    (hle : found.length + R.length ≤ MAX_REPOSITORY_SNAPSHOTS) :
    candidates f (R.map Candidate.snapshot) found = .ok (found ++ R) := by
  induction R generalizing found with
  | nil => rw [List.append_nil]; rfl
  | cons c R ih =>
    obtain ⟨m, hm, hcreated⟩ := (h c List.mem_cons_self).metadata
    rw [List.length_cons] at hle
    have hroom : found.length < MAX_REPOSITORY_SNAPSHOTS := by omega
    rw [List.map_cons, candidates, ensure, if_pos hroom, ensure,
      if_pos (h c List.mem_cons_self).directory, hm]
    change candidates f _ (found ++ [⟨m.createdAtMs, c.snapshot⟩]) = _
    rw [hcreated, ih (fun d hd => h d (List.mem_cons_of_mem _ hd)) _ (by
      rw [List.length_append, List.length_singleton]
      omega), List.append_assoc]
    rfl

/-- A list of candidates means that every directory was read, and that there were not too many. -/
lemma of_candidates {entries : List Entry} {found cs : List Candidate}
    (h : candidates f entries found = .ok cs) (hfound : found.length ≤ MAX_REPOSITORY_SNAPSHOTS) :
    (∀ e ∈ entries, ∃ m, readManifestMetadata f e = .ok m) ∧
      found.length + entries.length ≤ MAX_REPOSITORY_SNAPSHOTS := by
  induction entries generalizing found with
  | nil => exact ⟨fun _ h => (nomatch h), hfound⟩
  | cons e entries ih =>
    rw [candidates, ensure] at h
    by_cases hroom : found.length < MAX_REPOSITORY_SNAPSHOTS
    · rw [if_pos hroom, ensure] at h
      by_cases hdir : e.node = .directory
      · rw [if_pos hdir] at h
        cases hm : readManifestMetadata f e with
        | error message =>
          rw [hm] at h
          cases h
        | ok m =>
          rw [hm] at h
          change candidates f entries (found ++ [⟨m.createdAtMs, e⟩]) = .ok cs at h
          obtain ⟨hall, hlength⟩ := ih h (by
            rw [List.length_append, List.length_singleton]
            omega)
          rw [List.length_append, List.length_singleton] at hlength
          refine ⟨?_, by rw [List.length_cons]; omega⟩
          rintro e' (_ | ⟨_, he'⟩)
          · exact ⟨m, hm⟩
          · exact hall e' he'
      · rw [if_neg hdir] at h
        cases h
    · rw [if_neg hroom] at h
      cases h

/-- What is left of a file is the file, or nothing. -/
lemma lookup_filter (contents : List (String × Node)) (name : String) :
    (contents.filter fun file => left file.1).lookup name =
      if left name = true then contents.lookup name else none := by
  induction contents with
  | nil => exact (ite_self _).symm
  | cons file contents ih =>
    obtain ⟨n, node⟩ := file
    rw [List.filter_cons]
    by_cases hname : name = n
    · subst hname
      by_cases hleft : left name = true
      · rw [if_pos hleft, if_pos hleft, List.lookup_cons_self, List.lookup_cons_self]
      · rw [if_neg hleft, if_neg hleft, ih, if_neg hleft]
    · have hbeq : (name == n) = false := beq_eq_false_iff_ne.2 hname
      by_cases hleft : left n = true
      · rw [if_pos hleft, List.lookup_cons, List.lookup_cons, hbeq, ih]
      · rw [if_neg hleft, List.lookup_cons, hbeq, ih]

lemma readBounded_cut (e : Entry) (name : String) (limit : ℕ) (h : left name = true) :
    readBounded (e.cut left) name limit = readBounded e name limit := by
  rw [readBounded, readBounded, Entry.cut, lookup_filter, if_pos h]

/-- The metadata of a snapshot can be read as long as its marker and manifest are left. -/
lemma readManifestMetadata_cut (hmarker : left "COMPLETE" = true)
    (hmanifest : left "manifest.json" = true) :
    readManifestMetadata f (e.cut left) = readManifestMetadata f e := by
  rw [readManifestMetadata, readManifestMetadata, readBounded_cut e _ _ hmarker,
    readBounded_cut e _ _ hmanifest]

lemma left_of_readBounded {name : String} {limit : ℕ} {bytes : List UInt8}
    (h : readBounded (e.cut left) name limit = .ok bytes) : left name = true := by
  by_contra hleft
  rw [readBounded, Entry.cut, lookup_filter, if_neg hleft] at h
  cases h

lemma left_of_readManifestMetadata {m : Manifest}
    (h : readManifestMetadata f (e.cut left) = .ok m) :
    left "COMPLETE" = true ∧ left "manifest.json" = true := by
  unfold readManifestMetadata at h
  cases hmarker : readBounded (e.cut left) "COMPLETE" (64 * 1024) with
  | error message =>
    rw [hmarker] at h
    cases h
  | ok marker =>
    rw [hmarker] at h
    cases hcompletion : f.parseCompletion marker with
    | error message =>
      simp only [bind, Except.bind, hcompletion] at h
      cases h
    | ok completion =>
      cases hmanifest : readBounded (e.cut left) "manifest.json" MAX_BACKUP_MANIFEST_BYTES with
      | error message =>
        simp only [bind, Except.bind, hcompletion, hmanifest] at h
        cases h
      | ok bytes => exact ⟨left_of_readBounded hmarker, left_of_readBounded hmanifest⟩

end Reading

/-! ### What is kept -/

section Keeping

variable {f : Formats} {R done cs : List Candidate} {c : Candidate}

lemma newestFirst_perm (R : List Candidate) : (newestFirst R).Perm R :=
  List.mergeSort_perm _ _

lemma mem_times {t : ℤ} : t ∈ times R ↔ ∃ c ∈ R, c.created = t := by
  rw [times, List.mem_toFinset, List.mem_map]

lemma times_perm {R' : List Candidate} (h : R.Perm R') : times R = times R' := by
  ext t
  simp only [mem_times, h.mem_iff]

lemma times_append (R R' : List Candidate) : times (R ++ R') = times R ∪ times R' := by
  rw [times, List.map_append, List.toFinset_append]
  rfl

lemma pairwise_newestFirst (h : (R.map Candidate.created).Nodup) :
    (newestFirst R).Pairwise fun a b => b.created < a.created := by
  have hsorted : (newestFirst R).Pairwise fun a b => decide (b.created ≤ a.created) = true := by
    refine List.pairwise_mergeSort ?_ ?_ R
    · intro a b c hab hbc
      simp only [decide_eq_true_eq] at *
      omega
    · intro a b
      simp only [Bool.or_eq_true, decide_eq_true_eq]
      omega
  have hdistinct : (newestFirst R).Pairwise fun a b => a.created ≠ b.created :=
    List.pairwise_map.1 (((newestFirst_perm R).map Candidate.created).nodup_iff.2 h)
  refine (hsorted.and hdistinct).imp ?_
  rintro a b ⟨hle, hne⟩
  have hle' := of_decide_eq_true hle
  omega

/-- The snapshots that are newer than one in the sorted list are those before it. -/
lemma times_newer (h : (done ++ c :: cs).Pairwise fun a b => b.created < a.created) :
    (times (done ++ c :: cs)).filter (c.created < ·) = times done := by
  obtain ⟨-, hcs, hdone⟩ := List.pairwise_append.1 h
  ext t
  rw [Finset.mem_filter, mem_times, mem_times]
  constructor
  · rintro ⟨⟨d, hd, rfl⟩, hlt⟩
    rcases List.mem_append.1 hd with hd | hd
    · exact ⟨d, hd, rfl⟩
    · rcases List.mem_cons.1 hd with rfl | hd
      · exact absurd hlt (lt_irrefl _)
      · exact absurd (List.rel_of_pairwise_cons hcs hd) (not_lt.2 hlt.le)
  · rintro ⟨d, hd, rfl⟩
    exact ⟨⟨d, List.mem_append_left _ hd, rfl⟩, hdone d hd c List.mem_cons_self⟩

lemma image_times_concat (key : ℤ → ℤ) :
    (times (done ++ [c])).image key = insert (key c.created) ((times done).image key) := by
  rw [times_append, Finset.image_union, Finset.union_comm, Finset.insert_eq]
  rfl

/-- The pass keeps the recent snapshots. -/
lemma keepers_eq (h : (done ++ cs).Pairwise fun a b => b.created < a.created)
    (hsupported : ∀ c ∈ cs, f.supported c.created = true) (s : Kept)
    (hhours : Buckets.Seen HOURLY_BUCKETS ((times done).image hour) s.hours)
    (hdays : Buckets.Seen DAILY_BUCKETS ((times done).image day) s.days) :
    ∃ s', keepers f cs s = .ok s' ∧ ∀ p, p ∈ s'.keep ↔
      p ∈ s.keep ∨ ∃ c ∈ cs, c.snapshot.path = p ∧ Recent (times (done ++ cs)) c.created := by
  induction cs generalizing done s with
  | nil =>
    refine ⟨s, rfl, fun p => ⟨.inl, ?_⟩⟩
    rintro (hp | ⟨c, hc, -⟩)
    · exact hp
    · exact nomatch hc
  | cons c cs ih =>
    have hmem : c.created ∈ times (done ++ c :: cs) :=
      mem_times.2 ⟨c, List.mem_append_right _ List.mem_cons_self, rfl⟩
    have hnewer := times_newer h
    have hhour := (hnewer ▸ hhours).open_iff_latest (fun _ _ => hour_mono) hmem
    have hday := (hnewer ▸ hdays).open_iff_latest (fun _ _ => day_mono) hmem
    have happend : done ++ c :: cs = (done ++ [c]) ++ cs := by rw [List.append_assoc]; rfl
    obtain ⟨s', hrun, hkeep⟩ := ih (happend ▸ h)
      (fun d hd => hsupported d (List.mem_cons_of_mem _ hd)) (s.add c.created c.snapshot.path)
      (by rw [image_times_concat]; exact hhours.see) (by rw [image_times_concat]; exact hdays.see)
    refine ⟨s', by rw [keepers, if_pos (hsupported c List.mem_cons_self), hrun], fun p => ?_⟩
    rw [hkeep, ← happend]
    have hadd : p ∈ (s.add c.created c.snapshot.path).keep ↔ p ∈ s.keep ∨
        (c.snapshot.path = p ∧ Recent (times (done ++ c :: cs)) c.created) := by
      unfold Kept.add Recent
      rw [← hhour, ← hday]
      split_ifs with hopen
      · rw [List.mem_cons]
        constructor
        · rintro (rfl | hp)
          · exact .inr ⟨rfl, hopen⟩
          · exact .inl hp
        · rintro (hp | ⟨rfl, -⟩)
          · exact .inr hp
          · exact .inl rfl
      · exact ⟨.inl, fun hp => hp.elim id fun hp => absurd hp.2 hopen⟩
    rw [hadd, or_assoc]
    refine or_congr_right ?_
    constructor
    · rintro (⟨hp, hrecent⟩ | ⟨d, hd, hp, hrecent⟩)
      · exact ⟨c, List.mem_cons_self, hp, hrecent⟩
      · exact ⟨d, List.mem_cons_of_mem _ hd, hp, hrecent⟩
    · rintro ⟨d, hd, hp, hrecent⟩
      rcases List.mem_cons.1 hd with rfl | hd
      · exact .inl ⟨hp, hrecent⟩
      · exact .inr ⟨d, hd, hp, hrecent⟩

/-- The paths to keep, in a repository of snapshots. -/
lemma keepers_repository (h : Repository f R) :
    ∃ s, keepers f (newestFirst R) ⟨[], [], []⟩ = .ok s ∧
      ∀ c ∈ R, c.snapshot.path ∈ s.keep ↔ Recent (times R) c.created := by
  have hperm := newestFirst_perm R
  have hnil : (times []).image hour = ∅ ∧ (times []).image day = ∅ := ⟨rfl, rfl⟩
  have hsorted : ([] ++ newestFirst R).Pairwise fun a b : Candidate => b.created < a.created :=
    pairwise_newestFirst h.times
  obtain ⟨s, hrun, hkeep⟩ := keepers_eq hsorted
    (fun c hc => (h.published c (hperm.mem_iff.1 hc)).supported) ⟨[], [], []⟩
    (hnil.1 ▸ Buckets.seen_nil) (hnil.2 ▸ Buckets.seen_nil)
  refine ⟨s, hrun, fun c hc => ?_⟩
  rw [hkeep, List.nil_append, times_perm hperm]
  constructor
  · rintro (hp | ⟨d, hd, hpath, hrecent⟩)
    · exact nomatch hp
    · obtain rfl := List.inj_on_of_nodup_map h.paths (hperm.mem_iff.1 hd) hc hpath
      exact hrecent
  · exact fun hrecent => .inr ⟨c, hperm.mem_iff.2 hc, rfl, hrecent⟩

end Keeping

/-! ### What is removed -/

section Pruning

variable {keep : List String} {cs E : List Candidate} {stop : Option Interruption}
  {result : RetentionResult} {c : Candidate} {i : Interruption}

def Candidate.cut (c : Candidate) (left : String → Bool) : Candidate :=
  { c with snapshot := c.snapshot.cut left }

/-- What a run may leave of the snapshots: some of them, the one at the interruption cut. -/
structure Left (keep : List String) (cs : List Candidate) (stop : Option Interruption)
    (E E' : List Candidate) : Prop where
  created : (E'.map Candidate.created).Sublist (E.map Candidate.created)
  paths : (E'.map fun c => c.snapshot.path).Sublist (E.map fun c => c.snapshot.path)
  kept : ∀ c ∈ E, c.snapshot.path ∈ keep → c ∈ E'
  of : ∀ c' ∈ E', c' ∈ E ∨ ∃ c ∈ E, ∃ i d, stop = some i ∧ cs[i.after]? = some d ∧
    d.snapshot.path ∉ keep ∧ c.snapshot.path = d.snapshot.path ∧ c' = c.cut i.left

lemma Left.refl : Left keep cs stop E E where
  created := .refl _
  paths := .refl _
  kept := fun _ h _ => h
  of := fun _ h => .inl h

/-- What follows a candidate that was passed, or was removed. -/
lemma Left.cons {E' E'' : List Candidate} (hstop : stop.filter (fun i => i.after = 0) = none)
    (h : Left keep cs (stop.map Interruption.pass) E' E'') (hsub : E'.Sublist E)
    (hkept : ∀ c ∈ E, c.snapshot.path ∈ keep → c ∈ E') : Left keep (c :: cs) stop E E'' where
  created := h.created.trans (hsub.map _)
  paths := h.paths.trans (hsub.map _)
  kept := fun d hd hp => h.kept d (hkept d hd hp) hp
  of := by
    intro d' hd'
    rcases h.of d' hd' with hd' | ⟨d, hd, j, x, hj, hx, hnot, hpath, rfl⟩
    · exact .inl (hsub.subset hd')
    · obtain ⟨i, rfl, rfl⟩ := Option.map_eq_some_iff.1 hj
      have hpos : i.after ≠ 0 := by
        intro hzero
        rw [Option.filter_some, if_pos (by rw [hzero]; rfl)] at hstop
        cases hstop
      refine .inr ⟨d, hsub.subset hd, i, x, rfl, ?_, hnot, hpath, rfl⟩
      rw [← hx, Interruption.pass, ← Nat.succ_pred_eq_of_pos (Nat.pos_of_ne_zero hpos)]
      rfl

lemma Left.cutAt (hnot : c.snapshot.path ∉ keep) (hzero : i.after = 0) :
    Left keep (c :: cs) (some i) E
      (E.map fun d => if d.snapshot.path = c.snapshot.path then d.cut i.left else d) where
  created := by
    rw [List.map_map]
    refine (List.map_congr_left fun d _ => ?_).symm ▸ .refl _
    rw [Function.comp_apply]
    split_ifs <;> rfl
  paths := by
    rw [List.map_map]
    refine (List.map_congr_left fun d _ => ?_).symm ▸ .refl _
    rw [Function.comp_apply]
    split_ifs <;> rfl
  kept := by
    intro d hd hp
    refine List.mem_map.2 ⟨d, hd, if_neg ?_⟩
    intro heq
    exact hnot (heq ▸ hp)
  of := by
    intro d' hd'
    obtain ⟨d, hd, rfl⟩ := List.mem_map.1 hd'
    split_ifs with hpath
    · exact .inr ⟨d, hd, i, c, rfl, by rw [hzero]; rfl, hnot, hpath, rfl⟩
    · exact .inl hd

/-- A run leaves a part of the snapshots that holds all that are to be kept. -/
lemma prune_left (keep : List String) (cs : List Candidate) (stop : Option Interruption)
    (E : List Candidate) (result : RetentionResult) :
    ∃ E', (prune keep cs stop (E.map Candidate.snapshot) result).1 = E'.map Candidate.snapshot ∧
      Left keep cs stop E E' := by
  induction cs generalizing stop E result with
  | nil => exact ⟨E, rfl, .refl⟩
  | cons c cs ih =>
    rw [prune]
    cases hstop : stop.filter fun i => i.after = 0 with
    | some i =>
      obtain ⟨rfl, hzero⟩ := Option.filter_eq_some_iff.1 hstop
      by_cases hkeep : c.snapshot.path ∈ keep
      · simp only [if_pos hkeep]
        exact ⟨E, rfl, .refl⟩
      · simp only [if_neg hkeep]
        refine ⟨_, ?_, .cutAt hkeep (of_decide_eq_true hzero)⟩
        rw [List.map_map, List.map_map]
        refine List.map_congr_left fun d _ => ?_
        simp only [Function.comp_apply]
        split_ifs <;> rfl
    | none =>
      by_cases hkeep : c.snapshot.path ∈ keep
      · simp only [if_pos hkeep]
        cases directorySize c.snapshot (U64_MAX - result.retainedBytes) with
        | error message => exact ⟨E, rfl, .refl⟩
        | ok size =>
          obtain ⟨E', heq, hleft⟩ := ih (stop.map Interruption.pass) E _
          exact ⟨E', heq, hleft.cons hstop (.refl _) fun _ h _ => h⟩
      · simp only [if_neg hkeep]
        have hfilter : (E.map Candidate.snapshot).filter (fun e => e.path ≠ c.snapshot.path) =
            (E.filter fun d => d.snapshot.path ≠ c.snapshot.path).map Candidate.snapshot := by
          rw [List.filter_map]
          rfl
        obtain ⟨E', heq, hleft⟩ := ih (stop.map Interruption.pass)
          (E.filter fun d => d.snapshot.path ≠ c.snapshot.path)
          { result with prunedSnapshots := result.prunedSnapshots + 1 }
        rw [hfilter]
        refine ⟨E', heq, hleft.cons hstop List.filter_sublist fun d hd hp => ?_⟩
        refine List.mem_filter.2 ⟨hd, decide_eq_true fun heq => hkeep ?_⟩
        exact heq ▸ hp

lemma size_filter_le (p : String × Node → Bool) (files : List (String × Node)) :
    size (files.filter p) ≤ size files := by
  induction files with
  | nil => exact Nat.le_refl _
  | cons file files ih =>
    rw [List.filter_cons]
    split_ifs
    · exact Nat.add_le_add_left ih _
    · exact Nat.le_trans ih (Nat.le_add_left _ _)

lemma addSize_foldlM {files : List (String × Node)} {limit total entries : ℕ}
    (hregular : ∀ file ∈ files, file.2 ≠ .symlink ∧ file.2 ≠ .special)
    (hentries : entries + files.length ≤ MAX_BACKUP_ARTIFACTS + 16)
    (htotal : total + size files ≤ limit) (hlimit : limit ≤ U64_MAX) :
    files.foldlM (addSize limit) (total, entries) =
      .ok (total + size files, entries + files.length) := by
  induction files generalizing total entries with
  | nil => rfl
  | cons file files ih =>
    obtain ⟨name, node⟩ := file
    rw [List.length_cons] at hentries
    change total + (node.size + size files) ≤ limit at htotal
    have hstep : addSize limit (total, entries) (name, node) =
        .ok (total + node.size, entries + 1) := by
      obtain ⟨hsymlink, hspecial⟩ := hregular _ List.mem_cons_self
      unfold addSize
      rw [if_neg (by omega)]
      cases node with
      | file bytes =>
        change total + (bytes.length + size files) ≤ limit at htotal
        dsimp only
        rw [if_neg (by omega), if_neg (by omega)]
        rfl
      | directory => rfl
      | symlink => exact absurd rfl hsymlink
      | special => exact absurd rfl hspecial
    rw [List.foldlM_cons, hstep]
    change files.foldlM (addSize limit) (total + node.size, entries + 1) = _
    rw [ih (fun file h => hregular file (List.mem_cons_of_mem _ h)) (by omega) (by omega),
      List.length_cons, size, Nat.add_assoc, Nat.add_assoc, Nat.add_comm 1]

lemma directorySize_eq {f : Formats} {limit : ℕ} (h : Published f c)
    (hroom : MAX_SNAPSHOT_BYTES ≤ limit) (hlimit : limit ≤ U64_MAX) :
    directorySize c.snapshot limit = .ok (size c.snapshot.contents) := by
  have hbytes := h.bytes
  have hfold : c.snapshot.contents.foldlM (addSize limit) (0, 0) =
      .ok (0 + size c.snapshot.contents, 0 + c.snapshot.contents.length) :=
    addSize_foldlM h.regular (by rw [Nat.zero_add]; exact h.entries) (by omega) hlimit
  rw [directorySize, hfold, Nat.zero_add]
  rfl

/-- The bytes that the rest of a run may add. -/
def Room (result : RetentionResult) (cs : List Candidate) : Prop :=
  result.retainedBytes + cs.length * MAX_SNAPSHOT_BYTES ≤ U64_MAX

/-- A run that is not interrupted removes everything that is not to be kept. -/
lemma prune_complete {f : Formats} (keep : List String) (hcs : ∀ c ∈ cs, Published f c) (hroom : Room result cs)
    (entries : List Entry) :
    ∃ kept result', prune keep cs none entries result = (kept, .ok result') ∧
      ∀ e, e ∈ kept ↔ e ∈ entries ∧ (e.path ∈ keep ∨ ∀ c ∈ cs, c.snapshot.path ≠ e.path) := by
  induction cs generalizing entries result with
  | nil => exact ⟨entries, result, rfl, fun e => ⟨fun he => ⟨he, .inr fun _ h => (nomatch h)⟩, (·.1)⟩⟩
  | cons c cs ih =>
    have hcs' : ∀ d ∈ cs, Published f d := fun d hd => hcs d (List.mem_cons_of_mem _ hd)
    unfold Room at hroom
    rw [List.length_cons, Nat.succ_mul] at hroom
    rw [prune]
    simp only [Option.filter_none, Option.map_none]
    by_cases hkeep : c.snapshot.path ∈ keep
    · have hbytes := (hcs c List.mem_cons_self).bytes
      rw [directorySize_eq (hcs c List.mem_cons_self) (by omega) (Nat.sub_le _ _)]
      simp only [if_pos hkeep]
      have hroom' : Room ⟨result.keptSnapshots + 1, result.prunedSnapshots,
          min (result.retainedBytes + size c.snapshot.contents) U64_MAX⟩ cs := by
        unfold Room
        dsimp only
        omega
      obtain ⟨kept, result', hrun, hmem⟩ := ih hcs' hroom' entries
      refine ⟨kept, result', hrun, fun e => ?_⟩
      rw [hmem, List.forall_mem_cons]
      refine and_congr_right fun _ => ⟨?_, ?_⟩
      · rintro (hp | hp)
        · exact .inl hp
        · by_cases heq : c.snapshot.path = e.path
          · exact .inl (heq ▸ hkeep)
          · exact .inr ⟨heq, hp⟩
      · exact fun hp => hp.imp_right (·.2)
    · simp only [if_neg hkeep]
      have hroom' : Room { result with prunedSnapshots := result.prunedSnapshots + 1 } cs := by
        unfold Room
        dsimp only
        omega
      obtain ⟨kept, result', hrun, hmem⟩ := ih hcs' hroom'
        (entries.filter fun e => e.path ≠ c.snapshot.path)
      refine ⟨kept, result', hrun, fun e => ?_⟩
      rw [hmem, List.mem_filter, List.forall_mem_cons, and_assoc, decide_eq_true_eq]
      refine and_congr_right fun _ => ⟨?_, ?_⟩
      · rintro ⟨hne, hp⟩
        exact hp.imp_right fun hp => ⟨Ne.symm hne, hp⟩
      · rintro (hp | ⟨hne, hp⟩)
        · exact ⟨fun heq => hkeep (heq ▸ hp), .inl hp⟩
        · exact ⟨Ne.symm hne, .inr hp⟩

/-- A directory at whose removal the run ends is left with some of its files. -/
lemma prune_cut {f : Formats} (hcs : ∀ c ∈ cs, Published f c) (hroom : Room result cs)
    (hpaths : (cs.map fun c => c.snapshot.path).Nodup) (hget : cs[i.after]? = some c)
    (hnot : c.snapshot.path ∉ keep) {entries : List Entry} (hmem : c.snapshot ∈ entries) :
    c.snapshot.cut i.left ∈ (prune keep cs (some i) entries result).1 := by
  induction cs generalizing entries result i with
  | nil => cases hget
  | cons d cs ih =>
    have hcs' : ∀ c ∈ cs, Published f c := fun c hc => hcs c (List.mem_cons_of_mem _ hc)
    obtain ⟨hfresh, hpaths'⟩ := List.nodup_cons.1 hpaths
    unfold Room at hroom
    rw [List.length_cons, Nat.succ_mul] at hroom
    rw [prune]
    by_cases hzero : i.after = 0
    · rw [hzero] at hget
      obtain rfl := Option.some.inj hget
      rw [Option.filter_some, if_pos (by rw [hzero]; rfl)]
      simp only [if_neg hnot]
      exact List.mem_map.2 ⟨_, hmem, if_pos rfl⟩
    · rw [Option.filter_some, if_neg (by rw [decide_eq_true_eq]; exact hzero)]
      have hget' : cs[i.pass.after]? = some c := by
        rw [← hget, Interruption.pass, ← Nat.succ_pred_eq_of_pos (Nat.pos_of_ne_zero hzero)]
        rfl
      simp only [Option.map_some]
      by_cases hkeep : d.snapshot.path ∈ keep
      · have hbytes := (hcs d List.mem_cons_self).bytes
        rw [directorySize_eq (hcs d List.mem_cons_self) (by omega) (Nat.sub_le _ _)]
        simp only [if_pos hkeep]
        exact ih hcs' (by unfold Room; simp only; omega) hpaths' hget' hmem
      · simp only [if_neg hkeep]
        refine ih hcs' (by unfold Room; simp only; omega) hpaths' hget'
          (List.mem_filter.2 ⟨hmem, decide_eq_true fun heq => hfresh ?_⟩)
        exact List.mem_map.2 ⟨c, List.mem_of_getElem? hget', heq⟩

end Pruning

/-! ### Runs on a repository -/

section Runs

variable {f : Formats} {R R' : List Candidate} {c : Candidate} {stop : Interruption}
  {kept : List Entry} {left : String → Bool}

lemma Published.cut (h : Published f c) (hmarker : left "COMPLETE" = true)
    (hmanifest : left "manifest.json" = true) : Published f (c.cut left) where
  directory := h.directory
  metadata := by
    obtain ⟨m, hm, hcreated⟩ := h.metadata
    exact ⟨m, (readManifestMetadata_cut hmarker hmanifest).trans hm, hcreated⟩
  supported := h.supported
  regular := fun file hfile => h.regular file (List.mem_of_mem_filter hfile)
  entries := Nat.le_trans (List.length_filter_le _ _) h.entries
  bytes := Nat.le_trans (size_filter_le _ _) h.bytes

lemma Repository.perm (h : Repository f R) (hperm : R'.Perm R) : Repository f R' where
  published := fun c hc => h.published c (hperm.mem_iff.1 hc)
  paths := (hperm.map _).nodup_iff.2 h.paths
  times := (hperm.map _).nodup_iff.2 h.times

lemma Repository.append_left (h : Repository f (R ++ R')) : Repository f R where
  published := fun c hc => h.published c (List.mem_append_left _ hc)
  paths := h.paths.sublist ((List.sublist_append_left _ _).map _)
  times := h.times.sublist ((List.sublist_append_left _ _).map _)

/-- All snapshots together are within the range of the byte count. -/
lemma room_newestFirst (hle : R.length ≤ MAX_REPOSITORY_SNAPSHOTS) :
    Room ⟨0, 0, 0⟩ (newestFirst R) := by
  unfold Room
  have hlength : (newestFirst R).length * MAX_SNAPSHOT_BYTES ≤
      MAX_REPOSITORY_SNAPSHOTS * MAX_SNAPSHOT_BYTES :=
    Nat.mul_le_mul_right _ ((newestFirst_perm R).length_eq ▸ hle)
  have hmax : MAX_REPOSITORY_SNAPSHOTS * MAX_SNAPSHOT_BYTES ≤ U64_MAX := by decide
  dsimp only
  omega

/-- Retention on a repository is the pass that removes what is not recent. -/
lemma applyRetention_repository (h : Repository f R)
    (hle : R.length ≤ MAX_REPOSITORY_SNAPSHOTS) :
    ∃ keep, (∀ c ∈ R, c.snapshot.path ∈ keep ↔ Recent (times R) c.created) ∧
      ∀ stop, applyRetention f (R.map Candidate.snapshot) stop =
        prune keep (newestFirst R) stop (R.map Candidate.snapshot) ⟨0, 0, 0⟩ := by
  obtain ⟨s, hkeepers, hkeep⟩ := keepers_repository h
  refine ⟨s.keep, hkeep, fun stop => ?_⟩
  rw [applyRetention, candidates_eq h.published [] (by rw [List.length_nil]; omega)]
  simp only [List.nil_append, hkeepers]

/-- What a whole run leaves. -/
structure Ran (R K : List Candidate) : Prop where
  mem : ∀ c, c ∈ K ↔ c ∈ R ∧ Recent (times R) c.created
  created : (K.map Candidate.created).Sublist (R.map Candidate.created)
  paths : (K.map fun c => c.snapshot.path).Sublist (R.map fun c => c.snapshot.path)

/-- A whole run leaves exactly the recent snapshots. -/
lemma applyRetention_eq (h : Repository f R) (hle : R.length ≤ MAX_REPOSITORY_SNAPSHOTS) :
    ∃ (K : List Candidate) (result : RetentionResult),
      applyRetention f (R.map Candidate.snapshot) none = (K.map Candidate.snapshot, .ok result) ∧
        Ran R K := by
  obtain ⟨keep, hkeep, hrun⟩ := applyRetention_repository h hle
  have hperm := newestFirst_perm R
  obtain ⟨kept, result, hprune, hmem⟩ :=
    prune_complete keep (fun c hc => h.published c (hperm.mem_iff.1 hc))
      (room_newestFirst hle) (R.map Candidate.snapshot)
  obtain ⟨K, hK, hleft⟩ := prune_left keep (newestFirst R) none R ⟨0, 0, 0⟩
  rw [hprune] at hK
  obtain rfl : kept = K.map Candidate.snapshot := hK
  refine ⟨K, result, (hrun none).trans hprune, fun c => ?_, hleft.created, hleft.paths⟩
  constructor
  · intro hc
    have hcR : c ∈ R := by
      rcases hleft.of c hc with hcR | ⟨-, -, i, -, hstop, -⟩
      · exact hcR
      · cases hstop
    rcases ((hmem c.snapshot).1 (List.mem_map_of_mem hc)).2 with hp | hp
    · exact ⟨hcR, (hkeep c hcR).1 hp⟩
    · exact absurd rfl (hp c (hperm.mem_iff.2 hcR))
  · rintro ⟨hcR, hrecent⟩
    exact hleft.kept c hcR ((hkeep c hcR).2 hrecent)

/-- What a run that ends early leaves. -/
structure Stopped (R : List Candidate) (stop : Interruption) (R' : List Candidate) : Prop where
  created : (R'.map Candidate.created).Sublist (R.map Candidate.created)
  paths : (R'.map fun c => c.snapshot.path).Sublist (R.map fun c => c.snapshot.path)
  kept : ∀ c ∈ R, Recent (times R) c.created → c ∈ R'
  of : ∀ c' ∈ R', c' ∈ R ∨ ∃ c ∈ R, (newestFirst R)[stop.after]? = some c ∧
    ¬ Recent (times R) c.created ∧ c' = c.cut stop.left
  cut : ∀ c, (newestFirst R)[stop.after]? = some c → ¬ Recent (times R) c.created →
    c.snapshot.cut stop.left ∈ R'.map Candidate.snapshot

lemma applyRetention_stopped (h : Repository f R) (hle : R.length ≤ MAX_REPOSITORY_SNAPSHOTS)
    (stop : Interruption) :
    ∃ R' : List Candidate, (applyRetention f (R.map Candidate.snapshot) (some stop)).1 =
      R'.map Candidate.snapshot ∧ Stopped R stop R' := by
  obtain ⟨keep, hkeep, hrun⟩ := applyRetention_repository h hle
  have hperm := newestFirst_perm R
  obtain ⟨R', hR', hleft⟩ := prune_left keep (newestFirst R) (some stop) R ⟨0, 0, 0⟩
  refine ⟨R', by rw [hrun, hR'], hleft.created, hleft.paths,
    fun c hc hrecent => hleft.kept c hc ((hkeep c hc).2 hrecent), fun c' hc' => ?_, ?_⟩
  · rcases hleft.of c' hc' with hc' | ⟨c, hc, i, d, hstop, hget, hnot, hpath, rfl⟩
    · exact .inl hc'
    · obtain rfl := Option.some.inj hstop
      have hd : d ∈ R := hperm.mem_iff.1 (List.mem_of_getElem? hget)
      obtain rfl := List.inj_on_of_nodup_map h.paths hc hd hpath
      exact .inr ⟨c, hc, hget, fun hrecent => hnot ((hkeep c hc).2 hrecent), rfl⟩
  · intro c hget hnot
    have hc : c ∈ R := hperm.mem_iff.1 (List.mem_of_getElem? hget)
    rw [← hR']
    exact prune_cut (fun d hd => h.published d (hperm.mem_iff.1 hd)) (room_newestFirst hle)
      ((hperm.map _).nodup_iff.2 h.paths) hget (fun hp => hnot ((hkeep c hc).1 hp))
      (List.mem_map_of_mem hc)

/-- A list with the same elements as an image is an image. -/
lemma exists_of_perm_map {α β : Type} {g : α → β} {l : List β} {m : List α}
    (h : l.Perm (m.map g)) : ∃ m' : List α, m'.Perm m ∧ l = m'.map g := by
  induction l generalizing m with
  | nil =>
    rw [List.nil_perm, List.map_eq_nil_iff] at h
    exact ⟨[], h ▸ .refl _, rfl⟩
  | cons b l ih =>
    obtain ⟨a, ha, rfl⟩ := List.mem_map.1 (h.subset List.mem_cons_self)
    obtain ⟨s, t, rfl⟩ := List.append_of_mem ha
    have hmiddle : (s ++ a :: t).Perm (a :: (s ++ t)) := List.perm_middle
    obtain ⟨m', hm', rfl⟩ := ih ((h.trans (hmiddle.map g)).cons_inv)
    exact ⟨a :: m', (hm'.cons a).trans hmiddle.symm, rfl⟩

/-- A part of the snapshots, some of them with fewer files. -/
structure Part (R' R : List Candidate) : Prop where
  created : (R'.map Candidate.created).Subperm (R.map Candidate.created)
  paths : (R'.map fun c => c.snapshot.path).Subperm (R.map fun c => c.snapshot.path)

lemma nodup_of_subperm {α : Type} {l m : List α} (h : l.Subperm m) (hm : m.Nodup) : l.Nodup := by
  obtain ⟨l', hperm, hsub⟩ := h
  exact hperm.nodup_iff.1 (hm.sublist hsub)

lemma Part.length_le (h : Part R' R) : R'.length ≤ R.length := by
  have hle := h.created.length_le
  rwa [List.length_map, List.length_map] at hle

lemma Part.times_subset (h : Part R' R) : times R' ⊆ times R := by
  intro t ht
  rw [times, List.mem_toFinset] at *
  exact h.created.subset ht

lemma Part.append (h : Part R' R) (added : List Candidate) :
    Part (R' ++ added) (R ++ added) where
  created := by
    rw [List.map_append, List.map_append]
    exact h.created.append (.refl _)
  paths := by
    rw [List.map_append, List.map_append]
    exact h.paths.append (.refl _)

lemma Part.trans {R'' : List Candidate} (h : Part R'' R') (h' : Part R' R) : Part R'' R where
  created := List.Subperm.trans h.created h'.created
  paths := List.Subperm.trans h.paths h'.paths

lemma Part.perm {R'' : List Candidate} (h : Part R' R) (hperm : R''.Perm R') : Part R'' R where
  created := List.Subperm.trans (hperm.map _).subperm h.created
  paths := List.Subperm.trans (hperm.map _).subperm h.paths

lemma Part.repository (hpart : Part R' R) (h : Repository f R)
    (hpublished : ∀ c ∈ R', Published f c) : Repository f R' where
  published := hpublished
  paths := nodup_of_subperm hpart.paths h.paths
  times := nodup_of_subperm hpart.created h.times

lemma Ran.part (h : Ran R R') : Part R' R where
  created := h.created.subperm
  paths := h.paths.subperm

lemma Stopped.part (h : Stopped R stop R') : Part R' R where
  created := h.created.subperm
  paths := h.paths.subperm

/-- A run on what was left, in any order and with later snapshots, keeps what is recent now. -/
lemma applyRetention_union {added : List Candidate} {entries : List Entry}
    (h : Repository f (R ++ added)) (hle : (R ++ added).length ≤ MAX_REPOSITORY_SNAPSHOTS)
    (hpart : Part R' R) (hkept : ∀ c ∈ R, Recent (times R) c.created → c ∈ R')
    (hpublished : ∀ c ∈ R', Published f c)
    (hof : ∀ c ∈ R', c ∈ R ∨ ¬ Recent (times R) c.created)
    (hentries : entries.Perm (R'.map Candidate.snapshot ++ added.map Candidate.snapshot)) :
    ∃ (K : List Candidate) (result : RetentionResult),
      applyRetention f entries none = (K.map Candidate.snapshot, .ok result) ∧
        Part K (R ++ added) ∧
          ∀ c, c ∈ K ↔ c ∈ R ++ added ∧ Recent (times (R ++ added)) c.created := by
  obtain ⟨N, hperm, rfl⟩ : ∃ N : List Candidate, N.Perm (R' ++ added) ∧
      entries = N.map Candidate.snapshot := by
    rw [← List.map_append] at hentries
    exact exists_of_perm_map hentries
  have hN : Part N (R ++ added) := (hpart.append added).perm hperm
  have hrepository : Repository f N := by
    refine hN.repository h fun c hc => ?_
    rcases List.mem_append.1 (hperm.mem_iff.1 hc) with hc | hc
    · exact hpublished c hc
    · exact h.published c (List.mem_append_right _ hc)
  obtain ⟨K, result, hrun, hran⟩ := applyRetention_eq hrepository (Nat.le_trans hN.length_le hle)
  have hrecent (t : ℤ) : Recent (times N) t ↔ Recent (times (R ++ added)) t := by
    rw [times_perm hperm, times_append, times_append]
    refine recent_union hpart.times_subset fun t ht => ?_
    obtain ⟨c, hc, rfl⟩ := mem_times.1 ht.mem
    exact mem_times.2 ⟨c, hkept c hc ht, rfl⟩
  have hold {c : Candidate} (hc : Recent (times (R ++ added)) c.created)
      (hmem : c.created ∈ times R) : Recent (times R) c.created := by
    rw [times_append] at hc
    exact hc.mono Finset.subset_union_left hmem
  refine ⟨K, result, hrun, hran.part.trans hN, fun c => ?_⟩
  rw [hran.mem, hrecent, hperm.mem_iff, List.mem_append, List.mem_append]
  refine and_congr_left fun hc => or_congr_left ?_
  constructor
  · intro hR'
    rcases hof c hR' with hR | hnot
    · exact hR
    · exact absurd (hold hc (hpart.times_subset (mem_times.2 ⟨c, hR', rfl⟩))) hnot
  · exact fun hR => hkept c hR (hold hc (mem_times.2 ⟨c, hR, rfl⟩))

lemma keeps_of_mem {K : List Candidate}
    (h : ∀ c, c ∈ K ↔ c ∈ R ∧ Recent (times R) c.created) :
    Keeps R (K.map Candidate.snapshot) := by
  intro e
  rw [List.mem_map]
  constructor
  · rintro ⟨c, hc, rfl⟩
    exact ⟨c, ((h c).1 hc).1, rfl, ((h c).1 hc).2⟩
  · rintro ⟨c, hc, rfl, hrecent⟩
    exact ⟨c, (h c).2 ⟨hc, hrecent⟩, rfl⟩

/-- A backup on top of what was kept, with retention after it. -/
lemma applyRetention_snoc {K : List Candidate} {entries : List Entry}
    (h : Repository f (R ++ [c])) (hle : (R ++ [c]).length ≤ MAX_REPOSITORY_SNAPSHOTS)
    (hpart : Part K R) (hK : ∀ c, c ∈ K ↔ c ∈ R ∧ Recent (times R) c.created)
    (hentries : entries.Perm (K.map Candidate.snapshot ++ [c.snapshot])) :
    ∃ (K' : List Candidate) (result : RetentionResult),
      applyRetention f entries none = (K'.map Candidate.snapshot, .ok result) ∧
        Part K' (R ++ [c]) ∧
          ∀ d, d ∈ K' ↔ d ∈ R ++ [c] ∧ Recent (times (R ++ [c])) d.created :=
  applyRetention_union h hle hpart (fun d hd hrecent => (hK d).2 ⟨hd, hrecent⟩)
    (fun d hd => h.published d (List.mem_append_left _ ((hK d).1 hd).1))
    (fun d hd => .inl ((hK d).1 hd).1) hentries

/-- Pruning after each backup keeps what pruning once at the end keeps. -/
lemma prunedEach_spec (hpruned : PrunedEach f R kept) (h : Repository f R)
    (hle : R.length ≤ MAX_REPOSITORY_SNAPSHOTS) :
    ∃ K : List Candidate, kept = K.map Candidate.snapshot ∧ Part K R ∧
      ∀ c, c ∈ K ↔ c ∈ R ∧ Recent (times R) c.created := by
  induction hpruned with
  | nil =>
    exact ⟨[], rfl, ⟨.refl _, .refl _⟩, fun c => ⟨fun hc => (nomatch hc), fun hc => hc.1⟩⟩
  | @snoc R kept entries kept' c result _ hperm hrun ih =>
    have hle' : R.length ≤ MAX_REPOSITORY_SNAPSHOTS := by
      rw [List.length_append] at hle
      omega
    obtain ⟨K, rfl, hpart, hK⟩ := ih h.append_left hle'
    obtain ⟨K', result', hrun', hpart', hK'⟩ := applyRetention_snoc h hle hpart hK hperm
    obtain ⟨rfl, -⟩ := Prod.mk.inj (hrun.symm.trans hrun')
    exact ⟨K', rfl, hpart', hK'⟩

lemma exists_prunedEach (R : List Candidate) (h : Repository f R)
    (hle : R.length ≤ MAX_REPOSITORY_SNAPSHOTS) : ∃ kept, PrunedEach f R kept := by
  induction R using List.reverseRecOn with
  | nil => exact ⟨[], .nil⟩
  | append_singleton R c ih =>
    have hle' : R.length ≤ MAX_REPOSITORY_SNAPSHOTS := by
      rw [List.length_append] at hle
      omega
    obtain ⟨kept, hkept⟩ := ih h.append_left hle'
    obtain ⟨K, rfl, hpart, hK⟩ := prunedEach_spec hkept h.append_left hle'
    obtain ⟨K', result, hrun, -⟩ := applyRetention_snoc h hle hpart hK (.refl _)
    exact ⟨_, .snoc hkept (.refl _) hrun⟩

end Runs

/-! ### Retention -/

/-- The interruption leaves the metadata, if the next run gets past it. -/
lemma intact_of_right {f : Formats} {R : List Candidate} {stop : Interruption}
    (h : Repository f R) (hle : R.length ≤ MAX_REPOSITORY_SNAPSHOTS) (hright : Right f R stop) :
    Intact R stop := by
  intro c hget hnot
  obtain ⟨R', hR', hstopped⟩ := applyRetention_stopped h hle stop
  obtain ⟨kept', result', hrun', -⟩ := hright.resumes [] (R'.map Candidate.snapshot)
    (by rw [List.append_nil]; exact h) (by rw [List.append_nil]; exact hle)
    (by rw [hR', List.map_nil, List.append_nil])
  unfold applyRetention at hrun'
  -- the directory that was cut is read in the next run
  cases hcandidates : candidates f (R'.map Candidate.snapshot) [] with
  | error message =>
    rw [hcandidates] at hrun'
    cases hrun'
  | ok cs =>
    obtain ⟨m, hm⟩ := (of_candidates hcandidates (Nat.zero_le _)).1 _ (hstopped.cut c hget hnot)
    exact left_of_readManifestMetadata hm

/-- Retention is exact, independent of earlier runs and resumed after an interruption if and only
if the repository is within its limit and the interruption leaves the metadata in place. -/
theorem retention_right_iff {f : Formats} {R : List Candidate} (h : Repository f R)
    (stop : Interruption) :
    Right f R stop ↔ R.length ≤ MAX_REPOSITORY_SNAPSHOTS ∧ Intact R stop := by
  constructor
  · intro hright
    obtain ⟨kept, result, hrun, -⟩ := hright.exact
    have hle : R.length ≤ MAX_REPOSITORY_SNAPSHOTS := by
      unfold applyRetention at hrun
      cases hcandidates : candidates f (R.map Candidate.snapshot) [] with
      | error message =>
        rw [hcandidates] at hrun
        cases hrun
      | ok cs =>
        have hcount := (of_candidates hcandidates (Nat.zero_le _)).2
        rw [List.length_nil, List.length_map] at hcount
        omega
    exact ⟨hle, intact_of_right h hle hright⟩
  · rintro ⟨hle, hintact⟩
    obtain ⟨K, result, hrun, hran⟩ := applyRetention_eq h hle
    refine ⟨⟨_, result, hrun, keeps_of_mem hran.mem⟩, ?_, ?_, ?_⟩
    · intro kept result' hrun' c hc hmax
      obtain ⟨rfl, -⟩ := Prod.mk.inj (hrun'.symm.trans hrun)
      refine (keeps_of_mem hran.mem c.snapshot).2 ⟨c, hc, rfl, recent_of_max ?_ ?_⟩
      · exact mem_times.2 ⟨c, hc, rfl⟩
      · intro t ht
        obtain ⟨d, hd, rfl⟩ := mem_times.1 ht
        exact hmax d hd
    · intro backups hperm
      have hbackups := h.perm hperm
      have hcount : backups.length ≤ MAX_REPOSITORY_SNAPSHOTS := hperm.length_eq ▸ hle
      refine ⟨exists_prunedEach backups hbackups hcount, fun kept hpruned => ?_⟩
      obtain ⟨K', rfl, -, hK'⟩ := prunedEach_spec hpruned hbackups hcount
      refine keeps_of_mem fun c => ?_
      rw [hK', hperm.mem_iff, times_perm hperm]
    · intro added entries hadded hcount hentries
      obtain ⟨R', hR', hstopped⟩ := applyRetention_stopped h hle stop
      rw [hR'] at hentries
      have hcut : ∀ c' ∈ R', Published f c' ∧ (c' ∈ R ∨ ¬ Recent (times R) c'.created) := by
        intro c' hc'
        rcases hstopped.of c' hc' with hc' | ⟨c, hc, hget, hnot, rfl⟩
        · exact ⟨h.published c' hc', .inl hc'⟩
        · obtain ⟨hmarker, hmanifest⟩ := hintact c hget hnot
          exact ⟨(h.published c hc).cut hmarker hmanifest, .inr hnot⟩
      obtain ⟨K', result', hrun', -, hK'⟩ := applyRetention_union hadded hcount hstopped.part
        hstopped.kept (fun c hc => (hcut c hc).1) (fun c hc => (hcut c hc).2) hentries
      exact ⟨_, result', hrun', keeps_of_mem hK'⟩

section Example

/-- The bytes of an ASCII text. -/
private def ascii (s : String) : List UInt8 := s.toList.map fun c => c.toNat.toUInt8

/-- The manifest of an empty database. -/
private def manifestText (id time ms : String) : List UInt8 :=
  ["\x7b\"format_version\":1,", "\"snapshot_id\":\"", id, "\",\"created_at\":\"", time, "\",",
    "\"created_at_ms\":", ms, ",\"service_version\":\"0.1.0\",", "\"schema_version\":12,",
    "\"database\":\x7b\"path\":", "\"database.sqlite3\",", "\"size_bytes\":0,\"sha256\":\"",
    "e3b0c44298fc1c149afbf4c8996fb924", "27ae41e4649b934ca495991b7852b855\"\x7d,",
    "\"artifacts\":[]\x7d"].flatMap ascii

private def markerText (id digest : String) : List UInt8 :=
  ["\x7b\"format_version\":1,", "\"snapshot_id\":\"", id, "\",\"manifest_sha256\":\"", digest,
    "\"\x7d"].flatMap ascii

private def firstId : String := "0d3b6f1a-52c4-4a7e-9f55-1c9a3de0b701"
private def secondId : String := "7be2c0de-91d4-4c1f-8a30-6d2f5e4c3b02"
private def firstDigest : String :=
  "78f5b4653c34deadab79468b6ec0867c2def987b0429c54a15b4a2eeafc87e57"
private def secondDigest : String :=
  "5a48efd177d25ad1c673b372e752515db43820b1c2a67a702238588444528e72"
private def firstManifest : List UInt8 :=
  manifestText firstId "2026-07-01T10:05:00.000Z" "1782900300000"
private def secondManifest : List UInt8 :=
  manifestText secondId "2026-07-01T10:35:00.000Z" "1782902100000"
private def firstMarker : List UInt8 := markerText firstId firstDigest
private def secondMarker : List UInt8 := markerText secondId secondDigest

/-- A reader that knows two texts. -/
private def reads {α : Type} (first second : List UInt8) (x y : α) (bytes : List UInt8) :
    Except String α :=
  if bytes = first then .ok x else if bytes = second then .ok y
  else .error "expected value at line 1 column 1"

private lemma reads_first {α : Type} {first second : List UInt8} {x y : α} :
    reads first second x y first = .ok x := if_pos rfl

private lemma reads_second {α : Type} {first second : List UInt8} {x y : α}
    (h : second ≠ first) : reads first second x y second = .ok y :=
  (if_neg h).trans (if_pos rfl)

/-- A digest that knows one text and another. -/
private def digests (first : List UInt8) (x y : String) (bytes : List UInt8) : String :=
  if bytes = first then x else y

private lemma digests_first {first : List UInt8} {x y : String} : digests first x y first = x :=
  if_pos rfl

private lemma digests_second {first second : List UInt8} {x y : String} (h : second ≠ first) :
    digests first x y second = y := if_neg h

/-- The formats on the files of two snapshots. -/
private def sampleFormats : Formats where
  parseCompletion := reads firstMarker secondMarker ⟨1, firstId, firstDigest⟩
    ⟨1, secondId, secondDigest⟩
  parseManifest := reads firstManifest secondManifest ⟨1, firstId, 1782900300000⟩
    ⟨1, secondId, 1782902100000⟩
  sha256 := digests firstManifest firstDigest secondDigest
  supported := fun ms => decide (-8334601228800000 ≤ ms ∧ ms ≤ 8210266876799999)

private def firstSnapshot : Candidate :=
  ⟨1782900300000, "20260701T100500.000Z-0d3b6f1a-52c4-4a7e-9f55-1c9a3de0b701", .directory,
    [("COMPLETE", .file firstMarker), ("database.sqlite3", .file []), ("blobs", .directory),
      ("manifest.json", .file firstManifest)]⟩

private def secondSnapshot : Candidate :=
  ⟨1782902100000, "20260701T103500.000Z-7be2c0de-91d4-4c1f-8a30-6d2f5e4c3b02", .directory,
    [("COMPLETE", .file secondMarker), ("database.sqlite3", .file []), ("blobs", .directory),
      ("manifest.json", .file secondManifest)]⟩

private lemma marker_ne : secondMarker ≠ firstMarker := by decide +kernel

private lemma manifest_ne : secondManifest ≠ firstManifest := by decide +kernel

private lemma sample_lengths : firstMarker.length ≤ 500 ∧ secondMarker.length ≤ 500 ∧
    firstManifest.length ≤ 500 ∧ secondManifest.length ≤ 500 := by
  decide +kernel

private lemma readBounded_eq {e : Entry} {name : String} {limit : ℕ} {bytes : List UInt8}
    (h : e.contents.lookup name = some (.file bytes)) (hle : bytes.length ≤ limit) :
    readBounded e name limit = .ok bytes := by
  rw [readBounded, h]
  exact if_pos hle

private lemma first_metadata : readManifestMetadata sampleFormats firstSnapshot.snapshot =
    .ok ⟨1, firstId, 1782900300000⟩ := by
  have hmarker : readBounded firstSnapshot.snapshot "COMPLETE" (64 * 1024) = .ok firstMarker :=
    readBounded_eq rfl (Nat.le_trans sample_lengths.1 (by decide))
  have hmanifest : readBounded firstSnapshot.snapshot "manifest.json" MAX_BACKUP_MANIFEST_BYTES =
      .ok firstManifest := readBounded_eq rfl (Nat.le_trans sample_lengths.2.2.1 (by decide))
  simp only [readManifestMetadata, hmarker, hmanifest, sampleFormats, reads_first, digests_first, bind,
    Except.bind, ensure, FORMAT_VERSION, and_self, if_true]
  rfl

private lemma second_metadata : readManifestMetadata sampleFormats secondSnapshot.snapshot =
    .ok ⟨1, secondId, 1782902100000⟩ := by
  have hmarker : readBounded secondSnapshot.snapshot "COMPLETE" (64 * 1024) = .ok secondMarker :=
    readBounded_eq rfl (Nat.le_trans sample_lengths.2.1 (by decide))
  have hmanifest : readBounded secondSnapshot.snapshot "manifest.json" MAX_BACKUP_MANIFEST_BYTES =
      .ok secondManifest := readBounded_eq rfl (Nat.le_trans sample_lengths.2.2.2 (by decide))
  simp only [readManifestMetadata, hmarker, hmanifest, sampleFormats, reads_second marker_ne, reads_second manifest_ne,
    digests_second manifest_ne, bind,
    Except.bind, ensure, FORMAT_VERSION, and_self, if_true]
  rfl

private lemma sample_published : ∀ c ∈ [firstSnapshot, secondSnapshot],
    Published sampleFormats c := by
  obtain ⟨hfirst, hsecond, hfirst', hsecond'⟩ := sample_lengths
  have hsize {marker manifest : List UInt8} (hm : marker.length ≤ 500)
      (hm' : manifest.length ≤ 500) : size [("COMPLETE", .file marker),
        ("database.sqlite3", .file []), ("blobs", .directory),
        ("manifest.json", .file manifest)] ≤ MAX_SNAPSHOT_BYTES := by
    change marker.length + (0 + (0 + (manifest.length + 0))) ≤ _
    exact Nat.le_trans (by omega) (show 1000 ≤ MAX_SNAPSHOT_BYTES by decide)
  intro c hc
  rcases List.mem_pair.1 hc with rfl | rfl
  · exact ⟨rfl, ⟨_, first_metadata, rfl⟩, by decide, by simp [firstSnapshot], by decide,
      hsize hfirst hfirst'⟩
  · exact ⟨rfl, ⟨_, second_metadata, rfl⟩, by decide, by simp [secondSnapshot], by decide,
      hsize hsecond hsecond'⟩

private lemma sample_repository : Repository sampleFormats [firstSnapshot, secondSnapshot] where
  published := sample_published
  paths := by decide +kernel
  times := by decide

private lemma sample_newest : newestFirst [firstSnapshot, secondSnapshot] =
    [secondSnapshot, firstSnapshot] := by
  have hsorted := pairwise_newestFirst sample_repository.times
  refine List.Perm.eq_of_pairwise ?_ hsorted (by decide)
    ((newestFirst_perm _).trans (.swap _ _ _))
  intro a b _ _ hab hba
  exact absurd hab (not_lt.2 hba.le)

/-- The older of two snapshots of an hour is not recent. -/
private lemma sample_not_recent :
    ¬ Recent (times [firstSnapshot, secondSnapshot]) firstSnapshot.created := by
  rintro (h | h)
  · exact absurd (h.newest 1782902100000 (by decide) (by decide)) (by decide)
  · exact absurd (h.newest 1782902100000 (by decide) (by decide)) (by decide)

/-- An interruption that leaves the metadata of the older snapshot. -/
theorem retention_right_resumed : Right sampleFormats [firstSnapshot, secondSnapshot]
    ⟨1, fun name => name = "COMPLETE" || name = "manifest.json"⟩ :=
  (retention_right_iff sample_repository _).2 ⟨by decide, fun _ _ _ => ⟨by decide, by decide⟩⟩

/-- An interruption that leaves the older snapshot without its marker: no later run gets past it. -/
theorem marker_removed_stuck : Repository sampleFormats [firstSnapshot, secondSnapshot] ∧
    ¬ Right sampleFormats [firstSnapshot, secondSnapshot] ⟨1, fun name => name ≠ "COMPLETE"⟩ := by
  refine ⟨sample_repository, fun hright => ?_⟩
  have hintact := intact_of_right sample_repository (by decide) hright firstSnapshot
    (by rw [sample_newest]; rfl) sample_not_recent
  exact absurd hintact.1 (by decide)

end Example

end AgentCoordinator.Backup
