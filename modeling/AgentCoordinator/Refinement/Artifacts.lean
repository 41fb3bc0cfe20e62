import Mathlib.Data.Int.Order.Basic
import AgentCoordinator.Artifacts

/-
What the artifact transactions write, and the invariant of the store.

The lock of a storage key carries the invariant: only the process that holds it changes the row or
the files of that key (`Store.Beside`), so a process only has to account for its own key, and what
every other process knows stays true.
-/

namespace AgentCoordinator

open Guarded Tabular Transition

namespace Artifacts

variable {crates : Crates} {S S' S₁ : Store}

/-! ### Time -/

section Time

variable {a : Artifact} {now now' : Time}

lemma Artifact.Live.earlier (h : a.Live now') (hle : now ≤ now') : a.Live now := by
  have hany : ∀ t : Option Time, t.any (fun t => now' < t) = true →
      t.any (fun t => now < t) = true := by
    intro t ht
    cases t with
    | none => exact ht
    | some t =>
      rw [Option.any_some, decide_eq_true_eq] at ht ⊢
      exact lt_of_le_of_lt hle ht
  rcases h with ⟨hstate, ht⟩ | ⟨hstate, hpinned | ht⟩
  · exact .inl ⟨hstate, hany _ ht⟩
  · exact .inr ⟨hstate, .inl hpinned⟩
  · exact .inr ⟨hstate, .inr (hany _ ht)⟩

lemma Artifact.Unavailable.later (h : a.Unavailable now) (hle : now ≤ now') :
    a.Unavailable now' := by
  have hany : ∀ t : Option Time, t.any (fun t => t ≤ now) = true →
      t.any (fun t => t ≤ now') = true := by
    intro t ht
    cases t with
    | none => exact ht
    | some t =>
      rw [Option.any_some, decide_eq_true_eq] at ht ⊢
      exact le_trans ht hle
  rcases h with hstate | ⟨hstate, ht⟩ | ⟨hstate, hpinned, ht⟩
  · exact .inl hstate
  · exact .inr (.inl ⟨hstate, hany _ ht⟩)
  · exact .inr (.inr ⟨hstate, hpinned, hany _ ht⟩)

/-- The cleanup spares what counts against the quota. -/
lemma Artifact.Live.not_unavailable (h : a.Live now) : ¬ a.Unavailable now := by
  have hany : ∀ t : Option Time, t.any (fun t => now < t) = true →
      t.any (fun t => t ≤ now) = true → False := by
    intro t ht ht'
    cases t with
    | none => exact absurd ht (by simp)
    | some t =>
      rw [Option.any_some, decide_eq_true_eq] at ht ht'
      exact absurd ht' (not_le.2 ht)
  rintro (hu | ⟨hu, hu'⟩ | ⟨hu, hunpinned, hu'⟩)
  · rcases h with ⟨hstate, -⟩ | ⟨hstate, -⟩ <;> rw [hu] at hstate <;> exact absurd hstate (by simp)
  · rcases h with ⟨-, ht⟩ | ⟨hstate, -⟩
    · exact hany _ ht hu'
    · rw [hu] at hstate
      exact absurd hstate (by simp)
  · rcases h with ⟨hstate, -⟩ | ⟨-, hpinned | ht⟩
    · rw [hu] at hstate
      exact absurd hstate (by simp)
    · rw [hunpinned] at hpinned
      exact absurd hpinned (by simp)
    · exact hany _ ht hu'

end Time

/-! ### What the transactions write -/

section Transactions

variable {auth : Auth} {project artifact : Id}

lemma artifactRow_ok {a : Artifact} (h : S.artifactRow project artifact = .ok a) :
    S.artifacts.get? artifact = some a ∧ a.project = project := by
  simp only [Store.artifactRow, okOr_eq_ok, Option.filter_eq_some_iff, decide_eq_true_eq] at h
  exact h

lemma createLink_ok {input : ArtifactLinkInput} (h : createLink crates S auth project input = .ok S') :
    ∃ actor mk hmk, (S.db.projects.get? project).isSome = true ∧
      (∀ id, (mk id).kind = .externalLink ∧ (mk id).storageKey = none ∧
        (mk id).project = project ∧ 0 ≤ (mk id).sizeBytes.getD 0) ∧
      S' = { S with
        db := S.db.finish actor "artifact.linked" S.artifacts.fresh
        artifacts := S.artifacts.create mk hmk } := by
  simp only [createLink, bind_eq_ok, refuseIf_eq_ok, okOr_eq_ok, pure_eq_ok] at h
  obtain ⟨-, -, -, -, -, -, -, hsize, -, -, actor, -, p, hp, -, -, retention, -, rfl⟩ := h
  refine ⟨actor, _, _, by simp [hp], fun id => ⟨rfl, rfl, rfl, ?_⟩, rfl⟩
  cases hn : input.sizeBytes with
  | none => exact le_rfl
  | some n =>
    rw [hn, Option.any_some, decide_eq_true_eq, not_lt] at hsize
    exact hsize

lemma reserveUpload_ok {input : ArtifactUploadInput} {key : Id}
    (h : reserveUpload S auth project input key = .ok S') :
    ∃ actor retention, (S.db.projects.get? project).isSome = true ∧ 0 ≤ input.sizeBytes ∧
      S.usedBytes + input.sizeBytes ≤ S.quota ∧
      S' = { S with
        db := S.db.finish actor "artifact.upload_reserved" S.artifacts.fresh
        artifacts := S.artifacts.create
          (reservation actor project input S.db.now retention key) } := by
  simp only [reserveUpload, validateSize, bind_eq_ok, refuseIf_eq_ok, okOr_eq_ok,
    pure_eq_ok] at h
  obtain ⟨-, -, -, -, -, hsize, -, -, actor, -, p, hp, -, -, -, hquota, retention, -, rfl⟩ := h
  exact ⟨actor, retention, by simp [hp], (not_not.1 hsize).1, not_lt.1 hquota, rfl⟩

lemma openUpload_ok {contentLength : Option Int} {a : Artifact}
    (h : openUpload S auth project artifact contentLength = .ok a) :
    S.artifacts.get? artifact = some a ∧ a.kind = .upload := by
  simp only [openUpload, bind_eq_ok, refuseIf_eq_ok, pure_eq_ok] at h
  obtain ⟨-, -, -, -, b, hb, -, hkind, -, -, -, -, -, -, rfl⟩ := h
  exact ⟨(artifactRow_ok hb).1, not_not.1 hkind⟩

/-- What of a row never changes. -/
structure Artifact.Same (a a' : Artifact) : Prop where
  id : a'.id = a.id
  project : a'.project = a.project
  kind : a'.kind = a.kind
  storageKey : a'.storageKey = a.storageKey
  sizeBytes : a'.sizeBytes = a.sizeBytes
  sha256 : a'.sha256 = a.sha256

lemma Artifact.Same.refl (a : Artifact) : a.Same a := ⟨rfl, rfl, rfl, rfl, rfl, rfl⟩

/-- The row of one artifact is rewritten by `f`; nothing else changes but the audit and the
receipts. -/
structure Store.Rewrites (S S' : Store) (artifact : Id) (f : Artifact → Artifact) : Prop where
  get : ∀ k, S'.artifacts.get? k
    = (S.artifacts.get? k).map fun a => if a.id = artifact then f a else a
  sum : ∀ g, S'.artifacts.sum g
    = S.artifacts.sum fun a => g (if a.id = artifact then f a else a)
  same : ∀ a : Artifact, a.Same (f a)
  now : S'.db.now = S.db.now
  projects : S'.db.projects = S.db.projects
  quota : S'.quota = S.quota
  blobs : S'.blobs = S.blobs
  parts : S'.parts = S.parts
  locks : S'.locks = S.locks
  processes : S'.processes = S.processes

/-- A live reservation of exactly these bytes is finalized. -/
lemma finalizeUpload_ok {content : Bytes}
    (h : finalizeUpload crates S auth project artifact content = .ok S') :
    ∃ a f, S.artifacts.get? artifact = some a ∧ a.state = .reserved ∧ a.Live S.db.now ∧
      a.sizeBytes = some (content.length : Int) ∧ a.sha256 = some (crates.sha256 content) ∧
      S.Rewrites S' artifact f ∧ S'.deletions = S.deletions ∧
      (∀ a, a.state = .deleted → (f a).state = .deleted) := by
  simp only [finalizeUpload, bind_eq_ok, refuseIf_eq_ok, pure_eq_ok] at h
  obtain ⟨actor, -, a, ha, -, -, -, hguard, rfl⟩ := h
  rw [not_or, not_or, not_or, not_not, not_not, not_not] at hguard
  obtain ⟨hstate, hexpires, hsize, hdigest⟩ := hguard
  refine ⟨a, fun a => if a.state = .reserved then
      { a with state := .finalized, finalizedAt := some S.db.now, reservationExpiresAt := none }
    else a, (artifactRow_ok ha).1, hstate, .inl ⟨hstate, ?_⟩, hsize, hdigest,
    ⟨fun k => ?_, fun g => ?_, fun a => ?_, rfl, rfl, rfl, rfl, rfl, rfl, rfl⟩, rfl,
    fun a hdeleted => ?_⟩
  · cases ht : a.reservationExpiresAt with
    | none => rw [ht] at hexpires; exact absurd rfl hexpires
    | some t =>
      rw [ht, Option.all_some, decide_eq_true_eq, not_le] at hexpires
      rwa [Option.any_some, decide_eq_true_eq]
  · rw [Table.get?_modify]
    congr 1
    funext a
    by_cases hid : a.id = artifact <;> simp [hid]
  · rw [Table.sum_modify]
    congr 1
    funext a
    by_cases hid : a.id = artifact <;> simp [hid]
  · split
    · exact ⟨rfl, rfl, rfl, rfl, rfl, rfl⟩
    · exact .refl a
  · have hne : ¬ a.state = .reserved := by rw [hdeleted]; decide
    simp only [if_neg hne]
    exact hdeleted

/-- A new retention of a row that is not deleted. -/
lemma updateRetention_ok {pinned : Bool} {days : Option Int}
    (h : updateRetention S auth project artifact pinned days = .ok S') :
    ∃ a f, S.artifacts.get? artifact = some a ∧ a.state ≠ .deleted ∧
      S.Rewrites S' artifact f ∧ S'.deletions = S.deletions ∧
      (∀ a, (f a).state = a.state ∧ (f a).reservationExpiresAt = a.reservationExpiresAt) := by
  simp only [updateRetention, bind_eq_ok, refuseIf_eq_ok, pure_eq_ok] at h
  obtain ⟨actor, -, a, ha, -, -, -, hstate, until_, -, rfl⟩ := h
  refine ⟨a, fun a => { a with pinned := pinned, retentionUntil := until_ },
    (artifactRow_ok ha).1, hstate, ⟨fun k => ?_, fun g => ?_, fun a => ⟨rfl, rfl, rfl, rfl, rfl, rfl⟩,
      rfl, rfl, rfl, rfl, rfl, rfl, rfl⟩, rfl, fun a => ⟨rfl, rfl⟩⟩
  · rw [Table.get?_modify]
  · rw [Table.sum_modify]

/-- A deletion keeps the row, as deleted. -/
lemma deleteArtifact_ok {reason : String}
    (h : deleteArtifact S auth project artifact reason = .ok S') :
    ∃ f, S.Rewrites S' artifact f ∧ S'.deletions = artifact :: S.deletions ∧
      (S.artifacts.get? artifact).isSome = true ∧ ∀ a, (f a).state = .deleted := by
  simp only [deleteArtifact, bind_eq_ok, refuseIf_eq_ok, pure_eq_ok] at h
  obtain ⟨-, -, actor, -, a, ha, -, -, -, hstate, rfl⟩ := h
  refine ⟨fun a => { a with
    state := .deleted
    deletedAt := some S.db.now
    deletedBy := some actor.id
    deletionReason := some reason }, ⟨fun k => ?_, fun g => ?_, fun a => ⟨rfl, rfl, rfl, rfl, rfl, rfl⟩,
      rfl, rfl, rfl, rfl, rfl, rfl, rfl⟩, rfl, ?_, fun a => rfl⟩
  · rw [Table.get?_modify]
  · rw [Table.sum_modify]
  · rw [(artifactRow_ok ha).1]
    rfl

end Transactions

/-! ### Rows and processes -/

/-- The content is the one the row describes. -/
def Artifact.Describes (crates : Crates) (a : Artifact) (content : Bytes) : Prop :=
  a.sizeBytes = some (content.length : Int) ∧ a.sha256 = some (crates.sha256 content)

/-- What the rows say of the blobs. -/
structure Rows (crates : Crates) (S : Store) : Prop where
  project : ∀ a ∈ S.artifacts, (S.db.projects.get? a.project).isSome = true
  keyed : ∀ a ∈ S.artifacts, a.kind = .upload → ∃ key size digest,
    a.storageKey = some key ∧ a.sizeBytes = some size ∧ a.sha256 = some digest
  unique : ∀ a ∈ S.artifacts, ∀ a' ∈ S.artifacts, ∀ key, a.storageKey = some key →
    a'.storageKey = some key → a = a'
  content : ∀ a ∈ S.artifacts, ∀ key file, a.storageKey = some key →
    S.blobs.get? key = some file → a.Describes crates file.content
  present : ∀ a ∈ S.artifacts, ∀ key, a.storageKey = some key → a.state = .finalized →
    a.Live S.db.now → (S.blobs.get? key).isSome = true
  deletions : ∀ id ∈ S.deletions, ∃ a, S.artifacts.get? id = some a ∧ a.state = .deleted

/-- No row needs the files of this key any more. -/
def Store.Removable (S : Store) (key : Id) : Prop :=
  ∀ a ∈ S.artifacts, a.storageKey = some key → a.Unavailable S.db.now

/-- What an upload knows in each stage. -/
def Store.Uploads (crates : Crates) (S : Store) (key : Id) (size : Int) (digest : String) :
    UploadStage → Prop
  | .opened => True
  | .receiving received => S.parts.get? key = some ⟨key, received⟩
  | .staged content => S.parts.get? key = some ⟨key, content⟩ ∧ size = content.length ∧
    digest = crates.sha256 content
  | .published content => (S.blobs.get? key).isSome = true ∧ size = content.length ∧
    digest = crates.sha256 content

/-- What a process knows. -/
def Store.Works (crates : Crates) (S : Store) : Process → Prop
  | .upload _ _ artifact key size digest stage =>
    (∃ a ∈ S.artifacts, a.id = artifact ∧ a.storageKey = some key ∧ a.sizeBytes = some size ∧
      a.sha256 = some digest) ∧ S.Uploads crates key size digest stage
  | .change _ _ artifact _ key stage =>
    (∃ a ∈ S.artifacts, a.id = artifact ∧ a.storageKey = key) ∧
      (stage = .removing → ∀ k ∈ key, S.Removable k)
  | .sweep why _ stage => (∀ t, why = .expired t → t ≤ S.db.now) ∧
    ∀ key, stage = .removing key → S.Removable key

/-- A process that holds a lock has its lock file, and what it knows is true. -/
structure Store.Runs (crates : Crates) (S : Store) (r : Running) : Prop where
  locked : ∀ key, r.process.holds = some key → S.locks.get? key = some ⟨key, r.id⟩
  works : S.Works crates r.process

/-- The rows are as they should be, and so are the processes other than `but`. -/
structure Store.SoundBut (crates : Crates) (but : Id → Prop) (S : Store) : Prop where
  rows : Rows crates S
  running : ∀ r ∈ S.processes, ¬ but r.id → S.Runs crates r

/-- The invariant of the store. -/
abbrev Store.Sound (crates : Crates) (S : Store) : Prop := S.SoundBut crates fun _ => False

/-! ### Changes under one key -/

/-- Only what belongs to this storage key may have changed. -/
structure Store.Beside (S S' : Store) (key : Option Id) : Prop where
  now : S.db.now ≤ S'.db.now
  locks : ∀ x, some x ≠ key → S'.locks.get? x = S.locks.get? x
  parts : ∀ x, some x ≠ key → S'.parts.get? x = S.parts.get? x
  blobs : ∀ x, some x ≠ key → S'.blobs.get? x = S.blobs.get? x
  kept : ∀ a ∈ S.artifacts, ∃ a' ∈ S'.artifacts, a.Same a'
  back : ∀ a' ∈ S'.artifacts, a'.storageKey ≠ key → a' ∈ S.artifacts

section Beside

variable {key : Option Id} {r : Running} {id : Id}

lemma Store.Removable.beside {k : Id} (h : S.Removable k) (hb : S.Beside S' key)
    (hne : some k ≠ key) : S'.Removable k := fun a' ha' hk =>
  (h a' (hb.back a' ha' (hk ▸ hne)) hk).later hb.now

/-- A process that holds another lock is not disturbed. -/
lemma Store.Runs.beside {l : Option Id} (h : S.Runs crates r) (hb : S.Beside S' l)
    (hne : ∀ x, r.process.holds = some x → some x ≠ l) : S'.Runs crates r := by
  have hrow : ∀ {p : Artifact → Prop}, (∀ a a', a.Same a' → p a → p a') →
      (∃ a ∈ S.artifacts, p a) → ∃ a ∈ S'.artifacts, p a := by
    rintro p hsame ⟨a, ha, hp⟩
    obtain ⟨a', ha', hs⟩ := hb.kept a ha
    exact ⟨a', ha', hsame a a' hs hp⟩
  refine ⟨fun x hx => (hb.locks x (hne x hx)).trans (h.locked x hx), ?_⟩
  have hworks := h.works
  obtain ⟨rid, process⟩ := r
  cases process with
  | upload auth project artifact k size digest stage =>
    refine ⟨hrow (fun a a' hs hp => ⟨hs.id.trans hp.1, hs.storageKey.trans hp.2.1,
      hs.sizeBytes.trans hp.2.2.1, hs.sha256.trans hp.2.2.2⟩) hworks.1, ?_⟩
    cases stage with
    | opened => trivial
    | receiving received => exact (hb.parts k (hne k rfl)).trans hworks.2
    | staged content => exact ⟨(hb.parts k (hne k rfl)).trans hworks.2.1, hworks.2.2⟩
    | published content =>
      refine ⟨?_, hworks.2.2⟩
      rw [hb.blobs k (hne k rfl)]
      exact hworks.2.1
  | change auth project artifact change k stage =>
    refine ⟨hrow (fun a a' hs hp => ⟨hs.id.trans hp.1, hs.storageKey.trans hp.2⟩) hworks.1,
      fun hstage x hx => ?_⟩
    subst hstage
    exact (hworks.2 rfl x hx).beside hb (hne x hx)
  | sweep why keys stage =>
    refine ⟨fun t ht => le_trans (hworks.1 t ht) hb.now, fun k hstage => ?_⟩
    subst hstage
    exact (hworks.2 k rfl).beside hb (hne k rfl)

/-- Two processes do not hold the lock of one key. -/
lemma Store.SoundBut.holds_ne (hs : S.Sound crates) {r' : Running} (hr : r ∈ S.processes)
    (hr' : r' ∈ S.processes) (hid : r'.id ≠ r.id) :
    ∀ x, r'.process.holds = some x → some x ≠ r.process.holds := by
  intro x hx hheld
  have hlock := (hs.running r hr fun h => h).locked x hheld.symm
  have hlock' := (hs.running r' hr' fun h => h).locked x hx
  rw [hlock] at hlock'
  exact hid (congrArg LockFile.holder (Option.some.inj hlock')).symm

/-- A change under a key whose lock no other process holds leaves all others undisturbed. -/
lemma Store.SoundBut.beside (hs : S.Sound crates) (hb : S.Beside S' key)
    (hprocesses : S'.processes = S.processes) (hrows : Rows crates S')
    (hfree : ∀ r ∈ S.processes, r.id ≠ id → ∀ x, r.process.holds = some x → some x ≠ key) :
    S'.SoundBut crates (· = id) := by
  refine ⟨hrows, fun r hr hne => ?_⟩
  rw [hprocesses] at hr
  exact (hs.running r hr fun h => h).beside hb (hfree r hr hne)

/-- The remaining process is put in a stage in which what it knows is true. -/
lemma Store.SoundBut.put {process : Process} (hs : S.SoundBut crates (· = id))
    (hp : S.Runs crates ⟨id, process⟩) :
    { S with processes := S.processes.put ⟨id, process⟩ }.Sound crates := by
  refine ⟨⟨hs.rows.project, hs.rows.keyed, hs.rows.unique, hs.rows.content, hs.rows.present,
    hs.rows.deletions⟩, fun r hr _ => ?_⟩
  rcases Table.mem_put.1 hr with rfl | ⟨hmem, hne⟩
  · exact ⟨hp.locked, hp.works⟩
  · exact ⟨(hs.running r hmem hne).locked, (hs.running r hmem hne).works⟩

lemma Rows.congr (h : Rows crates S) (artifacts : S'.artifacts = S.artifacts)
    (blobs : S'.blobs = S.blobs) (now : S.db.now ≤ S'.db.now)
    (projects : ∀ k, (S.db.projects.get? k).isSome = true →
      (S'.db.projects.get? k).isSome = true)
    (deletions : S'.deletions = S.deletions) : Rows crates S' := by
  refine ⟨?_, ?_, ?_, ?_, ?_, ?_⟩
  · rw [artifacts]
    exact fun a ha => projects _ (h.project a ha)
  · rw [artifacts]
    exact h.keyed
  · rw [artifacts]
    exact h.unique
  · rw [artifacts, blobs]
    exact h.content
  · rw [artifacts, blobs]
    exact fun a ha k hk hstate hlive => h.present a ha k hk hstate (hlive.earlier now)
  · rw [artifacts, deletions]
    exact h.deletions

/-- A new row whose key nothing has. -/
lemma Rows.create {db : Db} {mk : Id → Artifact} {hmk : ∀ k, Keyed.key (mk k) = k}
    (h : Rows crates S) (now : db.now = S.db.now) (projects : db.projects = S.db.projects)
    (hproject : (S.db.projects.get? (mk S.artifacts.fresh).project).isSome = true)
    (hkeyed : (mk S.artifacts.fresh).kind = .upload → ∃ key size digest,
      (mk S.artifacts.fresh).storageKey = some key ∧
        (mk S.artifacts.fresh).sizeBytes = some size ∧
        (mk S.artifacts.fresh).sha256 = some digest)
    (hunused : ∀ key, (mk S.artifacts.fresh).storageKey = some key →
      (∀ a ∈ S.artifacts, a.storageKey ≠ some key) ∧ S.blobs.get? key = none)
    (hstate : (mk S.artifacts.fresh).storageKey.isSome = true →
      (mk S.artifacts.fresh).state ≠ .finalized) :
    Rows crates { S with db := db, artifacts := S.artifacts.create mk hmk } := by
  have hmem : ∀ a ∈ S.artifacts.create mk hmk, a ∈ S.artifacts ∨ a = mk S.artifacts.fresh :=
    fun a ha => Table.mem_create.1 ha
  refine ⟨fun a ha => ?_, fun a ha hkind => ?_, fun a ha a' ha' key hk hk' => ?_,
    fun a ha key file hk hfile => ?_, fun a ha key hk hfinal hlive => ?_, fun id hid => ?_⟩
  · change (db.projects.get? a.project).isSome = true
    rw [projects]
    rcases hmem a ha with ha | rfl
    · exact h.project a ha
    · exact hproject
  · rcases hmem a ha with ha | rfl
    · exact h.keyed a ha hkind
    · exact hkeyed hkind
  · rcases hmem a ha with ha | rfl <;> rcases hmem a' ha' with ha' | rfl
    · exact h.unique a ha a' ha' key hk hk'
    · exact absurd hk ((hunused key hk').1 a ha)
    · exact absurd hk' ((hunused key hk).1 a' ha')
    · rfl
  · rcases hmem a ha with ha | rfl
    · exact h.content a ha key file hk hfile
    · exact absurd hfile (by simp [(hunused key hk).2])
  · rcases hmem a ha with ha | rfl
    · exact h.present a ha key hk hfinal (now ▸ hlive)
    · exact absurd hfinal (hstate (by rw [hk]; rfl))
  · obtain ⟨a, ha, hdeleted⟩ := h.deletions id hid
    refine ⟨a, ?_, hdeleted⟩
    change (S.artifacts.create mk hmk).get? id = some a
    rw [Table.get?_create, if_neg (Table.ne_fresh ha), ha]

/-- The blob of one key is written, as its row describes it, or removed while no row needs it. -/
lemma Rows.blob {k : Id} (h : Rows crates S) (artifacts : S'.artifacts = S.artifacts)
    (db : S'.db = S.db) (deletions : S'.deletions = S.deletions)
    (blobs : ∀ x, x ≠ k → S'.blobs.get? x = S.blobs.get? x)
    (hcontent : ∀ a ∈ S.artifacts, a.storageKey = some k → ∀ file,
      S'.blobs.get? k = some file → a.Describes crates file.content)
    (hpresent : (S'.blobs.get? k).isSome = true ∨ S.Removable k) : Rows crates S' := by
  refine ⟨?_, ?_, ?_, ?_, ?_, ?_⟩
  · rw [artifacts, db]
    exact h.project
  · rw [artifacts]
    exact h.keyed
  · rw [artifacts]
    exact h.unique
  · rw [artifacts]
    intro a ha key file hk hfile
    by_cases hkey : key = k
    · subst hkey
      exact hcontent a ha hk file hfile
    · exact h.content a ha key file hk (by rw [← blobs key hkey, hfile])
  · rw [artifacts, db]
    intro a ha key hk hstate hlive
    by_cases hkey : key = k
    · subst hkey
      exact hpresent.resolve_right fun hremovable => hlive.not_unavailable (hremovable a ha hk)
    · rw [blobs key hkey]
      exact h.present a ha key hk hstate hlive
  · rw [artifacts, deletions]
    exact h.deletions

/-- The process ends. -/
lemma Store.SoundBut.drop (hs : S.SoundBut crates (· = r.id))
    (hfree : ∀ r' ∈ S.processes, r'.id ≠ r.id → ∀ x, r'.process.holds = some x →
      some x ≠ r.process.holds) : (S.drop r).Sound crates := by
  refine ⟨hs.rows.congr rfl rfl le_rfl (fun _ h => h) rfl, fun r' hr' _ => ?_⟩
  obtain ⟨hmem, hne⟩ := Table.mem_erase.1 hr'
  refine (hs.running r' hmem hne).beside (l := r.process.holds) ⟨le_rfl, fun x hx => ?_,
    fun _ _ => rfl, fun _ _ => rfl, fun a ha => ⟨a, ha, .refl a⟩, fun a ha _ => ha⟩
    (hfree r' hmem hne)
  change (r.process.holds.elim S.locks S.locks.erase).get? x = S.locks.get? x
  cases hheld : r.process.holds with
  | none => rfl
  | some k =>
    rw [Option.elim_some, Table.get?_erase, if_neg fun h => hx (by rw [h, hheld])]

end Beside

/-! ### A row is rewritten -/

namespace Store.Rewrites

variable {artifact : Id} {f : Artifact → Artifact}

lemma mem (h : S.Rewrites S' artifact f) {a' : Artifact} (ha' : a' ∈ S'.artifacts) :
    ∃ a ∈ S.artifacts, a' = if a.id = artifact then f a else a := by
  have hget := h.get a'.id
  rw [show S'.artifacts.get? a'.id = some a' from Table.get?_of_mem ha'] at hget
  obtain ⟨a, ha, rfl⟩ := Option.map_eq_some_iff.1 hget.symm
  exact ⟨a, Table.mem_of_get? ha, rfl⟩

lemma same_of (h : S.Rewrites S' artifact f) (a : Artifact) :
    a.Same (if a.id = artifact then f a else a) := by
  split
  · exact h.same a
  · exact .refl a

lemma kept (h : S.Rewrites S' artifact f) {a : Artifact} (ha : a ∈ S.artifacts) :
    (if a.id = artifact then f a else a) ∈ S'.artifacts := by
  have hget := h.get a.id
  rw [show S.artifacts.get? a.id = some a from Table.get?_of_mem ha, Option.map_some] at hget
  exact Table.mem_of_get? hget

/-- The rows stay as they should be, if the rewritten row needs no blob that is not there. -/
lemma rows (h : S.Rewrites S' artifact f) (hrows : Rows crates S)
    (hdeleted : ∀ a, a.state = .deleted → (f a).state = .deleted)
    (hpresent : ∀ a key, S.artifacts.get? artifact = some a → a.storageKey = some key →
      (f a).state = .finalized → (S.blobs.get? key).isSome = true)
    (hreceipt : S'.deletions = S.deletions ∨
      (S'.deletions = artifact :: S.deletions ∧ (S.artifacts.get? artifact).isSome = true ∧
        ∀ a, (f a).state = .deleted)) : Rows crates S' := by
  have hkeeps : ∀ id a, S.artifacts.get? id = some a → a.state = .deleted →
      ∃ a, S'.artifacts.get? id = some a ∧ a.state = .deleted := by
    intro id a ha hstate
    refine ⟨if a.id = artifact then f a else a, (h.get id).trans (by rw [ha]; rfl), ?_⟩
    split
    · exact hdeleted a hstate
    · exact hstate
  refine ⟨fun a' ha' => ?_, fun a' ha' hkind => ?_, fun a₁ ha₁ a₂ ha₂ key hk₁ hk₂ => ?_,
    fun a' ha' key file hk hfile => ?_, fun a' ha' key hk hfinal hlive => ?_, fun id hid => ?_⟩
  · obtain ⟨a, ha, rfl⟩ := h.mem ha'
    rw [h.projects, (h.same_of a).project]
    exact hrows.project a ha
  · obtain ⟨a, ha, rfl⟩ := h.mem ha'
    rw [(h.same_of a).kind] at hkind
    rw [(h.same_of a).storageKey, (h.same_of a).sizeBytes, (h.same_of a).sha256]
    exact hrows.keyed a ha hkind
  · obtain ⟨b₁, hb₁, rfl⟩ := h.mem ha₁
    obtain ⟨b₂, hb₂, rfl⟩ := h.mem ha₂
    rw [(h.same_of _).storageKey] at hk₁ hk₂
    rw [hrows.unique b₁ hb₁ b₂ hb₂ key hk₁ hk₂]
  · obtain ⟨a, ha, rfl⟩ := h.mem ha'
    rw [(h.same_of a).storageKey] at hk
    rw [h.blobs] at hfile
    obtain ⟨hsize, hdigest⟩ := hrows.content a ha key file hk hfile
    exact ⟨(h.same_of a).sizeBytes.trans hsize, (h.same_of a).sha256.trans hdigest⟩
  · obtain ⟨a, ha, rfl⟩ := h.mem ha'
    rw [(h.same_of a).storageKey] at hk
    rw [h.blobs]
    by_cases hid : a.id = artifact
    · rw [if_pos hid] at hfinal
      exact hpresent a key (hid ▸ Table.get?_of_mem ha) hk hfinal
    · rw [if_neg hid] at hfinal hlive
      rw [h.now] at hlive
      exact hrows.present a ha key hk hfinal hlive
  · rcases hreceipt with hsame | ⟨hcons, hsome, hall⟩
    · rw [hsame] at hid
      obtain ⟨a, ha, hstate⟩ := hrows.deletions id hid
      exact hkeeps id a ha hstate
    · rw [hcons] at hid
      rcases List.mem_cons.1 hid with rfl | hid
      · obtain ⟨a, ha⟩ := Option.isSome_iff_exists.1 hsome
        refine ⟨if a.id = id then f a else a, (h.get id).trans (by rw [ha]; rfl), ?_⟩
        have hid : a.id = id := Table.key_of_get? ha
        rw [if_pos hid]
        exact hall a
      · obtain ⟨a, ha, hstate⟩ := hrows.deletions id hid
        exact hkeeps id a ha hstate

/-- Only the files of the row's own key are concerned. -/
lemma beside (h : S.Rewrites S' artifact f) {key : Option Id}
    (hkey : ∀ a, S.artifacts.get? artifact = some a → a.storageKey = key) :
    S.Beside S' key where
  now := by rw [h.now]
  locks _ _ := by rw [h.locks]
  parts _ _ := by rw [h.parts]
  blobs _ _ := by rw [h.blobs]
  kept a ha := ⟨_, h.kept ha, h.same_of a⟩
  back a' ha' hne := by
    obtain ⟨a, ha, rfl⟩ := h.mem ha'
    rw [(h.same_of a).storageKey] at hne
    have hid : a.id ≠ artifact := fun hid => hne (hkey a (hid ▸ Table.get?_of_mem ha))
    rwa [if_neg hid]

end Store.Rewrites

end Artifacts

end AgentCoordinator
