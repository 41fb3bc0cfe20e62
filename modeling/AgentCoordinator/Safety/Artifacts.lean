import AgentCoordinator.Refinement.Artifacts
import AgentCoordinator.Scenario

/-
A finalized artifact that is retained is really there.

The rows and files of the store stay as they should be in every run in which no retention is granted
to an upload that expired and whose blob a cleanup has removed; the service does grant such
retentions.
-/

namespace AgentCoordinator

open Guarded Tabular Transition

namespace Artifacts

variable {crates : Crates} {S S' S₁ S₀ : Store}

/-! ### Steps of a process -/

section Process

variable {id : Id} {process : Process} {key : Id}

lemma Store.SoundBut.weaken {but : Id → Prop} (hs : S.Sound crates) : S.SoundBut crates but :=
  ⟨hs.rows, fun r hr _ => hs.running r hr fun h => h⟩

lemma Store.SoundBut.free (hs : S.Sound crates) (h : S.locks.get? key = none) :
    ∀ r ∈ S.processes, ∀ x, r.process.holds = some x → some x ≠ some key := by
  rintro r hr x hx hkey
  obtain rfl := Option.some.inj hkey
  have hlock := (hs.running r hr fun h => h).locked x hx
  rw [h] at hlock
  exact absurd hlock (by simp)

/-- A process may end at any time. -/
lemma Store.SoundBut.ends (hs : S.Sound crates) {r : Running} (hr : r ∈ S.processes) :
    (S.drop r).Sound crates :=
  hs.weaken.drop fun _ hr' hne => hs.holds_ne hr hr' hne

/-- A process goes on, with changes that concern only the key whose lock it holds. -/
lemma Store.SoundBut.goes {T : Store} {next : Process} (hs : S.Sound crates)
    (hr : ⟨id, process⟩ ∈ S.processes) (hb : S.Beside T process.holds)
    (hprocesses : T.processes = S.processes) (hrows : Rows crates T)
    (hp : T.Runs crates ⟨id, next⟩) :
    { T with processes := T.processes.put ⟨id, next⟩ }.Sound crates :=
  (hs.beside hb hprocesses hrows fun _ hr' hne => hs.holds_ne hr hr' hne).put hp

/-- A process ends, after changes that concern only the key whose lock it holds. -/
lemma Store.SoundBut.fails (hs : S.Sound crates) (hr : ⟨id, process⟩ ∈ S.processes)
    (hb : S.Beside S₁ process.holds) (hprocesses : S₁.processes = S.processes)
    (hrows : Rows crates S₁) : (S₁.drop ⟨id, process⟩).Sound crates := by
  refine (hs.beside hb hprocesses hrows fun _ hr' hne => hs.holds_ne hr hr' hne).drop ?_
  rw [hprocesses]
  exact fun _ hr' hne => hs.holds_ne hr hr' hne

lemma Store.Beside.refl (key : Option Id) : S.Beside S key :=
  ⟨le_rfl, fun _ _ => rfl, fun _ _ => rfl, fun _ _ => rfl, fun a ha => ⟨a, ha, .refl a⟩,
    fun _ ha _ => ha⟩

/-- Taking a free lock concerns only its key. -/
lemma Store.Beside.lock (lock : LockFile) (parts : Table File)
    (hparts : ∀ x, x ≠ lock.key → parts.get? x = S.parts.get? x) :
    S.Beside { S with locks := S.locks.put lock, parts := parts } (some lock.key) := by
  refine ⟨le_rfl, fun x hx => ?_, fun x hx => hparts x fun h => hx (h ▸ rfl),
    fun _ _ => rfl, fun a ha => ⟨a, ha, .refl a⟩, fun _ ha _ => ha⟩
  have hne : x ≠ Keyed.key lock := fun h => hx (h ▸ rfl)
  change (S.locks.put lock).get? x = _
  rw [Table.get?_put, if_neg hne]

/-- A process takes a free lock. -/
lemma Store.SoundBut.takes {next : Process} {parts : Table File} (hs : S.Sound crates)
    (hfree : ¬ (S.locks.get? key).isSome = true)
    (hparts : ∀ x, x ≠ key → parts.get? x = S.parts.get? x) (hholds : next.holds = some key)
    (hworks : { S with locks := S.locks.put ⟨key, id⟩, parts := parts }.Works crates next) :
    { S with
      locks := S.locks.put ⟨key, id⟩
      parts := parts
      processes := S.processes.put ⟨id, next⟩ }.Sound crates := by
  have hnone : S.locks.get? key = none := Option.not_isSome_iff_eq_none.1 hfree
  refine Store.SoundBut.put (S := { S with locks := S.locks.put ⟨key, id⟩, parts := parts })
    (hs.beside (.lock ⟨key, id⟩ parts hparts) rfl
      (hs.rows.congr rfl rfl le_rfl (fun _ h => h) rfl) fun r hr _ => hs.free hnone r hr)
    ⟨fun x hx => ?_, hworks⟩
  obtain rfl := Option.some.inj (hholds.symm.trans hx)
  exact (Table.get?_put ..).trans (if_pos rfl)

lemma Store.SoundBut.acquire (hs : S.Sound crates) (hr : ⟨id, process⟩ ∈ S.processes)
    (h : S.acquire ⟨id, process⟩ = some S') : S'.Sound crates := by
  have hworks := (hs.running _ hr fun h => h).works
  cases process with
  | upload auth project artifact key size digest stage =>
    cases stage with
    | opened =>
      simp only [Store.acquire] at h
      split at h
      · obtain rfl := Option.some.inj h
        exact hs.ends hr
      · next hfree =>
        obtain rfl := Option.some.inj h
        refine hs.takes hfree (fun x hx => ?_) rfl ⟨hworks.1, ?_⟩
        · exact (Table.get?_put ..).trans (if_neg hx)
        · exact (Table.get?_put ..).trans (if_pos rfl)
    | _ => exact absurd h (by simp [Store.acquire])
  | change auth project artifact change key stage =>
    cases stage with
    | opened =>
      cases key with
      | none =>
        obtain rfl := Option.some.inj h
        exact hs.goes hr (.refl _) rfl hs.rows
          ⟨fun x hx => absurd hx (by simp [Process.holds]), hworks.1,
            fun h => absurd h (by simp)⟩
      | some key =>
        simp only [Store.acquire] at h
        split at h
        · obtain rfl := Option.some.inj h
          exact hs.ends hr
        · next hfree =>
          obtain rfl := Option.some.inj h
          exact hs.takes hfree (fun _ _ => rfl) rfl ⟨hworks.1, fun h => absurd h (by simp)⟩
    | _ => exact absurd h (by simp [Store.acquire])
  | sweep why keys stage =>
    cases stage with
    | between =>
      cases keys with
      | nil =>
        obtain rfl := Option.some.inj h
        exact hs.ends hr
      | cons key keys =>
        simp only [Store.acquire] at h
        split at h
        · obtain rfl := Option.some.inj h
          exact hs.goes hr (.refl _) rfl hs.rows
            ⟨fun x hx => absurd hx (by simp [Process.holds]), hworks.1,
              fun _ h => absurd h (by simp)⟩
        · next hfree =>
          obtain rfl := Option.some.inj h
          exact hs.takes hfree (fun _ _ => rfl) rfl ⟨hworks.1, fun _ h => absurd h (by simp)⟩
    | _ => exact absurd h (by simp [Store.acquire])

/-- Writing or removing the staging file of one key. -/
lemma Store.Beside.part (parts : Table File) (hparts : ∀ x, x ≠ key → parts.get? x = S.parts.get? x) :
    S.Beside { S with parts := parts } (some key) :=
  ⟨le_rfl, fun _ _ => rfl, fun x hx => hparts x fun h => hx (h ▸ rfl), fun _ _ => rfl,
    fun a ha => ⟨a, ha, .refl a⟩, fun _ ha _ => ha⟩

lemma get?_erase_of_ne {t : Table File} {x : Id} (hx : x ≠ key) :
    (t.erase key).get? x = t.get? x :=
  (Table.get?_erase ..).trans (if_neg hx)

lemma get?_put_of_ne {t : Table File} {content : Bytes} {x : Id} (hx : x ≠ key) :
    (t.put ⟨key, content⟩).get? x = t.get? x :=
  (Table.get?_put ..).trans (if_neg hx)

lemma Store.SoundBut.receive {data : Bytes} (hs : S.Sound crates)
    (hr : ⟨id, process⟩ ∈ S.processes) (h : S.receive ⟨id, process⟩ data = some S') :
    S'.Sound crates := by
  have hruns := hs.running _ hr fun h => h
  cases process with
  | upload auth project artifact key size digest stage =>
    cases stage with
    | receiving received =>
      have hrows : ∀ parts, Rows crates { S with parts := parts } := fun parts =>
        hs.rows.congr rfl rfl le_rfl (fun _ h => h) rfl
      simp only [Store.receive] at h
      split at h
      · obtain rfl := Option.some.inj h
        exact hs.fails hr (.part _ fun x hx => get?_erase_of_ne hx) rfl (hrows _)
      · obtain rfl := Option.some.inj h
        refine hs.goes (T := { S with parts := S.parts.put ⟨key, received ++ data⟩ }) hr
          (.part _ fun x hx => get?_put_of_ne hx) rfl (hrows _)
          ⟨hruns.locked, hruns.works.1, ?_⟩
        exact (Table.get?_put ..).trans (if_pos rfl)
    | _ => exact absurd h (by simp [Store.receive])
  | _ => exact absurd h (by simp [Store.receive])

lemma Store.SoundBut.verify (hs : S.Sound crates) (hr : ⟨id, process⟩ ∈ S.processes)
    (h : S.verify crates ⟨id, process⟩ = some S') : S'.Sound crates := by
  have hruns := hs.running _ hr fun h => h
  cases process with
  | upload auth project artifact key size digest stage =>
    cases stage with
    | receiving received =>
      simp only [Store.verify] at h
      split at h
      · obtain rfl := Option.some.inj h
        exact hs.fails hr (.part _ fun x hx => get?_erase_of_ne hx) rfl
          (hs.rows.congr rfl rfl le_rfl (fun _ h => h) rfl)
      · next hmatch =>
        obtain rfl := Option.some.inj h
        rw [not_or, not_not, not_not] at hmatch
        exact hs.goes hr (.refl _) rfl hs.rows ⟨hruns.locked, hruns.works.1,
          hruns.works.2, hmatch.1.symm, hmatch.2.symm⟩
    | _ => exact absurd h (by simp [Store.verify])
  | _ => exact absurd h (by simp [Store.verify])

lemma Store.SoundBut.publish (hs : S.Sound crates) (hr : ⟨id, process⟩ ∈ S.processes)
    (h : S.publish crates ⟨id, process⟩ = some S') : S'.Sound crates := by
  have hruns := hs.running _ hr fun h => h
  cases process with
  | upload auth project artifact key size digest stage =>
    cases stage with
    | staged content =>
      obtain ⟨⟨a, ha, hid, hkey, hasize, hadigest⟩, hpart, hsize, hdigest⟩ := hruns.works
      have hrows : ∀ parts, Rows crates { S with parts := parts } := fun parts =>
        hs.rows.congr rfl rfl le_rfl (fun _ h => h) rfl
      simp only [Store.publish] at h
      split at h
      · next blob hblob =>
        split at h
        · obtain rfl := Option.some.inj h
          exact hs.fails hr (.part _ fun x hx => get?_erase_of_ne hx) rfl (hrows _)
        · obtain rfl := Option.some.inj h
          refine hs.goes (T := { S with parts := S.parts.erase key }) hr
            (.part _ fun x hx => get?_erase_of_ne hx) rfl (hrows _)
            ⟨hruns.locked, ⟨a, ha, hid, hkey, hasize, hadigest⟩, ?_, hsize, hdigest⟩
          exact Option.isSome_iff_exists.2 ⟨blob, hblob⟩
      · rw [hpart, Option.map_some] at h
        obtain rfl := Option.some.inj h
        have hblob : (S.blobs.put ⟨key, content⟩).get? key = some ⟨key, content⟩ :=
          (Table.get?_put ..).trans (if_pos rfl)
        refine hs.goes (T := { S with
            blobs := S.blobs.put ⟨key, content⟩
            parts := S.parts.erase key }) hr
          ⟨le_rfl, fun _ _ => rfl, fun x hx => get?_erase_of_ne fun h => hx (h ▸ rfl),
            fun x hx => get?_put_of_ne fun h => hx (h ▸ rfl),
            fun a ha => ⟨a, ha, .refl a⟩, fun _ ha _ => ha⟩ rfl
          (hs.rows.blob rfl rfl rfl (fun x hx => get?_put_of_ne hx)
            (fun a' ha' hkey' file hfile => ?_) (.inl ?_))
          ⟨hruns.locked, ⟨a, ha, hid, hkey, hasize, hadigest⟩, ?_, hsize, hdigest⟩
        · -- the row under this key is the one the upload has read
          obtain rfl := hs.rows.unique a ha a' ha' key hkey hkey'
          obtain rfl := Option.some.inj (hblob.symm.trans hfile)
          exact ⟨hasize.trans (congrArg some hsize), hadigest.trans (congrArg some hdigest)⟩
        · exact Option.isSome_iff_exists.2 ⟨_, hblob⟩
        · exact Option.isSome_iff_exists.2 ⟨_, hblob⟩
    | _ => exact absurd h (by simp [Store.publish])
  | _ => exact absurd h (by simp [Store.publish])

/-- The row of a process is the one with its artifact's identity. -/
lemma Rows.storageKey_of {artifact : Id} {key : Option Id}
    (h : ∃ a ∈ S.artifacts, a.id = artifact ∧ a.storageKey = key) {a : Artifact}
    (ha : S.artifacts.get? artifact = some a) : a.storageKey = key := by
  obtain ⟨a', ha', hid, hkey⟩ := h
  rw [← hid, show S.artifacts.get? a'.id = some a' from Table.get?_of_mem ha'] at ha
  obtain rfl := Option.some.inj ha
  exact hkey

lemma Store.SoundBut.finalizes {auth : Auth} {project artifact : Id} {size : Int}
    {digest : String} {content : Bytes} (hs : S.Sound crates)
    (hr : ⟨id, .upload auth project artifact key size digest (.published content)⟩ ∈ S.processes)
    (h : finalizeUpload crates S auth project artifact content = .ok S') :
    (S'.drop ⟨id, .upload auth project artifact key size digest (.published content)⟩).Sound
      crates := by
  obtain ⟨⟨a, ha, hid, hkey, -, -⟩, hblob, -, -⟩ := (hs.running _ hr fun h => h).works
  obtain ⟨-, f, -, -, -, -, -, hw, hdeletions, hdeleted⟩ := finalizeUpload_ok h
  have hkeyed : ∀ a, S.artifacts.get? artifact = some a → a.storageKey = some key :=
    fun _ => Rows.storageKey_of ⟨a, ha, hid, hkey⟩
  refine hs.fails hr (hw.beside hkeyed) hw.processes
    (hw.rows hs.rows hdeleted (fun a key' ha hkey' _ => ?_) (.inl hdeletions))
  rw [hkeyed a ha] at hkey'
  obtain rfl := Option.some.inj hkey'
  exact hblob

/-- The process is about to commit a retention of an upload that is finalized and has expired, and
whose blob a cleanup has removed. -/
def Store.Revives (S : Store) (r : Running) : Prop :=
  match r.process with
  | .change _ _ artifact (.retention ..) _ .locked =>
    ∃ a ∈ S.artifacts.get? artifact, a.state = .finalized ∧ ¬ a.Live S.db.now ∧
      ∃ key ∈ a.storageKey, S.blobs.get? key = none
  | _ => False

instance (S : Store) (r : Running) : Decidable (S.Revives r) := by
  obtain ⟨id, process⟩ := r
  rcases process with _ | ⟨_, _, _, change, _, stage⟩ | _
  · exact instDecidableFalse
  · rcases change with _ | _ <;> rcases stage with _ | _ | _ <;>
      (dsimp only [Store.Revives]; infer_instance)
  · exact instDecidableFalse

lemma Store.SoundBut.retains {auth : Auth} {project artifact : Id} {pinned : Bool}
    {days : Option Int} {key : Option Id} (hs : S.Sound crates)
    (hr : ⟨id, .change auth project artifact (.retention pinned days) key .locked⟩ ∈ S.processes)
    (hspares : ¬ S.Revives ⟨id, .change auth project artifact (.retention pinned days) key .locked⟩)
    (h : updateRetention S auth project artifact pinned days = .ok S') :
    (S'.drop ⟨id, .change auth project artifact (.retention pinned days) key .locked⟩).Sound
      crates := by
  have hrow := (hs.running _ hr fun h => h).works.1
  obtain ⟨-, f, -, -, hw, hdeletions, hf⟩ := updateRetention_ok h
  have hkeyed : ∀ a, S.artifacts.get? artifact = some a → a.storageKey = key :=
    fun _ => Rows.storageKey_of hrow
  refine hs.fails hr (hw.beside hkeyed) hw.processes (hw.rows hs.rows
    (fun a hdeleted => (hf a).1.trans hdeleted) (fun a k ha hk hfinal => ?_) (.inl hdeletions))
  rw [(hf a).1] at hfinal
  by_cases hlive : a.Live S.db.now
  · exact hs.rows.present a (Table.mem_of_get? ha) k hk hfinal hlive
  · rw [Option.isSome_iff_ne_none]
    exact fun hblob => hspares ⟨a, ha, hfinal, hlive, k, hk, hblob⟩

lemma Store.SoundBut.deletes {auth : Auth} {project artifact : Id} {reason : String}
    {key : Option Id} (hs : S.Sound crates)
    (hr : ⟨id, .change auth project artifact (.delete reason) key .locked⟩ ∈ S.processes)
    (h : deleteArtifact S auth project artifact reason = .ok S') :
    (S'.advance id (.change auth project artifact (.delete reason) key .removing)).Sound
      crates := by
  have hruns := hs.running _ hr fun h => h
  obtain ⟨f, hw, hdeletions, hsome, hf⟩ := deleteArtifact_ok h
  have hkeyed : ∀ a, S.artifacts.get? artifact = some a → a.storageKey = key :=
    fun _ => Rows.storageKey_of hruns.works.1
  refine hs.goes hr (hw.beside hkeyed) hw.processes
    (hw.rows hs.rows (fun a _ => hf a) (fun a _ _ _ hfinal => ?_) (.inr ⟨hdeletions, hsome, hf⟩))
    ⟨fun x hx => ?_, ?_, fun _ k hk a' ha' hkey => ?_⟩
  · rw [hf a] at hfinal
    exact absurd hfinal (by simp)
  · rw [hw.locks]
    exact hruns.locked x hx
  · obtain ⟨a, ha, hid, hkey⟩ := hruns.works.1
    exact ⟨_, hw.kept ha, (hw.same_of a).id.trans hid, (hw.same_of a).storageKey.trans hkey⟩
  · obtain ⟨a, ha, rfl⟩ := hw.mem ha'
    obtain ⟨a₀, ha₀, hid, hkey₀⟩ := hruns.works.1
    rw [(hw.same_of a).storageKey] at hkey
    obtain rfl := hs.rows.unique a₀ ha₀ a ha k (hkey₀.trans hk) hkey
    rw [if_pos hid]
    exact .inl (hf a₀)

/-- Giving up a lock concerns only its key. -/
lemma Store.SoundBut.leaves {why : Sweep} {keys : List Id} {stage : SweepStage}
    (hs : S.Sound crates) (hr : ⟨id, .sweep why keys stage⟩ ∈ S.processes)
    (hholds : (Process.sweep why keys stage).holds = some key) (hb : S.Beside S₁ (some key))
    (hprocesses : S₁.processes = S.processes) (hrows : Rows crates S₁) :
    (S₁.leave id why keys key).Sound crates := by
  refine Store.SoundBut.goes (T := { S₁ with locks := S₁.locks.erase key }) hs hr
    ⟨hb.now, fun x hx => ?_, fun x hx => hb.parts x (hholds ▸ hx),
      fun x hx => hb.blobs x (hholds ▸ hx), hb.kept, fun a ha hne => hb.back a ha (hholds ▸ hne)⟩
    hprocesses (hrows.congr rfl rfl le_rfl (fun _ h => h) rfl)
    ⟨fun _ h => absurd h (by simp [Process.holds]), fun t ht => ?_,
      fun _ h => absurd h (by simp)⟩
  · rw [hholds] at hx
    have hne : x ≠ key := fun h => hx (h ▸ rfl)
    exact ((Table.get?_erase ..).trans (if_neg hne)).trans (hb.locks x hx)
  · exact le_trans ((hs.running _ hr fun h => h).works.1 t ht) hb.now

lemma Store.SoundBut.commit {replayed : Bool} (hs : S.Sound crates)
    (hr : ⟨id, process⟩ ∈ S.processes) (hspares : replayed = false → ¬ S.Revives ⟨id, process⟩)
    (h : S.commit crates ⟨id, process⟩ replayed = some S') : S'.Sound crates := by
  have hruns := hs.running _ hr fun h => h
  cases process with
  | upload auth project artifact key size digest stage =>
    cases stage with
    | published content =>
      simp only [Store.commit] at h
      split at h
      · obtain rfl := Option.some.inj h
        exact hs.ends hr
      · split at h
        · next hok =>
          obtain rfl := Option.some.inj h
          exact hs.finalizes hr hok
        · obtain rfl := Option.some.inj h
          exact hs.ends hr
    | _ => exact absurd h (by simp [Store.commit])
  | change auth project artifact change key stage =>
    cases stage with
    | locked =>
      cases change with
      | retention pinned days =>
        simp only [Store.commit] at h
        split at h
        · obtain rfl := Option.some.inj h
          exact hs.ends hr
        · next hfresh =>
          split at h
          · next hok =>
            obtain rfl := Option.some.inj h
            exact hs.retains hr (hspares (Bool.eq_false_iff.2 hfresh)) hok
          · obtain rfl := Option.some.inj h
            exact hs.ends hr
      | delete reason =>
        simp only [Store.commit] at h
        split at h
        · split at h
          · next hreceipt =>
            obtain rfl := Option.some.inj h
            obtain ⟨a, ha, hdeleted⟩ := hs.rows.deletions artifact hreceipt
            refine hs.goes hr (.refl _) rfl hs.rows
              ⟨hruns.locked, hruns.works.1, fun _ k hk a' ha' hkey => ?_⟩
            have hown := Rows.storageKey_of hruns.works.1 ha
            obtain rfl := hs.rows.unique a (Table.mem_of_get? ha) a' ha' k (hown.trans hk) hkey
            exact .inl hdeleted
          · exact absurd h (by simp)
        · split at h
          · next hok =>
            obtain rfl := Option.some.inj h
            exact hs.deletes hr hok
          · obtain rfl := Option.some.inj h
            exact hs.ends hr
    | _ => exact absurd h (by cases change <;> simp [Store.commit])
  | sweep why keys stage =>
    cases stage with
    | locked key =>
      have hremoving : S.Removable key →
          (S.advance id (.sweep why keys (.removing key))).Sound crates := by
        refine fun hremovable => hs.goes hr (.refl _) rfl hs.rows
          ⟨hruns.locked, hruns.works.1, fun k hk => ?_⟩
        obtain rfl := SweepStage.removing.inj hk
        exact hremovable
      cases why with
      | expired now =>
        simp only [Store.commit] at h
        split at h
        · next hgone =>
          obtain rfl := Option.some.inj h
          obtain ⟨a, ha, hkey, hunavailable⟩ := hgone
          refine hremoving fun a' ha' hkey' => ?_
          obtain rfl := hs.rows.unique a ha a' ha' key hkey hkey'
          exact hunavailable.later (hruns.works.1 now rfl)
        · obtain rfl := Option.some.inj h
          exact hs.leaves hr rfl (.refl _) rfl hs.rows
      | orphans =>
        simp only [Store.commit] at h
        split at h
        · obtain rfl := Option.some.inj h
          exact hs.leaves hr rfl (.refl _) rfl hs.rows
        · next hnone =>
          obtain rfl := Option.some.inj h
          exact hremoving fun a ha hkey => absurd ⟨a, ha, hkey⟩ hnone
    | _ => exact absurd h (by cases why <;> simp [Store.commit])

/-- The files of a key that no row needs may go. -/
lemma Store.Removable.removeFiles {b : Bool} (h : S.Removable key) (hrows : Rows crates S) :
    S.Beside (S.removeFiles key b) (some key) ∧
      (S.removeFiles key b).processes = S.processes ∧
      Rows crates (S.removeFiles key b) := by
  cases b with
  | true => exact ⟨.refl _, rfl, hrows⟩
  | false =>
    have hgone : (S.blobs.erase key).get? key = none :=
      (Table.get?_erase ..).trans (if_pos rfl)
    refine ⟨⟨le_rfl, fun _ _ => rfl, fun x hx => get?_erase_of_ne fun h => hx (h ▸ rfl),
      fun x hx => get?_erase_of_ne fun h => hx (h ▸ rfl), fun a ha => ⟨a, ha, .refl a⟩,
      fun _ ha _ => ha⟩, rfl, hrows.blob rfl rfl rfl (fun x hx => get?_erase_of_ne hx)
        (fun a _ _ file hfile => ?_) (.inr h)⟩
    exact absurd (hgone.symm.trans hfile) (by simp)

lemma Store.SoundBut.remove {backup : Bool} (hs : S.Sound crates)
    (hr : ⟨id, process⟩ ∈ S.processes) (h : S.remove ⟨id, process⟩ backup = some S') :
    S'.Sound crates := by
  have hruns := hs.running _ hr fun h => h
  cases process with
  | upload => exact absurd h (by simp [Store.remove])
  | change auth project artifact change key stage =>
    cases stage with
    | removing =>
      cases key with
      | none =>
        obtain rfl := Option.some.inj h
        exact hs.ends hr
      | some key =>
        obtain rfl := Option.some.inj h
        obtain ⟨hb, hprocesses, hrows⟩ :=
          (hruns.works.2 rfl key rfl).removeFiles (b := backup) hs.rows
        exact hs.fails hr hb hprocesses hrows
    | _ => exact absurd h (by simp [Store.remove])
  | sweep why keys stage =>
    cases stage with
    | removing key =>
      obtain rfl := Option.some.inj h
      obtain ⟨hb, hprocesses, hrows⟩ :=
        (hruns.works.2 key rfl).removeFiles (b := backup) hs.rows
      exact hs.leaves hr rfl hb hprocesses hrows
    | _ => exact absurd h (by simp [Store.remove])

/-- A process in its first stage. -/
lemma Store.SoundBut.opens {mk : Id → Running} {hmk : ∀ k, Keyed.key (mk k) = k}
    (hs : S.Sound crates) (hholds : (mk S.processes.fresh).process.holds = none)
    (hworks : S.Works crates (mk S.processes.fresh).process) :
    { S with processes := S.processes.create mk hmk }.Sound crates := by
  refine ⟨hs.rows.congr rfl rfl le_rfl (fun _ h => h) rfl, fun r hr _ => ?_⟩
  rcases (Table.mem_create (h := hmk)).1 hr with hr | rfl
  · exact ⟨(hs.running r hr fun h => h).locked, (hs.running r hr fun h => h).works⟩
  · exact ⟨fun key hkey => absurd (hholds.symm.trans hkey) (by simp), hworks⟩

end Process

/-! ### Every step -/

/-- No commit brings back an upload whose blob is gone. -/
def Store.SparesRemoved (S : Store) : StoreAction → Prop
  | .commit id false => ∀ r ∈ S.processes.get? id, ¬ S.Revives r
  | _ => True

instance (S : Store) (act : StoreAction) : Decidable (S.SparesRemoved act) := by
  rcases act with _ | _ | _ | _ | _ | _ | _ | _ | _ | _ | _ | _ | ⟨_, _ | _⟩ | _ | _ | _ | _
  all_goals first
    | exact instDecidableTrue
    | (dsimp only [Store.SparesRemoved]; infer_instance)

lemma Store.SoundBut.created {db : Db} {mk : Id → Artifact} {hmk : ∀ k, Keyed.key (mk k) = k}
    {k : Option Id} (hs : S.Sound crates) (now : db.now = S.db.now)
    (hkey : (mk S.artifacts.fresh).storageKey = k)
    (hfree : ∀ r ∈ S.processes, ∀ x, r.process.holds = some x → some x ≠ k)
    (hrows : Rows crates { S with db := db, artifacts := S.artifacts.create mk hmk }) :
    { S with db := db, artifacts := S.artifacts.create mk hmk }.Sound crates := by
  refine ⟨hrows, fun r hr _ => (hs.running r hr fun h => h).beside (l := k)
    ⟨?_, fun _ _ => rfl, fun _ _ => rfl, fun _ _ => rfl, fun a ha => ?_, fun a ha hne => ?_⟩
    (hfree r hr)⟩
  · rw [now]
  · exact ⟨a, (Table.mem_create (h := hmk)).2 (.inl ha), .refl a⟩
  · rcases (Table.mem_create (h := hmk)).1 ha with ha | rfl
    · exact ha
    · exact absurd hkey hne

/-- One step keeps the invariant. -/
theorem step_sound {act : StoreAction} (hs : S.Sound crates) (hspares : S.SparesRemoved act)
    (h : S.step crates act = some S') : S'.Sound crates := by
  cases act with
  | environment db =>
    simp only [Store.step, Option.ite_none_right_eq_some] at h
    obtain ⟨⟨hnow, hprojects⟩, heq⟩ := h
    obtain rfl := Option.some.inj heq
    refine ⟨hs.rows.congr rfl rfl hnow (fun k hk => ?_) rfl, fun r hr _ =>
      (hs.running r hr fun h => h).beside (l := none) ⟨hnow, fun _ _ => rfl, fun _ _ => rfl,
        fun _ _ => rfl, fun a ha => ⟨a, ha, .refl a⟩, fun _ ha _ => ha⟩ fun x _ => by simp⟩
    obtain ⟨p, hp⟩ := Option.isSome_iff_exists.1 hk
    have hid : p.id = k := Table.key_of_get? hp
    exact hid ▸ hprojects p (Table.mem_of_get? hp)
  | raiseQuota quota =>
    simp only [Store.step, Option.ite_none_right_eq_some] at h
    obtain rfl := Option.some.inj h.2
    exact ⟨hs.rows.congr rfl rfl le_rfl (fun _ h => h) rfl, fun r hr hne =>
      ⟨(hs.running r hr hne).locked, (hs.running r hr hne).works⟩⟩
  | createLink auth project input =>
    obtain ⟨actor, mk, hmk, hproject, hmk', rfl⟩ := createLink_ok (toOption_eq_some.1 h)
    obtain ⟨hkind, hkey, hp, -⟩ := hmk' S.artifacts.fresh
    refine hs.created rfl hkey (fun _ _ _ _ => by simp) (hs.rows.create rfl rfl ?_ ?_ ?_ ?_)
    · rwa [hp]
    · rw [hkind]
      exact fun h => absurd h (by simp)
    · rw [hkey]
      exact fun _ h => absurd h (by simp)
    · rw [hkey]
      exact fun h => absurd h (by simp)
  | reserveUpload auth project input key =>
    simp only [Store.step, Option.ite_none_right_eq_some] at h
    obtain ⟨⟨hrows, hblob, -, hlock⟩, h⟩ := h
    obtain ⟨actor, retention, hproject, -, -, rfl⟩ := reserveUpload_ok (toOption_eq_some.1 h)
    refine hs.created (k := some key) rfl rfl (hs.free hlock)
      (hs.rows.create rfl rfl hproject (fun _ => ⟨_, _, _, rfl, rfl, rfl⟩) (fun k hk => ?_)
        fun _ hstate => by simp [reservation] at hstate)
    obtain rfl := Option.some.inj hk
    exact ⟨hrows, hblob⟩
  | openUpload auth project artifact contentLength =>
    simp only [Store.step] at h
    split at h
    · next a hok =>
      obtain ⟨key, hkey, rfl⟩ := Option.map_eq_some_iff.1 h
      obtain ⟨ha, hkind⟩ := openUpload_ok hok
      obtain ⟨k, size, digest, hk, hsize, hdigest⟩ := hs.rows.keyed a (Table.mem_of_get? ha) hkind
      refine hs.opens rfl ⟨⟨a, Table.mem_of_get? ha, Table.key_of_get? ha, hkey, ?_, ?_⟩, trivial⟩
      · rw [hsize, Option.getD_some]
      · rw [hdigest, Option.getD_some]
    · exact absurd h (by simp)
  | openChange auth project artifact change =>
    simp only [Store.step] at h
    split at h
    · next a hok =>
      obtain rfl := Option.some.inj h
      have ha := (artifactRow_ok hok).1
      exact hs.opens rfl ⟨⟨a, Table.mem_of_get? ha, Table.key_of_get? ha, rfl⟩,
        fun h => absurd h (by simp)⟩
    · exact absurd h (by simp)
  | openSweep keys =>
    simp only [Store.step, Option.ite_none_right_eq_some] at h
    obtain rfl := Option.some.inj h.2
    refine hs.opens rfl ⟨fun t ht => ?_, fun _ h => absurd h (by simp)⟩
    obtain rfl := Sweep.expired.inj ht
    exact le_rfl
  | openOrphans keys =>
    simp only [Store.step, Option.ite_none_right_eq_some] at h
    obtain rfl := Option.some.inj h.2
    exact hs.opens rfl ⟨fun _ h => absurd h (by simp), fun _ h => absurd h (by simp)⟩
  | acquire id =>
    obtain ⟨r, hr, h⟩ := Option.bind_eq_some_iff.1 h
    exact hs.acquire (Table.mem_of_get? hr) h
  | receive id data =>
    obtain ⟨r, hr, h⟩ := Option.bind_eq_some_iff.1 h
    exact hs.receive (Table.mem_of_get? hr) h
  | verify id =>
    obtain ⟨r, hr, h⟩ := Option.bind_eq_some_iff.1 h
    exact hs.verify (Table.mem_of_get? hr) h
  | publish id =>
    obtain ⟨r, hr, h⟩ := Option.bind_eq_some_iff.1 h
    exact hs.publish (Table.mem_of_get? hr) h
  | commit id replayed =>
    obtain ⟨r, hr, h⟩ := Option.bind_eq_some_iff.1 h
    refine hs.commit (Table.mem_of_get? hr) (fun hfresh => ?_) h
    subst hfresh
    exact hspares r hr
  | remove id backup =>
    obtain ⟨r, hr, h⟩ := Option.bind_eq_some_iff.1 h
    exact hs.remove (Table.mem_of_get? hr) h
  | abandon id =>
    obtain ⟨r, hr, rfl⟩ := Option.map_eq_some_iff.1 h
    exact hs.ends (Table.mem_of_get? hr)
  | restart =>
    obtain rfl := Option.some.inj h
    exact ⟨hs.rows.congr rfl rfl le_rfl (fun _ h => h) rfl, fun r hr => absurd hr (by simp)⟩
  | removeStale key =>
    simp only [Store.step, Option.ite_none_right_eq_some] at h
    obtain ⟨hfree, h⟩ := h
    obtain rfl := Option.some.inj h
    refine ⟨hs.rows.congr rfl rfl le_rfl (fun _ h => h) rfl, fun r hr _ =>
      (hs.running r hr fun h => h).beside (l := some key) ⟨le_rfl, fun x hx => ?_, fun x hx => ?_,
        fun _ _ => rfl, fun a ha => ⟨a, ha, .refl a⟩, fun _ ha _ => ha⟩
      fun x hx hkey => hfree r hr (hx.trans hkey)⟩
    · have hne : x ≠ key := fun h => hx (h ▸ rfl)
      exact (Table.get?_erase ..).trans (if_neg hne)
    · exact get?_erase_of_ne fun h => hx (h ▸ rfl)

/-! ### The claim of one state -/

/-- No artifact and no process yet. -/
structure Store.Empty (S : Store) : Prop where
  artifacts : S.artifacts = .empty
  processes : S.processes = .empty
  deletions : S.deletions = []

lemma Store.Empty.sound (h : S.Empty) : S.Sound crates := by
  have hnone : ∀ a, ¬ a ∈ S.artifacts := by simp [h.artifacts]
  refine ⟨⟨fun a ha => absurd ha (hnone a), fun a ha => absurd ha (hnone a),
    fun a ha => absurd ha (hnone a), fun a ha => absurd ha (hnone a),
    fun a ha => absurd ha (hnone a), fun id hid => ?_⟩, fun r hr => ?_⟩
  · rw [h.deletions] at hid
    exact absurd hid List.not_mem_nil
  · rw [h.processes] at hr
    exact absurd hr (by simp)

lemma Rows.stored (h : Rows crates S) {a : Artifact} (ha : a ∈ S.artifacts)
    (hkind : a.kind = .upload) (hstate : a.state = .finalized) (hlive : a.Live S.db.now) :
    ∃ key ∈ a.storageKey, ∃ file, S.blobs.get? key = some file ∧
      a.Describes crates file.content := by
  obtain ⟨key, -, -, hkey, -, -⟩ := h.keyed a ha hkind
  obtain ⟨file, hfile⟩ := Option.isSome_iff_exists.1 (h.present a ha key hkey hstate hlive)
  exact ⟨key, hkey, file, hfile, h.content a ha key file hkey hfile⟩

/-- The digests of the empty content and of the text `a`. -/
def digests : Crates where
  sha256 content :=
    if content = [] then "e3b0c44298fc1c149afbf4c8996fb92427ae41e4649b934ca495991b7852b855"
    else if content = [97] then "ca978112ca1bbdcafac231b39a23dc4da786eff8147c4e72b9807785afee48bb"
    else ""
  httpsUrl url := url.startsWith "https://"

/-- A service with one project, and an empty store. -/
def emptyStore (quota : Int) : Store where
  db := Scenario.service .agent
  artifacts := .empty
  quota := quota
  blobs := .empty
  parts := .empty
  locks := .empty
  processes := .empty
  deletions := []

/-- The operator uploads the text `a`, to be kept for a day. -/
def uploads (artifact key : Id) : List StoreAction :=
  [.reserveUpload Scenario.operator 1
      { filename := "notes.txt"
        mediaType := "text/plain"
        task := none
        job := none
        sizeBytes := 1
        sha256 := digests.sha256 [97]
        pinned := false
        retentionDays := some 1 } key,
    .openUpload Scenario.operator 1 artifact (some 1), .acquire 1, .receive 1 [97], .verify 1,
    .publish 1, .commit 1 false]

/-- Two days later. -/
def expires : StoreAction := .environment { Scenario.service .agent with now := 172801000 }

/-- The operator pins an artifact. -/
def pins (artifact : Id) : List StoreAction :=
  [.openChange Scenario.operator 1 artifact (.retention true none), .acquire 1, .commit 1 false]

end Artifacts

end AgentCoordinator
