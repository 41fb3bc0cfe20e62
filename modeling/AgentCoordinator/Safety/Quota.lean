import AgentCoordinator.Safety.Artifacts

/-
The live uploads stay within the quota.

The quota is tested when an upload is reserved. Time, finalizations and deletions only take bytes
away, but a retention may give an expired upload its bytes back without any test: the quota is kept
in every run in which no such retention goes beyond it.
-/

namespace AgentCoordinator

open Guarded Tabular Transition

namespace Artifacts

variable {crates : Crates} {S S' S₀ : Store}

/-! ### What one row counts -/

/-- The bytes of an upload that count against the quota. -/
def Artifact.charge (now : Time) (a : Artifact) : Int :=
  if a.kind = .upload ∧ a.Live now then a.sizeBytes.getD 0 else 0

lemma Store.usedBytes_eq : S.usedBytes = S.artifacts.sum (Artifact.charge S.db.now) := rfl

lemma Artifact.charge_le_size {a : Artifact} {t : Time} (h : 0 ≤ a.sizeBytes.getD 0) :
    a.charge t ≤ a.sizeBytes.getD 0 := by
  unfold Artifact.charge
  split <;> omega

/-- A row that is not live any more counts nothing. -/
lemma Artifact.Same.charge_le {a a' : Artifact} {now now' : Time} (hs : a.Same a')
    (hsize : 0 ≤ a.sizeBytes.getD 0) (hlive : a'.kind = .upload → a'.Live now' → a.Live now) :
    a'.charge now' ≤ a.charge now := by
  unfold Artifact.charge
  by_cases hcounts : a'.kind = .upload ∧ a'.Live now'
  · rw [if_pos hcounts, if_pos ⟨hs.kind ▸ hcounts.1, hlive hcounts.1 hcounts.2⟩, hs.sizeBytes]
  · rw [if_neg hcounts]
    split <;> omega

/-! ### The invariant -/

/-- Sizes are not negative, as the schema demands, and the live uploads are within the quota. -/
structure Store.Within (S : Store) : Prop where
  sizes : ∀ a ∈ S.artifacts, 0 ≤ a.sizeBytes.getD 0
  used : S.usedBytes ≤ S.quota

/-- Neither the rows nor the quota change, and time does not pass. -/
structure Store.SameRows (S S' : Store) : Prop where
  artifacts : S'.artifacts = S.artifacts
  now : S'.db.now = S.db.now
  quota : S'.quota = S.quota

lemma Store.Within.same (h : S.Within) (hs : S.SameRows S') : S'.Within := by
  refine ⟨by rw [hs.artifacts]; exact h.sizes, ?_⟩
  rw [Store.usedBytes_eq, hs.artifacts, hs.now, hs.quota]
  exact h.used

lemma Store.Within.drop (h : S.Within) (r : Running) : (S.drop r).Within := ⟨h.sizes, h.used⟩

section Steps

variable {r : Running}

lemma Store.acquire_sameRows (h : S.acquire r = some S') : S.SameRows S' := by
  unfold Store.acquire at h
  repeat' split at h
  all_goals cases h
  all_goals exact ⟨rfl, rfl, rfl⟩

lemma Store.receive_sameRows {data : Bytes} (h : S.receive r data = some S') :
    S.SameRows S' := by
  unfold Store.receive at h
  repeat' split at h
  all_goals cases h
  all_goals exact ⟨rfl, rfl, rfl⟩

lemma Store.verify_sameRows (h : S.verify crates r = some S') : S.SameRows S' := by
  unfold Store.verify at h
  repeat' split at h
  all_goals cases h
  all_goals exact ⟨rfl, rfl, rfl⟩

lemma Store.publish_sameRows (h : S.publish crates r = some S') : S.SameRows S' := by
  unfold Store.publish at h
  split at h
  · split at h
    · split at h <;> (obtain rfl := Option.some.inj h; exact ⟨rfl, rfl, rfl⟩)
    · obtain ⟨part, -, rfl⟩ := Option.map_eq_some_iff.1 h
      exact ⟨rfl, rfl, rfl⟩
  · exact absurd h (by simp)

lemma Store.remove_sameRows {backup : Bool} (h : S.remove r backup = some S') :
    S.SameRows S' := by
  unfold Store.remove at h
  split at h
  · obtain rfl := Option.some.inj h
    exact ⟨rfl, rfl, rfl⟩
  · obtain rfl := Option.some.inj h
    cases backup <;> exact ⟨rfl, rfl, rfl⟩
  · obtain rfl := Option.some.inj h
    cases backup <;> exact ⟨rfl, rfl, rfl⟩
  · exact absurd h (by simp)

end Steps

/-! ### The transactions -/

section Transactions

variable {artifact : Id} {f : Artifact → Artifact}

/-- One row is rewritten, and the bytes it counts grow by at most `c`. -/
lemma Store.Rewrites.usedBytes_le (h : S.Rewrites S' artifact f) {c : Int} (hc : 0 ≤ c)
    (hcharge : ∀ a, S.artifacts.get? artifact = some a →
      (f a).charge S.db.now ≤ a.charge S.db.now + c) : S'.usedBytes ≤ S.usedBytes + c := by
  rw [Store.usedBytes_eq, Store.usedBytes_eq, h.sum, h.now]
  refine Table.sum_le_add (k := artifact) hc (fun a ha hid => ?_) fun a ha hid => ?_
  · have hid : a.id = artifact := hid
    rw [if_pos hid]
    exact hcharge a (hid ▸ Table.get?_of_mem ha)
  · have hid : a.id ≠ artifact := hid
    rw [if_neg hid]

lemma Store.Within.rewrites (hs : S.Within) (h : S.Rewrites S' artifact f)
    (hused : S'.usedBytes ≤ S.quota) : S'.Within := by
  refine ⟨fun a' ha' => ?_, by rw [h.quota]; exact hused⟩
  obtain ⟨a, ha, rfl⟩ := h.mem ha'
  rw [(h.same_of a).sizeBytes]
  exact hs.sizes a ha

lemma Store.Within.created {db : Db} {mk : Id → Artifact} {hmk : ∀ k, Keyed.key (mk k) = k}
    (hs : S.Within) (now : db.now = S.db.now)
    (hsize : 0 ≤ (mk S.artifacts.fresh).sizeBytes.getD 0)
    (hused : S.usedBytes + (mk S.artifacts.fresh).charge S.db.now ≤ S.quota) :
    { S with db := db, artifacts := S.artifacts.create mk hmk }.Within := by
  refine ⟨fun a ha => ?_, ?_⟩
  · rcases (Table.mem_create (h := hmk)).1 ha with ha | rfl
    · exact hs.sizes a ha
    · exact hsize
  · change (S.artifacts.create mk hmk).sum (Artifact.charge db.now) ≤ S.quota
    rw [now, Table.sum_create]
    exact hused

lemma Store.Within.finalizes {auth : Auth} {project : Id} {content : Bytes} (hs : S.Within)
    (h : finalizeUpload crates S auth project artifact content = .ok S') : S'.Within := by
  obtain ⟨a, f, ha, -, hlive, -, -, hw, -, -⟩ := finalizeUpload_ok h
  refine hs.rewrites hw (le_trans (hw.usedBytes_le le_rfl fun a' ha' => ?_) ?_)
  · obtain rfl := Option.some.inj (ha.symm.trans ha')
    rw [Int.add_zero]
    exact (hw.same a).charge_le (hs.sizes a (Table.mem_of_get? ha)) fun _ _ => hlive
  · rw [Int.add_zero]
    exact hs.used

lemma Store.Within.deletes {auth : Auth} {project : Id} {reason : String} (hs : S.Within)
    (h : deleteArtifact S auth project artifact reason = .ok S') : S'.Within := by
  obtain ⟨f, hw, -, -, hf⟩ := deleteArtifact_ok h
  refine hs.rewrites hw (le_trans (hw.usedBytes_le le_rfl fun a ha => ?_) ?_)
  · rw [Int.add_zero]
    refine (hw.same a).charge_le (hs.sizes a (Table.mem_of_get? ha)) fun _ hlive => ?_
    exact absurd (.inl (hf a)) hlive.not_unavailable
  · rw [Int.add_zero]
    exact hs.used

/-- The process is about to commit a retention of an upload that is finalized and has expired, and
for whose bytes the quota has no room. -/
def Store.Overfills (S : Store) (r : Running) : Prop :=
  match r.process with
  | .change _ _ artifact (.retention ..) _ .locked =>
    ∃ a ∈ S.artifacts.get? artifact, a.kind = .upload ∧ a.state = .finalized ∧
      ¬ a.Live S.db.now ∧ S.quota < S.usedBytes + a.sizeBytes.getD 0
  | _ => False

instance (S : Store) (r : Running) : Decidable (S.Overfills r) := by
  obtain ⟨id, process⟩ := r
  rcases process with _ | ⟨_, _, _, change, _, stage⟩ | _
  · exact instDecidableFalse
  · rcases change with _ | _ <;> rcases stage with _ | _ | _ <;>
      (dsimp only [Store.Overfills]; infer_instance)
  · exact instDecidableFalse

lemma Store.Within.retains {id : Id} {auth : Auth} {project : Id} {pinned : Bool}
    {days : Option Int} {key : Option Id} (hs : S.Within)
    (hroom : ¬ S.Overfills ⟨id, .change auth project artifact (.retention pinned days) key .locked⟩)
    (h : updateRetention S auth project artifact pinned days = .ok S') : S'.Within := by
  obtain ⟨a, f, ha, -, hw, -, hf⟩ := updateRetention_ok h
  have hsize := hs.sizes a (Table.mem_of_get? ha)
  refine hs.rewrites hw ?_
  by_cases hrevives : a.kind = .upload ∧ a.state = .finalized ∧ ¬ a.Live S.db.now
  · -- the bytes come back, and there is room for them
    obtain ⟨hkind, hstate, hexpired⟩ := hrevives
    have hfits : S.usedBytes + a.sizeBytes.getD 0 ≤ S.quota :=
      not_lt.1 fun hlt => hroom ⟨a, ha, hkind, hstate, hexpired, hlt⟩
    refine le_trans (hw.usedBytes_le hsize fun a' ha' => ?_) hfits
    obtain rfl := Option.some.inj (ha.symm.trans ha')
    have hbefore : 0 ≤ a.charge S.db.now := by
      unfold Artifact.charge
      split <;> omega
    have hafter := (f a).charge_le_size (t := S.db.now) (by rwa [(hw.same a).sizeBytes])
    rw [(hw.same a).sizeBytes] at hafter
    omega
  · -- the row counted already, or still does not count
    refine le_trans (hw.usedBytes_le le_rfl fun a' ha' => ?_) (by rw [Int.add_zero]; exact hs.used)
    obtain rfl := Option.some.inj (ha.symm.trans ha')
    rw [Int.add_zero]
    refine (hw.same a).charge_le hsize fun hkind hlive => ?_
    rw [(hw.same a).kind] at hkind
    rcases hlive with ⟨hstate, hexpires⟩ | ⟨hstate, -⟩
    · rw [(hf a).1] at hstate
      rw [(hf a).2] at hexpires
      exact .inl ⟨hstate, hexpires⟩
    · rw [(hf a).1] at hstate
      exact not_not.1 fun hexpired => hrevives ⟨hkind, hstate, hexpired⟩

lemma Store.Within.commit {r : Running} {replayed : Bool} (hs : S.Within)
    (hroom : replayed = false → ¬ S.Overfills r) (h : S.commit crates r replayed = some S') :
    S'.Within := by
  obtain ⟨id, process⟩ := r
  cases process with
  | upload auth project artifact key size digest stage =>
    cases stage with
    | published content =>
      simp only [Store.commit] at h
      split at h
      · obtain rfl := Option.some.inj h
        exact hs.drop _
      · split at h
        · next hok =>
          obtain rfl := Option.some.inj h
          exact (hs.finalizes hok).drop _
        · obtain rfl := Option.some.inj h
          exact hs.drop _
    | _ => exact absurd h (by simp [Store.commit])
  | change auth project artifact change key stage =>
    cases stage with
    | locked =>
      cases change with
      | retention pinned days =>
        simp only [Store.commit] at h
        split at h
        · obtain rfl := Option.some.inj h
          exact hs.drop _
        · next hfresh =>
          split at h
          · next hok =>
            obtain rfl := Option.some.inj h
            exact (hs.retains (hroom (Bool.eq_false_iff.2 hfresh)) hok).drop _
          · obtain rfl := Option.some.inj h
            exact hs.drop _
      | delete reason =>
        simp only [Store.commit] at h
        split at h
        · split at h
          · obtain rfl := Option.some.inj h
            exact ⟨hs.sizes, hs.used⟩
          · exact absurd h (by simp)
        · split at h
          · next hok =>
            obtain rfl := Option.some.inj h
            exact ⟨(hs.deletes hok).sizes, (hs.deletes hok).used⟩
          · obtain rfl := Option.some.inj h
            exact hs.drop _
    | _ => exact absurd h (by cases change <;> simp [Store.commit])
  | sweep why keys stage =>
    cases stage with
    | locked key =>
      cases why <;> simp only [Store.commit] at h <;> split at h <;> cases h <;>
        exact ⟨hs.sizes, hs.used⟩
    | _ => exact absurd h (by cases why <;> simp [Store.commit])

end Transactions

/-! ### Every step -/

/-- No commit brings back bytes for which there is no room. -/
def Store.RetainsWithinQuota (S : Store) : StoreAction → Prop
  | .commit id false => ∀ r ∈ S.processes.get? id, ¬ S.Overfills r
  | _ => True

instance (S : Store) (act : StoreAction) : Decidable (S.RetainsWithinQuota act) := by
  rcases act with _ | _ | _ | _ | _ | _ | _ | _ | _ | _ | _ | _ | ⟨_, _ | _⟩ | _ | _ | _ | _
  all_goals first
    | exact instDecidableTrue
    | (dsimp only [Store.RetainsWithinQuota]; infer_instance)

/-- One step keeps the live uploads within the quota. -/
theorem step_within {act : StoreAction} (hs : S.Within) (hroom : S.RetainsWithinQuota act)
    (h : S.step crates act = some S') : S'.Within := by
  cases act with
  | environment db =>
    simp only [Store.step, Option.ite_none_right_eq_some] at h
    obtain ⟨⟨hnow, -⟩, heq⟩ := h
    obtain rfl := Option.some.inj heq
    refine ⟨hs.sizes, le_trans (Table.sum_le_sum fun a ha => ?_) hs.used⟩
    exact (Artifact.Same.refl a).charge_le (hs.sizes a ha) fun _ hlive => hlive.earlier hnow
  | raiseQuota quota =>
    simp only [Store.step, Option.ite_none_right_eq_some] at h
    obtain ⟨hle, heq⟩ := h
    obtain rfl := Option.some.inj heq
    exact ⟨hs.sizes, le_trans hs.used hle⟩
  | createLink auth project input =>
    obtain ⟨actor, mk, hmk, -, hmk', rfl⟩ := createLink_ok (toOption_eq_some.1 h)
    obtain ⟨hkind, -, -, hsize⟩ := hmk' S.artifacts.fresh
    refine hs.created rfl hsize ?_
    have hfree : (mk S.artifacts.fresh).charge S.db.now = 0 := by
      simp [Artifact.charge, hkind]
    rw [hfree, Int.add_zero]
    exact hs.used
  | reserveUpload auth project input key =>
    simp only [Store.step, Option.ite_none_right_eq_some] at h
    obtain ⟨-, h⟩ := h
    obtain ⟨actor, retention, -, hsize, hfits, rfl⟩ := reserveUpload_ok (toOption_eq_some.1 h)
    refine hs.created rfl hsize (le_trans (Int.add_le_add_left ?_ _) hfits)
    exact Artifact.charge_le_size hsize
  | openUpload auth project artifact contentLength =>
    simp only [Store.step] at h
    split at h
    · obtain ⟨key, -, rfl⟩ := Option.map_eq_some_iff.1 h
      exact ⟨hs.sizes, hs.used⟩
    · exact absurd h (by simp)
  | openChange auth project artifact change =>
    simp only [Store.step] at h
    split at h
    · obtain rfl := Option.some.inj h
      exact ⟨hs.sizes, hs.used⟩
    · exact absurd h (by simp)
  | openSweep keys =>
    simp only [Store.step, Option.ite_none_right_eq_some] at h
    obtain rfl := Option.some.inj h.2
    exact ⟨hs.sizes, hs.used⟩
  | openOrphans keys =>
    simp only [Store.step, Option.ite_none_right_eq_some] at h
    obtain rfl := Option.some.inj h.2
    exact ⟨hs.sizes, hs.used⟩
  | acquire id =>
    obtain ⟨r, -, h⟩ := Option.bind_eq_some_iff.1 h
    exact hs.same (Store.acquire_sameRows h)
  | receive id data =>
    obtain ⟨r, -, h⟩ := Option.bind_eq_some_iff.1 h
    exact hs.same (Store.receive_sameRows h)
  | verify id =>
    obtain ⟨r, -, h⟩ := Option.bind_eq_some_iff.1 h
    exact hs.same (Store.verify_sameRows h)
  | publish id =>
    obtain ⟨r, -, h⟩ := Option.bind_eq_some_iff.1 h
    exact hs.same (Store.publish_sameRows h)
  | commit id replayed =>
    obtain ⟨r, hr, h⟩ := Option.bind_eq_some_iff.1 h
    refine hs.commit (fun hfresh => ?_) h
    subst hfresh
    exact hroom r hr
  | remove id backup =>
    obtain ⟨r, -, h⟩ := Option.bind_eq_some_iff.1 h
    exact hs.same (Store.remove_sameRows h)
  | abandon id =>
    obtain ⟨r, -, rfl⟩ := Option.map_eq_some_iff.1 h
    exact hs.drop r
  | restart =>
    obtain rfl := Option.some.inj h
    exact ⟨hs.sizes, hs.used⟩
  | removeStale key =>
    simp only [Store.step, Option.ite_none_right_eq_some] at h
    obtain rfl := Option.some.inj h.2
    exact ⟨hs.sizes, hs.used⟩

/-! ### Every run -/

/-- In every run from a store within its quota in which no retention brings back bytes for which
there is no room, the live uploads stay within the quota. -/
theorem quota_kept (hsizes : ∀ a ∈ S₀.artifacts, 0 ≤ a.sizeBytes.getD 0)
    (hwithin : S₀.usedBytes ≤ S₀.quota)
    (h : Run (fun S act S' => S.step crates act = some S') Store.RetainsWithinQuota S₀ S) :
    S.usedBytes ≤ S.quota :=
  (h.invariant (I := Store.Within) (fun _ _ _ hs hroom hstep => step_within hs hroom hstep)
    ⟨hsizes, hwithin⟩).used

/-! ### Replays -/

set_option maxRecDepth 20000 in
theorem quota_kept_replayed : ∃ S,
    follow (Store.step · digests) Store.RetainsWithinQuota (emptyStore 1)
        (uploads 1 7 ++ expires :: pins 1) = some S ∧
      S.usedBytes = 1 ∧ S.usedBytes ≤ S.quota := by
  obtain ⟨S, hS, hp⟩ := exists_of_any
    (o := follow (Store.step · digests) Store.RetainsWithinQuota (emptyStore 1)
      (uploads 1 7 ++ expires :: pins 1))
    (p := fun S => S.usedBytes = 1) (by decide +kernel)
  exact ⟨S, hS, of_decide_eq_true hp,
    quota_kept (fun a ha => absurd ha (by simp [emptyStore])) (by decide) (run_of_follow hS)⟩

set_option maxRecDepth 20000 in
/-- After an upload has expired, another one takes its room; then the first one is pinned. -/
theorem quota_exceeded : ¬ ∀ S₀ S : Store, (∀ a ∈ S₀.artifacts, 0 ≤ a.sizeBytes.getD 0) →
    S₀.usedBytes ≤ S₀.quota →
    Run (fun S act S' => S.step digests act = some S') (fun _ _ => True) S₀ S →
      S.usedBytes ≤ S.quota := by
  intro h
  obtain ⟨S, hS, hp⟩ := exists_of_any
    (o := follow (Store.step · digests) (fun _ _ => True) (emptyStore 1)
      (uploads 1 7 ++ expires :: uploads 2 8 ++ pins 1))
    (p := fun S => S.quota < S.usedBytes) (by decide +kernel)
  exact absurd (h _ S (fun a ha => absurd ha (by simp [emptyStore])) (by decide)
    (run_of_follow hS)) (not_le.2 (of_decide_eq_true hp))

end Artifacts

end AgentCoordinator
