import AgentCoordinator.Board.Basic

/-
The targets that the integrator has locked.

A submission has its target locked while one of its integrations, in a project that the integrator
integrates, holds it. `KeepsLocks` says how a board may change without taking such a lock away: the
lock stays, or its submission is superseded. Agents change boards only so.
-/

namespace AgentCoordinator

namespace Board

open Maps

variable {b b' b'' : Board} {owned : Id → Prop}

/-! ### LocksTarget -/

/-- A held hold of an integration of the submission, in a project that the integrator owns. -/
def LocksTarget (b : Board) (owned : Id → Prop) (u : Id) (x : String × String) : Prop :=
  ∃ h row wa, b.holds h = some row ∧ row.held = true ∧ (row.key, row.branch) = x ∧
    b.activities row.activity = some wa ∧ wa.submission = u ∧ wa.kind = .integration ∧
    owned wa.project

/-- The submission is superseded. -/
def Superseded (b : Board) (u : Id) : Prop :=
  ∃ c, b.submissions u = some c ∧ c.superseded = true

/-- Every hold is on the target of its activity's submission. No activity has two holds, and no
target two held ones. -/
structure WellHeld (b : Board) : Prop where
  pinned : ∀ h row, b.holds h = some row → ∃ wa u, b.activities row.activity = some wa ∧
    b.submissions wa.submission = some u ∧ u.key = some row.key ∧ u.branch = some row.branch
  single : ∀ h h' row row', b.holds h = some row → b.holds h' = some row' →
    row.activity = row'.activity → h = h'
  exclusive : ∀ h h' row row', b.holds h = some row → b.holds h' = some row' → row.held = true →
    row'.held = true → row.key = row'.key → row.branch = row'.branch → h = h'

/-- A target is locked by one submission. -/
lemma WellHeld.locks_unique (h : b.WellHeld) {u u' : Id} {x : String × String}
    (hu : b.LocksTarget owned u x) (hu' : b.LocksTarget owned u' x) : u = u' := by
  obtain ⟨k, row, wa, hrow, hheld, rfl, hwa, rfl, -⟩ := hu
  obtain ⟨k', row', wa', hrow', hheld', heq, hwa', rfl, -⟩ := hu'
  obtain ⟨hkey, hbranch⟩ := Prod.mk.inj heq
  obtain rfl := h.exclusive k k' row row' hrow hrow' hheld hheld' hkey.symm hbranch.symm
  obtain rfl := Option.some.inj (hrow.symm.trans hrow')
  rw [Option.some.inj (hwa.symm.trans hwa')]

/-! ### KeepsLocks changes -/

/-- Submissions keep their targets, and stay superseded. -/
structure Candidate.Stands (u u' : Candidate) : Prop where
  key : u'.key = u.key
  branch : u'.branch = u.branch
  superseded : u.superseded = true → u'.superseded = true

lemma Candidate.Stands.refl (u : Candidate) : u.Stands u := ⟨rfl, rfl, id⟩

lemma Candidate.Stands.trans {u u' u'' : Candidate} (h : u.Stands u') (h' : u'.Stands u'') :
    u.Stands u'' :=
  ⟨h'.key.trans h.key, h'.branch.trans h.branch, fun hs => h'.superseded (h.superseded hs)⟩

/-- Activities stay in their project, of their kind, about their submission. -/
structure Activity.Stands (wa wa' : Activity) : Prop where
  project : wa'.project = wa.project
  submission : wa'.submission = wa.submission
  kind : wa'.kind = wa.kind

lemma Activity.Stands.refl (wa : Activity) : wa.Stands wa := ⟨rfl, rfl, rfl⟩

/-- Every row is still there, related to what it was. -/
def Grown {α : Type} (R : α → α → Prop) (m m' : Id → Option α) : Prop :=
  ∀ k v, m k = some v → ∃ v', m' k = some v' ∧ R v v'

section Grown

variable {α : Type} {R : α → α → Prop} {m m' m'' : Id → Option α}

lemma Grown.refl (hR : ∀ v, R v v) (m : Id → Option α) : Grown R m m := fun _ v hv => ⟨v, hv, hR v⟩

lemma Grown.of_eq (hR : ∀ v, R v v) (h : m' = m) : Grown R m m' := h ▸ .refl hR m

lemma Grown.trans (hR : ∀ v v' v'', R v v' → R v' v'' → R v v'') (h : Grown R m m')
    (h' : Grown R m' m'') : Grown R m m'' := by
  intro k v hv
  obtain ⟨v', hv', h₁⟩ := h k v hv
  obtain ⟨v'', hv'', h₂⟩ := h' k v' hv'
  exact ⟨v'', hv'', hR _ _ _ h₁ h₂⟩

lemma Grown.alter {p : Id → α → Prop} [∀ k v, Decidable (p k v)] {f : α → α} (hR : ∀ v, R v v)
    (hf : ∀ v, R v (f v)) : Grown R m (alter m p f) :=
  (Related.alter hR hf).new

lemma Grown.update {k : Id} {v : α} (hR : ∀ v, R v v) (hfresh : m k = none) :
    Grown R m (Function.update m k (some v)) :=
  fun _ v' hv' => ⟨v', update_of_fresh hfresh hv', hR v'⟩

end Grown

/-- A change of the board that takes no lock from a submission that stands. -/
structure KeepsLocks (owned : Id → Prop) (b b' : Board) : Prop where
  submissions : Grown Candidate.Stands b.submissions b'.submissions
  wellHeld : b.WellHeld → b'.WellHeld
  keeps : b.WellHeld → ∀ u x, b.LocksTarget owned u x → b'.LocksTarget owned u x ∨ b'.Superseded u

lemma Superseded.of_grown (hgrown : Grown Candidate.Stands b.submissions b'.submissions) {u : Id}
    (h : b.Superseded u) : b'.Superseded u := by
  obtain ⟨c, hc, hs⟩ := h
  obtain ⟨c', hc', hstands⟩ := hgrown u c hc
  exact ⟨c', hc', hstands.superseded hs⟩

lemma KeepsLocks.refl (b : Board) : KeepsLocks owned b b :=
  ⟨.refl .refl _, id, fun _ _ _ h => .inl h⟩

lemma KeepsLocks.of_eq (h : b' = b) : KeepsLocks owned b b' := by
  rw [h]
  exact .refl b

/-- Holds that stay as they are keep their targets. -/
lemma WellHeld.grown (hb : b.WellHeld) (hholds : b'.holds = b.holds)
    (hsubmissions : Grown Candidate.Stands b.submissions b'.submissions)
    (hactivities : Grown Activity.Stands b.activities b'.activities) : b'.WellHeld where
  pinned h row hrow := by
    rw [hholds] at hrow
    obtain ⟨wa, u, hwa, hu, hkey, hbranch⟩ := hb.pinned h row hrow
    obtain ⟨wa', hwa', hsame⟩ := hactivities _ wa hwa
    obtain ⟨u', hu', hstands⟩ := hsubmissions _ u hu
    exact ⟨wa', u', hwa', by rw [hsame.submission]; exact hu', hstands.key.trans hkey,
      hstands.branch.trans hbranch⟩
  single := by
    rw [hholds]
    exact hb.single
  exclusive := by
    rw [hholds]
    exact hb.exclusive

/-- The holds stay as they are. -/
lemma KeepsLocks.of_holds (hholds : b'.holds = b.holds)
    (hsubmissions : Grown Candidate.Stands b.submissions b'.submissions)
    (hactivities : Grown Activity.Stands b.activities b'.activities) : KeepsLocks owned b b' where
  submissions := hsubmissions
  wellHeld hb := hb.grown hholds hsubmissions hactivities
  keeps _ u x hu := by
    obtain ⟨h, row, wa, hrow, hheld, hx, hwa, hwu, hkind, howned⟩ := hu
    obtain ⟨wa', hwa', hsame⟩ := hactivities _ wa hwa
    exact .inl ⟨h, row, wa', by rw [hholds, hrow], hheld, hx, hwa', hsame.submission.trans hwu,
      hsame.kind.trans hkind, by rw [hsame.project]; exact howned⟩

/-- A released hold is still on its target. -/
lemma of_release_row {p : Id → Prop} [DecidablePred p] {h : Id} {row : Hold}
    (hrow : b.release p h = some row) : ∃ row₀, b.holds h = some row₀ ∧
      row₀.activity = row.activity ∧ row₀.key = row.key ∧ row₀.branch = row.branch ∧
      (row.held = true → row₀.held = true) := by
  rcases of_alter hrow with ⟨row₀, hrow₀, -, rfl⟩ | ⟨hrow₀, -⟩
  · exact ⟨row₀, hrow₀, rfl, rfl, rfl, fun h => absurd h (by simp)⟩
  · exact ⟨row, hrow₀, rfl, rfl, rfl, id⟩

lemma WellHeld.release {p : Id → Prop} [DecidablePred p] (hb : b.WellHeld) :
    WellHeld { b with holds := b.release p } where
  pinned h row hrow := by
    obtain ⟨row₀, hrow₀, hactivity, hkey, hbranch, -⟩ := of_release_row hrow
    rw [← hactivity, ← hkey, ← hbranch]
    exact hb.pinned h row₀ hrow₀
  single h h' row row' hrow hrow' heq := by
    obtain ⟨row₀, hrow₀, hactivity, -⟩ := of_release_row hrow
    obtain ⟨row₀', hrow₀', hactivity', -⟩ := of_release_row hrow'
    exact hb.single h h' row₀ row₀' hrow₀ hrow₀' (by rw [hactivity, hactivity', heq])
  exclusive h h' row row' hrow hrow' hheld hheld' hk hbr := by
    obtain ⟨row₀, hrow₀, -, hkey, hbranch, hheld₀⟩ := of_release_row hrow
    obtain ⟨row₀', hrow₀', -, hkey', hbranch', hheld₀'⟩ := of_release_row hrow'
    exact hb.exclusive h h' row₀ row₀' hrow₀ hrow₀' (hheld₀ hheld) (hheld₀' hheld')
      (by rw [hkey, hkey', hk]) (by rw [hbranch, hbranch', hbr])

/-- Holds are released, of no integration that the integrator owns unless it is superseded. -/
lemma KeepsLocks.release {p : Id → Prop} [DecidablePred p]
    (hfree : ∀ a wa, p a → b.activities a = some wa → wa.kind = .integration → owned wa.project →
      ∀ c, b.submissions wa.submission = some c → c.superseded = true) :
    KeepsLocks owned b { b with holds := b.release p } where
  submissions := .refl .refl _
  wellHeld := WellHeld.release
  keeps hb u x hu := by
    obtain ⟨h, row, wa, hrow, hheld, hx, hwa, rfl, hkind, howned⟩ := hu
    by_cases hp : p row.activity
    · obtain ⟨wa', c, hwa', hc, -⟩ := hb.pinned h row hrow
      obtain rfl := Option.some.inj (hwa.symm.trans hwa')
      exact .inr ⟨c, hc, hfree _ wa hp hwa hkind howned c hc⟩
    · have hstill : b.release p h = some row :=
        alter_of_neg (p := fun _ (row : Hold) => p row.activity) hrow hp
      exact .inl ⟨h, row, wa, hstill, hheld, hx, hwa, rfl, hkind, howned⟩

/-! ### Taking holds -/

/-- The target of the submission is free for the activity. -/
structure Takes (b : Board) (h : Id) (row : Hold) : Prop where
  newHold : b.holds h = none
  pinned : ∃ wa u, b.activities row.activity = some wa ∧ b.submissions wa.submission = some u ∧
    u.key = some row.key ∧ u.branch = some row.branch
  free : ∀ h' row', b.holds h' = some row' → row'.activity ≠ row.activity ∧
    (row'.held = true → row'.key = row.key → row'.branch ≠ row.branch)

lemma WellHeld.take {h : Id} {row : Hold} (hb : b.WellHeld) (ht : b.Takes h row) :
    WellHeld { b with holds := Function.update b.holds h (some row) } where
  pinned k r hr := by
    rcases update_eq_some.1 hr with ⟨-, rfl⟩ | ⟨-, hold⟩
    · exact ht.pinned
    · exact hb.pinned k r hold
  single k k' r r' hr hr' heq := by
    rcases update_eq_some.1 hr with ⟨rfl, rfl⟩ | ⟨-, hold⟩ <;>
      rcases update_eq_some.1 hr' with ⟨rfl, rfl⟩ | ⟨-, hold'⟩
    · rfl
    · exact absurd heq.symm (ht.free _ _ hold').1
    · exact absurd heq (ht.free _ _ hold).1
    · exact hb.single k k' r r' hold hold' heq
  exclusive k k' r r' hr hr' hheld hheld' hk hbr := by
    rcases update_eq_some.1 hr with ⟨rfl, rfl⟩ | ⟨-, hold⟩ <;>
      rcases update_eq_some.1 hr' with ⟨rfl, rfl⟩ | ⟨-, hold'⟩
    · rfl
    · exact absurd hbr.symm ((ht.free _ _ hold').2 hheld' hk.symm)
    · exact absurd hbr ((ht.free _ _ hold).2 hheld hk)
    · exact hb.exclusive k k' r r' hold hold' hheld hheld' hk hbr

/-- A new hold takes no lock away. -/
lemma KeepsLocks.take {h : Id} {row : Hold} (ht : b.Takes h row) :
    KeepsLocks owned b { b with holds := Function.update b.holds h (some row) } where
  submissions := .refl .refl _
  wellHeld hb := hb.take ht
  keeps _ u x hu := by
    obtain ⟨k, r, wa, hr, hrest⟩ := hu
    exact .inl ⟨k, r, wa, update_of_fresh ht.newHold hr, hrest⟩

/-- The hold of an activity is held again, while nobody else holds its target. -/
def retake (b : Board) (a : Id) : Id → Option Hold :=
  alter b.holds (fun _ row => row.activity = a) fun row => { row with held := true }

lemma of_retake {a h : Id} {row : Hold} (hrow : b.retake a h = some row) :
    ∃ row₀, b.holds h = some row₀ ∧ row₀.activity = row.activity ∧ row₀.key = row.key ∧
      row₀.branch = row.branch ∧ (row.held = true → row.activity ≠ a → row₀.held = true) := by
  rcases of_alter hrow with ⟨row₀, hrow₀, hp, rfl⟩ | ⟨hrow₀, -⟩
  · exact ⟨row₀, hrow₀, rfl, rfl, rfl, fun _ hne => absurd hp hne⟩
  · exact ⟨row, hrow₀, rfl, rfl, rfl, fun h _ => h⟩

lemma WellHeld.retake {a : Id} {key branch : String} (hb : b.WellHeld)
    (htarget : ∀ h row, b.holds h = some row → row.activity = a →
      row.key = key ∧ row.branch = branch)
    (hfree : ∀ h row, b.holds h = some row → row.held = true → row.activity ≠ a → row.key = key →
      row.branch ≠ branch) : WellHeld { b with holds := b.retake a } where
  pinned h row hrow := by
    obtain ⟨row₀, hrow₀, hactivity, hkey, hbranch, -⟩ := of_retake hrow
    rw [← hactivity, ← hkey, ← hbranch]
    exact hb.pinned h row₀ hrow₀
  single h h' row row' hrow hrow' heq := by
    obtain ⟨row₀, hrow₀, hactivity, -⟩ := of_retake hrow
    obtain ⟨row₀', hrow₀', hactivity', -⟩ := of_retake hrow'
    exact hb.single h h' row₀ row₀' hrow₀ hrow₀' (by rw [hactivity, hactivity', heq])
  exclusive h h' row row' hrow hrow' hheld hheld' hk hbr := by
    obtain ⟨row₀, hrow₀, hactivity, hkey, hbranch, hheld₀⟩ := of_retake hrow
    obtain ⟨row₀', hrow₀', hactivity', hkey', hbranch', hheld₀'⟩ := of_retake hrow'
    by_cases ha : row.activity = a <;> by_cases ha' : row'.activity = a
    · exact hb.single h h' row₀ row₀' hrow₀ hrow₀' (by rw [hactivity, hactivity', ha, ha'])
    · -- the other one would hold the target that the activity takes
      obtain ⟨ht, ht'⟩ := htarget h row₀ hrow₀ (hactivity.trans ha)
      refine absurd ?_ (hfree h' row₀' hrow₀' (hheld₀' hheld' ha') (hactivity' ▸ ha') ?_)
      · rw [hbranch', ← hbr, ← hbranch, ht']
      · rw [hkey', ← hk, ← hkey, ht]
    · obtain ⟨ht, ht'⟩ := htarget h' row₀' hrow₀' (hactivity'.trans ha')
      refine absurd ?_ (hfree h row₀ hrow₀ (hheld₀ hheld ha) (hactivity ▸ ha) ?_)
      · rw [hbranch, hbr, ← hbranch', ht']
      · rw [hkey, hk, ← hkey', ht]
    · exact hb.exclusive h h' row₀ row₀' hrow₀ hrow₀' (hheld₀ hheld ha) (hheld₀' hheld' ha')
        (by rw [hkey, hkey', hk]) (by rw [hbranch, hbranch', hbr])

/-- Holding again takes no lock away. -/
lemma KeepsLocks.retake {a : Id} {key branch : String}
    (htarget : b.WellHeld →
      ∀ h row, b.holds h = some row → row.activity = a → row.key = key ∧ row.branch = branch)
    (hfree : ∀ h row, b.holds h = some row → row.held = true → row.activity ≠ a → row.key = key →
      row.branch ≠ branch) : KeepsLocks owned b { b with holds := b.retake a } where
  submissions := .refl .refl _
  wellHeld hb := hb.retake (htarget hb) hfree
  keeps _ u x hu := by
    obtain ⟨h, row, wa, hrow, hheld, hx, hwa, hrest⟩ := hu
    have hstill : b.retake a h = some { row with held := true } := by
      refine alter_eq_some.2 ⟨row, hrow, ?_⟩
      split
      · rfl
      · rw [← hheld]
    exact .inl ⟨h, _, wa, hstill, rfl, hx, hwa, hrest⟩

end Board

end AgentCoordinator
