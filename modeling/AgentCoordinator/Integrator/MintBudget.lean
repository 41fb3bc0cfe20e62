import Mathlib.Algebra.Group.Nat.Defs
import Mathlib.Data.Nat.Basic
import Mathlib.Tactic.SplitIfs

/-
The mint budget of the push helper.

A token bucket of whole mints: it remembers the time up to which mints were earned, which moves in
whole intervals, except that a full bucket forgets what is left over. What overflows panics, and is
`none` here.

The level of a bucket, its mints and the time since they were earned, is what a bucket that fills
continuously would hold: it is never above the burst, grows no faster than the time and falls by
an interval with each mint.
-/

namespace AgentCoordinator.Budget

/-! ### Data -/

/-- `Duration`: 64 bits of seconds, and nanoseconds. -/
structure Duration where
  nanos : ℕ
  nanos_lt : nanos < 2 ^ 64 * 10 ^ 9
  deriving DecidableEq

/-- `Instant`: a reading of the monotonic clock. -/
structure Instant where
  nanos : ℕ
  nanos_lt : nanos < 2 ^ 63 * 10 ^ 9
  deriving DecidableEq

/-- `Instant::saturating_duration_since`. -/
def Instant.saturatingDurationSince (t earlier : Instant) : Duration :=
  ⟨t.nanos - earlier.nanos, by have h := t.nanos_lt; omega⟩

/-- `Instant + Duration`. -/
def Instant.add (t : Instant) (d : Duration) : Option Instant :=
  if h : t.nanos + d.nanos < 2 ^ 63 * 10 ^ 9 then some ⟨t.nanos + d.nanos, h⟩ else none

/-- `Duration * u32`. -/
def Duration.mul (d : Duration) (n : ℕ) : Option Duration :=
  if h : d.nanos * n < 2 ^ 64 * 10 ^ 9 then some ⟨d.nanos * n, h⟩ else none

/-- `u32::try_from`. -/
def u32TryFrom (n : ℕ) : Option ℕ := if n < 2 ^ 32 then some n else none

/-- Addition of `u128`. -/
def addU128 (a b : ℕ) : Option ℕ := if a + b < 2 ^ 128 then some (a + b) else none

/-- `MintBudget`. -/
structure MintBudget where
  available : ℕ
  burst : ℕ
  interval : Duration
  refilledAt : Instant
  burst_lt : burst < 2 ^ 32
  deriving DecidableEq

/-! ### Operations -/

/-- `MintBudget::new`. -/
def MintBudget.new (burst : ℕ) (burst_lt : burst < 2 ^ 32) (interval : Duration)
    (now : Instant) : MintBudget := ⟨burst, burst, interval, now, burst_lt⟩

/-- `MintBudget::refill`. -/
def MintBudget.refill (m : MintBudget) (now : Instant) : Option MintBudget := do
  let elapsed := now.saturatingDurationSince m.refilledAt
  let earned := elapsed.nanos / max m.interval.nanos 1
  let total ← addU128 m.available earned
  if m.burst ≤ total then some { m with available := m.burst, refilledAt := now }
  else if 0 < earned then do
    let moved ← m.interval.mul ((u32TryFrom earned).getD (2 ^ 32 - 1))
    let refilledAt ← m.refilledAt.add moved
    some { m with available := (u32TryFrom total).getD m.burst, refilledAt }
  else some m

/-- `MintBudget::take`. -/
def MintBudget.take (m : MintBudget) (now : Instant) : Option (Bool × MintBudget) := do
  let m ← m.refill now
  if m.available = 0 then some (false, m)
  else some (true, { m with available := m.available - 1 })

/-- A sequence of calls, with what each returned. -/
def MintBudget.run (m : MintBudget) : List Instant → Option (List (Instant × Bool))
  | [] => some []
  | now :: calls => do
    let (taken, m) ← m.take now
    let results ← m.run calls
    some ((now, taken) :: results)

/-! ### One call -/

section Take

variable {m : MintBudget} {now t : Instant}

/-- The bucket has counted up to some time, or is full. -/
def MintBudget.Ready (m : MintBudget) (now : Instant) : Prop :=
  m.available ≤ m.burst ∧ (m.available = m.burst ∨ m.refilledAt.nanos ≤ now.nanos)

/-- What a bucket that fills continuously would hold, in nanoseconds. -/
def MintBudget.level (m : MintBudget) (now : Instant) : ℕ :=
  m.available * m.interval.nanos + (now.nanos - m.refilledAt.nanos)

/-- What refilling does to a bucket. -/
structure Refilled (m m' : MintBudget) (now : Instant) : Prop where
  burst : m'.burst = m.burst
  interval : m'.interval = m.interval
  available : m.available ≤ m'.available ∧ m'.available ≤ m.burst
  refilledAt : m'.refilledAt.nanos ≤ now.nanos
  /-- It holds no more than it has room for. -/
  cap : 0 < m.interval.nanos → m'.level now ≤ m.burst * m.interval.nanos
  /-- It holds no more than what flowed in. -/
  level : m.refilledAt.nanos ≤ now.nanos → m'.level now ≤ m.level now
  /-- An interval is worth a mint. -/
  earned : 0 < m.burst → m.refilledAt.nanos + max m.interval.nanos 1 ≤ now.nanos →
    0 < m'.available
  /-- Without a mint nothing has changed. -/
  kept : 0 < m.burst → m'.available = 0 → m' = m

lemma u32TryFrom_of_lt {n : ℕ} (h : n < 2 ^ 32) : u32TryFrom n = some n := if_pos h

/-- What was earned did not take longer than the time since. -/
lemma earned_mul_le (elapsed interval : ℕ) :
    elapsed / max interval 1 * interval ≤ elapsed := by
  calc elapsed / max interval 1 * interval ≤ elapsed / max interval 1 * max interval 1 :=
        Nat.mul_le_mul_left _ (Nat.le_max_left _ _)
    _ ≤ elapsed := Nat.div_mul_le_self _ _

/-- Refilling a bucket that is ready does not overflow. -/
theorem refill_spec (h : m.Ready now) : ∃ m', m.refill now = some m' ∧ Refilled m m' now := by
  obtain ⟨hle, hready⟩ := h
  have hburst := m.burst_lt
  have hnow := now.nanos_lt
  obtain ⟨elapsed, helapsed⟩ : ∃ n, n = now.nanos - m.refilledAt.nanos := ⟨_, rfl⟩
  obtain ⟨earned, hearned⟩ : ∃ n, n = elapsed / max m.interval.nanos 1 := ⟨_, rfl⟩
  have hsize : earned ≤ elapsed := hearned ▸ Nat.div_le_self _ _
  have htime : earned * m.interval.nanos ≤ elapsed := hearned ▸ earned_mul_le _ _
  have htotal : addU128 m.available earned = some (m.available + earned) := by
    refine if_pos ?_
    omega
  have hpos : m.refilledAt.nanos + max m.interval.nanos 1 ≤ now.nanos → 0 < earned := by
    intro hwait
    rw [hearned]
    refine Nat.div_pos ?_ (Nat.lt_of_lt_of_le Nat.one_pos (Nat.le_max_right _ _))
    omega
  by_cases hfull : m.burst ≤ m.available + earned
  · refine ⟨{ m with available := m.burst, refilledAt := now }, ?_, rfl, rfl, ⟨hle, Nat.le_refl _⟩,
      Nat.le_refl _, ?_, ?_, fun h _ => h, fun h h' => absurd h' (Nat.pos_iff_ne_zero.1 h)⟩
    · simp only [MintBudget.refill, Instant.saturatingDurationSince, ← helapsed, ← hearned, htotal,
        Option.bind_eq_bind, Option.bind_some, if_pos hfull]
    · intro _
      simp only [MintBudget.level, Nat.sub_self, Nat.add_zero, Nat.le_refl]
    · intro _
      simp only [MintBudget.level, Nat.sub_self, Nat.add_zero, ← helapsed]
      calc m.burst * m.interval.nanos ≤ (m.available + earned) * m.interval.nanos :=
            Nat.mul_le_mul_right _ hfull
        _ = m.available * m.interval.nanos + earned * m.interval.nanos := Nat.add_mul _ _ _
        _ ≤ m.available * m.interval.nanos + elapsed := Nat.add_le_add_left htime _
  · have hsince : m.refilledAt.nanos ≤ now.nanos := by
      rcases hready with hfull' | hsince
      · omega
      · exact hsince
    by_cases hzero : 0 < earned
    · -- the clock moves by whole intervals
      have hmul : m.interval.nanos * earned = earned * m.interval.nanos := Nat.mul_comm _ _
      have hshort : m.interval.nanos * earned < 2 ^ 64 * 10 ^ 9 := by
        refine Nat.lt_of_lt_of_le (m := 2 ^ 63 * 10 ^ 9) ?_ (by decide)
        rw [hmul]
        omega
      have hmoved : m.interval.mul earned = some ⟨m.interval.nanos * earned, hshort⟩ := by
        unfold Duration.mul
        rw [dif_pos]
      have hadd : m.refilledAt.add ⟨m.interval.nanos * earned, hshort⟩ =
          some ⟨m.refilledAt.nanos + m.interval.nanos * earned, by rw [hmul]; omega⟩ := by
        unfold Instant.add
        rw [dif_pos]
      refine ⟨{ m with
          available := m.available + earned
          refilledAt := ⟨m.refilledAt.nanos + m.interval.nanos * earned, by rw [hmul]; omega⟩ },
        ?_, rfl, rfl, ⟨Nat.le_add_right _ _, Nat.le_of_not_le hfull⟩, ?_, ?_, ?_, ?_, ?_⟩
      · simp only [MintBudget.refill, Instant.saturatingDurationSince, ← helapsed, ← hearned,
          htotal, Option.bind_eq_bind, Option.bind_some, if_neg hfull, if_pos hzero,
          u32TryFrom_of_lt (by omega : earned < 2 ^ 32), Option.getD_some, hmoved, hadd,
          u32TryFrom_of_lt (by omega : m.available + earned < 2 ^ 32)]
      · change m.refilledAt.nanos + m.interval.nanos * earned ≤ now.nanos
        rw [hmul]
        omega
      · intro hinterval
        change (m.available + earned) * m.interval.nanos +
          (now.nanos - (m.refilledAt.nanos + m.interval.nanos * earned)) ≤
            m.burst * m.interval.nanos
        have hrest : elapsed < earned * m.interval.nanos + m.interval.nanos := by
          have hmax : max m.interval.nanos 1 = m.interval.nanos := Nat.max_eq_left hinterval
          rw [hearned, hmax, Nat.mul_comm]
          exact Nat.lt_mul_div_succ elapsed hinterval
        have hroom : (m.available + earned + 1) * m.interval.nanos ≤ m.burst * m.interval.nanos :=
          Nat.mul_le_mul_right _ (by omega)
        rw [Nat.add_mul, Nat.one_mul] at hroom
        rw [hmul]
        omega
      · intro _
        change (m.available + earned) * m.interval.nanos +
          (now.nanos - (m.refilledAt.nanos + m.interval.nanos * earned)) ≤
            m.available * m.interval.nanos + (now.nanos - m.refilledAt.nanos)
        rw [hmul, Nat.add_mul]
        omega
      · intro _ _
        exact Nat.lt_of_lt_of_le hzero (Nat.le_add_left _ _)
      · intro _ hnone
        change m.available + earned = 0 at hnone
        omega
    · refine ⟨m, ?_, rfl, rfl, ⟨Nat.le_refl _, hle⟩, hsince, ?_, fun _ => Nat.le_refl _,
        fun _ hwait => absurd (hpos hwait) hzero, fun _ _ => rfl⟩
      · simp only [MintBudget.refill, Instant.saturatingDurationSince, ← helapsed, ← hearned,
          htotal, Option.bind_eq_bind, Option.bind_some, if_neg hfull, if_neg hzero]
      · intro hinterval
        have hrest : elapsed < m.interval.nanos := by
          have hmax : max m.interval.nanos 1 = m.interval.nanos := Nat.max_eq_left hinterval
          rw [hearned, hmax, Nat.not_lt, Nat.le_zero, Nat.div_eq_zero_iff] at hzero
          omega
        have hroom : (m.available + 1) * m.interval.nanos ≤ m.burst * m.interval.nanos :=
          Nat.mul_le_mul_right _ (by omega)
        rw [Nat.add_mul, Nat.one_mul] at hroom
        unfold MintBudget.level
        omega

/-- What a call does: it takes a mint if there is one after refilling. -/
structure Taken (m : MintBudget) (now : Instant) (taken : Bool) (m' : MintBudget) : Prop where
  burst : m'.burst = m.burst
  interval : m'.interval = m.interval
  available : m'.available ≤ m.burst
  refilledAt : m'.refilledAt.nanos ≤ now.nanos
  cap : 0 < m.interval.nanos → m'.level now + (if taken then m.interval.nanos else 0) ≤
    m.burst * m.interval.nanos
  level : m.refilledAt.nanos ≤ now.nanos →
    m'.level now + (if taken then m.interval.nanos else 0) ≤ m.level now
  /-- A full bucket and one that has waited for an interval give a mint. -/
  given : 0 < m.burst → (m.available = m.burst ∨
    m.refilledAt.nanos + max m.interval.nanos 1 ≤ now.nanos) → taken = true
  refused : 0 < m.burst → taken = false → m' = m

theorem take_spec (h : m.Ready now) : ∃ taken m', m.take now = some (taken, m') ∧
    Taken m now taken m' := by
  obtain ⟨r, hrefill, hr⟩ := refill_spec h
  by_cases hzero : r.available = 0
  · refine ⟨false, r, ?_, hr.burst, hr.interval, hr.available.2, hr.refilledAt, ?_, ?_, ?_, ?_⟩
    · simp only [MintBudget.take, hrefill, Option.bind_eq_bind, Option.bind_some, if_pos hzero]
    · simpa using hr.cap
    · simpa using hr.level
    · intro hburst hwait
      have havailable := hr.available.1
      rcases hwait with hfull | hwait
      · omega
      · have hpos := hr.earned hburst hwait
        omega
    · exact fun hburst _ => hr.kept hburst hzero
  · have hlevel : MintBudget.level { r with available := r.available - 1 } now + m.interval.nanos =
        r.level now := by
      obtain ⟨n, hn⟩ := Nat.exists_eq_succ_of_ne_zero hzero
      simp only [MintBudget.level, hr.interval, hn, Nat.succ_eq_add_one, Nat.add_sub_cancel,
        Nat.add_mul, Nat.one_mul]
      omega
    refine ⟨true, { r with available := r.available - 1 }, ?_, hr.burst, hr.interval, ?_,
      hr.refilledAt, ?_, ?_, fun _ _ => rfl, fun _ h => Bool.noConfusion h⟩
    · simp only [MintBudget.take, hrefill, Option.bind_eq_bind, Option.bind_some, if_neg hzero]
    · exact Nat.le_trans (Nat.sub_le _ _) hr.available.2
    · intro hinterval
      rw [if_pos rfl, hlevel]
      exact hr.cap hinterval
    · intro hsince
      rw [if_pos rfl, hlevel]
      exact hr.level hsince

end Take

/-! ### Sequences of calls -/

section Run

variable {m : MintBudget} {calls : List Instant} {results : List (Instant × Bool)}

/-- The calls come in the order of their times. -/
abbrev InOrder (calls : List Instant) : Prop := calls.Pairwise fun t t' => t.nanos ≤ t'.nanos

/-- How many mints were given in a closed window. -/
def given (results : List (Instant × Bool)) (start length : ℕ) : ℕ :=
  results.countP fun r => r.2 && (start ≤ r.1.nanos && r.1.nanos ≤ start + length)

/-- After a call the bucket is ready for the later ones. -/
lemma Taken.ready {m' : MintBudget} {now : Instant} {taken : Bool} (h : Taken m now taken m')
    {t : Instant} (hle : now.nanos ≤ t.nanos) : m'.Ready t :=
  ⟨h.burst ▸ h.available, .inr (Nat.le_trans h.refilledAt hle)⟩

/-- The calls one after the other. -/
lemma run_cons {now : Instant} {m' : MintBudget} {taken : Bool}
    (h : m.take now = some (taken, m')) :
    m.run (now :: calls) = (m'.run calls).map fun results => (now, taken) :: results := by
  simp only [MintBudget.run, h, Option.bind_eq_bind, Option.bind_some]
  cases m'.run calls <;> rfl

/-- A sequence of calls ends without an overflow. -/
theorem run_total (hcalls : InOrder calls) (h : ∀ t ∈ calls.head?, m.Ready t) :
    ∃ results, m.run calls = some results ∧ results.map Prod.fst = calls := by
  induction calls generalizing m with
  | nil => exact ⟨[], rfl, rfl⟩
  | cons now calls ih =>
    obtain ⟨hfirst, hrest⟩ := List.pairwise_cons.1 hcalls
    obtain ⟨taken, m', htake, htaken⟩ := take_spec (h now rfl)
    obtain ⟨results, hrun, hresults⟩ := ih hrest (m := m') fun t ht =>
      htaken.ready (hfirst t (List.mem_of_mem_head? ht))
    refine ⟨(now, taken) :: results, ?_, by rw [List.map_cons, hresults]⟩
    rw [run_cons htake, hrun]
    rfl

/-- The calls after the first one. -/
lemma run_eq_cons {now : Instant} (h : m.Ready now) (hrun : m.run (now :: calls) = some results) :
    ∃ taken m' rest, Taken m now taken m' ∧ m'.run calls = some rest ∧
      results = (now, taken) :: rest := by
  obtain ⟨taken, m', htake, htaken⟩ := take_spec h
  rw [run_cons htake, Option.map_eq_some_iff] at hrun
  obtain ⟨rest, hrest, rfl⟩ := hrun
  exact ⟨taken, m', rest, htaken, hrest, rfl⟩

lemma given_cons (now : Instant) (taken : Bool) (start length : ℕ) :
    given ((now, taken) :: results) start length = given results start length +
      if taken = true ∧ start ≤ now.nanos ∧ now.nanos ≤ start + length then 1 else 0 := by
  unfold given
  rw [List.countP_cons]
  simp only [Bool.and_eq_true, decide_eq_true_eq]

/-- Nothing is given in a window that is over. -/
lemma given_eq_zero {start length : ℕ} (h : ∀ t ∈ calls, start + length < t.nanos)
    (hresults : results.map Prod.fst = calls) : given results start length = 0 := by
  refine List.countP_eq_zero.2 fun r hr => ?_
  have hlate := h r.1 (hresults ▸ List.mem_map_of_mem hr)
  simp only [Bool.and_eq_true, decide_eq_true_eq, not_and, not_le]
  exact fun _ _ => hlate

/-- What a call may add to what is given, in nanoseconds of the interval. -/
lemma given_cons_mul_le (results : List (Instant × Bool)) (now : Instant) (taken : Bool)
    (start length interval : ℕ) : given ((now, taken) :: results) start length * interval ≤
      given results start length * interval + if taken = true then interval else 0 := by
  rw [given_cons, Nat.add_mul]
  refine Nat.add_le_add_left ?_ _
  by_cases htrue : taken = true
  · rw [if_pos htrue]
    split_ifs <;> omega
  · rw [if_neg fun h => htrue h.1, Nat.zero_mul]
    exact Nat.zero_le _

/-- From some time on no more is given than the level and what flows in. -/
lemma given_le_level {now : Instant} (start length : ℕ) (hcalls : InOrder calls)
    (hlate : ∀ t ∈ calls, now.nanos ≤ t.nanos) (havailable : m.available ≤ m.burst)
    (hsince : m.refilledAt.nanos ≤ now.nanos) (hnow : now.nanos ≤ start + length)
    (hrun : m.run calls = some results) :
    given results start length * m.interval.nanos ≤
      m.level now + (start + length - now.nanos) := by
  induction calls generalizing m now results with
  | nil =>
    obtain rfl := Option.some.inj hrun
    simp [given]
  | cons t calls ih =>
    obtain ⟨hfirst, hrest⟩ := List.pairwise_cons.1 hcalls
    have ht := hlate t List.mem_cons_self
    by_cases hover : t.nanos ≤ start + length
    · have hready : m.Ready t := ⟨havailable, .inr (Nat.le_trans hsince ht)⟩
      obtain ⟨taken, m', rest, htaken, hrest', rfl⟩ := run_eq_cons hready hrun
      have hih := ih hrest hfirst (htaken.burst ▸ htaken.available) htaken.refilledAt hover hrest'
      have hlevel := htaken.level (Nat.le_trans hsince ht)
      have hflow : m.level t = m.level now + (t.nanos - now.nanos) := by
        unfold MintBudget.level
        omega
      rw [htaken.interval] at hih
      have hone := given_cons_mul_le rest t taken start length m.interval.nanos
      omega
    · obtain ⟨results', hresults', hmap⟩ := run_total (m := m) hcalls (by
        rintro _ ⟨⟩
        exact ⟨havailable, .inr (Nat.le_trans hsince ht)⟩)
      obtain rfl := Option.some.inj (hrun.symm.trans hresults')
      have hlater : ∀ t' ∈ t :: calls, start + length < t'.nanos := by
        intro t' ht'
        rcases List.mem_cons.1 ht' with rfl | ht'
        · omega
        · have hle := hfirst t' ht'
          omega
      rw [given_eq_zero hlater hmap, Nat.zero_mul]
      exact Nat.zero_le _

/-- In a window no more is given than the burst and what flows in. -/
lemma given_mul_le (start length : ℕ) (hcalls : InOrder calls)
    (h : ∀ t ∈ calls.head?, m.Ready t) (hinterval : 0 < m.interval.nanos)
    (hrun : m.run calls = some results) :
    given results start length * m.interval.nanos ≤ m.burst * m.interval.nanos + length := by
  induction calls generalizing m results with
  | nil =>
    obtain rfl := Option.some.inj hrun
    simp [given]
  | cons t calls ih =>
    obtain ⟨hfirst, hrest⟩ := List.pairwise_cons.1 hcalls
    obtain ⟨taken, m', rest, htaken, hrest', rfl⟩ := run_eq_cons (h t rfl) hrun
    have hready : ∀ t' ∈ calls.head?, m'.Ready t' :=
      fun t' ht' => htaken.ready (hfirst t' (List.mem_of_mem_head? ht'))
    by_cases hbefore : start ≤ t.nanos ∧ t.nanos ≤ start + length
    · -- the first call of the window finds no more than a full bucket
      have hlevel := given_le_level start length hrest hfirst
        (htaken.burst ▸ htaken.available) htaken.refilledAt hbefore.2 hrest'
      have hcap := htaken.cap hinterval
      rw [htaken.interval] at hlevel
      have hone := given_cons_mul_le rest t taken start length m.interval.nanos
      omega
    · have hih := ih hrest hready (by rw [htaken.interval]; exact hinterval) hrest'
      rw [htaken.interval, htaken.burst] at hih
      rw [given_cons, if_neg fun h => hbefore h.2, Nat.add_zero]
      exact hih

/-- A call an interval after the latest mint gets one. -/
lemma given_of_waited {before behind : List (Instant × Bool)} {r : Instant × Bool}
    (hcalls : InOrder calls) (h : ∀ t ∈ calls.head?, m.Ready t) (hburst : 0 < m.burst)
    (hrun : m.run calls = some (before ++ r :: behind))
    (hwait : m.available = m.burst ∨
      m.refilledAt.nanos + max m.interval.nanos 1 ≤ r.1.nanos)
    (hlatest : ∀ q ∈ before, q.2 = true →
      q.1.nanos + max m.interval.nanos 1 ≤ r.1.nanos) : r.2 = true := by
  induction before generalizing m calls with
  | nil =>
    cases calls with
    | nil => exact absurd (Option.some.inj hrun).symm (by simp)
    | cons t calls =>
      obtain ⟨taken, m', rest, htaken, -, heq⟩ := run_eq_cons (h t rfl) hrun
      obtain ⟨rfl, -⟩ := List.cons.inj heq
      exact htaken.given hburst hwait
  | cons q before ih =>
    cases calls with
    | nil => exact absurd (Option.some.inj hrun).symm (by simp)
    | cons t calls =>
      obtain ⟨hfirst, hrest⟩ := List.pairwise_cons.1 hcalls
      obtain ⟨taken, m', rest, htaken, hrun', heq⟩ := run_eq_cons (h t rfl) hrun
      obtain ⟨rfl, rfl⟩ := List.cons.inj heq
      have hready : ∀ t' ∈ calls.head?, m'.Ready t' :=
        fun t' ht' => htaken.ready (hfirst t' (List.mem_of_mem_head? ht'))
      have hlatest' : ∀ q ∈ before, q.2 = true →
          q.1.nanos + max m'.interval.nanos 1 ≤ r.1.nanos := by
        rw [htaken.interval]
        exact fun q hq => hlatest q (List.mem_cons_of_mem _ hq)
      refine ih hrest hready (by rw [htaken.burst]; exact hburst) hrun' ?_ hlatest'
      by_cases htrue : taken = true
      · right
        have htime := hlatest (t, taken) List.mem_cons_self htrue
        rw [htaken.interval]
        exact Nat.le_trans (Nat.add_le_add_right htaken.refilledAt _) htime
      · -- a refused call has left the bucket as it was
        rw [htaken.refused hburst (Bool.not_eq_true _ ▸ htrue)]
        exact hwait

end Run

/-! ### The budget -/

/-- Some calls of a budget: none overflows, a window holds no more mints than the burst and those
that are earned in it, and after a wait there is a mint. -/
structure Bounded (burst : ℕ) (interval wait : ℕ) (results : List (Instant × Bool)) : Prop where
  window : 0 < interval → ∀ start length, given results start length ≤ burst + length / interval
  given : 0 < burst → ∀ before r behind, results = before ++ r :: behind →
    (∀ q ∈ before, q.2 = true → q.1.nanos + wait ≤ r.1.nanos) → r.2 = true

/-- The budget is a token bucket, in which an interval is at least a nanosecond. -/
theorem budget_bounded (burst : ℕ) (burst_lt : burst < 2 ^ 32) (interval : Duration)
    (start : Instant) (calls : List Instant) (hcalls : InOrder calls) :
    ∃ results, (MintBudget.new burst burst_lt interval start).run calls = some results ∧
      results.map Prod.fst = calls ∧
      Bounded burst interval.nanos (max interval.nanos 1) results := by
  have hready : ∀ t ∈ calls.head?, (MintBudget.new burst burst_lt interval start).Ready t :=
    fun t _ => ⟨Nat.le_refl _, .inl rfl⟩
  obtain ⟨results, hrun, hmap⟩ := run_total hcalls hready
  refine ⟨results, hrun, hmap, ?_, ?_⟩
  · intro hinterval from' length
    have hle := given_mul_le from' length hcalls hready hinterval hrun
    have hdiv : given results from' length ≤ (burst * interval.nanos + length) / interval.nanos :=
      (Nat.le_div_iff_mul_le hinterval).2 hle
    rwa [Nat.mul_comm, Nat.mul_add_div hinterval] at hdiv
  · intro hburst before r behind hresults hlatest
    exact given_of_waited hcalls hready hburst (hresults ▸ hrun) (.inl rfl) hlatest

/-- A time, in seconds. -/
def second (n : ℕ) (h : n < 2 ^ 63) : Instant := ⟨n * 10 ^ 9, by omega⟩

/-- The budget of the helper: three mints, and one more every twenty seconds. -/
theorem budget_bounded_helper : ∃ results,
    (MintBudget.new 3 (by decide) ⟨20 * 10 ^ 9, by decide⟩ (second 0 (by decide))).run
        [second 1 (by decide), second 1 (by decide), second 21 (by decide)] = some results ∧
      results.map Prod.fst = [second 1 (by decide), second 1 (by decide), second 21 (by decide)] ∧
      Bounded 3 (20 * 10 ^ 9) (max (20 * 10 ^ 9) 1) results :=
  budget_bounded 3 (by decide) ⟨20 * 10 ^ 9, by decide⟩ (second 0 (by decide)) _ (by decide)

/-- Without an interval, a second call at the time of the first is refused. -/
theorem empty_interval_refuses : ¬ ∀ (burst : ℕ) (burst_lt : burst < 2 ^ 32) (interval : Duration)
    (start : Instant) (calls : List Instant), InOrder calls →
    ∃ results, (MintBudget.new burst burst_lt interval start).run calls = some results ∧
      results.map Prod.fst = calls ∧ Bounded burst interval.nanos interval.nanos results := by
  intro h
  obtain ⟨results, hrun, -, hbounded⟩ := h 1 (by decide) ⟨0, by decide⟩ (second 1 (by decide))
    [second 1 (by decide), second 1 (by decide)] (by decide)
  have hresults : (MintBudget.new 1 (by decide) ⟨0, by decide⟩ (second 1 (by decide))).run
      [second 1 (by decide), second 1 (by decide)] =
        some [(second 1 (by decide), true), (second 1 (by decide), false)] := by decide
  rw [hresults] at hrun
  obtain rfl := Option.some.inj hrun
  have hgiven := hbounded.given (by decide) [(second 1 (by decide), true)]
    (second 1 (by decide), false) [] rfl (fun q hq _ => by
      rw [List.mem_singleton.1 hq]
      exact Nat.le_refl _)
  exact absurd hgiven (by decide)

end AgentCoordinator.Budget
