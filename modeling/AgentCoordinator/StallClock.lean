import Mathlib
import AgentCoordinator.Access
import AgentCoordinator.Library.Text

/-
The stall clock, which does not run in the quiet hours.

The quiet hours are a daily span of hours, which may go on past midnight. The time that counts is
found day by day: each day takes off what its spans have in common with the interval. What overflows
panics, and is `none` here, as is a loop that does not end within a number of rounds.
-/

namespace AgentCoordinator.StallClock

open Text

/-! ### Quiet hours -/

def HOUR_MS : ℤ := 3600000

def DAY_MS : ℤ := 24 * HOUR_MS

/-- `QuietHours`. -/
structure QuietHours where
  start : ℕ
  stop : ℕ
  deriving DecidableEq, Repr

/-- `u8::from_str`, of digits that may follow a plus sign. -/
def parseU8 (s : List Char) : Option ℕ :=
  let digits := (afterStart ['+'] s).getD s
  if digits ≠ [] ∧ digits.all Char.isDigit then
    let n := digits.foldl (fun n c => n * 10 + (c.toNat - '0'.toNat)) 0
    if n < 256 then some n else none
  else none

def invalid : String :=
  "quiet hours must be START-END in UTC hours 0 through 24, such as 22-07."

/-- `QuietHours::from_str`. -/
def QuietHours.fromStr (text : List Char) : Except String QuietHours := do
  let some (start, stop) := cut ['-'] text | throw invalid
  let some start := parseU8 (trimBy isWhitespace start) | throw invalid
  let some stop := parseU8 (trimBy isWhitespace stop) | throw invalid
  if 23 < start ∨ 24 < stop ∨ start = stop then throw invalid
  else pure ⟨start, stop⟩

/-! ### The clock -/

/-- A number that fits into an `i64`. -/
def i64 (n : ℤ) : Option ℤ := if -2 ^ 63 ≤ n ∧ n < 2 ^ 63 then some n else none

/-- The spans of a day that are quiet. -/
def QuietHours.spans (quiet : QuietHours) : List (ℤ × ℤ) :=
  let (start, stop) := (quiet.start * HOUR_MS, quiet.stop * HOUR_MS)
  if start < stop then [(start, stop)] else [(0, stop), (start, DAY_MS)]

/-- What a span of a day takes off the interval. -/
def addSpan (start stop day quietMs : ℤ) (span : ℤ × ℤ) : Option ℤ := do
  let upper ← i64 (day + span.2)
  let lower ← i64 (day + span.1)
  let common ← i64 (min upper stop - max lower start)
  i64 (quietMs + max common 0)

/-- The loop over the days, for a number of rounds. -/
def days (spans : List (ℤ × ℤ)) (start stop : ℤ) : ℕ → ℤ → ℤ → Option ℤ
  | 0, _, _ => none
  | rounds + 1, day, quietMs =>
    if day < stop then do
      let quietMs ← spans.foldlM (addSpan start stop day) quietMs
      let day ← i64 (day + DAY_MS)
      days spans start stop rounds day quietMs
    else some quietMs

/-- `QuietHours::active_ms`, if its loop ends within a number of rounds. -/
def activeMs (rounds : ℕ) (quiet : Option QuietHours) (start stop : ℤ) : Option ℤ :=
  if stop ≤ start then some 0
  else match quiet with
    | none => i64 (stop - start)
    | some quiet => do
      let day ← i64 (start / DAY_MS * DAY_MS)
      let quietMs ← days quiet.spans start stop rounds day 0
      let length ← i64 (stop - start)
      i64 (length - quietMs)

/-! ### What the parser accepts -/

/-- A daily span of hours. -/
structure Accepted (quiet : QuietHours) : Prop where
  start_le : quiet.start ≤ 23
  stop_le : quiet.stop ≤ 24
  ne : quiet.start ≠ quiet.stop

/-- The parser accepts daily spans of hours only. -/
lemma accepted_of_fromStr {text : List Char} {quiet : QuietHours}
    (h : QuietHours.fromStr text = .ok quiet) : Accepted quiet := by
  unfold QuietHours.fromStr at h
  cases hcut : cut ['-'] text with
  | none => simp [hcut, throw, throwThe, MonadExceptOf.throw] at h
  | some parts =>
    obtain ⟨a, b⟩ := parts
    cases ha : parseU8 (trimBy isWhitespace a) with
    | none => simp [hcut, ha, throw, throwThe, MonadExceptOf.throw] at h
    | some start =>
      cases hb : parseU8 (trimBy isWhitespace b) with
      | none => simp [hcut, ha, hb, throw, throwThe, MonadExceptOf.throw] at h
      | some stop =>
        simp only [hcut, ha, hb] at h
        split at h
        · cases h
        · next hvalid =>
          obtain rfl := Except.ok.inj h
          simp only [not_or, not_lt] at hvalid
          exact ⟨hvalid.1, hvalid.2.1, hvalid.2.2⟩

/-! ### Quiet times -/

/-- A time of day, in milliseconds, is in the quiet hours. -/
def QuietHours.Quiet (quiet : QuietHours) (t : ℤ) : Prop :=
  if quiet.start < quiet.stop then
    quiet.start * HOUR_MS ≤ t % DAY_MS ∧ t % DAY_MS < quiet.stop * HOUR_MS
  else t % DAY_MS < quiet.stop * HOUR_MS ∨ quiet.start * HOUR_MS ≤ t % DAY_MS

instance (quiet : QuietHours) (t : ℤ) : Decidable (quiet.Quiet t) := by
  unfold QuietHours.Quiet
  infer_instance

/-- How many milliseconds of an interval are quiet. -/
noncomputable def quietIn (quiet : QuietHours) (start stop : ℤ) : ℕ :=
  ((Finset.Ico start stop).filter quiet.Quiet).card

section Quiet

variable {quiet : QuietHours} {start stop day a b quietMs : ℤ}

lemma quietIn_append {mid : ℤ} (h : start ≤ mid) (h' : mid ≤ stop) :
    quietIn quiet start mid + quietIn quiet mid stop = quietIn quiet start stop := by
  unfold quietIn
  rw [← Finset.Ico_union_Ico_eq_Ico h h', Finset.filter_union, Finset.card_union_of_disjoint]
  exact (Finset.Ico_disjoint_Ico_consecutive start mid stop).mono (Finset.filter_subset _ _)
    (Finset.filter_subset _ _)

lemma quietIn_le (quiet : QuietHours) (h : start ≤ stop) : (quietIn quiet start stop : ℤ) ≤ stop - start := by
  have hle := Finset.card_filter_le (Finset.Ico start stop) quiet.Quiet
  rw [Int.card_Ico] at hle
  unfold quietIn
  omega

lemma quietIn_empty (h : stop ≤ start) : quietIn quiet start stop = 0 := by
  rw [quietIn, Finset.Ico_eq_empty (not_lt.2 h)]
  rfl

/-- What a span has in common with the interval. -/
lemma card_span (start stop lower upper : ℤ) :
    max (min upper stop - max lower start) 0 =
      ((Finset.Ico (max lower start) (min upper stop)).card : ℤ) := by
  rw [Int.card_Ico]
  omega

lemma i64_of_lt {n : ℤ} (h : -2 ^ 63 ≤ n) (h' : n < 2 ^ 63) : i64 n = some n := if_pos ⟨h, h'⟩

/-- The bounds of the times within which the clock does not overflow. -/
structure InRange (start stop day : ℤ) : Prop where
  start_gt : -2 ^ 62 < start
  stop_lt : stop < 2 ^ 62
  day_gt : start - DAY_MS < day
  day_lt : day < stop

/-- A span of the day is counted without an overflow. -/
lemma addSpan_eq (h : InRange start stop day) (ha : 0 ≤ a ∧ a ≤ DAY_MS) (hb : 0 ≤ b ∧ b ≤ DAY_MS)
    (hquiet : 0 ≤ quietMs)
    (hsum : quietMs + (Finset.Ico (max (day + a) start) (min (day + b) stop)).card < 2 ^ 63) :
    addSpan start stop day quietMs (a, b) =
      some (quietMs + (Finset.Ico (max (day + a) start) (min (day + b) stop)).card) := by
  obtain ⟨hstart, hstop, hday, hday'⟩ := h
  rw [← card_span] at hsum ⊢
  unfold DAY_MS HOUR_MS at *
  have hupper : i64 (day + b) = some (day + b) := i64_of_lt (by omega) (by omega)
  have hlower : i64 (day + a) = some (day + a) := i64_of_lt (by omega) (by omega)
  have hcommon : i64 (min (day + b) stop - max (day + a) start) =
      some (min (day + b) stop - max (day + a) start) := i64_of_lt (by omega) (by omega)
  have htotal := i64_of_lt (n := quietMs + max (min (day + b) stop - max (day + a) start) 0)
    (by omega) hsum
  unfold addSpan
  simp only [hupper, hlower, hcommon, htotal, Option.bind_eq_bind, Option.bind_some]

/-- The quiet times of a day are those of its spans. -/
lemma quietIn_day (start stop : ℤ) {k : ℤ} (h : Accepted quiet) (hday : day = k * DAY_MS) :
    (quiet.start < quiet.stop → quietIn quiet (max day start) (min (day + DAY_MS) stop) =
      (Finset.Ico (max (day + quiet.start * HOUR_MS) start)
        (min (day + quiet.stop * HOUR_MS) stop)).card) ∧
    (¬ quiet.start < quiet.stop → quietIn quiet (max day start) (min (day + DAY_MS) stop) =
      (Finset.Ico (max (day + 0) start) (min (day + quiet.stop * HOUR_MS) stop)).card +
      (Finset.Ico (max (day + quiet.start * HOUR_MS) start) (min (day + DAY_MS) stop)).card) := by
  obtain ⟨hstart, hstop, hne⟩ := h
  constructor
  · intro hspan
    rw [quietIn]
    congr 1
    ext t
    simp only [Finset.mem_filter, Finset.mem_Ico, QuietHours.Quiet, if_pos hspan]
    unfold DAY_MS HOUR_MS at *
    omega
  · intro hspan
    rw [quietIn, ← Finset.card_union_of_disjoint]
    · congr 1
      ext t
      simp only [Finset.mem_filter, Finset.mem_union, Finset.mem_Ico, QuietHours.Quiet,
        if_neg hspan]
      unfold DAY_MS HOUR_MS at *
      omega
    · rw [Finset.disjoint_left]
      intro t ht ht'
      rw [Finset.mem_Ico] at ht ht'
      unfold DAY_MS HOUR_MS at *
      omega

/-- A day is counted without an overflow. -/
lemma spans_eq {k : ℤ} (h : Accepted quiet) (hrange : InRange start stop day)
    (hday : day = k * DAY_MS) (hquiet : 0 ≤ quietMs)
    (hsum : quietMs + quietIn quiet (max day start) (min (day + DAY_MS) stop) < 2 ^ 63) :
    quiet.spans.foldlM (addSpan start stop day) quietMs =
      some (quietMs + quietIn quiet (max day start) (min (day + DAY_MS) stop)) := by
  obtain ⟨hone, htwo⟩ := quietIn_day start stop h hday
  obtain ⟨hstart, hstop, hne⟩ := h
  have hstarts : 0 ≤ quiet.start * HOUR_MS ∧ quiet.start * HOUR_MS ≤ DAY_MS := by
    unfold DAY_MS HOUR_MS
    omega
  have hstops : 0 ≤ quiet.stop * HOUR_MS ∧ quiet.stop * HOUR_MS ≤ DAY_MS := by
    unfold DAY_MS HOUR_MS
    omega
  have hday_pos : (0 : ℤ) ≤ DAY_MS := by decide
  by_cases hspan : quiet.start < quiet.stop
  · have hlt : quiet.start * HOUR_MS < quiet.stop * HOUR_MS := by
      unfold HOUR_MS
      omega
    rw [hone hspan] at hsum ⊢
    simp only [QuietHours.spans, if_pos hlt, List.foldlM_cons, List.foldlM_nil]
    rw [addSpan_eq hrange hstarts hstops hquiet hsum]
    rfl
  · have hlt : ¬ quiet.start * HOUR_MS < quiet.stop * HOUR_MS := by
      unfold HOUR_MS
      omega
    rw [htwo hspan] at hsum ⊢
    rw [Nat.cast_add, ← add_assoc] at hsum ⊢
    simp only [QuietHours.spans, if_neg hlt, List.foldlM_cons, List.foldlM_nil]
    rw [addSpan_eq hrange ⟨Int.le_refl 0, hday_pos⟩ hstops hquiet (by omega)]
    simp only [Option.bind_eq_bind, Option.bind_some]
    rw [addSpan_eq hrange hstarts ⟨hday_pos, Int.le_refl _⟩ (by omega) hsum]
    rfl

/-- The loop counts the quiet times that are left. -/
lemma days_eq {rounds : ℕ} {k : ℤ} (h : Accepted quiet) (hstart : -2 ^ 62 < start)
    (hstop : stop < 2 ^ 62) (hday : day = k * DAY_MS) (hfirst : start - DAY_MS < day)
    (hquiet : 0 ≤ quietMs) (hsum : quietMs + quietIn quiet (max day start) stop < 2 ^ 63)
    (hrounds : stop ≤ day + rounds * DAY_MS) :
    days quiet.spans start stop (rounds + 1) day quietMs =
      some (quietMs + quietIn quiet (max day start) stop) := by
  induction rounds generalizing day quietMs k with
  | zero =>
    have hover : stop ≤ day := by
      unfold DAY_MS HOUR_MS at *
      omega
    rw [days, if_neg (not_lt.2 hover), quietIn_empty (le_max_of_le_left hover), Nat.cast_zero,
      add_zero]
  | succ rounds ih =>
    rw [days]
    by_cases hmore : day < stop
    · rw [if_pos hmore]
      have hsplit : quietIn quiet (max day start) (min (day + DAY_MS) stop) +
          quietIn quiet (max (day + DAY_MS) start) stop = quietIn quiet (max day start) stop := by
        have hnext : max (day + DAY_MS) start = day + DAY_MS := max_eq_left (by omega)
        rw [hnext]
        rcases le_total (day + DAY_MS) stop with hle | hle
        · rw [min_eq_left hle]
          refine quietIn_append (max_le ?_ ?_) hle
          · unfold DAY_MS HOUR_MS
            omega
          · omega
        · rw [min_eq_right hle, quietIn_empty hle, add_zero]
      have hthis : quietMs + quietIn quiet (max day start) (min (day + DAY_MS) stop) < 2 ^ 63 := by
        omega
      have hnext : i64 (day + DAY_MS) = some (day + DAY_MS) := by
        unfold DAY_MS HOUR_MS at *
        exact i64_of_lt (by omega) (by omega)
      rw [spans_eq h ⟨hstart, hstop, hfirst, hmore⟩ hday hquiet hthis, hnext]
      simp only [Option.bind_eq_bind, Option.bind_some]
      rw [ih (k := k + 1) (by rw [hday, add_mul, one_mul]) ?_ (by omega) (by omega) ?_]
      · rw [add_assoc, ← Nat.cast_add, hsplit]
      · unfold DAY_MS HOUR_MS at *
        omega
      · unfold DAY_MS HOUR_MS at *
        omega
    · rw [if_neg hmore, quietIn_empty (le_max_of_le_left (not_lt.1 hmore)), Nat.cast_zero, add_zero]

/-- A loop that has ended is not changed by further rounds. -/
lemma days_succ {spans : List (ℤ × ℤ)} {rounds : ℕ} {result : ℤ}
    (h : days spans start stop rounds day quietMs = some result) :
    days spans start stop (rounds + 1) day quietMs = some result := by
  induction rounds generalizing day quietMs with
  | zero => cases h
  | succ rounds ih =>
    rw [days] at h ⊢
    split at h
    · next hmore =>
      rw [if_pos hmore]
      obtain ⟨quietMs', hspans, h⟩ := Option.bind_eq_some_iff.1 h
      obtain ⟨day', hday, h⟩ := Option.bind_eq_some_iff.1 h
      rw [hspans]
      simp only [Option.bind_eq_bind, Option.bind_some, hday]
      exact ih h
    · next hover =>
      rw [if_neg hover]
      exact h

end Quiet

/-! ### Active times -/

/-- How many milliseconds of an interval are not quiet. -/
noncomputable def activeIn (quiet : Option QuietHours) (start stop : ℤ) : ℕ :=
  ((Finset.Ico start stop).filter fun t => ∀ q ∈ quiet, ¬ q.Quiet t).card

/-- The clock ends without an overflow and returns a number. -/
def Returns (quiet : Option QuietHours) (start stop n : ℤ) : Prop :=
  ∃ rounds, activeMs rounds quiet start stop = some n

section Active

variable {quiet : Option QuietHours} {start stop mid n m : ℤ}

lemma activeIn_append (h : start ≤ mid) (h' : mid ≤ stop) :
    activeIn quiet start mid + activeIn quiet mid stop = activeIn quiet start stop := by
  unfold activeIn
  rw [← Finset.Ico_union_Ico_eq_Ico h h', Finset.filter_union, Finset.card_union_of_disjoint]
  exact (Finset.Ico_disjoint_Ico_consecutive start mid stop).mono (Finset.filter_subset _ _)
    (Finset.filter_subset _ _)

lemma activeIn_empty (h : stop ≤ start) : activeIn quiet start stop = 0 := by
  rw [activeIn, Finset.Ico_eq_empty (not_lt.2 h)]
  rfl

/-- The times of an interval are quiet or not. -/
lemma activeIn_add_quietIn (q : QuietHours) (h : start ≤ stop) :
    (activeIn (some q) start stop : ℤ) = stop - start - quietIn q start stop := by
  have hsum := Finset.card_filter_add_card_filter_not (s := Finset.Ico start stop) q.Quiet
  rw [Int.card_Ico] at hsum
  have hactive : activeIn (some q) start stop =
      ((Finset.Ico start stop).filter fun t => ¬ q.Quiet t).card := by
    unfold activeIn
    simp only [Option.mem_some_iff, forall_eq']
  rw [hactive]
  unfold quietIn
  omega

/-- What the clock returns does not depend on the rounds it is given. -/
lemma activeMs_succ {rounds : ℕ} (h : activeMs rounds quiet start stop = some n) :
    activeMs (rounds + 1) quiet start stop = some n := by
  unfold activeMs at h ⊢
  split at h
  · next hover =>
    rw [if_pos hover]
    exact h
  · next hmore =>
    rw [if_neg hmore]
    cases quiet with
    | none => exact h
    | some q =>
      obtain ⟨day, hday, h⟩ := Option.bind_eq_some_iff.1 h
      obtain ⟨quietMs, hdays, h⟩ := Option.bind_eq_some_iff.1 h
      simp only [Option.bind_eq_bind, hday, Option.bind_some, days_succ hdays]
      exact h

lemma activeMs_add {rounds : ℕ} (h : activeMs rounds quiet start stop = some n) (more : ℕ) :
    activeMs (rounds + more) quiet start stop = some n := by
  induction more with
  | zero => exact h
  | succ more ih => exact activeMs_succ ih

lemma Returns.unique (hn : Returns quiet start stop n) (hm : Returns quiet start stop m) :
    n = m := by
  obtain ⟨rounds, hn⟩ := hn
  obtain ⟨rounds', hm⟩ := hm
  have hn' := activeMs_add hn rounds'
  have hm' := activeMs_add hm rounds
  rw [Nat.add_comm, hn'] at hm'
  exact Option.some.inj hm'

/-- The clock counts the milliseconds that are not quiet. -/
lemma returns_activeIn (hquiet : ∀ q ∈ quiet, Accepted q) (hstart : -2 ^ 62 < start)
    (hstop : stop < 2 ^ 62) : Returns quiet start stop (activeIn quiet start stop) := by
  by_cases hover : stop ≤ start
  · refine ⟨0, ?_⟩
    unfold activeMs
    rw [if_pos hover, activeIn_empty hover]
    rfl
  · have hlength : i64 (stop - start) = some (stop - start) := i64_of_lt (by omega) (by omega)
    have hle : start ≤ stop := by omega
    cases quiet with
    | none =>
      refine ⟨0, ?_⟩
      have hall : activeIn none start stop = (Finset.Ico start stop).card := by
        unfold activeIn
        rw [Finset.filter_true_of_mem]
        rintro t - q ⟨⟩
      rw [activeMs, if_neg hover, hall, Int.card_Ico, hlength, Int.toNat_of_nonneg (by omega)]
    | some q =>
      have hbound := quietIn_le q hle
      have hmod : start - DAY_MS < start / DAY_MS * DAY_MS ∧ start / DAY_MS * DAY_MS ≤ start := by
        unfold DAY_MS HOUR_MS
        omega
      have hday : i64 (start / DAY_MS * DAY_MS) = some (start / DAY_MS * DAY_MS) := by
        unfold DAY_MS HOUR_MS at *
        exact i64_of_lt (by omega) (by omega)
      have hmax : max (start / DAY_MS * DAY_MS) start = start := max_eq_right hmod.2
      have hdays : days q.spans start stop ((stop - start / DAY_MS * DAY_MS).toNat + 1)
          (start / DAY_MS * DAY_MS) 0 =
            some (0 + (quietIn q (max (start / DAY_MS * DAY_MS) start) stop : ℤ)) :=
        days_eq (hquiet q rfl) hstart hstop rfl hmod.1 (Int.le_refl 0)
          (by rw [hmax]; omega) (by unfold DAY_MS HOUR_MS at *; omega)
      rw [hmax, zero_add] at hdays
      have hresult : i64 (stop - start - quietIn q start stop) =
          some (stop - start - quietIn q start stop) := i64_of_lt (by omega) (by omega)
      refine ⟨(stop - start / DAY_MS * DAY_MS).toNat + 1, ?_⟩
      unfold activeMs
      rw [if_neg hover]
      simp only [Option.bind_eq_bind, hday, Option.bind_some, hdays, hlength, hresult]
      rw [activeIn_add_quietIn q hle]

end Active

/-! ### The clock -/

/-- Quiet hours that the parser accepts, or none. -/
def Configured (quiet : Option QuietHours) : Prop :=
  ∀ q ∈ quiet, ∃ text, QuietHours.fromStr text = .ok q

/-- What the clock returns for an interval. -/
structure Clock (quiet : Option QuietHours) (start stop : ℤ) : Prop where
  /-- The milliseconds outside the quiet span, and nothing else. -/
  exact : ∀ n, Returns quiet start stop n ↔ n = activeIn quiet start stop
  nonneg : ∀ n, Returns quiet start stop n → 0 ≤ n
  additive : ∀ mid, start ≤ mid → mid ≤ stop → ∀ n m, Returns quiet start mid n →
    Returns quiet mid stop m → Returns quiet start stop (n + m)
  mono : ∀ stop', stop ≤ stop' → stop' < 2 ^ 62 → ∀ n m, Returns quiet start stop n →
    Returns quiet start stop' m → n ≤ m

/-- The stall clock counts the milliseconds of an interval that are not quiet. -/
theorem clock_exact {quiet : Option QuietHours} {start stop : ℤ} (hquiet : Configured quiet)
    (hstart : -2 ^ 62 < start ∧ start < 2 ^ 62) (hstop : -2 ^ 62 < stop ∧ stop < 2 ^ 62) :
    Clock quiet start stop := by
  have haccepted : ∀ q ∈ quiet, Accepted q := by
    intro q hq
    obtain ⟨text, htext⟩ := hquiet q hq
    exact accepted_of_fromStr htext
  have hreturns {a b : ℤ} (ha : -2 ^ 62 < a) (hb : b < 2 ^ 62) (n : ℤ) :
      Returns quiet a b n ↔ n = activeIn quiet a b := by
    constructor
    · exact fun h => h.unique (returns_activeIn haccepted ha hb)
    · rintro rfl
      exact returns_activeIn haccepted ha hb
  refine ⟨hreturns hstart.1 hstop.2, ?_, ?_, ?_⟩
  · intro n hn
    rw [(hreturns hstart.1 hstop.2 n).1 hn]
    exact Int.natCast_nonneg _
  · intro mid hle hle' n m hn hm
    rw [(hreturns hstart.1 (by omega) n).1 hn, (hreturns (by omega) hstop.2 m).1 hm,
      ← Nat.cast_add, activeIn_append hle hle']
    exact (hreturns hstart.1 hstop.2 _).2 rfl
  · intro stop' hle hstop' n m hn hm
    rw [(hreturns hstart.1 hstop.2 n).1 hn, (hreturns hstart.1 hstop' m).1 hm]
    unfold activeIn
    refine Int.ofNat_le.2 (Finset.card_le_card (Finset.filter_subset_filter _ ?_))
    exact Finset.Ico_subset_Ico_right hle

/-- Quiet hours over midnight, and an interval of two days. -/
theorem clock_exact_midnight : Clock (some ⟨22, 7⟩) 0 (2 * DAY_MS) :=
  clock_exact (by
    rintro q ⟨⟩
    exact ⟨"22-07".toList, by decide⟩) (by decide) (by decide)

end AgentCoordinator.StallClock
