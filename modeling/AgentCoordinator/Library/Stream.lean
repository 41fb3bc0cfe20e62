import Mathlib.Data.List.Basic
import Mathlib.Data.Nat.Notation
import Mathlib.Tactic.Basic

/-
Reading from a stream that comes in pieces.

One read gives at most as many values as were asked for, and may give fewer, be interrupted, or
fail. A source says what it has ahead: its values in order, with the errors between them, and
nothing about the pieces. Reading an exact number of values retries interrupted reads and gives up
at an error or at the end, and what it gives depends only on what is ahead.
-/

namespace Streams

variable {β σ τ : Type*}

/-- What one read gives; no value at all is the end of the stream. -/
inductive Piece (β : Type*)
  | values (bs : List β)
  | interrupted
  | failed

/-- What is ahead of a stream. -/
inductive Ahead (β : Type*)
  | value (b : β)
  | error
  deriving DecidableEq, Repr

/-- What a read of at most `n` values may give, by what is ahead before and after it. -/
inductive Gives (ahead : σ → List (Ahead β)) (pending : σ → ℕ) (n : ℕ) (s : σ) :
    Piece β × σ → Prop
  | values {b : β} {bs : List β} {s' : σ} (hle : (b :: bs).length ≤ n)
      (hahead : ahead s = (b :: bs).map .value ++ ahead s') (hless : pending s' < pending s) :
      Gives ahead pending n s (.values (b :: bs), s')
  | ended {s' : σ} (hahead : ahead s = []) (hahead' : ahead s' = []) :
      Gives ahead pending n s (.values [], s')
  | interrupted {s' : σ} (hahead : ahead s' = ahead s) (hless : pending s' < pending s) :
      Gives ahead pending n s (.interrupted, s')
  | failed {s' : σ} (hahead : ahead s = .error :: ahead s') : Gives ahead pending n s (.failed, s')

/-- A stream of values with the states `σ`. -/
structure Source (β σ : Type*) where
  read : ℕ → σ → Piece β × σ
  ahead : σ → List (Ahead β)
  /-- A bound on the reads before the end or an error. -/
  pending : σ → ℕ
  read_gives : ∀ n s, 0 < n → Gives ahead pending n s (read n s)

namespace Source

variable (S : Source β σ)

/-- Read `n` values with at most `fuel` reads. -/
def fill : ℕ → ℕ → σ → Option (List β) × σ
  | _, 0, s => (some [], s)
  | 0, _ + 1, s => (none, s)
  | fuel + 1, n + 1, s =>
    match S.read (n + 1) s with
    | (.values [], s') => (none, s')
    | (.values (b :: bs), s') =>
      Prod.map (Option.map (b :: bs ++ ·)) id (fill fuel (n - bs.length) s')
    | (.interrupted, s') => fill fuel (n + 1) s'
    | (.failed, s') => (none, s')

/-- Read exactly `n` values. An interrupted read is retried; an error or the end leaves none. -/
def readExact (n : ℕ) (s : σ) : Option (List β) × σ := S.fill (S.pending s + 1) n s

/-- Read one value. -/
def readOne (s : σ) : Option β × σ :=
  match S.readExact 1 s with
  | (some (b :: _), s') => (some b, s')
  | (_, s') => (none, s')

/-- The values `bs` lie between the states `s` and `s'`, and maybe an error behind them. -/
def Took (s s' : σ) (bs : List β) : Prop :=
  S.ahead s = bs.map .value ++ S.ahead s' ∨ S.ahead s = bs.map .value ++ .error :: S.ahead s'

/-- After the values `bs` the stream fails or ends. -/
def Stops (s s' : σ) (bs : List β) : Prop :=
  S.ahead s = bs.map .value ++ .error :: S.ahead s' ∨
    S.ahead s = bs.map .value ∧ S.ahead s' = []

/-- An exact read of `n` values, by what is ahead before and after it. -/
inductive Exactly (n : ℕ) (s : σ) : Option (List β) × σ → Prop
  | full (bs : List β) {s' : σ} (hlength : bs.length = n)
      (hahead : S.ahead s = bs.map .value ++ S.ahead s') : Exactly n s (some bs, s')
  | short (bs : List β) {s' : σ} (hlength : bs.length < n) (hstops : S.Stops s s' bs) :
      Exactly n s (none, s')

variable {S} {s s' : σ} {bs more : List β}

lemma Stops.took (h : S.Stops s s' bs) : S.Took s s' bs := by
  rcases h with h | ⟨h, hended⟩
  · exact .inr h
  · exact .inl (by rw [h, hended, List.append_nil])

lemma Stops.append {s₁ : σ} (hahead : S.ahead s = bs.map .value ++ S.ahead s₁)
    (h : S.Stops s₁ s' more) : S.Stops s s' (bs ++ more) := by
  rcases h with h | ⟨h, hended⟩
  · exact .inl (by rw [hahead, h, List.map_append, List.append_assoc])
  · exact .inr ⟨by rw [hahead, h, List.map_append], hended⟩

lemma Took.append {s₁ : σ} (hahead : S.ahead s = bs.map .value ++ S.ahead s₁)
    (h : S.Took s₁ s' more) : S.Took s s' (bs ++ more) := by
  rcases h with h | h
  · exact .inl (by rw [hahead, h, List.map_append, List.append_assoc])
  · exact .inr (by rw [hahead, h, List.map_append, List.append_assoc])

lemma Exactly.of_ahead {n : ℕ} {result : Option (List β) × σ} (h : S.Exactly n s' result)
    (hahead : S.ahead s' = S.ahead s) : S.Exactly n s result := by
  cases h with
  | full bs hlength h => exact .full bs hlength (hahead ▸ h)
  | short bs hlength hstops =>
    refine .short bs hlength ?_
    rwa [Stops, ← hahead]

/-- With more fuel than reads are pending, the values that were asked for are read, or the stream
fails or ends before. -/
lemma fill_exactly (fuel n : ℕ) (s : σ) (hfuel : S.pending s < fuel) :
    S.Exactly n s (S.fill fuel n s) := by
  induction fuel generalizing n s with
  | zero => omega
  | succ fuel ih =>
    cases n with
    | zero => exact .full [] rfl rfl
    | succ n =>
      rw [fill]
      have hgives := S.read_gives (n + 1) s (Nat.succ_pos n)
      generalize S.read (n + 1) s = piece at hgives
      cases hgives with
      | ended hahead hahead' => exact .short [] (Nat.succ_pos n) (.inr ⟨hahead, hahead'⟩)
      | failed hahead => exact .short [] (Nat.succ_pos n) (.inl hahead)
      | @interrupted s' hahead hless =>
        exact (ih (n + 1) s' (by omega)).of_ahead hahead
      | @values b bs s' hle hahead hless =>
        have hrest := ih (n - bs.length) s' (by omega)
        rw [List.length_cons] at hle
        change S.Exactly (n + 1) s (Prod.map _ id (S.fill fuel (n - bs.length) s'))
        generalize S.fill fuel (n - bs.length) s' = result at hrest
        cases hrest with
        | full more hlength hahead' =>
          refine .full _ ?_ ?_
          · rw [List.length_append, List.length_cons]
            omega
          · rw [hahead, hahead', ← List.append_assoc, ← List.map_append]
            rfl
        | short more hlength hstops =>
          refine .short _ ?_ (hstops.append hahead)
          rw [List.length_append, List.length_cons]
          omega

theorem readExact_exactly (n : ℕ) (s : σ) : S.Exactly n s (S.readExact n s) :=
  fill_exactly _ n s (Nat.lt_succ_self _)

/-- One value is read, or the stream fails or ends at once. -/
lemma readOne_cases (s : σ) :
    (∃ b s', S.readOne s = (some b, s') ∧ S.ahead s = .value b :: S.ahead s') ∨
      ∃ s', S.readOne s = (none, s') ∧ S.Stops s s' [] := by
  have hexactly := S.readExact_exactly 1 s
  rw [readOne]
  generalize S.readExact 1 s = result at hexactly
  cases hexactly with
  | full bs hlength hahead =>
    obtain ⟨b, rfl⟩ := List.length_eq_one_iff.1 hlength
    exact .inl ⟨b, _, rfl, hahead⟩
  | short bs hlength hstops =>
    obtain rfl := List.length_eq_zero_iff.1 (Nat.lt_one_iff.1 hlength)
    exact .inr ⟨_, rfl, hstops⟩

/-- No values follow: the stream ends or fails. -/
def Ends (rest : List (Ahead β)) : Prop := ∀ b, rest.head? ≠ some (.value b)

lemma Stops.ends (h : S.Stops s s' bs) :
    ∃ rest, S.ahead s = bs.map .value ++ rest ∧ Ends rest := by
  rcases h with h | ⟨h, -⟩
  · exact ⟨_, h, nofun⟩
  · exact ⟨[], by rw [h, List.append_nil], nofun⟩

/-- There are no more values ahead than the ones before the end. -/
lemma Ends.length_le {rest rest' : List (Ahead β)} (h : Ends rest)
    (hahead : bs.map .value ++ rest = more.map .value ++ rest') : more.length ≤ bs.length := by
  refine Nat.le_of_not_lt fun hlt => ?_
  have hget := congrArg (fun l => l[bs.length]?) hahead
  rw [List.getElem?_append_right (Nat.le_of_eq (List.length_map _)), List.length_map,
    Nat.sub_self, List.getElem?_append_left (by rwa [List.length_map]), List.getElem?_map,
    List.getElem?_eq_getElem hlt, ← List.head?_eq_getElem?] at hget
  exact h _ hget

/-- A stream that stops has no more values ahead than the ones before. -/
lemma Stops.not_ahead {rest : List (Ahead β)} (h : S.Stops s s' bs)
    (hahead : S.ahead s = more.map .value ++ rest) : more.length ≤ bs.length := by
  obtain ⟨rest', h, hends⟩ := h.ends
  exact hends.length_le (h.symm.trans hahead)

lemma map_value_injective : Function.Injective (List.map (Ahead.value : β → Ahead β)) :=
  List.map_injective_iff.2 fun _ _ h => Ahead.value.inj h

/-- What lies between two states is determined. -/
theorem Took.unique (h : S.Took s s' bs) (h' : S.Took s s' more) : bs = more := by
  -- an error behind the values of one would be a value of the other
  have hmixed : ∀ {bs more : List β}, S.ahead s = bs.map .value ++ S.ahead s' →
      S.ahead s ≠ more.map .value ++ .error :: S.ahead s' := by
    intro bs more h h'
    have hlength := congrArg List.length (h.symm.trans h')
    simp only [List.length_append, List.length_map, List.length_cons] at hlength
    have hget := congrArg (fun l => l[more.length]?) (h.symm.trans h')
    rw [List.getElem?_append_left (by rw [List.length_map]; omega),
      List.getElem?_append_right (Nat.le_of_eq (List.length_map _)), List.getElem?_map] at hget
    simp [List.getElem?_eq_getElem (show more.length < bs.length by omega)] at hget
  rcases h with h | h <;> rcases h' with h' | h'
  · exact map_value_injective (List.append_cancel_right (h.symm.trans h'))
  · exact absurd h' (hmixed h)
  · exact absurd h (hmixed h')
  · exact map_value_injective (List.append_cancel_right (h.symm.trans h'))

end Source

/-! ### Lines -/

/-- A line of at most `limit` values is ahead, and the delimiter that ends it. -/
structure Delimited (d : β) (limit : ℕ) (l : List (Ahead β)) (line : List β)
    (rest : List (Ahead β)) : Prop where
  ahead : l = line.map .value ++ .value d :: rest
  not_mem : d ∉ line
  length_le : line.length ≤ limit

section Lines

variable {d : β} {limit : ℕ} {l rest rest' : List (Ahead β)} {line line' bs : List β}

/-- A line with its delimiter is ahead. -/
lemma Delimited.ahead_line (h : Delimited d limit l line rest) :
    l = (line ++ [d]).map .value ++ rest := by
  rw [h.ahead, List.map_append, List.append_assoc]
  rfl

/-- No delimiter is among the values before the one that ends a line. -/
lemma Delimited.length_le_of_not_mem (h : Delimited d limit l line rest)
    (hahead : l = bs.map .value ++ rest') (hbs : d ∉ bs) : bs.length ≤ line.length := by
  refine Nat.le_of_not_lt fun hlt => hbs ?_
  have hget := congrArg (fun l => l[line.length]?) (h.ahead.symm.trans hahead)
  rw [List.getElem?_append_right (Nat.le_of_eq (List.length_map _)),
    List.getElem?_append_left (by rwa [List.length_map]), List.getElem?_map, List.length_map,
    Nat.sub_self, List.getElem?_cons_zero, List.getElem?_eq_getElem hlt, Option.map_some,
    Option.some.injEq] at hget
  rw [Ahead.value.inj hget]
  exact List.getElem_mem hlt

theorem Delimited.unique (h : Delimited d limit l line rest)
    (h' : Delimited d limit l line' rest') : line = line' ∧ rest = rest' := by
  have hlength : line.length = line'.length :=
    Nat.le_antisymm (h'.length_le_of_not_mem h.ahead h.not_mem)
      (h.length_le_of_not_mem h'.ahead h'.not_mem)
  obtain ⟨hmap, hrest⟩ := List.append_inj (h.ahead.symm.trans h'.ahead) (by simp [hlength])
  exact ⟨Source.map_value_injective hmap, (List.cons.inj hrest).2⟩

/-- There is no line ahead of too many values without the delimiter. -/
lemma not_delimited_of_long (hahead : l = bs.map .value ++ rest') (hbs : d ∉ bs)
    (hlong : limit < bs.length) : ¬ Delimited d limit l line rest := by
  intro h
  have hle := h.length_le_of_not_mem hahead hbs
  have hlimit := h.length_le
  omega

/-- There is no line ahead of a stream that stops before the delimiter. -/
lemma Source.Stops.not_delimited {S : Source β σ} {s s' : σ} (h : S.Stops s s' bs) (hbs : d ∉ bs) :
    ¬ Delimited d limit (S.ahead s) line rest := by
  intro hline
  have hlong := h.not_ahead hline.ahead_line
  have hshort : bs.length ≤ line.length := by
    rcases h with h | ⟨h, -⟩
    · exact hline.length_le_of_not_mem h hbs
    · exact hline.length_le_of_not_mem (h.trans (List.append_nil _).symm) hbs
  rw [List.length_append, List.length_singleton] at hlong
  omega

end Lines

/-! ### Pieces -/

/-- What arrives at a receiver. -/
inductive Arrival (β : Type*)
  | values (b : β) (bs : List β)
  | interrupted
  | failed

/-- The arrivals that one read leaves when at most `n` of the values `bs` fit. -/
def leave (n : ℕ) (bs : List β) (rest : List (Arrival β)) : List (Arrival β) :=
  match bs.drop n with
  | [] => rest
  | b :: bs => .values b bs :: rest

def aheadOf : List (Arrival β) → List (Ahead β)
  | [] => []
  | .values b bs :: rest => (b :: bs).map .value ++ aheadOf rest
  | .interrupted :: rest => aheadOf rest
  | .failed :: rest => .error :: aheadOf rest

def pendingOf : List (Arrival β) → ℕ
  | [] => 0
  | .values _ bs :: rest => bs.length + 1 + pendingOf rest
  | .interrupted :: rest => pendingOf rest + 1
  | .failed :: rest => pendingOf rest

def readArrivals (n : ℕ) : List (Arrival β) → Piece β × List (Arrival β)
  | [] => (.values [], [])
  | .values b bs :: rest => (.values ((b :: bs).take n), leave n (b :: bs) rest)
  | .interrupted :: rest => (.interrupted, rest)
  | .failed :: rest => (.failed, rest)

lemma aheadOf_leave (n : ℕ) (bs : List β) (rest : List (Arrival β)) :
    aheadOf (leave n bs rest) = (bs.drop n).map .value ++ aheadOf rest := by
  rw [leave]
  cases bs.drop n with
  | nil => rfl
  | cons b bs => rfl

lemma pendingOf_leave (n : ℕ) (bs : List β) (rest : List (Arrival β)) :
    pendingOf (leave n bs rest) = (bs.drop n).length + pendingOf rest := by
  rw [leave]
  cases bs.drop n with
  | nil => exact (Nat.zero_add _).symm
  | cons b bs => rfl

/-- The stream of what arrives, in any pieces. -/
def arrivals : Source β (List (Arrival β)) where
  read := readArrivals
  ahead := aheadOf
  pending := pendingOf
  read_gives n s hn := by
    obtain ⟨n, rfl⟩ := Nat.exists_eq_succ_of_ne_zero (Nat.ne_of_gt hn)
    match s with
    | [] => exact .ended rfl rfl
    | .interrupted :: rest => exact .interrupted rfl (Nat.lt_succ_self _)
    | .failed :: rest => exact .failed rfl
    | .values b bs :: rest =>
      refine .values ?_ ?_ ?_
      · rw [List.length_cons, List.length_take]
        omega
      · rw [aheadOf_leave, ← List.append_assoc, ← List.map_append, List.drop_succ_cons,
          List.cons_append, List.take_append_drop]
        rfl
      · rw [pendingOf_leave, List.drop_succ_cons, List.length_drop, pendingOf]
        omega

end Streams
