import AgentCoordinator.Local.PushProtocol

/-
The request preamble, read before any token is minted.

A connection costs a mint only once it has sent a request line and a bundle length. What was read
is replayed in front of the rest of the stream, and the push protocol reads it again. An incomplete
preamble is replayed alone.
-/

namespace AgentCoordinator

open Guarded Streams CandidatePush

/-- `Preamble`. -/
structure Preamble where
  bytes : List UInt8
  complete : Bool
  deriving DecidableEq, Repr

namespace Preamble

variable {σ : Type}

/-- `read_line`, with so many turns of its loop left. -/
def readLine (S : Source UInt8 σ) : Nat → List UInt8 → σ → Bool × List UInt8 × σ
  | 0, bytes, s => (false, bytes, s)
  | turns + 1, bytes, s =>
    match S.readOne s with
    | (none, s') => (false, bytes, s')
    | (some b, s') =>
      if b = newline then (true, bytes ++ [b], s') else readLine S turns (bytes ++ [b]) s'

/-- `read_length`. -/
def readLength (S : Source UInt8 σ) (bytes : List UInt8) (s : σ) : Bool × List UInt8 × σ :=
  match S.readExact 8 s with
  | (some length, s') => (true, bytes ++ length, s')
  | (none, s') => (false, bytes, s')

/-- `Preamble::read`, with the stream it leaves. -/
def read (S : Source UInt8 σ) (s : σ) : Preamble × σ :=
  match readLine S (MAX_REQUEST_LINE + 1) [] s with
  | (false, bytes, s') => (⟨bytes, false⟩, s')
  | (true, bytes, s') =>
    match readLength S bytes s' with
    | (complete, bytes, s'') => (⟨bytes, complete⟩, s'')

/-- The version that a request line names. -/
def versionOf (document : List UInt8 → Option Json) (line : List UInt8) : Option Nat :=
  (document line).bind fun d => (d.field "version").asU64

/-- `worth_minting`. -/
def worthMinting (document : List UInt8 → Option Json) (p : Preamble) (maxBundle : Nat) : Bool :=
  p.complete &&
    versionOf document (p.bytes.take (p.bytes.length - 8)).dropLast = some PROTOCOL_VERSION &&
    fromBeBytes (p.bytes.drop (p.bytes.length - 8)) ≤ maxBundle

/-- `Replayed`. -/
structure Replayed (σ : Type) where
  buffered : List UInt8
  live : Bool
  stream : σ

/-- `read` of a `Replayed`: the buffered bytes first, then the stream if it is live. -/
def Replayed.read (S : Source UInt8 σ) (n : Nat) (r : Replayed σ) : Piece UInt8 × Replayed σ :=
  if r.buffered.take n ≠ [] ∨ n = 0 ∨ r.live = false then
    (.values (r.buffered.take n), { r with buffered := r.buffered.drop n })
  else ((S.read n r.stream).1, { r with stream := (S.read n r.stream).2 })

/-- What is ahead of a `Replayed`. -/
def Replayed.ahead (S : Source UInt8 σ) (r : Replayed σ) : List (Ahead UInt8) :=
  r.buffered.map .value ++ if r.live then S.ahead r.stream else []

/-- A `Replayed` is a stream again. -/
def replayed (S : Source UInt8 σ) : Source UInt8 (Replayed σ) where
  read := Replayed.read S
  ahead := Replayed.ahead S
  pending r := r.buffered.length + S.pending r.stream
  read_gives n r hn := by
    obtain ⟨buffered, live, stream⟩ := r
    rw [Replayed.read]
    cases buffered with
    | cons b bs =>
      obtain ⟨n, rfl⟩ := Nat.exists_eq_succ_of_ne_zero (Nat.ne_of_gt hn)
      rw [if_pos (.inl (by rw [List.take_succ_cons]; exact List.cons_ne_nil _ _))]
      refine .values ?_ ?_ ?_
      · rw [List.length_cons, List.length_take]
        omega
      · rw [Replayed.ahead, Replayed.ahead, ← List.append_assoc, ← List.map_append,
          List.drop_succ_cons, List.cons_append, List.take_append_drop]
      · change (bs.drop n).length + S.pending stream < bs.length + 1 + S.pending stream
        rw [List.length_drop]
        omega
    | nil =>
      cases live with
      | false =>
        rw [if_pos (.inr (.inr rfl)), List.take_nil, List.drop_nil]
        exact .ended rfl rfl
      | true =>
        rw [if_neg (by simp [Nat.ne_of_gt hn])]
        have hgives := S.read_gives n stream hn
        generalize S.read n stream = piece at hgives
        cases hgives with
        | values hle hahead hless => exact .values hle hahead (Nat.add_lt_add_left hless _)
        | ended hahead hahead' => exact .ended hahead hahead'
        | interrupted hahead hless => exact .interrupted hahead (Nat.add_lt_add_left hless _)
        | failed hahead => exact .failed hahead

/-- `Preamble::replay`. -/
def replay (p : Preamble) (s : σ) : Replayed σ := ⟨p.bytes, p.complete, s⟩

end Preamble

/-- How a connection is served. -/
inductive Connection
  /-- The push protocol, with the token if one was minted. -/
  | served (token : Option String) (received : Except PushRefusal (PushRequest × Nat))
  /-- `RATE_LIMITED`. -/
  | rateLimited
  /-- `NO_CREDENTIALS`. -/
  | noCredentials

/-- What follows from the token that a mint gave, if any. -/
def Connection.minted (received : Except PushRefusal (PushRequest × Nat)) :
    Option String → Connection
  | some token => .served (some token) received
  | none => .noCredentials

/-- The replay of the preamble that is read of a stream. -/
def replayOf {σ : Type} (S : Source UInt8 σ) (s : σ) : Preamble.Replayed σ :=
  (Preamble.read S s).1.replay (Preamble.read S s).2

/-- `serve_connection`, up to where the protocol opens the helper: whether the budget allows a mint,
and the token it gives. -/
def serveConnection {σ : Type} (document : List UInt8 → Option Json) (S : Source UInt8 σ)
    (maxBundle : Nat) (budget : Bool) (mint : Option String) (s : σ) : Connection :=
  if (Preamble.read S s).1.worthMinting document maxBundle = false then
    .served none (receive document (Preamble.replayed S) maxBundle (replayOf S s))
  else if budget = false then .rateLimited
  else .minted (receive document (Preamble.replayed S) maxBundle (replayOf S s)) mint

end AgentCoordinator
