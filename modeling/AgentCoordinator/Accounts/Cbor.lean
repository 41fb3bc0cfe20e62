import Mathlib.Algebra.Group.Int.Defs
import Mathlib.Algebra.Group.Nat.Defs
import AgentCoordinator.Library.Reader

/-
The CBOR reader of the passkey ceremonies.

It reads attestation objects and keys: integers, byte strings, texts, arrays, maps and the simple
values for which nothing is kept. Items are nested in a few levels only, so the recursion is over
the levels that are left.
-/

namespace AgentCoordinator.Cbor

open Reading

/-! ### Data -/

/-- A `&[u8]`. -/
structure Slice where
  bytes : List UInt8
  length_lt : bytes.length < 2 ^ 63

def MAX_DEPTH : ℕ := 8

/-- `Item`. -/
inductive Item
  | int (number : ℤ)
  | bytes (bytes : List UInt8)
  | text (text : String)
  | map (entries : List (Item × Item))
  /-- Arrays and simple values. -/
  | other

/-! ### Fields of an item -/

/-- A subslice, which must lie in the slice. -/
def slice (input : Slice) (start stop : ℕ) : Reader (List UInt8) :=
  if start ≤ stop ∧ stop ≤ input.bytes.length then
    pure ((input.bytes.drop start).take (stop - start))
  else throw .panicked

/-- `take`. -/
def take (input : Slice) (count : ℕ) : Reader (List UInt8) := do
  let start ← get
  let stop := start + count
  -- `checked_add`, and the end must lie in the slice
  if stop < 2 ^ 64 ∧ stop ≤ input.bytes.length then do
    let bytes ← slice input start stop
    set stop
    pure bytes
  else throw .rejected

/-- A byte at an index, which must be there. -/
def byteAt (bytes : List UInt8) (index : ℕ) : Reader UInt8 :=
  match bytes[index]? with
  | some byte => pure byte
  | none => throw .panicked

/-- `try_into` of a slice into an array. -/
def tryArray (length : ℕ) (bytes : List UInt8) : Reader (List UInt8) :=
  if bytes.length = length then pure bytes else throw .rejected

/-- `from_be_bytes`. -/
def fromBeBytes (bytes : List UInt8) : ℕ := bytes.foldl (fun n byte => n * 256 + byte.toNat) 0

/-- A number of some bytes. -/
def number (input : Slice) (width : ℕ) : Reader ℕ := do
  let bytes ← take input width
  let bytes ← tryArray width bytes
  pure (fromBeBytes bytes)

/-- The argument behind the head of an item. -/
def argument (input : Slice) (info : ℕ) : Reader ℕ :=
  if info ≤ 23 then pure info
  else if info = 24 then do
    let bytes ← take input 1
    let byte ← byteAt bytes 0
    pure byte.toNat
  else if info = 25 then number input 2
  else if info = 26 then number input 4
  else if info = 27 then number input 8
  else throw .rejected

/-- `i64::try_from`. -/
def i64TryFrom (n : ℕ) : Reader ℤ := if n < 2 ^ 63 then pure n else throw .rejected

/-- A difference of `i64`. -/
def subI64 (a b : ℤ) : Reader ℤ :=
  if -2 ^ 63 ≤ a - b ∧ a - b < 2 ^ 63 then pure (a - b) else throw .panicked

/-- The argument as a length, which is not that of more than there is. -/
def length (input : Slice) (argument : ℕ) : Reader ℕ :=
  if argument < 2 ^ 64 ∧ argument ≤ input.bytes.length then pure argument else throw .rejected

/-- `String::from_utf8`. -/
def fromUtf8 (bytes : List UInt8) : Reader String :=
  match String.fromUTF8? ⟨bytes.toArray⟩ with
  | some text => pure text
  | none => throw .rejected

/-! ### Items -/

/-- A key of a map with its value. -/
def entry (child : Reader Item) : Reader (Item × Item) := do
  let key ← child
  let value ← child
  pure (key, value)

/-- What is behind the head and the argument of an item. -/
def content (input : Slice) (child : Reader Item) (major info argument : ℕ) : Reader Item :=
  match major with
  | 0 => do
    let n ← i64TryFrom argument
    pure (.int n)
  | 1 => do
    let n ← i64TryFrom argument
    let n ← subI64 (-1) n
    pure (.int n)
  | 2 => do
    let count ← length input argument
    let bytes ← take input count
    pure (.bytes bytes)
  | 3 => do
    let count ← length input argument
    let bytes ← take input count
    let text ← fromUtf8 bytes
    pure (.text text)
  | 4 => do
    let count ← length input argument
    let _ ← times child count
    pure .other
  | 5 => do
    let count ← length input argument
    let entries ← times (entry child) count
    pure (.map entries)
  | 7 => if 20 ≤ info ∧ info ≤ 22 then pure .other else throw .rejected
  | _ => throw .rejected

/-- `item`, with so many levels left: `MAX_DEPTH + 1` less the depth. -/
def item (input : Slice) : ℕ → Reader Item
  | 0 => throw .rejected
  | levels + 1 => do
    let bytes ← take input 1
    let head ← byteAt bytes 0
    let (major, info) := (head.toNat / 32, head.toNat % 32)
    let argument ← argument input info
    content input (item input levels) major info argument

/-- `decode`. -/
def decode (input : Slice) : Except Fault (Item × ℕ) := item input (MAX_DEPTH + 1) 0

end AgentCoordinator.Cbor
