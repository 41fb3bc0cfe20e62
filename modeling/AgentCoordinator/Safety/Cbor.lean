import AgentCoordinator.Accounts.Cbor

/-
The CBOR reader accepts exactly its grammar.

The grammar is given level by level: the words of an item of some levels are those of its head, its
argument and its content, in which the items have a level less. Each part of the reader reads its
part of the grammar exactly.
-/

namespace AgentCoordinator.Cbor

open Reading

/-! ### The grammar -/

/-- The argument of an item: in its head, or in one, two, four or eight bytes behind it. -/
inductive Argument : ℕ → ℕ → List UInt8 → Prop
  | head {info : ℕ} (h : info ≤ 23) : Argument info info []
  | one (byte : UInt8) : Argument 24 byte.toNat [byte]
  | two {bytes : List UInt8} (h : bytes.length = 2) : Argument 25 (fromBeBytes bytes) bytes
  | four {bytes : List UInt8} (h : bytes.length = 4) : Argument 26 (fromBeBytes bytes) bytes
  | eight {bytes : List UInt8} (h : bytes.length = 8) : Argument 27 (fromBeBytes bytes) bytes

/-- The bytes of a text. -/
def utf8 (text : String) : List UInt8 := text.toByteArray.data.toList

/-- The words of a key and its value. -/
def Entry (E : Item → List UInt8 → Prop) (entry : Item × Item) (word : List UInt8) : Prop :=
  ∃ a b, E entry.1 a ∧ E entry.2 b ∧ word = a ++ b

/-- The content of an item, by its major type, its additional information and its argument, where
the items in it have the words `E`. -/
inductive Content (E : Item → List UInt8 → Prop) : ℕ → ℕ → ℕ → Item → List UInt8 → Prop
  | unsigned {info n : ℕ} (h : n < 2 ^ 63) : Content E 0 info n (.int n) []
  | negative {info n : ℕ} (h : n < 2 ^ 63) : Content E 1 info n (.int (-1 - n)) []
  | bytes {info : ℕ} (bytes : List UInt8) : Content E 2 info bytes.length (.bytes bytes) bytes
  | text {info : ℕ} (text : String) :
    Content E 3 info (utf8 text).length (.text text) (utf8 text)
  | array {info n : ℕ} {items : List Item} {word : List UInt8} (h : Words E n items word) :
    Content E 4 info n .other word
  | map {info n : ℕ} {entries : List (Item × Item)} {word : List UInt8}
    (h : Words (Entry E) n entries word) : Content E 5 info n (.map entries) word
  /-- False, true and null. -/
  | simple {info n : ℕ} (h : 20 ≤ info ∧ info ≤ 22) : Content E 7 info n .other []

/-- The words of an item that has so many levels, with its value. -/
def Encodes : ℕ → Item → List UInt8 → Prop
  | 0, _, _ => False
  | levels + 1, x, word => ∃ (head : UInt8) (n : ℕ) (a b : List UInt8),
    Argument (head.toNat % 32) n a ∧
    Content (Encodes levels) (head.toNat / 32) (head.toNat % 32) n x b ∧ word = head :: (a ++ b)

lemma Encodes.ne_nil {levels : ℕ} {x : Item} {word : List UInt8} (h : Encodes levels x word) :
    word ≠ [] := by
  cases levels with
  | zero => exact h.elim
  | succ levels =>
    obtain ⟨head, n, a, b, -, -, rfl⟩ := h
    exact List.cons_ne_nil _ _

/-! ### Parts of an item -/

section Parts

variable {input : Slice} {α : Type}

/-- The bytes that are taken, if there are as many. -/
lemma take_apply (start count : ℕ) :
    take input count start = if start + count ≤ input.bytes.length then
      .ok ((input.bytes.drop start).take count, start + count) else .error .rejected := by
  have hlength := input.length_lt
  have htake : take input count start =
      (if start + count < 2 ^ 64 ∧ start + count ≤ input.bytes.length then (do
          let bytes ← slice input start (start + count)
          set (start + count)
          pure bytes)
        else throw .rejected : Reader (List UInt8)) start := rfl
  rw [htake]
  by_cases hstop : start + count ≤ input.bytes.length
  · have hslice : slice input start (start + count) =
        pure ((input.bytes.drop start).take count) := by
      unfold slice
      rw [if_pos ⟨Nat.le_add_right _ _, hstop⟩, Nat.add_sub_cancel_left]
    rw [if_pos hstop, if_pos ⟨by omega, hstop⟩, hslice]
    rfl
  · rw [if_neg hstop, if_neg fun h => hstop h.2]
    rfl

lemma reads_take (count : ℕ) : Reads input.bytes (take input count)
    fun bytes word => bytes.length = count ∧ word = bytes where
  exact := by
    intro start hstart bytes stop
    rw [take_apply]
    constructor
    · intro h
      split at h
      · next hstop =>
        obtain ⟨rfl, rfl⟩ := Prod.mk.inj (Except.ok.inj h)
        have hlength : ((input.bytes.drop start).take count).length = count := by
          rw [List.length_take, List.length_drop]
          omega
        exact ⟨_, ⟨hlength, rfl⟩, List.take_prefix _ _, by rw [hlength]⟩
      · cases h
    · rintro ⟨word, ⟨rfl, rfl⟩, hprefix, rfl⟩
      have hle := hprefix.length_le
      rw [List.length_drop] at hle
      rw [if_pos (by omega), ← List.prefix_iff_eq_take.1 hprefix]
  safe := by
    intro start hstart h
    rw [take_apply] at h
    split at h <;> cases h

/-- The head of an item is its first byte. -/
lemma reads_byte : Reads input.bytes (take input 1 >>= fun bytes => byteAt bytes 0)
    fun byte word => word = [byte] := by
  refine ((reads_take 1).bind (H := fun bytes byte word => bytes = [byte] ∧ word = [])
    fun bytes word h => ?_).congr fun byte word => ?_
  · obtain ⟨byte, rfl⟩ := List.length_eq_one_iff.1 h.1
    refine (reads_pure byte).congr fun byte' word => ?_
    constructor
    · rintro ⟨rfl, rfl⟩
      exact ⟨rfl, rfl⟩
    · rintro ⟨hbyte, rfl⟩
      exact ⟨(List.cons.inj hbyte).1.symm, rfl⟩
  · constructor
    · rintro ⟨bytes, a, b, ⟨-, rfl⟩, ⟨rfl, rfl⟩, rfl⟩
      rfl
    · rintro rfl
      exact ⟨[byte], [byte], [], ⟨rfl, rfl⟩, ⟨rfl, rfl⟩, rfl⟩

lemma reads_number (width : ℕ) : Reads input.bytes (number input width)
    fun n word => word.length = width ∧ n = fromBeBytes word := by
  unfold number
  refine ((reads_take width).bind
    (H := fun bytes n word => n = fromBeBytes bytes ∧ word = []) fun bytes word h => ?_).congr
    fun n word => ?_
  · have harray : tryArray width bytes = pure bytes := if_pos h.1
    rw [harray, pure_bind]
    exact reads_pure _
  · constructor
    · rintro ⟨bytes, a, b, ⟨hlength, rfl⟩, ⟨rfl, rfl⟩, rfl⟩
      rw [List.append_nil]
      exact ⟨hlength, rfl⟩
    · rintro ⟨hlength, rfl⟩
      exact ⟨word, word, [], ⟨hlength, rfl⟩, ⟨rfl, rfl⟩, (List.append_nil _).symm⟩

lemma reads_argument (info : ℕ) :
    Reads input.bytes (argument input info) (Argument info) := by
  unfold argument
  split
  · next h =>
    refine (reads_pure info).congr fun n word => ?_
    constructor
    · rintro ⟨rfl, rfl⟩
      exact .head h
    · rintro (_ | _ | _ | _ | _)
      · exact ⟨rfl, rfl⟩
      all_goals omega
  · next h =>
    split
    · next heq =>
      subst heq
      have hone : (do
          let bytes ← take input 1
          let byte ← byteAt bytes 0
          pure byte.toNat : Reader ℕ) =
          (take input 1 >>= fun bytes => byteAt bytes 0) >>= fun byte => pure byte.toNat := by
        rw [bind_assoc]
      rw [hone]
      refine (reads_byte.bind fun byte _ _ => reads_pure byte.toNat).congr fun n word => ?_
      constructor
      · rintro ⟨byte, a, b, rfl, ⟨rfl, rfl⟩, rfl⟩
        exact .one byte
      · intro hword
        cases hword with
        | head h => omega
        | one byte => exact ⟨byte, [byte], [], rfl, ⟨rfl, rfl⟩, rfl⟩
    · split
      · next heq =>
        subst heq
        refine (reads_number 2).congr fun n word => ⟨?_, ?_⟩
        · rintro ⟨hlength, rfl⟩
          exact .two hlength
        · intro hword
          cases hword with
          | head h => omega
          | two h => exact ⟨h, rfl⟩
      · split
        · next heq =>
          subst heq
          refine (reads_number 4).congr fun n word => ⟨?_, ?_⟩
          · rintro ⟨hlength, rfl⟩
            exact .four hlength
          · intro hword
            cases hword with
            | head h => omega
            | four h => exact ⟨h, rfl⟩
        · split
          · next heq =>
            subst heq
            refine (reads_number 8).congr fun n word => ⟨?_, ?_⟩
            · rintro ⟨hlength, rfl⟩
              exact .eight hlength
            · intro hword
              cases hword with
              | head h => omega
              | eight h => exact ⟨h, rfl⟩
          · refine reads_rejected.congr fun n word => ⟨False.elim, fun hword => ?_⟩
            cases hword <;> omega

/-- A length is not refused where the words are at least as long. -/
lemma reads_length {n : ℕ} {f : ℕ → Reader α} {G : α → List UInt8 → Prop}
    (hf : Reads input.bytes (f n) G) (hlong : ∀ x word, G x word → n ≤ word.length) :
    Reads input.bytes (length input n >>= f) G := by
  have hlength := input.length_lt
  by_cases h : n ≤ input.bytes.length
  · have hpure : length input n = pure n := if_pos ⟨by omega, h⟩
    rw [hpure, pure_bind]
    exact hf
  · have hthrow : length input n = throw .rejected := if_neg fun hn => h hn.2
    rw [hthrow]
    refine ⟨?_, fun start _ h => nomatch h⟩
    intro start _ x stop
    constructor
    · exact fun h => nomatch h
    · rintro ⟨word, hword, hprefix, -⟩
      have hle := hprefix.length_le
      have hn := hlong x word hword
      rw [List.length_drop] at hle
      omega

/-- Words that are not empty are at least as many letters. -/
lemma le_length_of_words {G : α → List UInt8 → Prop} {n : ℕ} {xs : List α} {word : List UInt8}
    (hG : ∀ x a, G x a → a ≠ []) (h : Words G n xs word) : n ≤ word.length := by
  obtain ⟨rfl, parts, hparts, rfl⟩ := h
  induction hparts with
  | nil => exact Nat.le_refl _
  | cons ha _ ih =>
    have hpos := List.length_pos_iff.2 (hG _ _ ha)
    rw [List.length_cons, List.flatten_cons, List.length_append]
    omega

lemma reads_bytes (n : ℕ) : Reads input.bytes (length input n >>= take input)
    fun bytes word => bytes.length = n ∧ word = bytes := by
  refine reads_length (reads_take n) ?_
  rintro bytes word ⟨rfl, rfl⟩
  exact Nat.le_refl _

lemma fromUtf8_utf8 (text : String) : fromUtf8 (utf8 text) = pure text := by
  have htext : String.fromUTF8? ⟨(utf8 text).toArray⟩ = some text := by
    unfold String.fromUTF8?
    rw [dif_pos (show (⟨(utf8 text).toArray⟩ : ByteArray).IsValidUTF8 from text.isValidUTF8)]
    rfl
  rw [fromUtf8, htext]

/-- What is accepted as a text are its bytes. -/
lemma reads_text (bytes : List UInt8) : Reads input.bytes (fromUtf8 bytes)
    fun text word => bytes = utf8 text ∧ word = [] := by
  cases htext : String.fromUTF8? ⟨bytes.toArray⟩ with
  | none =>
    have hthrow : fromUtf8 bytes = throw .rejected := by rw [fromUtf8, htext]
    rw [hthrow]
    refine reads_rejected.congr fun text word => ⟨False.elim, ?_⟩
    rintro ⟨rfl, -⟩
    have hpure := fromUtf8_utf8 text
    rw [hthrow] at hpure
    exact nomatch congrFun hpure 0
  | some text =>
    have hpure : fromUtf8 bytes = pure text := by rw [fromUtf8, htext]
    have hbytes : bytes = utf8 text := by
      unfold String.fromUTF8? at htext
      split at htext
      · obtain rfl := Option.some.inj htext
        rfl
      · cases htext
    rw [hpure]
    refine (reads_pure text).congr fun text' word => ?_
    constructor
    · rintro ⟨rfl, rfl⟩
      exact ⟨hbytes, rfl⟩
    · rintro ⟨hbytes', rfl⟩
      have hpure' := fromUtf8_utf8 text'
      rw [← hbytes', hpure] at hpure'
      have heq := Except.ok.inj (congrFun hpure' 0)
      exact ⟨(Prod.mk.inj heq).1.symm, rfl⟩

/-- The argument as a signed number. -/
lemma reads_int (n : ℕ) : Reads input.bytes (i64TryFrom n)
    fun m word => (n < 2 ^ 63 ∧ m = n) ∧ word = [] := by
  unfold i64TryFrom
  split
  · next h =>
    refine (reads_pure (n : ℤ)).congr fun m word => ?_
    rw [and_assoc]
    exact ⟨fun hm => ⟨h, hm⟩, And.right⟩
  · next h => exact reads_rejected.congr fun m word => ⟨False.elim, fun hm => h hm.1.1⟩

/-- The content of an item is read, if the items in it are. -/
lemma reads_content {child : Reader Item} {E : Item → List UInt8 → Prop}
    (hchild : Reads input.bytes child E) (hE : ∀ x word, E x word → word ≠ [])
    (major info n : ℕ) : Reads input.bytes (content input child major info n)
      (Content E major info n) := by
  have hentry : Reads input.bytes (entry child) (Entry E) := by
    refine (hchild.bind fun key _ _ => hchild.bind fun value _ _ =>
      reads_pure (key, value)).congr fun x word => ?_
    constructor
    · rintro ⟨key, a, b, ha, ⟨value, b, c, hb, ⟨rfl, rfl⟩, rfl⟩, rfl⟩
      exact ⟨a, b, ha, hb, by rw [List.append_nil]⟩
    · rintro ⟨a, b, ha, hb, rfl⟩
      exact ⟨x.1, a, b, ha, ⟨x.2, b, [], hb, ⟨rfl, rfl⟩, (List.append_nil b).symm⟩, rfl⟩
  unfold content
  split
  · refine ((reads_int n).bind fun m _ _ => reads_pure (Item.int m)).congr fun x word => ?_
    constructor
    · rintro ⟨m, a, b, ⟨⟨h, rfl⟩, rfl⟩, ⟨rfl, rfl⟩, rfl⟩
      exact .unsigned h
    · intro hword
      cases hword with
      | unsigned h => exact ⟨n, [], [], ⟨⟨h, rfl⟩, rfl⟩, ⟨rfl, rfl⟩, rfl⟩
  · -- the difference is a signed number again
    refine ((reads_int n).bind (H := fun m x word => x = .int (-1 - m) ∧ word = [])
      fun m word h => ?_).congr fun x word => ?_
    · obtain ⟨⟨h, rfl⟩, -⟩ := h
      have hsub : subI64 (-1) n = pure (-1 - (n : ℤ)) := if_pos (by omega)
      rw [hsub, pure_bind]
      exact reads_pure _
    · constructor
      · rintro ⟨m, a, b, ⟨⟨h, rfl⟩, rfl⟩, ⟨rfl, rfl⟩, rfl⟩
        exact .negative h
      · intro hword
        cases hword with
        | negative h => exact ⟨n, [], [], ⟨⟨h, rfl⟩, rfl⟩, ⟨rfl, rfl⟩, rfl⟩
  · have hassoc : (do
        let count ← length input n
        let bytes ← take input count
        pure (Item.bytes bytes) : Reader Item) =
        (length input n >>= take input) >>= fun bytes => pure (Item.bytes bytes) := by
      rw [bind_assoc]
    rw [hassoc]
    refine ((reads_bytes n).bind fun bytes _ _ => reads_pure (Item.bytes bytes)).congr
      fun x word => ?_
    constructor
    · rintro ⟨bytes, a, b, ⟨rfl, rfl⟩, ⟨rfl, rfl⟩, rfl⟩
      rw [List.append_nil]
      exact .bytes _
    · intro hword
      cases hword with
      | bytes => exact ⟨word, word, [], ⟨rfl, rfl⟩, ⟨rfl, rfl⟩, (List.append_nil _).symm⟩
  · have hassoc : (do
        let count ← length input n
        let bytes ← take input count
        let text ← fromUtf8 bytes
        pure (Item.text text) : Reader Item) =
        (length input n >>= take input) >>= fun bytes =>
          fromUtf8 bytes >>= fun text => pure (Item.text text) := by
      rw [bind_assoc]
    rw [hassoc]
    refine ((reads_bytes n).bind fun bytes _ _ => (reads_text bytes).bind fun text _ _ =>
      reads_pure (Item.text text)).congr fun x word => ?_
    constructor
    · rintro ⟨bytes, a, b, ⟨rfl, rfl⟩, ⟨text, c, d, ⟨rfl, rfl⟩, ⟨rfl, rfl⟩, rfl⟩, rfl⟩
      rw [List.append_nil, List.append_nil]
      exact .text text
    · intro hword
      cases hword with
      | text text =>
        exact ⟨utf8 text, utf8 text, [], ⟨rfl, rfl⟩,
          ⟨text, [], [], ⟨rfl, rfl⟩, ⟨rfl, rfl⟩, rfl⟩, (List.append_nil _).symm⟩
  · refine reads_length (((hchild.times n).bind fun _ _ _ => reads_pure Item.other).congr
      (H := Content E 4 info n) fun x word => ?_) ?_
    · constructor
      · rintro ⟨items, a, b, ha, ⟨rfl, rfl⟩, rfl⟩
        rw [List.append_nil]
        exact .array ha
      · intro hword
        cases hword with
        | array h => exact ⟨_, word, [], h, ⟨rfl, rfl⟩, (List.append_nil _).symm⟩
    · intro x word hword
      cases hword with
      | array h => exact le_length_of_words hE h
  · refine reads_length (((hentry.times n).bind fun entries _ _ =>
      reads_pure (Item.map entries)).congr (H := Content E 5 info n) fun x word => ?_) ?_
    · constructor
      · rintro ⟨entries, a, b, ha, ⟨rfl, rfl⟩, rfl⟩
        rw [List.append_nil]
        exact .map ha
      · intro hword
        cases hword with
        | map h => exact ⟨_, word, [], h, ⟨rfl, rfl⟩, (List.append_nil _).symm⟩
    · intro x word hword
      cases hword with
      | map h =>
        refine le_length_of_words ?_ h
        rintro y _ ⟨a, b, ha, -, rfl⟩ hnil
        exact hE _ _ ha (List.append_eq_nil_iff.1 hnil).1
  · split
    · next h =>
      refine (reads_pure Item.other).congr fun x word => ?_
      constructor
      · rintro ⟨rfl, rfl⟩
        exact .simple h
      · intro hword
        cases hword
        exact ⟨rfl, rfl⟩
    · next h =>
      refine reads_rejected.congr fun x word => ⟨False.elim, fun hword => ?_⟩
      cases hword with
      | simple h' => exact h h'
  · refine reads_rejected.congr fun x word => ⟨False.elim, fun hword => ?_⟩
    cases hword <;> contradiction

/-- An item is read level by level. -/
theorem reads_item (levels : ℕ) : Reads input.bytes (item input levels) (Encodes levels) := by
  induction levels with
  | zero => exact reads_rejected
  | succ levels ih =>
    have hassoc : item input (levels + 1) =
        (take input 1 >>= fun bytes => byteAt bytes 0) >>= fun head =>
          argument input (head.toNat % 32) >>= fun n =>
            content input (item input levels) (head.toNat / 32) (head.toNat % 32) n := by
      rw [bind_assoc]
      rfl
    rw [hassoc]
    refine (reads_byte.bind fun head _ _ => (reads_argument _).bind fun n _ _ =>
      reads_content ih (fun _ _ => Encodes.ne_nil) _ _ n).congr fun x word => ?_
    constructor
    · rintro ⟨head, _, _, rfl, ⟨n, a, b, ha, hb, rfl⟩, rfl⟩
      exact ⟨head, n, a, b, ha, hb, rfl⟩
    · rintro ⟨head, n, a, b, ha, hb, rfl⟩
      exact ⟨head, [head], a ++ b, rfl, ⟨n, a, b, ha, hb, rfl⟩, rfl⟩

end Parts

/-! ### The reader -/

/-- An item that is nested in at most so many levels below the outermost one. -/
def WellFormed (x : Item) (word : List UInt8) : Prop := Encodes (MAX_DEPTH + 1) x word

/-- The reader accepts a slice exactly if it starts with a well-formed item, returns this item and
its length, whatever follows, and does nothing wrong on any slice. -/
theorem decode_exact :
    (∀ input x stop, decode input = .ok (x, stop) ↔
      ∃ word rest, input.bytes = word ++ rest ∧ WellFormed x word ∧ stop = word.length) ∧
    (∀ x word rest, WellFormed x word → ∀ h : (word ++ rest).length < 2 ^ 63,
      decode ⟨word ++ rest, h⟩ = .ok (x, word.length)) ∧
    ∀ input, decode input ≠ .error .panicked := by
  have hdecode : ∀ input x stop, decode input = .ok (x, stop) ↔
      ∃ word rest, input.bytes = word ++ rest ∧ WellFormed x word ∧ stop = word.length := by
    intro input x stop
    rw [decode, (reads_item _).exact 0 (Nat.zero_le _)]
    constructor
    · rintro ⟨word, hword, ⟨rest, hrest⟩, rfl⟩
      exact ⟨word, rest, hrest.symm, hword, Nat.zero_add _⟩
    · rintro ⟨word, rest, hinput, hword, rfl⟩
      exact ⟨word, hword, ⟨rest, hinput.symm⟩, (Nat.zero_add _).symm⟩
  refine ⟨hdecode, ?_, fun input => (reads_item _).safe 0 (Nat.zero_le _)⟩
  intro x word rest hword h
  exact (hdecode _ x _).2 ⟨word, rest, rfl, hword, rfl⟩

/-- A map of one entry with another byte behind it. -/
theorem decode_exact_map :
    decode ⟨[0xa1, 0x01, 0x18, 0x20] ++ [0xff], by decide⟩ = .ok (.map [(.int 1, .int 32)], 4) := by
  refine decode_exact.2.1 (.map [(.int 1, .int 32)]) [0xa1, 0x01, 0x18, 0x20] [0xff] ?_ (by decide)
  have hkey : Encodes MAX_DEPTH (.int 1) [0x01] :=
    ⟨0x01, 1, [], [], .head (by decide), .unsigned (by decide), rfl⟩
  have hvalue : Encodes MAX_DEPTH (.int 32) [0x18, 0x20] :=
    ⟨0x18, 32, [0x20], [], .one 0x20, .unsigned (by decide), rfl⟩
  exact ⟨0xa1, 1, [], [0x01, 0x18, 0x20], .head (by decide),
    .map ⟨rfl, [[0x01, 0x18, 0x20]], .cons ⟨_, _, hkey, hvalue, rfl⟩ .nil, rfl⟩, rfl⟩

end AgentCoordinator.Cbor
