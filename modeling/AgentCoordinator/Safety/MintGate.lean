import AgentCoordinator.Integrator.Preamble

/-
The mint gate and the push protocol read the same request.

Both read the line and the length that are ahead of the stream, under the same bounds, so they
disagree only about what the line says. For an object they agree: a request that the protocol
accepts names its version once. An array has no field for the gate, but the derived reader takes it
as a request. And a length that is cut off is read but not replayed.
-/

namespace AgentCoordinator

open Guarded Streams CandidatePush

/-! ### The version of an accepted request -/

section Version

variable {fields : List (String × Json)} {r r' : RequestFields} {d : Json} {n : Nat}

lemma once_eq_some {α : Type} {old new : Option α} {v : α} (h : once old new = some v) :
    old = none ∧ new = some v := by
  rw [once] at h
  split_ifs at h with hold
  exact ⟨Option.not_isSome_iff_eq_none.1 hold, h⟩

/-- A field leaves the version as it is, or is the first one that names it. -/
lemma visit_version {field : String × Json} (h : r.visit field = some r') :
    (field.1 ≠ "version" ∧ r'.version = r.version) ∨
      (field.1 = "version" ∧ r.version = none ∧ ∃ v, field.2.asU32 = some v ∧
        r'.version = some v) := by
  rw [RequestFields.visit] at h
  split_ifs at h with hversion hrevision htree hkind
  · obtain ⟨v, hv, rfl⟩ := Option.map_eq_some_iff.1 h
    obtain ⟨hold, hnew⟩ := once_eq_some hv
    exact .inr ⟨hversion, hold, v, hnew, rfl⟩
  · obtain ⟨v, -, rfl⟩ := Option.map_eq_some_iff.1 h
    exact .inl ⟨hversion, rfl⟩
  · obtain ⟨v, -, rfl⟩ := Option.map_eq_some_iff.1 h
    exact .inl ⟨hversion, rfl⟩
  · obtain ⟨v, -, rfl⟩ := Option.map_eq_some_iff.1 h
    exact .inl ⟨hversion, rfl⟩

/-- The version that the derived reader reads is the one that the object names last. -/
lemma field_version (h : fields.foldlM RequestFields.visit r = some r') :
    (r'.version = r.version ∧ ∀ field ∈ fields, field.1 ≠ "version") ∨
      r.version = none ∧ ∃ v field, r'.version = some v ∧
        fields.reverse.find? (·.1 = "version") = some field ∧ field.2.asU32 = some v := by
  induction fields generalizing r with
  | nil =>
    obtain rfl := Option.some.inj h
    exact .inl ⟨rfl, nofun⟩
  | cons field fields ih =>
    rw [List.foldlM_cons, Option.bind_eq_bind, Option.bind_eq_some_iff] at h
    obtain ⟨r₁, hvisit, hrest⟩ := h
    rw [List.reverse_cons, List.find?_append]
    rcases ih hrest with ⟨hsame, hnone⟩ | ⟨hfree, v, last, hv, hlast, hread⟩
    · rcases visit_version hvisit with ⟨hne, hsame'⟩ | ⟨heq, hfree, v, hread, hv⟩
      · refine .inl ⟨hsame.trans hsame', fun field' hfield' => ?_⟩
        rcases List.mem_cons.1 hfield' with rfl | hfield'
        · exact hne
        · exact hnone field' hfield'
      · refine .inr ⟨hfree, v, field, hsame.trans hv, ?_, hread⟩
        have hbefore : fields.reverse.find? (·.1 = "version") = none := by
          rw [List.find?_eq_none]
          intro field' hfield'
          simpa using hnone field' (List.mem_reverse.1 hfield')
        rw [hbefore, Option.none_or, List.find?_cons_of_pos (by simpa using heq)]
    · rcases visit_version hvisit with ⟨hne, hsame⟩ | ⟨heq, -, v', -, hv'⟩
      · exact .inr ⟨hsame.symm.trans hfree, v, last, hv, by rw [hlast, Option.some_or], hread⟩
      · rw [hfree] at hv'
        cases hv'

/-- A request that the protocol accepts is an array, or an object whose version the gate sees. -/
lemma request_version {q : PushRequest} (h : d.request = .ok q) :
    (∃ items, d = .array items) ∨ (d.field "version").asU64 = some PROTOCOL_VERSION := by
  simp only [Json.request, RequestLine.check, bind_eq_ok, okOr_eq_ok, refuseIf_eq_ok, not_not,
    pure_eq_ok] at h
  obtain ⟨line, hline, _, hversion, _⟩ := h
  cases d with
  | array items => exact .inl ⟨items, rfl⟩
  | object fields =>
    simp only [RequestLine.ofJson, RequestFields.finish, Option.bind_eq_bind,
      Option.bind_eq_some_iff, Option.pure_def, Option.some.injEq] at hline
    obtain ⟨read, hread, version, hsome, _, _, _, _, rfl⟩ := hline
    obtain rfl : version = PROTOCOL_VERSION := hversion
    rcases field_version hread with ⟨hnone, -⟩ | ⟨-, v, field, hv, hfind, hu32⟩
    · rw [hsome] at hnone
      cases hnone
    · rw [hsome, Option.some.injEq] at hv
      subst hv
      refine .inr ?_
      rw [Json.field, hfind, Option.map_some, Option.getD_some]
      cases hvalue : field.2 with
      | unsigned n =>
        rw [hvalue, Json.asU32] at hu32
        split_ifs at hu32
        exact hu32
      | _ => rw [hvalue] at hu32; cases hu32
  | _ => cases hline

end Version

/-! ### The preamble -/

section Read

variable {σ : Type} {S : Source UInt8 σ} {s s' : σ} {bytes : List UInt8} {p : Preamble}

/-- What `Preamble::read` does with the stream. -/
inductive PreambleRead (S : Source UInt8 σ) (s : σ) : Preamble × σ → Prop
  /-- No line within the bound. -/
  | noLine {bytes : List UInt8} {s' : σ} (htook : S.Took s s' bytes) (hnot : newline ∉ bytes)
      (h : ∀ line rest, ¬ Delimited newline MAX_REQUEST_LINE (S.ahead s) line rest) :
      PreambleRead S s (⟨bytes, false⟩, s')
  /-- A line, but the stream stops before the length is there. -/
  | cut {line part : List UInt8} {s₁ s' : σ}
      (hline : Delimited newline MAX_REQUEST_LINE (S.ahead s) line (S.ahead s₁))
      (hshort : part.length < 8) (hstops : S.Stops s₁ s' part) :
      PreambleRead S s (⟨line ++ [newline], false⟩, s')
  | whole {line length : List UInt8} {s' : σ}
      (hframed : Framed (S.ahead s) line length (S.ahead s')) :
      PreambleRead S s (⟨line ++ [newline] ++ length, true⟩, s')

/-- The loop of `read_line` goes on with a line of which it has read `bytes`. -/
lemma Preamble.readLine_spec (turns : Nat) (hturns : bytes.length + turns = MAX_REQUEST_LINE + 1)
    {s₁ : σ} (hnot : newline ∉ bytes) (hahead : S.ahead s = bytes.map .value ++ S.ahead s₁) :
    (∃ line s', Preamble.readLine S turns bytes s₁ = (true, line ++ [newline], s') ∧
        Delimited newline MAX_REQUEST_LINE (S.ahead s) line (S.ahead s')) ∨
      ∃ bytes' s', Preamble.readLine S turns bytes s₁ = (false, bytes', s') ∧
        S.Took s s' bytes' ∧ newline ∉ bytes' ∧
        ∀ line rest, ¬ Delimited newline MAX_REQUEST_LINE (S.ahead s) line rest := by
  induction turns generalizing bytes s₁ with
  | zero =>
    exact .inr ⟨bytes, s₁, rfl, .inl hahead, hnot, fun line rest =>
      not_delimited_of_long hahead hnot (by omega)⟩
  | succ turns ih =>
    rw [Preamble.readLine]
    rcases S.readOne_cases s₁ with ⟨b, s', hread, hnext⟩ | ⟨s', hread, hstops⟩
    · rw [hread]
      by_cases hb : b = newline
      · subst hb
        exact .inl ⟨bytes, s', if_pos rfl, ⟨by rw [hahead, hnext], hnot, by omega⟩⟩
      · simp only [if_neg hb]
        refine ih ?_ (newline_not_mem_concat hnot hb) (ahead_concat hahead hnext)
        rw [List.length_append, List.length_singleton]
        omega
    · rw [hread]
      have hstops' := hstops.append hahead
      rw [List.append_nil] at hstops'
      exact .inr ⟨bytes, s', rfl, hstops'.took, hnot, fun line rest =>
        hstops'.not_delimited hnot⟩

theorem Preamble.read_spec (S : Source UInt8 σ) (s : σ) :
    PreambleRead S s (Preamble.read S s) := by
  rw [Preamble.read]
  rcases Preamble.readLine_spec (S := S) (MAX_REQUEST_LINE + 1) (Nat.zero_add _)
    List.not_mem_nil (rfl : S.ahead s = _) with
    ⟨line, s₁, hread, hline⟩ | ⟨bytes, s', hread, htook, hnot, hnone⟩
  · rw [hread]
    simp only [Preamble.readLength]
    have hlength := S.readExact_exactly 8 s₁
    generalize S.readExact 8 s₁ = result at hlength
    cases hlength with
    | full length hlength hahead => exact .whole ⟨hahead ▸ hline, hlength⟩
    | short part hshort hstops => exact .cut hline hshort hstops
  · rw [hread]
    exact .noLine htook hnot hnone

end Read

/-! ### The gate and the protocol -/

section Gate

variable {σ : Type} (document : List UInt8 → Option Json) (S : Source UInt8 σ) (maxBundle : Nat)
  (s : σ)

/-- The gate and the protocol agree on a stream. -/
structure GateAgrees : Prop where
  /-- The replay gives the bytes read, and behind a complete preamble the rest of the stream. -/
  replays : ∀ bytes, S.Took s (Preamble.read S s).2 bytes →
    (Preamble.replayed S).ahead (replayOf S s) = bytes.map .value ++
      if (Preamble.read S s).1.complete then S.ahead (Preamble.read S s).2 else []
  /-- What is served without a token is refused before Git runs. -/
  refuses : ∀ budget mint received,
    serveConnection document S maxBundle budget mint s = .served none received →
      ∃ refusal, received = .error refusal
  /-- A request that the protocol accepts is worth a token. -/
  mints : ∀ accepted, receive document S maxBundle s = .ok accepted →
    (Preamble.read S s).1.worthMinting document maxBundle = true

/-- A request line is ahead, and behind it some bytes of a length but not all. -/
def CutLength (l : List (Ahead UInt8)) : Prop :=
  ∃ line part rest, Delimited newline MAX_REQUEST_LINE l line (part.map .value ++ rest) ∧
    part ≠ [] ∧ part.length < 8 ∧ Source.Ends rest

/-- A request that is written as an array is ahead, with a length within the limit. -/
def ArrayRequest (l : List (Ahead UInt8)) : Prop :=
  ∃ line length rest items request, Framed l line length rest ∧
    document line = some (.array items) ∧ (Json.array items).request = .ok request ∧
      fromBeBytes length ≤ maxBundle

variable {document S maxBundle s} {line length : List UInt8} {l rest : List (Ahead UInt8)}

/-- The gate looks at the line and at the length of a whole preamble. -/
lemma worthMinting_whole (hlength : length.length = 8) :
    (⟨line ++ [newline] ++ length, true⟩ : Preamble).worthMinting document maxBundle = true ↔
      Preamble.versionOf document line = some PROTOCOL_VERSION ∧
        fromBeBytes length ≤ maxBundle := by
  have hsub : (line ++ [newline] ++ length).length - 8 = (line ++ [newline]).length := by
    rw [List.length_append, hlength, Nat.add_sub_cancel]
  rw [Preamble.worthMinting, hsub, List.take_left, List.drop_left, List.dropLast_concat]
  simp

/-- A whole preamble with an object that the protocol accepts is worth a token. -/
lemma worthMinting_of_accepted {d : Json} {request : PushRequest}
    (hframed : Framed (S.ahead s) line length rest) (hd : document line = some d)
    (hrequest : d.request = .ok request) (hle : fromBeBytes length ≤ maxBundle)
    (harray : ¬ ArrayRequest document maxBundle (S.ahead s)) :
    (⟨line ++ [newline] ++ length, true⟩ : Preamble).worthMinting document maxBundle = true := by
  rw [worthMinting_whole hframed.length]
  rcases request_version hrequest with ⟨items, rfl⟩ | hversion
  · exact absurd ⟨line, length, rest, items, request, hframed, hd, hrequest, hle⟩ harray
  · exact ⟨by rw [Preamble.versionOf, hd, Option.bind_some, hversion], hle⟩

/-- An array has no version for the gate. -/
lemma not_worthMinting_array {items : List Json} (hlength : length.length = 8)
    (hd : document line = some (.array items)) :
    (⟨line ++ [newline] ++ length, true⟩ : Preamble).worthMinting document maxBundle = false := by
  rw [Bool.eq_false_iff, Ne, worthMinting_whole hlength]
  rintro ⟨hversion, -⟩
  rw [Preamble.versionOf, hd] at hversion
  cases hversion

/-- No request is framed in a stream whose length is cut off. -/
lemma not_framed_of_short {part : List UInt8} {rest₁ : List (Ahead UInt8)}
    (hline : Delimited newline MAX_REQUEST_LINE l line (part.map .value ++ rest₁))
    (hshort : part.length < 8) (hends : Source.Ends rest₁) :
    ∀ line' length' rest', ¬ Framed l line' length' rest' := by
  intro line' length' rest' hframed
  obtain ⟨-, hrest⟩ := hline.unique hframed.line
  have hle := hends.length_le hrest
  have hlength := hframed.length
  omega

/-- A connection is served without a token exactly when the preamble is not worth one. -/
lemma serveConnection_eq_served_none {budget : Bool} {mint : Option String}
    {received : Except PushRefusal (PushRequest × Nat)} :
    serveConnection document S maxBundle budget mint s = .served none received ↔
      (Preamble.read S s).1.worthMinting document maxBundle = false ∧
        received = receive document (Preamble.replayed S) maxBundle (replayOf S s) := by
  rw [serveConnection]
  constructor
  · intro h
    split_ifs at h with hworth hbudget
    · rw [Connection.served.injEq] at h
      exact ⟨hworth, h.2.symm⟩
    · cases mint with
      | none => cases h
      | some token => cases h
  · rintro ⟨hworth, rfl⟩
    rw [if_pos hworth]

/-- The gate and the protocol agree when the replay is right, nothing is framed in it without being
worth a token, and what is framed in the stream is worth one. -/
lemma gateAgrees_of {p : Preamble} {s' : σ} (hread : Preamble.read S s = (p, s'))
    (hreplays : ∀ bytes, S.Took s s' bytes → p.bytes.map .value ++ (if p.complete then S.ahead s'
      else []) = bytes.map .value ++ if p.complete then S.ahead s' else [])
    (hworth : ∀ line length rest d request,
      Framed (S.ahead s) line length rest ∨
        Framed ((Preamble.replayed S).ahead (p.replay s')) line length rest →
      document line = some d → d.request = .ok request → fromBeBytes length ≤ maxBundle →
        p.worthMinting document maxBundle = true) :
    GateAgrees document S maxBundle s := by
  refine ⟨?_, ?_, ?_⟩
  · rw [replayOf, hread]
    exact hreplays
  · intro budget mint received hserved
    obtain ⟨hnot, rfl⟩ := serveConnection_eq_served_none.1 hserved
    cases hreceive : receive document (Preamble.replayed S) maxBundle (replayOf S s) with
    | error refusal => exact ⟨refusal, rfl⟩
    | ok accepted =>
      obtain ⟨line, length, rest, d, hframed, hd, hrequest, hn, hle⟩ := receive_eq_ok.1 hreceive
      rw [replayOf, hread] at hframed
      rw [hread, hworth line length rest d _ (.inr hframed) hd hrequest (hn ▸ hle)] at hnot
      cases hnot
  · intro accepted hreceive
    obtain ⟨line, length, rest, d, hframed, hd, hrequest, hn, hle⟩ := receive_eq_ok.1 hreceive
    rw [hread]
    exact hworth line length rest d _ (.inl hframed) hd hrequest (hn ▸ hle)

/-- The replay of an incomplete preamble has its bytes ahead. -/
lemma ahead_replay_incomplete (bytes : List UInt8) (s' : σ) :
    (Preamble.replayed S).ahead ((⟨bytes, false⟩ : Preamble).replay s') = bytes.map .value ++ [] :=
  rfl

/-- Without a line the gate and the protocol agree. -/
lemma gateAgrees_of_noLine {bytes : List UInt8} {s' : σ}
    (hread : Preamble.read S s = (⟨bytes, false⟩, s')) (htook : S.Took s s' bytes)
    (hnot : newline ∉ bytes)
    (h : ∀ line rest, ¬ Delimited newline MAX_REQUEST_LINE (S.ahead s) line rest) :
    GateAgrees document S maxBundle s := by
  refine gateAgrees_of hread (fun bytes' htook' => by rw [htook.unique htook']) ?_
  rintro line length rest d request (hframed | hframed) - - -
  · exact absurd hframed.line (h _ _)
  · rw [ahead_replay_incomplete] at hframed
    -- a line of the replay would end among its bytes
    have hends : Source.Ends ([] : List (Ahead UInt8)) := nofun
    have hle := hends.length_le hframed.line.ahead_line
    have hle' := hframed.line.length_le_of_not_mem rfl hnot
    rw [List.length_append, List.length_singleton] at hle
    omega

/-- With a length that is cut off they agree exactly when nothing of it was read. -/
lemma gateAgrees_of_cut {part : List UInt8} {s₁ s' : σ}
    (hread : Preamble.read S s = (⟨line ++ [newline], false⟩, s'))
    (hline : Delimited newline MAX_REQUEST_LINE (S.ahead s) line (S.ahead s₁))
    (hshort : part.length < 8) (hstops : S.Stops s₁ s' part) :
    GateAgrees document S maxBundle s ↔ part = [] := by
  have htook : S.Took s s' (line ++ [newline] ++ part) := hstops.took.append hline.ahead_line
  obtain ⟨rest, hrest, hends⟩ := hstops.ends
  constructor
  · intro h
    have hreplays := h.replays _ (by rw [hread]; exact htook)
    rw [replayOf, hread] at hreplays
    have hlength := congrArg List.length hreplays
    simp only [ahead_replay_incomplete, List.length_append, List.length_map,
      List.length_singleton, List.length_nil, Bool.false_eq_true, if_false] at hlength
    exact List.length_eq_zero_iff.1 (by omega)
  · rintro rfl
    rw [List.append_nil] at htook
    refine gateAgrees_of hread (fun bytes' htook' => by rw [htook.unique htook']) ?_
    rintro line' length rest' d request (hframed | hframed) - - -
    · exact absurd hframed (not_framed_of_short (hrest ▸ hline) hshort hends _ _ _)
    · have hreplayed : Delimited newline MAX_REQUEST_LINE
          ((line ++ [newline]).map .value ++ []) line (([] : List UInt8).map .value ++ []) :=
        ⟨by rw [List.map_append, List.append_assoc]; rfl, hline.not_mem, hline.length_le⟩
      exact absurd hframed (not_framed_of_short hreplayed (by decide) nofun _ _ _)

/-- With a whole preamble they agree exactly when it is no request that is written as an array. -/
lemma gateAgrees_of_whole {s' : σ}
    (hread : Preamble.read S s = (⟨line ++ [newline] ++ length, true⟩, s'))
    (hframed : Framed (S.ahead s) line length (S.ahead s')) :
    GateAgrees document S maxBundle s ↔ ¬ ArrayRequest document maxBundle (S.ahead s) := by
  have hreplay : (Preamble.replayed S).ahead (replayOf S s) = S.ahead s := by
    rw [replayOf, hread, hframed.ahead]
    rfl
  constructor
  · rintro h ⟨line', length', rest, items, request, hframed', hd, hrequest, hle⟩
    obtain ⟨rfl, rfl⟩ := hframed.unique hframed'
    have hserved : serveConnection document S maxBundle true none s =
        .served none (receive document (Preamble.replayed S) maxBundle (replayOf S s)) :=
      serveConnection_eq_served_none.2
        ⟨by rw [hread]; exact not_worthMinting_array hframed.length hd, rfl⟩
    obtain ⟨refusal, hrefusal⟩ := h.refuses _ _ _ hserved
    have hok : receive document (Preamble.replayed S) maxBundle (replayOf S s) =
        .ok (request, fromBeBytes length) :=
      receive_eq_ok.2 ⟨line, length, rest, _, hreplay ▸ hframed', hd, hrequest, rfl, hle⟩
    rw [hok] at hrefusal
    cases hrefusal
  · intro harray
    have htook : S.Took s s' (line ++ [newline] ++ length) := .inl hframed.ahead
    refine gateAgrees_of hread (fun bytes htook' => ?_) ?_
    · rw [htook.unique htook']
    · intro line' length' rest d request hframed' hd hrequest hle
      have hframed' : Framed (S.ahead s) line' length' rest := by
        rcases hframed' with h | h
        · exact h
        · rwa [← hreplay, replayOf, hread]
      obtain ⟨rfl, rfl⟩ := hframed.unique hframed'
      exact worthMinting_of_accepted hframed hd hrequest hle harray

end Gate

/-- The gate and the protocol agree on a stream exactly when it is not cut off within the length,
and has no request ahead that is written as an array. -/
theorem mint_gate_agrees_iff {σ : Type} (document : List UInt8 → Option Json)
    (S : Source UInt8 σ) (maxBundle : Nat) (s : σ) :
    GateAgrees document S maxBundle s ↔
      ¬ CutLength (S.ahead s) ∧ ¬ ArrayRequest document maxBundle (S.ahead s) := by
  have hspec := Preamble.read_spec S s
  generalize hread : Preamble.read S s = result at hspec
  cases hspec with
  | noLine htook hnot h =>
    refine iff_of_true (gateAgrees_of_noLine hread htook hnot h) ⟨?_, ?_⟩
    · rintro ⟨line, part, rest, hline, -⟩
      exact h _ _ hline
    · rintro ⟨line, length, rest, items, request, hframed, -⟩
      exact h _ _ hframed.line
  | @cut line part s₁ s' hline hshort hstops =>
    rw [gateAgrees_of_cut hread hline hshort hstops]
    obtain ⟨rest, hrest, hends⟩ := hstops.ends
    constructor
    · rintro rfl
      refine ⟨?_, ?_⟩
      · rintro ⟨line', part, rest', hline', hpart, -⟩
        obtain ⟨-, hrest'⟩ := hline'.unique hline
        have hle := hends.length_le (hrest.symm.trans hrest'.symm)
        exact hpart (List.length_eq_zero_iff.1 (Nat.le_zero.1 hle))
      · rintro ⟨line', length, rest', items, request, hframed, -⟩
        exact not_framed_of_short (hrest ▸ hline) hshort hends _ _ _ hframed
    · rintro ⟨hcut, -⟩
      by_cases hpart : part = []
      · exact hpart
      · exact absurd ⟨line, part, rest, hrest ▸ hline, hpart, hshort, hends⟩ hcut
  | whole hframed =>
    rw [gateAgrees_of_whole hread hframed, iff_and_self]
    rintro - ⟨line, part, rest, hline, -, hshort, hends⟩
    exact not_framed_of_short hline hshort hends _ _ _ hframed

/-- The line `[1,"aa…","bb…"]`, with two object IDs of 40 digits. -/
def arrayLine : List UInt8 :=
  [91, 49, 44, 34] ++ List.replicate 40 97 ++ [34, 44, 34] ++ List.replicate 40 98 ++ [34, 93]

/-- What the line holds as JSON, and no other line holds anything. -/
def arrayDocument (line : List UInt8) : Option Json :=
  if line = arrayLine then
    some (.array [.unsigned 1, .string (String.ofList (List.replicate 40 'a')),
      .string (String.ofList (List.replicate 40 'b'))])
  else none

/-- The line arrives in one piece, and the length 0 in another. -/
def arrayArrivals : List (Arrival UInt8) :=
  [.values 91 (arrayLine.tail ++ [newline]), .values 0 (List.replicate 7 0)]

/-- The protocol accepts the array, and the gate finds it not worth a token. -/
theorem array_request_without_token : ¬ GateAgrees arrayDocument arrivals 100 arrayArrivals := by
  intro h
  have haccepted : (receive arrayDocument arrivals 100 arrayArrivals).isOk = true := by
    decide +kernel
  have hworth : (Preamble.read arrivals arrayArrivals).1.worthMinting arrayDocument 100 = false := by
    decide +kernel
  cases hreceive : receive arrayDocument arrivals 100 arrayArrivals with
  | error e =>
    rw [hreceive] at haccepted
    cases haccepted
  | ok accepted =>
    rw [h.mints accepted hreceive] at hworth
    cases hworth

end AgentCoordinator
