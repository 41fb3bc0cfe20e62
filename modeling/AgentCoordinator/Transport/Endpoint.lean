import AgentCoordinator.Library.Outbox
import AgentCoordinator.Safety.Idempotency

/-
The service as the server of a client's mutations.

A client's mutations have one principal, and each its route and idempotency key. A mutation has
taken effect when the database contains its changes. Other callers use the service too, receipts
are compacted and records change without a mutation; only a snapshot is not restored meanwhile.
-/

namespace AgentCoordinator

open Guarded Outbox Transition

/-- The receipts name the mutations that the database contains, and have their results until they
are compacted. -/
structure MutationDb.Stored {δ ν : Type} (db : MutationDb δ ν) : Prop extends db.Receipted where
  result : ∀ r ∈ db.receipts, r.compactedAt = none → r.result ≠ none

/-- A database with its receipts. -/
abbrev ReceiptedDb (δ ν : Type) := { db : MutationDb δ ν // db.Stored }

/-- A handler answers without a commit only from a stored result. -/
def Routes.RepliesStored {δ ν ρ : Type} (R : Routes δ ν ρ) : Prop :=
  ∀ tables m req data, R.handle tables m req = .ok (.reply data) → m.replay ≠ none

/-- The way from the calls of a client to the service, and back. -/
structure Endpoint (δ ν ρ α ω : Type) where
  routes : Routes δ ν ρ
  /-- The principal of the client's credential. -/
  principal : Id
  /-- The request of a call; a call may be refused before it becomes one. -/
  route : α → Except AppError ρ
  key : α → Option String
  /-- The answers that the client may get for an answer of the service. -/
  answered : Except AppError ν → ω → Prop
  verdict : α → ω → Verdict

/-- A call is confirmed by an answer of the service, and rejected by a refusal. -/
structure Endpoint.Faithful {δ ν ρ α ω : Type} (E : Endpoint δ ν ρ α ω) : Prop where
  confirmed : ∀ {a out r}, E.answered out r → E.verdict a r = .confirmed → ∃ data, out = .ok data
  rejected : ∀ {a out r}, E.answered out r → E.verdict a r = .rejected → ∃ e, out = .error e

namespace Endpoint

section Server

variable {δ ν ρ α ω : Type} (E : Endpoint δ ν ρ α ω)

/-- The triple of a call's receipt. -/
def triple (a : α) : Option MutationTriple := do
  let req ← (E.route a).toOption
  let key ← E.key a
  return (E.principal, E.routes.operation req, key)

/-- One service of a call. Whoever the credential lets in is the client's principal. -/
inductive Serves : ReceiptedDb δ ν → α → ReceiptedDb δ ν → ω → Prop
  | refused {db : ReceiptedDb δ ν} {a : α} {e : AppError} {r : ω} (h : E.route a = .error e)
      (hr : E.answered (.error e) r) : Serves db a db r
  | served {db db' : ReceiptedDb δ ν} {a : α} {req : ρ} {key : String} {sample : ClockSample}
      {out : Except AppError ν} {r : ω} (hroute : E.route a = .ok req) (hkey : E.key a = some key)
      (hprincipal : ∀ actor, E.routes.admits (E.routes.clock db.1.tables sample) sample req
        = .ok actor → actor.id = E.principal)
      (h : mutate E.routes db.1 [key] sample req = (db'.1, out)) (hr : E.answered out r) :
      Serves db a db' r

/-- The service goes on without the client. -/
def Elsewhere (db db' : ReceiptedDb δ ν) : Prop :=
  (∃ headers sample req, db'.1 = (mutate E.routes db.1 headers sample req).1) ∨
  (∃ cutoffAt now picked, db'.1 = db.1.compactReceipts cutoffAt now picked) ∨
  ∃ tables, db'.1 = { db.1 with tables := tables }

/-- The service. -/
def server : Server (ReceiptedDb δ ν) α ω where
  serve := E.Serves
  others := E.Elsewhere
  done db a := ∃ t, E.triple a = some t ∧ t ∈ db.1.effects
  verdict := E.verdict

end Server

/-! ### One mutation -/

section Mutations

variable {δ ν ρ : Type} {R : Routes δ ν ρ} {db db' : MutationDb δ ν} {headers : List String}
  {sample : ClockSample} {req : ρ} {key : String} {t : MutationTriple}

/-- A mutation undoes no other. -/
lemma mem_effects_mutate (h : db' = (mutate R db headers sample req).1) (ht : t ∈ db.effects) :
    t ∈ db'.effects := by
  rw [h]
  unfold mutate
  split
  · exact ht
  split
  · exact ht
  · rename_i key _
    rcases transact_cases R db sample key req with hsame | hclock |
      ⟨m, tables, data, eventData, project, kind, record, hfinish⟩
    · rw [hsame]
      exact ht
    · rw [hclock]
      exact ht
    · rw [(finish_ok hfinish).2.1]
      exact List.mem_append_left _ ht

/-- A mutation that is finished stores its result. -/
theorem mutate_stored (h : db.Stored) : (mutate R db headers sample req).1.Stored := by
  refine ⟨mutate_receipted h.toReceipted, ?_⟩
  unfold mutate
  split
  · exact h.result
  split
  · exact h.result
  · rename_i key _
    rcases transact_cases R db sample key req with hsame | hclock |
      ⟨m, tables, data, eventData, project, kind, record, hfinish⟩
    · rw [hsame]
      exact h.result
    · rw [hclock]
      exact h.result
    · simp only [MutationDb.finish, bind_eq_ok, refuseIf_eq_ok, pure_eq_ok] at hfinish
      obtain ⟨-, -, hdb⟩ := hfinish
      rw [← hdb]
      intro r hr hnone
      obtain hr | rfl := by simpa using hr
      · exact h.result r hr hnone
      · simp

lemma mutate_singleton (out : Except AppError ν) (h : mutate R db [key] sample req = (db', out)) :
    (db' = db ∧ ∃ e, out = .error e) ∨ transact R db sample key req = (db', out) := by
  unfold mutate at h
  split at h
  · obtain ⟨rfl, rfl⟩ := Prod.mk.inj h
    exact .inl ⟨rfl, _, rfl⟩
  split at h
  · obtain ⟨rfl, rfl⟩ := Prod.mk.inj h
    exact .inl ⟨rfl, _, rfl⟩
  · rename_i key' hkey
    simp only [mutationKey, bind_eq_ok, pure_eq_ok] at hkey
    obtain ⟨-, -, rfl⟩ := hkey
    exact .inr h

/-- A mutation that is refused has no effect. -/
lemma effects_of_error {e : AppError} (h : mutate R db [key] sample req = (db', .error e)) :
    db'.effects = db.effects := by
  obtain ⟨rfl, -⟩ | h := mutate_singleton _ h
  · rfl
  · unfold transact at h
    split at h
    · obtain ⟨rfl, -⟩ := Prod.mk.inj h
      rfl
    split at h
    · obtain ⟨rfl, -⟩ := Prod.mk.inj h
      rfl
    split at h
    · obtain ⟨rfl, -⟩ := Prod.mk.inj h
      rfl
    · exact absurd (Prod.mk.inj h).2 (by simp)

/-- A refusal changes nothing, unless it detects an incident of the clock. -/
lemma eq_of_error {e : AppError} (hquiet : sample.incidentDetected = false)
    (h : (mutate R db [key] sample req).2 = .error e) :
    mutate R db [key] sample req = (db, .error e) := by
  generalize hm : mutate R db [key] sample req = result at h ⊢
  obtain ⟨db', out⟩ := result
  obtain rfl : out = .error e := h
  obtain ⟨rfl, -⟩ | ht := mutate_singleton _ hm
  · rfl
  · unfold transact at ht
    rw [hquiet, if_neg (by simp)] at ht
    split at ht
    · rw [← (Prod.mk.inj ht).1]
    split at ht
    · rw [← (Prod.mk.inj ht).1]
    · exact absurd (Prod.mk.inj ht).2 (by simp)

/-- A mutation that is answered is one that the database contains. -/
lemma mem_effects_of_ok {data : ν} (hR : R.RepliesStored) (hdb : db.Receipted)
    (h : mutate R db [key] sample req = (db', .ok data)) :
    ∃ actor, R.admits (R.clock db.tables sample) sample req = .ok actor ∧
      (actor.id, R.operation req, key) ∈ db'.effects := by
  obtain ⟨-, e, he⟩ | h := mutate_singleton _ h
  · exact absurd he (by simp)
  unfold transact at h
  split at h
  · exact absurd (Prod.mk.inj h).2 (by simp)
  split at h
  · exact absurd (Prod.mk.inj h).2 (by simp)
  rename_i m hbegin
  split at h
  · exact absurd (Prod.mk.inj h).2 (by simp)
  rename_i db'' data' hrun
  obtain ⟨rfl, -⟩ := Prod.mk.inj h
  obtain ⟨actor, hactor⟩ : ∃ actor,
      R.admits (R.clock db.tables sample) sample req = .ok actor := by
    simp only [beginMutation, bind_eq_ok] at hbegin
    obtain ⟨actor, hactor, -⟩ := hbegin
    exact ⟨actor, hactor⟩
  obtain ⟨-, htriple, hload⟩ := beginMutation_ok hactor hbegin
  refine ⟨actor, hactor, htriple ▸ ?_⟩
  simp only [bind_eq_ok, runHandler] at hrun
  obtain ⟨outcome, houtcome, hrun⟩ := hrun
  cases outcome with
  | reply =>
    obtain ⟨rfl, -⟩ := Prod.mk.inj (pure_eq_ok.1 hrun)
    -- the stored result has a receipt
    have hreplay := hR _ _ _ _ houtcome
    rw [hdb.effects, htriple]
    by_contra hnone
    have hfind : db.receipts.find? (fun r => r.triple = (actor.id, R.operation req, key)) = none :=
      List.find?_eq_none.2 fun r hr => by
        simpa using fun heq => hnone (List.mem_map.2 ⟨r, hr, heq⟩)
    simp only [loadReceipt, hfind, pure_eq_ok] at hload
    exact hreplay hload.symm
  | finish =>
    simp only [bind_eq_ok] at hrun
    obtain ⟨db'', hfinish, hrun⟩ := hrun
    obtain ⟨rfl, -⟩ := Prod.mk.inj (pure_eq_ok.1 hrun)
    rw [(finish_ok hfinish).2.1]
    exact List.mem_append_right _ (List.mem_singleton.2 rfl)

end Mutations

/-! ### The service keeps what the client relies on -/

section Lawful

variable {δ ν ρ α ω : Type} {E : Endpoint δ ν ρ α ω}

lemma triple_eq_some {a : α} {req : ρ} {key : String} (hroute : E.route a = .ok req)
    (hkey : E.key a = some key) :
    E.triple a = some (E.principal, E.routes.operation req, key) := by
  simp [triple, hroute, hkey, Except.toOption]

theorem server_lawful (hE : E.Faithful) (hR : E.routes.RepliesStored) : E.server.Lawful where
  others h hdone := by
    obtain ⟨t, ht, hmem⟩ := hdone
    refine ⟨t, ht, ?_⟩
    obtain ⟨headers, sample, req, h⟩ | ⟨cutoffAt, now, picked, h⟩ | ⟨tables, h⟩ := h
    · exact mem_effects_mutate h hmem
    · rw [h]
      exact hmem
    · rw [h]
      exact hmem
  serve h hdone := by
    obtain ⟨t, ht, hmem⟩ := hdone
    refine ⟨t, ht, ?_⟩
    cases h with
    | refused => exact hmem
    | served hroute hkey hprincipal h => exact mem_effects_mutate (congrArg Prod.fst h).symm hmem
  confirmed h hv := by
    cases h with
    | refused h hr =>
      obtain ⟨data, hdata⟩ := hE.confirmed hr hv
      exact absurd hdata (by simp)
    | served hroute hkey hprincipal h hr =>
      obtain ⟨data, rfl⟩ := hE.confirmed hr hv
      obtain ⟨actor, hactor, hmem⟩ :=
        mem_effects_of_ok hR (MutationDb.Stored.toReceipted (Subtype.property _)) h
      rw [hprincipal actor hactor] at hmem
      exact ⟨_, triple_eq_some hroute hkey, hmem⟩
  rejected h hv hdone := by
    cases h with
    | refused => exact hdone
    | served hroute hkey hprincipal h hr =>
      obtain ⟨e, rfl⟩ := hE.rejected hr hv
      obtain ⟨t, ht, hmem⟩ := hdone
      rw [effects_of_error h] at hmem
      exact ⟨t, ht, hmem⟩

end Lawful

end Endpoint

end AgentCoordinator
