import AgentCoordinator.Library.Refusals
import AgentCoordinator.Transport.Adapter
import AgentCoordinator.Transport.Claims
import AgentCoordinator.Transport.Cli
import AgentCoordinator.Transport.Endpoint

/-
What becomes of a mutation that a client sends.

A client that crashes, whose requests are late or whose answers are lost, neither repeats a
mutation nor loses track of one: what it sent and has no verdict on is what its journal holds as
pending. A refusal may concern a request that came after the one with the effect, so a call that
was sent twice may have an effect although it was refused in the end.
-/

namespace AgentCoordinator

open Guarded Outbox Crash

/-! ### Any client -/

namespace Endpoint

section Accounts

variable {δ ν ρ α ω τ : Type} [DecidableEq α] {E : Endpoint δ ν ρ α ω} {J : Journal τ α}

/-- What is known of the mutations of a client. -/
structure Accounted (E : Endpoint δ ν ρ α ω) (J : Journal τ α)
    (w : World (ReceiptedDb δ ν) τ α ω) : Prop where
  /-- The database contains no mutation twice. -/
  effects : w.server.1.effects.Nodup
  /-- No two requests have the effect of one call. -/
  once : w.performed.Nodup
  performed : ∀ a ∈ w.performed, ∃ t, E.triple a = some t ∧ t ∈ w.server.1.effects
  confirmed : ∀ a ∈ w.confirmed, ∃ t, E.triple a = some t ∧ t ∈ w.server.1.effects
  /-- What was sent is settled, or pending in the journal. -/
  settled : ∀ a ∈ w.sent, a ∈ w.confirmed ∨ a ∈ w.rejected ∨ J.pending w.disk = some a
  /-- A call that was sent once and is refused has no effect. -/
  rejected : ∀ a ∈ w.rejected, w.sent.count a ≤ 1 → a ∉ w.performed

/-- The mutations of any client whose journal is lawful are accounted for. -/
theorem accounted_of_lawful (hJ : J.Lawful) (hE : E.Faithful) (hR : E.routes.RepliesStored)
    {x : World (ReceiptedDb δ ν) τ α ω × Stage τ α}
    (h : (client J E.server).Reachable New x) : E.Accounted J x.1 := by
  have hsound := sound hJ (server_lawful hE hR) h
  exact {
    effects := x.1.server.2.distinct
    once := hsound.effective.once
    performed := hsound.effective.performed
    confirmed := hsound.effective.confirmed
    settled := fun a ha => or_assoc.1 (hsound.disk.settled a ha)
    rejected := fun a ha honce => hsound.not_performed ha honce }

end Accounts

end Endpoint

/-! ### An update of the rules -/

/-- Updates of the rules answer from stored results only. -/
lemma plainRoutes_repliesStored : plainRoutes.RepliesStored := by
  intro tables m req data h
  simp only [plainRoutes, policyRoutes, policyHandler, bind_eq_ok] at h
  obtain ⟨current, -, -, -, -, -, h⟩ := h
  cases hreplay : m.replay with
  | some data => simp
  | none =>
    simp only [hreplay, bind_eq_ok, pure_eq_ok] at h
    obtain ⟨_, _, _, _, h⟩ := h
    exact absurd h (by simp)

/-- An agent sets the rules. -/
def setsRules : PolicyRequest := rulesRequest (Scenario.agent 2) 1 true

/-- The service before. -/
def beforeRules : ReceiptedDb Db Project :=
  ⟨delegated.db, ⟨⟨rfl, .nil⟩, fun _ h => absurd h (List.not_mem_nil)⟩⟩

/-- The service that has set the rules under a key. -/
def afterRules (key : String) : ReceiptedDb Db Project :=
  ⟨(mutate plainRoutes delegated.db [key] (quietly 2000) setsRules).1,
    Endpoint.mutate_stored beforeRules.2⟩

/-- The answer of the service. -/
def rulesAnswer (key : String) : Except AppError Project :=
  (mutate plainRoutes delegated.db [key] (quietly 2000) setsRules).2

lemma rules_mutate (key : String) : mutate plainRoutes beforeRules.1 [key] (quietly 2000) setsRules
    = ((afterRules key).1, rulesAnswer key) := rfl

/-- The agent is the principal of the update. -/
lemma rulesPrincipal (actor : Actor) (h : plainRoutes.admits
    (plainRoutes.clock beforeRules.1.tables (quietly 2000)) (quietly 2000) setsRules
      = .ok actor) : actor.id = 2 := by
  have hall : (plainRoutes.admits (plainRoutes.clock beforeRules.1.tables (quietly 2000))
      (quietly 2000) setsRules).toOption.all (fun actor : Actor => decide (actor.id = 2))
        = true := by decide +kernel
  rw [toOption_eq_some.2 h, Option.all_some] at hall
  exact of_decide_eq_true hall

/-! ### The adapter -/

namespace Adapter

section Journal

variable {s s' : State} {params asked : ToolCall} {tools : String → Option Tool}
  {identity : String}

lemma prepare_ok (h : s.prepare params = .ok s') : ∃ key, params.key = some key ∧
    (∀ p ∈ s.pending, p = key) ∧ (∀ saved ∈ s.requests key, saved = params) ∧
    s' = { s with
      requests := Function.update s.requests key (some params)
      pending := some key } := by
  simp only [State.prepare, bind_eq_ok, okOr_eq_ok, refuseIf_eq_ok, pure_eq_ok] at h
  obtain ⟨arguments, harguments, key, hkey, -, -, -, hpending, -, hsaved, rfl⟩ := h
  refine ⟨key, by simp [ToolCall.key, harguments, hkey], fun p hp => ?_, fun saved hs => ?_, rfl⟩
  · rw [Option.mem_def.1 hp] at hpending
    simpa using hpending
  · rw [Option.mem_def.1 hs] at hsaved
    simpa using hsaved

lemma complete_ok (h : s.complete = .ok s') : ∃ key, s.pending = some key ∧
    s' = { s with pending := none, lastCompleted := some key } := by
  simp only [State.complete, bind_eq_ok, okOr_eq_ok, pure_eq_ok] at h
  obtain ⟨key, hkey, rfl⟩ := h
  exact ⟨key, hkey, rfl⟩

/-- A call that is dispatched was prepared. -/
lemma handle_mutation (h : handle tools s asked = .ok (.mutation params s')) :
    s.prepare params = .ok s' := by
  unfold handle at h
  split at h
  · simp only [handleLocal, bind_eq_ok] at h
    obtain ⟨_, -, h⟩ := h
    split at h
    · exact absurd (pure_eq_ok.1 h) (by simp)
    · simp only [bind_eq_ok, pure_eq_ok, Handling.mutation.injEq] at h
      obtain ⟨pending, -, saved, hsaved, rfl, rfl⟩ := h
      exact hsaved
  · simp only [handleRemote, bind_eq_ok] at h
    obtain ⟨tool, -, h⟩ := h
    split at h
    · exact absurd (pure_eq_ok.1 h) (by simp)
    split at h
    · exact absurd (pure_eq_ok.1 h) (by simp)
    · simp only [handleMutation, bind_eq_ok, pure_eq_ok, Handling.mutation.injEq] at h
      obtain ⟨-, -, saved, hsaved, rfl, rfl⟩ := h
      exact hsaved

lemma pendingRequest_prepare (h : s.prepare params = .ok s') :
    s'.pendingRequest = some params := by
  obtain ⟨key, -, -, -, rfl⟩ := prepare_ok h
  simp [State.pendingRequest]

theorem journal_lawful : journal.Lawful where
  prepare h := by
    obtain ⟨tools, asked, h⟩ := h
    have hprepare := handle_mutation h
    refine ⟨?_, pendingRequest_prepare hprepare, ?_⟩
    · obtain ⟨key, -, hpending, hsaved, -⟩ := prepare_ok hprepare
      change State.pendingRequest _ = none ∨ State.pendingRequest _ = _
      unfold State.pendingRequest
      cases hp : State.pending _ with
      | none => exact .inl rfl
      | some p =>
        obtain rfl := hpending p hp
        rw [Option.bind_some]
        rcases hr : State.requests _ p with - | saved
        · exact .inl rfl
        · exact .inr (congrArg some (hsaved saved hr))
    · obtain ⟨key, hkey, -, -, rfl⟩ := prepare_ok hprepare
      exact ⟨key, hkey, Function.update_self ..⟩
  complete h := by
    obtain ⟨key, -, rfl⟩ := complete_ok h
    rfl
  prepare_saved h hsaved := by
    obtain ⟨tools, asked, h⟩ := h
    obtain ⟨key, -, -, hkept, rfl⟩ := prepare_ok (handle_mutation h)
    obtain ⟨key', hkey', hsaved⟩ := hsaved
    refine ⟨key', hkey', ?_⟩
    by_cases hsame : key' = key
    · subst hsame
      rw [hkept _ hsaved]
      exact Function.update_self ..
    · exact (Function.update_of_ne hsame ..).trans hsaved
  complete_saved h hsaved := by
    obtain ⟨key, -, rfl⟩ := complete_ok h
    exact hsaved
  resumed h := absurd h id

/-- The file of a journal can be opened again. -/
def Readable (identity : String) (s : State) : Prop := openJournal identity (some s) = .ok s

lemma readable_iff : Readable identity s ↔ s.version = 1 ∧ s.binding = identity ∧
    ∀ key ∈ s.pending, ∃ params, s.requests key = some params := by
  have hpending : ¬ s.pending.any (fun key => (s.requests key).isNone) = true ↔
      ∀ key ∈ s.pending, ∃ params, s.requests key = some params := by
    cases s.pending with
    | none => simp
    | some key => simp [Option.ne_none_iff_exists']
  rw [← hpending, Readable, openJournal]
  simp only [bind_eq_ok, refuseIf_eq_ok, pure_eq_ok]
  constructor
  · rintro ⟨-, hsame, -, hreference, -⟩
    exact ⟨not_not.1 fun h => hsame (.inl h), not_not.1 fun h => hsame (.inr h), hreference⟩
  · rintro ⟨hversion, hbinding, hreference⟩
    exact ⟨⟨⟩, fun h => h.elim (absurd hversion) (absurd hbinding), ⟨⟩, hreference, trivial⟩

lemma readable_new : Readable identity (.new identity) :=
  readable_iff.2 ⟨rfl, rfl, fun _ h => absurd h (by simp [State.new])⟩

lemma readable_prepare (h : Readable identity s) (hprepare : s.prepare params = .ok s') :
    Readable identity s' := by
  obtain ⟨hversion, hbinding, -⟩ := readable_iff.1 h
  obtain ⟨key, -, -, -, rfl⟩ := prepare_ok hprepare
  refine readable_iff.2 ⟨hversion, hbinding, fun k hk => ⟨params, ?_⟩⟩
  obtain rfl := Option.some.inj hk
  exact Function.update_self ..

lemma readable_complete (h : Readable identity s) (hcomplete : s.complete = .ok s') :
    Readable identity s' := by
  obtain ⟨hversion, hbinding, -⟩ := readable_iff.1 h
  obtain ⟨key, -, rfl⟩ := complete_ok hcomplete
  exact readable_iff.2 ⟨hversion, hbinding, fun _ hk => absurd hk (by simp)⟩

end Journal

section Verdicts

variable {s s' : State} {params : ToolCall} {r : Response} {shown : ToolResult}

/-- The journal is completed by the answers that settle a call, and by no others. -/
theorem dispatch_ok (h : dispatch s params r = .ok (s', shown)) :
    (verdict params r = .unsettled ∧ s' = s) ∨
      (verdict params r ≠ .unsettled ∧ s.complete = .ok s') := by
  cases r with
  | error =>
    simp only [dispatch, pure_eq_ok, Prod.mk.injEq] at h
    exact .inl ⟨rfl, h.1.symm⟩
  | result r =>
    simp only [dispatch] at h
    split at h
    · rename_i hsettled
      simp only [bind_eq_ok, refuseIf_eq_ok, pure_eq_ok, Prod.mk.injEq] at h
      obtain ⟨-, hcontent, saved, hsaved, rfl, -⟩ := h
      refine .inr ⟨?_, hsaved⟩
      rw [verdict, if_neg hcontent]
      rcases hsettled with hsuccess | hrejected
      · simp [hsuccess]
      · rw [if_pos hrejected]
        split <;> simp
    · rename_i hunsettled
      rw [not_or] at hunsettled
      simp only [pure_eq_ok, Prod.mk.injEq] at h
      refine .inl ⟨?_, h.1.symm⟩
      rw [verdict, if_neg hunsettled.1, if_neg hunsettled.2, ite_self]

end Verdicts

/-- The endpoint of an adapter, whose tools are routes of the service. -/
def endpoint {δ ν ρ : Type} (R : Routes δ ν ρ) (principal : Id)
    (route : ToolCall → Except AppError ρ) : Endpoint δ ν ρ ToolCall Response where
  routes := R
  principal := principal
  route := route
  key := ToolCall.key
  answered := Answered
  verdict := verdict

section Delivery

variable {δ ν ρ : Type} {R : Routes δ ν ρ} {principal : Id} {route : ToolCall → Except AppError ρ}
  {identity : String}

lemma endpoint_faithful : (endpoint R principal route).Faithful where
  confirmed := by
    intro a out r hr hv
    obtain rfl | rfl | rfl := hr
    · cases out with
      | ok data => exact ⟨data, rfl⟩
      | error e =>
        simp only [endpoint, verdict, responseResult] at hv
        split_ifs at hv
    · simp only [endpoint, verdict, uncertainOutputError] at hv
      split_ifs at hv
    · simp [endpoint, verdict] at hv
  rejected := by
    intro a out r hr hv
    obtain rfl | rfl | rfl := hr
    · cases out with
      | ok data => simp [endpoint, verdict, responseResult] at hv
      | error e => exact ⟨e, rfl⟩
    · simp [endpoint, verdict, uncertainOutputError, rejectedClaim, rejectionCodes] at hv
    · simp [endpoint, verdict] at hv

/-- An adapter that starts with a new journal. -/
structure Starts (identity : String) (w : World (ReceiptedDb δ ν) State ToolCall Response) :
    Prop where
  new : New w
  disk : w.disk = .new identity

/-- Whatever happens to the adapter and its requests, the mutations it sent are accounted for, the
exact parameters of each are saved under its key, and the journal can be opened again. -/
theorem adapter_accounted (hR : R.RepliesStored)
    {x : World (ReceiptedDb δ ν) State ToolCall Response × Stage State ToolCall}
    (h : (client journal (endpoint R principal route).server).Reachable (Starts identity) x) :
    (endpoint R principal route).Accounted journal x.1 ∧
      (∀ a ∈ x.1.sent, ∃ key, a.key = some key ∧ x.1.disk.requests key = some a) ∧
      Readable identity x.1.disk := by
  obtain ⟨w, hw, hrun⟩ := h
  have hdisk : Readable identity w.disk := by
    rw [hw.disk]
    exact readable_new
  have hnew : (client journal (endpoint R principal route).server).Reachable New x :=
    ⟨w, hw.new, hrun⟩
  refine ⟨Endpoint.accounted_of_lawful journal_lawful endpoint_faithful hR hnew,
    (sound journal_lawful (Endpoint.server_lawful endpoint_faithful hR) hnew).disk.saved,
    disk_invariant (P := Readable identity) (fun hs h => ?_) (fun hs h => readable_complete hs h)
      ⟨w, hdisk, hrun⟩⟩
  obtain ⟨tools, asked, h⟩ := h
  exact readable_prepare hs (handle_mutation h)

end Delivery

/-- The host sets the rules. -/
def rulesCall : ToolCall where
  name := "coordinator_policy_update"
  arguments := .object [("idempotency_key", .string "first-rules-update")]
  rest := "\x7b\x7d"

/-- The endpoint whose tools all set the rules. -/
def rulesEndpoint : Endpoint Db Project PolicyRequest ToolCall Response :=
  endpoint plainRoutes 2 fun _ => .ok setsRules

/-- The tool that sets the rules. -/
def rulesTool (_ : String) : Option Tool :=
  some ⟨some ["body", "idempotency_key"], some [some "idempotency_key"], true, false⟩

/-- The journal once the call is saved. -/
def rulesSaved : State :=
  { State.new "identity" with
    pending := some "first-rules-update"
    requests := Function.update (fun _ => none) "first-rules-update" (some rulesCall) }

set_option maxRecDepth 20000 in
/-- The adapter crashes before it hears that the rules are set. -/
theorem adapter_accounted_crashed : ∃ w : World (ReceiptedDb Db Project) State ToolCall Response,
    (client journal rulesEndpoint.server).Reachable (Starts "identity") (w, .down) ∧
      w.performed = [rulesCall] ∧ w.disk.pendingRequest = some rulesCall ∧
      rulesEndpoint.Accounted journal w := by
  have hsave : handle rulesTool (.new "identity") rulesCall
      = .ok (.mutation rulesCall rulesSaved) := rfl
  have hserve : rulesEndpoint.Serves beforeRules rulesCall (afterRules "first-rules-update")
      (.result (responseResult (rulesAnswer "first-rules-update"))) :=
    .served rfl rfl rulesPrincipal (rules_mutate "first-rules-update") (.inl rfl)
  have hdone : (2, "PATCH /api/v1/projects/1/policy", "first-rules-update")
      ∈ (afterRules "first-rules-update").1.effects := by decide +kernel
  have hreachable : (client journal rulesEndpoint.server).Reachable (Starts "identity")
      (⟨afterRules "first-rules-update", rulesSaved, [rulesCall],
        [⟨0, rulesCall, .result (responseResult (rulesAnswer "first-rules-update")), true⟩], ∅,
        ∅ \ {rulesCall}⟩, .down) := by
    have hstart : Starts "identity"
        (⟨beforeRules, .new "identity", [], [], ∅, ∅⟩ : World _ _ _ Response) :=
      ⟨⟨rfl, rfl, rfl, rfl⟩, rfl⟩
    have hopened := reachable_work (J := journal) (S := rulesEndpoint.server)
      (Program.ReachableBy.start hstart) .opened
    have hsent := reachable_work (reachable_work hopened (.prepared ⟨rulesTool, rulesCall, hsave⟩))
      .sent
    refine reachable_crash (reachable_others hsent (.served rfl (by simp [World.send]) hserve ?_))
    refine ⟨fun _ => ⟨?_, ⟨_, rfl, hdone⟩⟩, fun _ => rfl⟩
    rintro ⟨t, -, ht⟩
    exact absurd ht (List.not_mem_nil)
  refine ⟨_, hreachable, ?_, rfl, (adapter_accounted plainRoutes_repliesStored hreachable).1⟩
  rfl

end Adapter

/-! ### Rejected claims -/

namespace Adapter

/-- The error is none that the adapter drops a claim for. -/
def Kept (e : AppError) : Prop := e.code ∉ rejectionCodes

instance (e : AppError) : Decidable (Kept e) := by unfold Kept; infer_instance

section Rejections

variable {δ ν ρ : Type} {R : Routes δ ν ρ} {db db' : MutationDb δ ν} {sample : ClockSample}
  {req : ρ} {key : String} {principal : Id}

/-- Claims are only dropped for what is checked once it is known that there is no stored result. -/
structure ChecksReceiptFirst (R : Routes δ ν ρ) : Prop where
  validate : ∀ req, RefusesWith Kept (R.validate req)
  admits : ∀ tables sample req, RefusesWith Kept (R.admits tables sample req)
  handle : ∀ tables m req, m.replay ≠ none → RefusesWith Kept (R.handle tables m req)

lemma loadReceipt_kept {now : Time} {triple : MutationTriple} {fingerprint : String} :
    RefusesWith Kept (loadReceipt db now triple fingerprint) := by
  unfold loadReceipt
  split
  · exact refusesWith_pure
  · refine (refusesWith_refuseIf fun _ => by decide).bind fun _ _ => ?_
    refine (refusesWith_refuseIf fun _ => by decide).bind fun _ _ => ?_
    refine (refusesWith_refuseIf fun _ => by decide).bind fun _ _ => ?_
    exact (refusesWith_refuseIf fun _ => by decide).bind fun _ _ => refusesWith_pure

/-- The stored result of a mutation that the database contains. -/
lemma loadReceipt_stored (hdb : db.Stored) {now : Time} {triple : MutationTriple}
    {fingerprint : String} {replay : Option ν} (hmem : triple ∈ db.effects)
    (h : loadReceipt db now triple fingerprint = .ok replay) : replay ≠ none := by
  obtain ⟨r, hr⟩ : ∃ r, db.receipts.find? (fun r => r.triple = triple) = some r := by
    obtain ⟨r, hr, htriple⟩ := List.mem_map.1 (hdb.effects ▸ hmem)
    exact Option.isSome_iff_exists.1 (List.find?_isSome.2 ⟨r, hr, by simpa using htriple⟩)
  rcases loadReceipt_found now fingerprint hr with ⟨hfresh, hresult⟩ | ⟨-, _, _, herror⟩
  · obtain rfl := Except.ok.inj (hresult.symm.trans h)
    exact hdb.result r (List.mem_of_find?_eq_some hr) hfresh.compactedAt
  · rw [h] at herror
    exact absurd herror (by simp)

lemma transact_kept (hR : ChecksReceiptFirst R) (hdb : db.Stored)
    (hprincipal : ∀ actor, R.admits (R.clock db.tables sample) sample req = .ok actor →
      actor.id = principal)
    (hmem : (principal, R.operation req, key) ∈ db.effects) :
    RefusesWith Kept (transact R db sample key req).2 := by
  unfold transact
  split
  · exact refusesWith_error (by decide)
  split
  · rename_i e hbegin
    refine refusesWith_error ?_
    have hkept : RefusesWith Kept (beginMutation R db sample key req) :=
      RefusesWith.bind (hR.admits _ _ _) fun _ _ => loadReceipt_kept.bind fun _ _ =>
        refusesWith_pure
    exact hkept e hbegin
  · rename_i m hbegin
    split
    · rename_i e hrun
      refine refusesWith_error ?_
      obtain ⟨actor, hactor⟩ : ∃ actor,
          R.admits (R.clock db.tables sample) sample req = .ok actor := by
        simp only [beginMutation, bind_eq_ok] at hbegin
        obtain ⟨actor, hactor, -⟩ := hbegin
        exact ⟨actor, hactor⟩
      obtain ⟨-, -, hload⟩ := beginMutation_ok hactor hbegin
      have hreplay : m.replay ≠ none :=
        loadReceipt_stored hdb (hprincipal actor hactor ▸ hmem) hload
      have hkept : RefusesWith Kept (runHandler R db sample m req) := by
        refine RefusesWith.bind (hR.handle _ m req hreplay) fun outcome _ => ?_
        cases outcome with
        | reply => exact refusesWith_pure
        | finish =>
          refine RefusesWith.bind ?_ fun _ _ => refusesWith_pure
          exact (refusesWith_refuseIf fun _ => by decide).bind fun _ _ => refusesWith_pure
      exact hkept e hrun
    · exact refusesWith_ok

/-- A mutation that the database contains is not refused with an error that drops a claim. -/
theorem mutate_kept (hR : ChecksReceiptFirst R) (hdb : db.Stored)
    (hprincipal : ∀ actor, R.admits (R.clock db.tables sample) sample req = .ok actor →
      actor.id = principal)
    (hmem : (principal, R.operation req, key) ∈ db.effects) :
    RefusesWith Kept (mutate R db [key] sample req).2 := by
  unfold mutate
  split
  · rename_i e he
    exact refusesWith_error (hR.validate req e he)
  split
  · rename_i e he
    refine refusesWith_error ?_
    have hkept : RefusesWith Kept (mutationKey [key]) :=
      (refusesWith_refuseIf fun _ => by decide).bind fun _ _ => refusesWith_pure
    exact hkept e he
  · rename_i key' hkey
    simp only [mutationKey, bind_eq_ok, pure_eq_ok] at hkey
    obtain ⟨-, -, rfl⟩ := hkey
    exact transact_kept hR hdb hprincipal hmem

end Rejections

/-! Claims -/

section Claims

variable {digest : Fingerprinted → String} {principal : Id}
  {route : ToolCall → Except AppError ClaimRequest} {identity : String}

lemma refreshClaim_kept {s : Db} {project : Id} {v : ClaimData} :
    RefusesWith Kept (refreshClaim s project v) := by
  unfold refreshClaim
  split
  · exact refusesWith_pure
  · refine RefusesWith.bind ?_ fun a _ => RefusesWith.bind ?_ fun t _ => refusesWith_pure
    · exact (refusesWith_okOr (by decide)).bind fun _ _ =>
        (refusesWith_refuseIf fun _ => by decide).bind fun _ _ => refusesWith_pure
    · exact (refusesWith_okOr (by decide)).bind fun _ _ =>
        (refusesWith_refuseIf fun _ => by decide).bind fun _ _ => refusesWith_pure

lemma begin_kept {s : Db} {auth : Auth} {req : Request} :
    RefusesWith Kept (AgentCoordinator.begin s auth req) := by
  have hverify : RefusesWith Kept (auth.verify s.ext s.now) := by
    cases auth with
    | bearer =>
      refine (refusesWith_okOr (by decide)).bind fun _ _ => ?_
      refine (refusesWith_okOr (by decide)).bind fun _ _ => ?_
      refine (refusesWith_refuseIf fun _ => by decide).bind fun _ _ => ?_
      exact (refusesWith_refuseIf fun _ => by decide).bind fun _ _ => refusesWith_pure
    | browser =>
      refine (refusesWith_okOr (by decide)).bind fun _ _ => ?_
      refine (refusesWith_okOr (by decide)).bind fun _ _ => ?_
      exact (refusesWith_refuseIf fun _ => by decide).bind fun _ _ => refusesWith_pure
  refine hverify.bind fun _ _ => ?_
  refine (refusesWith_refuseIf fun _ => by decide).bind fun _ _ => ?_
  refine (refusesWith_refuseIf fun _ => by decide).bind fun _ _ => ?_
  refine (refusesWith_refuseIf fun _ => by decide).bind fun _ _ => ?_
  exact (refusesWith_refuseIf fun _ => by decide).bind fun _ _ => refusesWith_pure

/-- A claim looks for its stored result before it checks the policy or the task. -/
theorem claimRoutes_checksReceiptFirst : ChecksReceiptFirst (claimRoutes digest) where
  validate _ := refusesWith_refuseIf fun _ => by decide
  admits _ _ _ := begin_kept
  handle tables m req hreplay := by
    refine (refusesWith_okOr (by decide)).bind fun _ _ => ?_
    refine (refusesWith_okOr (by decide)).bind fun _ _ => ?_
    cases h : m.replay with
    | none => exact absurd h hreplay
    | some v => exact refreshClaim_kept.bind fun _ _ => refusesWith_pure

lemma claimRoutes_repliesStored : (claimRoutes digest).RepliesStored := by
  intro tables m req data h
  simp only [claimRoutes, claimHandler, bind_eq_ok] at h
  obtain ⟨_, -, _, -, h⟩ := h
  cases hreplay : m.replay with
  | some v => simp
  | none =>
    simp only [hreplay, bind_eq_ok, pure_eq_ok] at h
    obtain ⟨_, _, h⟩ := h
    exact absurd h (by simp)

/-- A claim that is dropped has no effect yet. -/
lemma claims_refuses : (endpoint (claimRoutes digest) principal route).server.Refuses := by
  intro s s' a r h hv hdone
  obtain ⟨t, ht, hmem⟩ := hdone
  cases h with
  | refused hroute hr =>
    simp only [Endpoint.triple, Option.bind_eq_bind, Option.bind_eq_some_iff] at ht
    obtain ⟨req, hreq, -⟩ := ht
    rw [toOption_eq_some, hroute] at hreq
    exact absurd hreq (by simp)
  | served hroute hkey hprincipal h hr =>
    obtain ⟨e, rfl⟩ := endpoint_faithful.rejected hr hv
    rw [Endpoint.triple_eq_some hroute hkey] at ht
    obtain rfl := Option.some.inj ht
    rw [Endpoint.effects_of_error h] at hmem
    have hkept := mutate_kept claimRoutes_checksReceiptFirst (Subtype.property _) hprincipal hmem e
      (congrArg Prod.snd h)
    obtain rfl | rfl | rfl := hr
    · refine hkept ?_
      have hverdict : verdict a (.result ⟨true, true, true, some e.code⟩) = .rejected := hv
      have hdropped : rejectedClaim a ⟨true, true, true, some e.code⟩ = true := by
        by_contra hnot
        simp [verdict, hnot] at hverdict
      simp only [rejectedClaim, Bool.and_eq_true] at hdropped
      simpa using hdropped.2
    · simp [Endpoint.server, endpoint, verdict, uncertainOutputError, rejectedClaim,
        rejectionCodes] at hv
    · simp [Endpoint.server, endpoint, verdict] at hv

/-- When the service rejects a claim in a way that the adapter drops it for, neither that request
nor one that was served before has granted it. -/
theorem rejected_claim_not_granted
    {x : World (ReceiptedDb Db ClaimData) State ToolCall Response × Stage State ToolCall}
    (h : (client journal (endpoint (claimRoutes digest) principal route).server).Reachable
      (Starts identity) x) {l l' : List (Outbox.Service ToolCall Response)}
    {e : Outbox.Service ToolCall Response} (hserved : x.1.served = l ++ e :: l')
    (hrejected : verdict e.call e.answer = .rejected) :
    ∀ e' ∈ l ++ [e], e'.call = e.call → e'.performed = false := by
  obtain ⟨w, hw, hrun⟩ := h
  have hnew : (client journal (endpoint (claimRoutes digest) principal route).server).Reachable
      New x := ⟨w, hw.new, hrun⟩
  have hlawful := Endpoint.server_lawful (E := endpoint (claimRoutes digest) principal route)
    endpoint_faithful claimRoutes_repliesStored
  intro e' he' hcall
  rcases List.mem_append.1 he' with hbefore | hself
  · have hfirst := refusedFirst journal_lawful hlawful claims_refuses hnew
    rw [RefusedFirst, hserved, List.pairwise_append] at hfirst
    exact hfirst.2.2 e' hbefore e (List.mem_cons_self ..) hrejected hcall
  · obtain rfl := List.mem_singleton.1 hself
    exact (sound journal_lawful hlawful hnew).effective.refused e' (by simp [hserved]) hrejected

/-- The code of a refusal. -/
def refusalCode {ν : Type} : Except AppError ν → Option String
  | .error e => some e.code
  | .ok _ => none

/-- An agent claims work under a policy that is no longer the project's. -/
def staleClaim : ClaimRequest where
  auth := Scenario.agent 2
  project := 1
  input := ⟨.work, none, none, 0, instructionVersion⟩
  proof := none
  body := "0"

/-- The host claims. -/
def claimCall : ToolCall where
  name := "coordinator_claim"
  arguments := .object [("idempotency_key", .string "first-claim-of-work")]
  rest := ""

/-- The endpoint whose tools all claim so. -/
def claimEndpoint : Endpoint Db ClaimData ClaimRequest ToolCall Response :=
  endpoint (claimRoutes plainDigest) 2 fun _ => .ok staleClaim

/-- The service, with nothing claimed. -/
def beforeClaim : ReceiptedDb Db ClaimData :=
  ⟨⟨Scenario.service .agent, "initial", [], [], []⟩,
    ⟨⟨rfl, .nil⟩, fun _ h => absurd h (List.not_mem_nil)⟩⟩

/-- The journal once the claim is saved. -/
def claimSaved : State :=
  { State.new "identity" with
    pending := some "first-claim-of-work"
    requests := Function.update (fun _ => none) "first-claim-of-work" (some claimCall) }

/-- How the claim is answered. -/
def policyChanged : Response := .result ⟨true, true, true, some "policy_changed"⟩

set_option maxRecDepth 20000 in
/-- The adapter hears that the policy has changed, and nothing was granted. -/
theorem rejected_claim_not_granted_stale :
    ∃ w : World (ReceiptedDb Db ClaimData) State ToolCall Response,
      (client journal claimEndpoint.server).Reachable (Starts "identity")
        (w, .waiting claimSaved 0 claimCall) ∧
      ∃ e, w.served = [e] ∧ verdict e.call e.answer = .rejected ∧ e.performed = false := by
  have hsave : handle rulesTool (.new "identity") claimCall
      = .ok (.mutation claimCall claimSaved) := rfl
  have hserve : claimEndpoint.Serves beforeClaim claimCall beforeClaim policyChanged := by
    have hcode : refusalCode (mutate (claimRoutes plainDigest) beforeClaim.1
        ["first-claim-of-work"] (quietly 2000) staleClaim).2 = some "policy_changed" := by
      decide +kernel
    cases h : (mutate (claimRoutes plainDigest) beforeClaim.1 ["first-claim-of-work"]
        (quietly 2000) staleClaim).2 with
    | ok data => simp [h, refusalCode] at hcode
    | error e =>
      rw [h, refusalCode, Option.some.injEq] at hcode
      refine .served rfl rfl (fun actor hactor => ?_) (Endpoint.eq_of_error rfl h) (.inl ?_)
      · have hall : ((claimRoutes plainDigest).admits
            ((claimRoutes plainDigest).clock beforeClaim.1.tables (quietly 2000)) (quietly 2000)
            staleClaim).toOption.all (fun actor : Actor => decide (actor.id = 2)) = true := by
          decide +kernel
        have hactor' : ((claimRoutes plainDigest).admits
            ((claimRoutes plainDigest).clock beforeClaim.1.tables (quietly 2000)) (quietly 2000)
            staleClaim).toOption = some actor := toOption_eq_some.2 hactor
        rw [hactor', Option.all_some] at hall
        exact of_decide_eq_true hall
      · rw [responseResult, hcode]
        rfl
  have hnew : ¬ claimEndpoint.server.done beforeClaim claimCall := by
    rintro ⟨t, -, ht⟩
    exact absurd ht (List.not_mem_nil)
  have hstart : Starts "identity"
      (⟨beforeClaim, .new "identity", [], [], ∅, ∅⟩ : World _ _ _ Response) :=
    ⟨⟨rfl, rfl, rfl, rfl⟩, rfl⟩
  have hopened := reachable_work (J := journal) (S := claimEndpoint.server)
    (Program.ReachableBy.start hstart) .opened
  have hsent := reachable_work (reachable_work hopened (.prepared ⟨rulesTool, claimCall, hsave⟩))
    .sent
  have hserved := reachable_others hsent (.served (n := 0) (b := false) rfl
    (by simp [World.send]) hserve ⟨nofun, fun h => absurd h.2 hnew⟩)
  refine ⟨_, hserved, _, rfl, rfl, ?_⟩
  exact rejected_claim_not_granted hserved (l := []) rfl rfl _ (by simp) rfl

end Claims

end Adapter

/-! ### The command line -/

namespace Cli

section Journal

variable {s s' : SessionState} {desired : PendingMutation}

lemma setPending_ok (h : s.setPending desired = .ok s') :
    (s.pending = none ∧ s' = { s with pending := some desired }) ∨
      (s.pending = some desired ∧ s' = s) := by
  unfold SessionState.setPending at h
  split at h
  · rename_i existing hpending
    simp only [ite_eq_ok, pure_eq_ok, reduceCtorEq, and_false, or_false] at h
    obtain ⟨rfl, rfl⟩ := h
    exact .inr ⟨hpending, rfl⟩
  · rename_i hpending
    exact .inl ⟨hpending, (pure_eq_ok.1 h).symm⟩

/-- What is pending already is not replaced. -/
lemma persist_ok (h : persist s desired = .ok s') : s.pending = none ∨ s' = s := by
  unfold persist at h
  split at h
  · simp only [ite_eq_ok, pure_eq_ok] at h
    obtain ⟨-, rfl⟩ | ⟨-, h⟩ := h
    · exact .inr rfl
    · exact (setPending_ok h).imp And.left And.right
  · exact .inl ‹_›

theorem journal_lawful : journal.Lawful where
  prepare h := by
    obtain ⟨desired, h, hpending⟩ := h
    refine ⟨?_, hpending, trivial⟩
    obtain hnone | rfl := persist_ok h
    · exact .inl hnone
    · exact .inr hpending
  complete h := by
    obtain rfl := h
    rfl
  prepare_saved _ _ := trivial
  complete_saved _ _ := trivial
  resumed _ _ := trivial

/-- The state is cleared by the responses that settle a mutation; a success may be left. -/
theorem sendSavedPolicy_eq (a : PendingMutation) (clearSuccess : Bool) (status : Nat) :
    sendSavedPolicy s clearSuccess status =
      if verdict a status = .rejected ∨ (verdict a status = .confirmed ∧ clearSuccess = true) then
        { s with pending := none }
      else s := by
  unfold sendSavedPolicy verdict
  cases mutationResponseIsDefinitive status <;> cases isSuccess status <;> simp

end Journal

lemma isSuccess_iff {status : Nat} : isSuccess status = true ↔ 200 ≤ status ∧ status < 300 := by
  simp [isSuccess]

/-- The endpoint of a session, whose mutations are routes of the service. -/
def endpoint {δ ν ρ : Type} (R : Routes δ ν ρ) (principal : Id)
    (route : PendingMutation → Except AppError ρ) : Endpoint δ ν ρ PendingMutation Nat where
  routes := R
  principal := principal
  route := route
  key a := some a.key
  answered := Answered
  verdict := verdict

section Delivery

variable {δ ν ρ : Type} {R : Routes δ ν ρ} {principal : Id}
  {route : PendingMutation → Except AppError ρ}

lemma endpoint_faithful : (endpoint R principal route).Faithful where
  confirmed := by
    intro a out status hr hv
    simp only [endpoint, verdict] at hv
    split_ifs at hv with hdefinitive hsuccess
    obtain hr | hr := hr
    · exact absurd hr hdefinitive
    · cases out with
      | ok data => exact ⟨data, rfl⟩
      | error e =>
        have hge : 400 ≤ status := hr.2
        have hlt := (isSuccess_iff.1 hsuccess).2
        omega
  rejected := by
    intro a out status hr hv
    simp only [endpoint, verdict] at hv
    split_ifs at hv with hdefinitive hsuccess
    obtain hr | hr := hr
    · exact absurd hr hdefinitive
    · cases out with
      | ok data => exact absurd hr hsuccess
      | error e => exact ⟨e, rfl⟩

/-- Whatever happens to the commands of a session, the mutations they sent are accounted for. -/
theorem session_accounted (hR : R.RepliesStored)
    {x : World (ReceiptedDb δ ν) SessionState PendingMutation Nat ×
      Stage SessionState PendingMutation}
    (h : (client journal (endpoint R principal route).server).Reachable New x) :
    (endpoint R principal route).Accounted journal x.1 :=
  Endpoint.accounted_of_lawful journal_lawful endpoint_faithful hR h

end Delivery

/-- A command sets the rules. -/
def rulesMutation : PendingMutation where
  key := "rules"
  method := .patch
  path := "/api/v1/projects/1/policy"
  body := "Sign your work."
  includeSessionId := true

/-- The endpoint whose mutations all set the rules. -/
def rulesEndpoint : Endpoint Db Project PolicyRequest PendingMutation Nat :=
  endpoint plainRoutes 2 fun _ => .ok setsRules

set_option maxRecDepth 20000 in
/-- The command exits before its request is served, and the next one sends the mutation again. -/
theorem session_accounted_retried :
    ∃ w : World (ReceiptedDb Db Project) SessionState PendingMutation Nat, ∃ s,
      (client journal rulesEndpoint.server).Reachable New (w, .waiting s 1 rulesMutation) ∧
        w.performed = [rulesMutation] ∧ w.sent = [rulesMutation, rulesMutation] ∧
        rulesEndpoint.Accounted journal w := by
  have hserve : rulesEndpoint.Serves beforeRules rulesMutation (afterRules "rules") 200 := by
    refine .served rfl rfl rulesPrincipal (rules_mutate "rules") (.inr ?_)
    have hok : (rulesAnswer "rules").isOk = true := by decide +kernel
    cases h : rulesAnswer "rules" with
    | ok data => rfl
    | error e => simp [h, Except.isOk, Except.toBool] at hok
  have hdone : (2, "PATCH /api/v1/projects/1/policy", "rules")
      ∈ (afterRules "rules").1.effects := by decide +kernel
  have hreachable : (client journal rulesEndpoint.server).Reachable New
      (⟨afterRules "rules", ⟨"local", some rulesMutation⟩, [rulesMutation, rulesMutation],
        [⟨0, rulesMutation, 200, true⟩], ∅, (∅ \ {rulesMutation}) \ {rulesMutation}⟩,
        .waiting ⟨"local", some rulesMutation⟩ 1 rulesMutation) := by
    have hstart : New
        (⟨beforeRules, ⟨"local", none⟩, [], [], ∅, ∅⟩ : World _ SessionState PendingMutation Nat) :=
      ⟨rfl, rfl, rfl, rfl⟩
    have hopened := reachable_work (J := journal) (S := rulesEndpoint.server)
      (Program.ReachableBy.start hstart) .opened
    have hsaved : journal.prepare ⟨"local", none⟩ rulesMutation ⟨"local", some rulesMutation⟩ :=
      ⟨rulesMutation, rfl, rfl⟩
    have hsent := reachable_work (reachable_work hopened (.prepared hsaved)) .sent
    have hnew : ¬ rulesEndpoint.server.done beforeRules rulesMutation := by
      rintro ⟨t, -, ht⟩
      exact absurd ht (List.not_mem_nil)
    have hserved := reachable_others (reachable_crash hsent)
      (.served (n := 0) (b := true) rfl (by simp [World.send]) hserve
        ⟨fun _ => ⟨hnew, ⟨_, rfl, hdone⟩⟩, fun _ => rfl⟩)
    exact reachable_work (reachable_work (reachable_work hserved .opened) (.resumed trivial rfl))
      .sent
  exact ⟨_, _, hreachable, rfl, rfl, session_accounted plainRoutes_repliesStored hreachable⟩

end Cli

end AgentCoordinator
