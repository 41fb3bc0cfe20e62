import AgentCoordinator.Receipts
import AgentCoordinator.Scenario

/-
At most one effect for each idempotency key.

The receipts of a database name the mutations whose changes it contains, one each, whatever
happens to the database: receipts are compacted but never deleted, and a snapshot brings its
receipts with it. A request whose receipt is there changes nothing, unless it detects an incident
of the clock. It is not always answered with the stored result or a conflict, though: handlers
check the caller's authority first. And a snapshot lacks the mutations that came after it.
-/

namespace AgentCoordinator

open Guarded Transition Scenario

/-! ### One request -/

section Request

variable {δ ν ρ : Type} {R : Routes δ ν ρ} {db db' : MutationDb δ ν} {headers : List String}
  {sample : ClockSample} {req : ρ}

/-- The receipts name the mutations whose changes the database contains, once each. -/
structure MutationDb.Receipted (db : MutationDb δ ν) : Prop where
  effects : db.effects = db.receipts.map Receipt.triple
  distinct : db.effects.Nodup

/-- The receipt stands for the request in its authority epoch, and may still be replayed. -/
structure Receipt.Replays (r : Receipt ν) (authorityEpoch fingerprint : String) (now : Time) :
    Prop where
  authorityEpoch : r.authorityEpoch = authorityEpoch
  fingerprint : r.fingerprint = fingerprint
  compactedAt : r.compactedAt = none
  age : now - r.createdAt ≤ replayWindowMs

/-- A receipt that is found is replayed, or refused with a conflict. -/
lemma loadReceipt_found {triple : MutationTriple} {r : Receipt ν} (now : Time)
    (fingerprint : String) (h : db.receipts.find? (fun r => r.triple = triple) = some r) :
    (r.Replays db.authorityEpoch fingerprint now ∧
      loadReceipt db now triple fingerprint = .ok r.result) ∨
    (¬ r.Replays db.authorityEpoch fingerprint now ∧ ∃ code message,
      loadReceipt db now triple fingerprint = .error (.conflict code message)) := by
  unfold loadReceipt
  simp only [h, refuseIf_bind]
  split
  · rename_i hne
    exact .inr ⟨fun hr => hne hr.authorityEpoch, _, _, rfl⟩
  split
  · rename_i hne
    exact .inr ⟨fun hr => hne hr.fingerprint, _, _, rfl⟩
  split
  · rename_i hne
    exact .inr ⟨fun hr => hne hr.compactedAt, _, _, rfl⟩
  split
  · rename_i hlate
    exact .inr ⟨fun hr => absurd hr.age (not_le.2 hlate), _, _, rfl⟩
  · rename_i hepoch hfingerprint hcompacted hage
    exact .inl ⟨⟨not_not.1 hepoch, not_not.1 hfingerprint, not_not.1 hcompacted, not_lt.1 hage⟩,
      rfl⟩

lemma finish_ok {m : Mutation ν} {tables : δ} {data : ν} {eventData : String} {project : Option Id}
    {kind : String} {record : Id}
    (h : db.finish m tables data eventData project kind record = .ok db') :
    m.triple ∉ db.receipts.map Receipt.triple ∧
      db'.effects = db.effects ++ [m.triple] ∧
      db'.receipts.map Receipt.triple = db.receipts.map Receipt.triple ++ [m.triple] := by
  simp only [MutationDb.finish, bind_eq_ok, refuseIf_eq_ok, pure_eq_ok] at h
  obtain ⟨-, hnew, rfl⟩ := h
  exact ⟨hnew, rfl, by simp [Receipt.triple, Mutation.triple]⟩

/-- A transaction is dropped, commits an incident of the clock, or is finished. -/
lemma transact_cases (R : Routes δ ν ρ) (db : MutationDb δ ν) (sample : ClockSample) (key : String)
    (req : ρ) :
    (transact R db sample key req).1 = db ∨
    (transact R db sample key req).1 = { db with tables := R.clock db.tables sample } ∨
    ∃ m tables data eventData project kind record, db.finish m tables data eventData project kind
      record = .ok (transact R db sample key req).1 := by
  unfold transact
  split
  · exact .inr (.inl rfl)
  split
  · exact .inl rfl
  split
  · exact .inl rfl
  · rename_i m hbegin db' data hrun
    simp only [bind_eq_ok, runHandler] at hrun
    obtain ⟨outcome, -, hrun⟩ := hrun
    cases outcome with
    | reply =>
      obtain ⟨rfl, -⟩ := Prod.mk.inj (pure_eq_ok.1 hrun)
      exact .inl rfl
    | finish =>
      simp only [bind_eq_ok] at hrun
      obtain ⟨db'', hfinish, hrun⟩ := hrun
      obtain ⟨rfl, -⟩ := Prod.mk.inj (pure_eq_ok.1 hrun)
      exact .inr (.inr ⟨_, _, _, _, _, _, _, hfinish⟩)

lemma transact_receipted {key : String} (h : db.Receipted) :
    (transact R db sample key req).1.Receipted := by
  rcases transact_cases R db sample key req with hsame | hclock |
    ⟨m, tables, data, eventData, project, kind, record, hfinish⟩
  · rw [hsame]
    exact h
  · rw [hclock]
    exact ⟨h.effects, h.distinct⟩
  · obtain ⟨hnew, heffects, hreceipts⟩ := finish_ok hfinish
    refine ⟨by rw [heffects, hreceipts, h.effects], ?_⟩
    rw [heffects, List.nodup_append]
    refine ⟨h.distinct, List.nodup_singleton _, fun t ht t' ht' heq => hnew ?_⟩
    rw [← List.mem_singleton.1 ht', ← heq, ← h.effects]
    exact ht

/-- A request keeps the database receipted: what it adds has no receipt yet. -/
theorem mutate_receipted (h : db.Receipted) : (mutate R db headers sample req).1.Receipted := by
  unfold mutate
  split
  · exact h
  split
  · exact h
  · exact transact_receipted h

end Request

/-! ### A request whose changes are there -/

section Retry

variable {δ ν ρ : Type} {R : Routes δ ν ρ} {db : MutationDb δ ν} {headers : List String}
  {sample : ClockSample} {req : ρ} {actor : Actor} {key : String}

/-- How a request is answered whose changes the database contains. -/
structure MutationDb.Answers (db : MutationDb δ ν) (R : Routes δ ν ρ) (headers : List String)
    (sample : ClockSample) (req : ρ) (actor : Actor) (key : String) : Prop where
  /-- A detected incident is committed, and the request refused. -/
  detected : sample.incidentDetected = true → mutate R db headers sample req
    = ({ db with tables := R.clock db.tables sample }, .error clockReconciliationError)
  /-- Otherwise nothing changes. -/
  unchanged : sample.incidentDetected = false → (mutate R db headers sample req).1 = db
  /-- Some receipt stands for it. If it may not be replayed, the request is refused with a conflict;
  if it may, the handler answers from the stored result, or refuses. -/
  receipt : sample.incidentDetected = false → ∃ r ∈ db.receipts,
    r.triple = (actor.id, R.operation req, key) ∧
    (¬ r.Replays db.authorityEpoch (R.digest ((R.kind req).fingerprinted db.authorityEpoch
        (R.input req) actor)) sample.now →
      ∃ code message, (mutate R db headers sample req).2 = .error (.conflict code message)) ∧
    ∀ data, (mutate R db headers sample req).2 = .ok data →
      r.Replays db.authorityEpoch (R.digest ((R.kind req).fingerprinted db.authorityEpoch
        (R.input req) actor)) sample.now ∧
      ∃ m : Mutation ν, m.replay = r.result ∧ m.actor = actor ∧
        R.handle (R.clock db.tables sample) m req = .ok (.reply data)

/-- The open transaction of a request that was let through. -/
lemma beginMutation_ok {m : Mutation ν}
    (hcaller : R.admits (R.clock db.tables sample) sample req = .ok actor)
    (h : beginMutation R db sample key req = .ok m) :
    m.actor = actor ∧ m.triple = (actor.id, R.operation req, key) ∧
      loadReceipt db sample.now (actor.id, R.operation req, key) (R.digest
        ((R.kind req).fingerprinted db.authorityEpoch (R.input req) actor)) = .ok m.replay := by
  simp only [beginMutation, bind_eq_ok, pure_eq_ok] at h
  obtain ⟨actor', hactor, replay, hreplay, rfl⟩ := h
  obtain rfl := Except.ok.inj (hcaller.symm.trans hactor)
  exact ⟨rfl, rfl, hreplay⟩

/-- A request whose changes the database contains is answered without another. -/
theorem MutationDb.Receipted.answers (h : db.Receipted) (hvalid : R.validate req = .ok ())
    (hkey : mutationKey headers = .ok key)
    (hcaller : R.admits (R.clock db.tables sample) sample req = .ok actor)
    (hmem : (actor.id, R.operation req, key) ∈ db.effects) :
    db.Answers R headers sample req actor key := by
  have hmutate : mutate R db headers sample req = transact R db sample key req := by
    simp only [mutate, hvalid, hkey]
  obtain ⟨r, hr⟩ : ∃ r, db.receipts.find?
      (fun r => r.triple = (actor.id, R.operation req, key)) = some r := by
    obtain ⟨r, hr, htriple⟩ := List.mem_map.1 (h.effects ▸ hmem)
    exact Option.isSome_iff_exists.1 (List.find?_isSome.2 ⟨r, hr, by simpa using htriple⟩)
  have htriple : r.triple = (actor.id, R.operation req, key) := by simpa using List.find?_some hr
  refine ⟨fun hdetected => ?_, fun hquiet => ?_, fun hquiet =>
    ⟨r, List.mem_of_find?_eq_some hr, htriple, fun hstale => ?_, fun data hdata => ?_⟩⟩
  · rw [hmutate, transact, if_pos hdetected]
  · rw [hmutate, transact, if_neg (by simp [hquiet])]
    split
    · rfl
    split
    · rfl
    · -- a handler that finishes meets the receipt's primary key
      rename_i m hbegin _ db' data hrun
      simp only [bind_eq_ok, runHandler] at hrun
      obtain ⟨outcome, -, hrun⟩ := hrun
      cases outcome with
      | reply => exact (Prod.mk.inj (pure_eq_ok.1 hrun)).1.symm
      | finish =>
        simp only [bind_eq_ok] at hrun
        obtain ⟨db'', hfinish, -⟩ := hrun
        refine absurd ?_ (finish_ok hfinish).1
        rw [(beginMutation_ok hcaller hbegin).2.1, ← h.effects]
        exact hmem
  · rcases loadReceipt_found sample.now (R.digest
      ((R.kind req).fingerprinted db.authorityEpoch (R.input req) actor)) hr with ⟨hfresh, -⟩ |
      ⟨-, code, message, hload⟩
    · exact absurd hfresh hstale
    · refine ⟨code, message, ?_⟩
      rw [hmutate, transact, if_neg (by simp [hquiet])]
      simp only [beginMutation, hcaller, hload, bind, Except.bind]
  · rw [hmutate, transact, if_neg (by simp [hquiet])] at hdata
    split at hdata
    · exact absurd hdata (by simp)
    rename_i m hbegin
    split at hdata
    · exact absurd hdata (by simp)
    rename_i db' data' hrun
    obtain rfl := Except.ok.inj hdata
    obtain ⟨hactor, hkey', hload⟩ := beginMutation_ok hcaller hbegin
    -- the receipt was replayed
    rcases loadReceipt_found sample.now (R.digest
      ((R.kind req).fingerprinted db.authorityEpoch (R.input req) actor)) hr with
      ⟨hfresh, hresult⟩ | ⟨-, code, message, hrefused⟩
    · refine ⟨hfresh, m, Except.ok.inj (hload.symm.trans hresult), hactor, ?_⟩
      simp only [bind_eq_ok, runHandler] at hrun
      obtain ⟨outcome, houtcome, hrun⟩ := hrun
      cases outcome with
      | reply =>
        rw [houtcome, (Prod.mk.inj (pure_eq_ok.1 hrun)).2]
      | finish =>
        simp only [bind_eq_ok] at hrun
        obtain ⟨db'', hfinish, -⟩ := hrun
        refine absurd ?_ (finish_ok hfinish).1
        rw [hkey', ← h.effects]
        exact hmem
    · rw [hload] at hrefused
      exact absurd hrefused (by simp)

end Retry

/-! ### Installations -/

section Runs

variable {δ ν ρ : Type} {R : Routes δ ν ρ} {x x' : Installation δ ν}

/-- The database and its snapshots are receipted. -/
structure Installation.Receipted (x : Installation δ ν) : Prop where
  db : x.db.Receipted
  snapshots : ∀ db ∈ x.snapshots, db.Receipted

/-- Compaction keeps the triples of receipts. -/
lemma compactReceipts_triples (db : MutationDb δ ν) (cutoffAt now : Time)
    (picked : MutationTriple → Bool) :
    (db.compactReceipts cutoffAt now picked).receipts.map Receipt.triple
      = db.receipts.map Receipt.triple := by
  simp only [MutationDb.compactReceipts, List.map_map]
  refine List.map_congr_left fun r _ => ?_
  simp only [Function.comp]
  split <;> rfl

lemma InstallationStep.receipted {i : InstallationAction δ ρ} (hx : x.Receipted)
    (h : InstallationStep R x i x') : x'.Receipted := by
  cases i with
  | request headers sample req =>
    obtain rfl := Option.some.inj h
    exact ⟨mutate_receipted hx.db, hx.snapshots⟩
  | compact cutoffAt now picked =>
    obtain rfl := Option.some.inj h
    exact ⟨⟨hx.db.effects.trans (compactReceipts_triples _ _ _ _).symm, hx.db.distinct⟩,
      hx.snapshots⟩
  | restart =>
    obtain rfl := Option.some.inj h
    exact hx
  | write tables =>
    obtain rfl := Option.some.inj h
    exact ⟨⟨hx.db.effects, hx.db.distinct⟩, hx.snapshots⟩
  | backup =>
    obtain rfl := Option.some.inj h
    refine ⟨hx.db, fun db hdb => ?_⟩
    rcases List.mem_append.1 hdb with hold | hnew
    · exact hx.snapshots db hold
    · exact List.mem_singleton.1 hnew ▸ hx.db
  | restore snapshot authorityEpoch tables =>
    obtain ⟨db, hdb, rfl⟩ := Option.map_eq_some_iff.1 h
    have hold := hx.snapshots db (List.mem_of_getElem? hdb)
    exact ⟨⟨hold.effects, hold.distinct⟩, hx.snapshots⟩

/-- A database contains the changes of at most one request with a triple, and answers the others
without changes. -/
theorem mutation_at_most_once {x₀ : Installation δ ν} (h₀ : x₀.New)
    (h : Run (InstallationStep R) (fun _ _ => True) x₀ x) :
    x.db.effects.Nodup ∧ ∀ headers sample req key actor, R.validate req = .ok () →
      mutationKey headers = .ok key →
      R.admits (R.clock x.db.tables sample) sample req = .ok actor →
      (actor.id, R.operation req, key) ∈ x.db.effects →
        x.db.Answers R headers sample req actor key := by
  have hx : x.Receipted := h.invariant (I := Installation.Receipted)
    (fun _ _ _ hI _ hstep => hstep.receipted hI)
    ⟨⟨by rw [h₀.effects, h₀.receipts]; rfl, by rw [h₀.effects]; exact .nil⟩,
      fun db hdb => by simp [h₀.snapshots] at hdb⟩
  exact ⟨hx.db.distinct, fun _ _ _ _ _ hvalid hkey hcaller hmem =>
    hx.db.answers hvalid hkey hcaller hmem⟩

end Runs

/-! ### Replays -/

/-- A digest that can be read. -/
def plainDigest : Fingerprinted → String
  | .mutation epoch input session proof =>
    epoch.getD "" ++ input ++ toString (session.getD 0) ++ proof.getD ""
  | .humanAdminAccountCreation epoch input actor => epoch.getD "" ++ input ++ toString actor
  | .reporter epoch reporter input => epoch.getD "" ++ toString reporter ++ input

/-- Policy updates, under that digest. -/
def plainRoutes : Routes Db Project PolicyRequest := policyRoutes plainDigest

/-- The project delegates its rules to agents. -/
def delegated : Installation Db Project where
  db :=
    { tables := { service .agent with
        projects := table [{ Scenario.project .agent with agentRuleEditing := true }] }
      authorityEpoch := "initial"
      receipts := []
      events := []
      effects := [] }
  snapshots := []
  commits := []

lemma delegated_new : delegated.New := ⟨rfl, rfl, rfl, rfl⟩

/-- A caller sets the rules, and whether they stay delegated. -/
def rulesRequest (auth : Auth) (revision : Int) (delegates : Bool) : PolicyRequest where
  auth := auth
  project := 1
  input :=
    { expectedRevision := revision
      reviewMode := .agent
      recoveryMode := .agent
      leaseSeconds := 600
      rules := "Sign your work."
      provenance := ""
      agentRuleEditing := delegates
      automaticIntegration := true
      allowSubagentReviews := none
      integrationOwner := none
      maxAttemptSeconds := none
      allowRelayedHumanAnswers := none }
  body := "Sign your work."

/-- The clock of a request, without an incident. -/
def quietly (now : Time) : ClockSample := ⟨now, false, false⟩

/-- An agent sets the rules. -/
def agentSetsRules (now : Time) : InstallationAction Db PolicyRequest :=
  .request ["first"] (quietly now) (rulesRequest (agent 2) 1 true)

set_option maxRecDepth 20000 in
theorem mutation_at_most_once_replayed : ∃ x,
    follow (Installation.step plainRoutes) (fun _ _ => True) delegated
        [agentSetsRules 2000] = some x ∧
      x.db.effects.Nodup ∧ ∃ key actor, (actor.id, "PATCH /api/v1/projects/1/policy", key)
        ∈ x.db.effects ∧ x.db.Answers plainRoutes ["first"] (quietly 3000)
          (rulesRequest (agent 2) 1 true) actor key := by
  obtain ⟨x, hx, hp⟩ := exists_of_any
    (o := follow (Installation.step plainRoutes) (fun _ _ => True) delegated
      [agentSetsRules 2000])
    (p := fun x => decide ((2, "PATCH /api/v1/projects/1/policy", "first") ∈ x.db.effects) &&
      ((plainRoutes.admits (plainRoutes.clock x.db.tables
        (quietly 3000)) (quietly 3000) (rulesRequest (agent 2) 1 true)).toOption.any
          fun actor : Actor => decide (actor.id = 2))) (by decide +kernel)
  rw [Bool.and_eq_true, decide_eq_true_iff, Option.any_eq_true] at hp
  obtain ⟨hmem, actor, hcaller, hid⟩ := hp
  have hcaller' := toOption_eq_some.1 hcaller
  rw [← of_decide_eq_true hid] at hmem
  obtain ⟨hnodup, hanswers⟩ := mutation_at_most_once (R := plainRoutes) delegated_new
    (run_of_follow hx)
  exact ⟨x, hx, hnodup, "first", actor, hmem, hanswers _ _ _ _ _ (by decide +kernel)
    (by decide +kernel) hcaller' hmem⟩

/-- How a request is refused. -/
def refusalStatus {ν : Type} : Except AppError ν → Option Nat
  | .error e => some e.status
  | .ok _ => none

set_option maxRecDepth 20000 in
/-- A request that was committed after the backup commits again after the restore. And an agent's
retry is refused as an operation that is not permitted, once its rules are no longer delegated. -/
theorem mutation_not_exactly_once :
    (¬ ∀ x, Run (InstallationStep plainRoutes) (fun _ _ => True) delegated x →
      x.commits.Nodup) ∧
    ¬ ∀ x, Run (InstallationStep plainRoutes) (fun _ _ => True) delegated x →
      ∀ headers sample req key actor, plainRoutes.validate req = .ok () →
        mutationKey headers = .ok key →
        plainRoutes.admits (plainRoutes.clock x.db.tables sample)
          sample req = .ok actor →
        (actor.id, plainRoutes.operation req, key) ∈ x.commits →
          (mutate plainRoutes x.db headers sample req).1 = x.db ∧
          ((∃ r ∈ x.db.receipts, ∃ data, r.result = some data ∧
              (mutate plainRoutes x.db headers sample req).2 = .ok data) ∨
            ∃ code message, (mutate plainRoutes x.db headers sample req).2
              = .error (.conflict code message)) := by
  constructor
  · intro h
    obtain ⟨x, hx, hp⟩ := exists_of_any
      (o := follow (Installation.step plainRoutes) (fun _ _ => True) delegated
        [.backup, agentSetsRules 2000,
          .restore 0 "restored" { delegated.db.tables with
            ext := { accounts with coordinationState := .restoreReconciliation } },
          .write delegated.db.tables, agentSetsRules 3000])
      (p := fun x => decide (¬ x.commits.Nodup)) (by decide +kernel)
    exact of_decide_eq_true hp (h x (run_of_follow hx))
  · intro h
    obtain ⟨x, hx, hp⟩ := exists_of_any
      (o := follow (Installation.step plainRoutes) (fun _ _ => True) delegated
        [agentSetsRules 2000, .request ["second"] (quietly 3000) (rulesRequest operator 2 false)])
      (p := fun x => decide ((2, "PATCH /api/v1/projects/1/policy", "first") ∈ x.commits) &&
        (((plainRoutes.admits (plainRoutes.clock x.db.tables
          (quietly 4000)) (quietly 4000) (rulesRequest (agent 2) 1 true)).toOption.any
            fun actor : Actor => decide (actor.id = 2)) &&
        decide (refusalStatus (mutate plainRoutes x.db ["first"] (quietly 4000)
          (rulesRequest (agent 2) 1 true)).2 = some 403))) (by decide +kernel)
    rw [Bool.and_eq_true, Bool.and_eq_true, decide_eq_true_iff, Option.any_eq_true,
      decide_eq_true_iff] at hp
    obtain ⟨hmem, ⟨actor, hcaller, hid⟩, hstatus⟩ := hp
    rw [← of_decide_eq_true hid] at hmem
    obtain ⟨-, hanswer⟩ := h x (run_of_follow hx) ["first"] (quietly 4000)
      (rulesRequest (agent 2) 1 true) "first" actor (by decide +kernel) (by decide +kernel)
      (toOption_eq_some.1 hcaller) hmem
    rcases hanswer with ⟨r, -, data, -, hok⟩ | ⟨code, message, hconflict⟩
    · rw [hok] at hstatus
      exact absurd hstatus (by simp [refusalStatus])
    · rw [hconflict] at hstatus
      exact absurd hstatus (by simp [refusalStatus, AppError.conflict])

end AgentCoordinator
