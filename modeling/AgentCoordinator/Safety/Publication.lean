import AgentCoordinator.Local.GitWorkflow

/-
One push for each integration intent.

An intent only moves on: its inputs and its result stay, and its phase goes forward, except that a
push that was not started is taken back. A push is started from a durable push intent that the same
call has written over a prepared one, so that no later call finds the intent prepared again. All
this rests on the file that `prepare_integration` finds: where the file cannot be inspected it is
taken to be absent, and a new intent is written over it.
-/

namespace AgentCoordinator.GitWorkflow

open Procedure Crash

/-! ### How an intent moves on -/

/-- The order of the phases. -/
def IntegrationPhase.rank : IntegrationPhase → Nat
  | .preparing => 0
  | .prepared => 1
  | .pushIntent => 2
  | .published => 3

lemma IntegrationPhase.rank_le_published (p : IntegrationPhase) :
    p.rank ≤ IntegrationPhase.published.rank := by
  cases p <;> decide

/-- The phase goes forward, or a push that was not started is taken back. -/
def IntegrationPhase.Moves (pushes : Nat) (p q : IntegrationPhase) : Prop :=
  p.rank ≤ q.rank ∨ (p = .pushIntent ∧ q = .prepared ∧ pushes = 0)

/-- The intent moves on to another one. -/
structure IntegrationIntent.Moves (pushes : Nat) (i j : IntegrationIntent) : Prop where
  inputs : j.toIntentInputs = i.toIntentInputs
  result : ∀ r, i.result = some r →
    j.result = some r ∧ j.resultTree = i.resultTree ∧ j.localResultRef = i.localResultRef
  phase : i.phase.Moves pushes j.phase

/-- The recorded intent stays recorded and moves on. -/
def Recorded (pushes : Nat) (before after : Option IntegrationIntent) : Prop :=
  ∀ i, before = some i → ∃ j, after = some j ∧ i.Moves pushes j

/-- The intent stands for a push that may have been started. -/
def IntegrationIntent.Pushed (i : IntegrationIntent) : Prop :=
  i.phase = .pushIntent ∨ i.phase = .published

section Moves

variable {pushes : Nat} {i j k : IntegrationIntent}

lemma IntegrationIntent.Moves.refl (i : IntegrationIntent) : i.Moves pushes i where
  inputs := rfl
  result _ h := ⟨h, rfl, rfl⟩
  phase := .inl (Nat.le_refl _)

lemma IntegrationPhase.Moves.trans {p q r : IntegrationPhase} (hpq : p.Moves pushes q)
    (hqr : q.Moves pushes r) : p.Moves pushes r := by
  rcases hpq with hpq | ⟨rfl, rfl, hpushes⟩
  · rcases hqr with hqr | ⟨rfl, rfl, hpushes⟩
    · exact .inl (Nat.le_trans hpq hqr)
    · cases p with
      | preparing | prepared => exact .inl (by decide)
      | pushIntent => exact .inr ⟨rfl, rfl, hpushes⟩
      | published => exact absurd hpq (by decide)
  · cases r with
    | preparing =>
      rcases hqr with hqr | ⟨h, -⟩
      · exact absurd hqr (by decide)
      · cases h
    | prepared => exact .inr ⟨rfl, rfl, hpushes⟩
    | pushIntent | published => exact .inl (by decide)

lemma IntegrationIntent.Moves.trans (hij : i.Moves pushes j) (hjk : j.Moves pushes k) :
    i.Moves pushes k where
  inputs := hjk.inputs.trans hij.inputs
  result r h := by
    obtain ⟨hr, htree, href⟩ := hij.result r h
    obtain ⟨hr', htree', href'⟩ := hjk.result r hr
    exact ⟨hr', htree'.trans htree, href'.trans href⟩
  phase := hij.phase.trans hjk.phase

lemma Recorded.refl (o : Option IntegrationIntent) : Recorded pushes o o :=
  fun i h => ⟨i, h, .refl i⟩

lemma Recorded.trans {a b c : Option IntegrationIntent} (hab : Recorded pushes a b)
    (hbc : Recorded pushes b c) : Recorded pushes a c := by
  intro i hi
  obtain ⟨j, hj, hij⟩ := hab i hi
  obtain ⟨k, hk, hjk⟩ := hbc j hj
  exact ⟨k, hk, hij.trans hjk⟩

/-- What a push may stand for moves on to such an intent, once one was started. -/
lemma IntegrationIntent.Moves.pushed (h : i.Moves pushes j) (hi : i.Pushed) (hone : 0 < pushes) :
    j.Pushed := by
  have hrank : 2 ≤ i.phase.rank := by
    rcases hi with hi | hi <;> rw [hi] <;> decide
  rcases h.phase with hphase | ⟨-, -, hzero⟩
  · unfold IntegrationIntent.Pushed
    cases hj : j.phase with
    | preparing | prepared =>
      rw [hj] at hphase
      exact absurd (Nat.le_trans hrank hphase) (by decide)
    | pushIntent => exact .inl rfl
    | published => exact .inr rfl
  · omega

end Moves

/-! ### The outline -/

/-- Calls in which the state file can be inspected. -/
def Inspected : Condition Files git where
  call
    | _, d, .stateExists, exist => exist = d.state.isSome
    | _, _, _, _ => True
  crash _ := True

/-- What holds of the files between any two operations: the file has moved on from what is durable
of it, and it shows the push that was started. -/
structure Files.Ok (d : Files) : Prop where
  synced : Recorded d.pushes d.synced d.state
  once : d.pushes ≤ 1
  pushed : 0 < d.pushes → ∃ i, d.synced = some i ∧ i.Pushed

/-- After authority was granted, the target was observed where it is expected. -/
def Reobserved (h : List (Called git)) (i : IntegrationIntent)
    (authority : FreshPublicationAuthority) : Prop :=
  ∃ before between after context remote observation,
    h = before ++ [⟨.authorize context, .ok authority⟩] ++ between ++
      [⟨.observeRemoteTarget i.checkout remote i.targetBranch, .ok observation⟩] ++ after ∧
    observation.revision = some i.expectedTarget

/-- The target was reobserved, and the authority lasts for more than two seconds. -/
def Authorized (h : List (Called git)) (i : IntegrationIntent) : Prop :=
  ∃ earlier authority instant, h = earlier ++ [⟨.now, instant⟩] ∧
    Reobserved earlier i authority ∧ twoSeconds < authority.remaining instant

/-- The state in which a push may be started. -/
def PushReady (h : List (Called git)) (d : Files) : Prop :=
  d.pushes = 0 ∧ ∃ i, d.synced = some i ∧ d.state = some i ∧ i.phase = .pushIntent ∧ Authorized h i

/-- The target was observed at a revision. -/
def Observed (h : List (Called git)) (revision : String) : Prop :=
  ∃ checkout remote branch observation,
    (⟨.observeRemoteTarget checkout remote branch, .ok observation⟩ : Called git) ∈ h ∧
      observation.revision = some revision

/-- What a reply of `published` stands for. -/
def Confirmed (h : List (Called git)) (d : Files) (revision : String) : Prop :=
  Observed h revision ∧ ∃ i, d.state = some i ∧ i.result = some revision ∧ i.phase = .published

/-- A push. -/
def Op.IsPush : Op → Prop
  | .push .. => True
  | _ => False

/-- What the calls promise. -/
def outline : Outline Files git String Request Reply where
  condition := Inspected
  inv := Files.Ok
  commits h d op _ d' :=
    Recorded d.pushes d.state d'.state ∧ Recorded d.pushes d.synced d'.synced ∧
      (op.IsPush → PushReady h d)
  ends _ h d
    | .ok (.outcome (.published revision)) => Confirmed h d revision
    | _ => True

/-- An operation that leaves the files alone. -/
def Op.Reads : Op → Prop
  | .saveIntent .. | .push .. => False
  | _ => True

lemma quiet (d d' : Files) : ¬ machine.others d d' := fun h => h

/-- An operation that reads promises nothing. -/
lemma reading : Reading machine outline Op.Reads := by
  refine ⟨quiet, ?_⟩
  intro op h d answer d' hop hd'
  have hcommits : outline.commits h d op answer d := by
    refine ⟨.refl _, .refl _, fun hpush => ?_⟩
    cases op <;> first | exact hpush.elim | exact hop.elim
  refine ⟨?_, hcommits⟩
  cases op with
  | saveIntent _ _ | push _ _ _ => exact hop.elim
  | stateExists =>
    change d' ∈ (if _ then [] else [d]) at hd'
    split at hd'
    · cases hd'
    · exact List.mem_singleton.1 hd'
  | readIntent =>
    cases answer with
    | error e => exact List.mem_singleton.1 hd'
    | ok intent =>
      change d' ∈ (if _ then [d] else []) at hd'
      split at hd'
      · exact List.mem_singleton.1 hd'
      · cases hd'
  | _ => exact List.mem_singleton.1 hd'

/-! ### Procedures that only read -/

section Reads

variable (intent : IntegrationIntent) (checkout remote : String)

@[simp] lemma context_uses {α : Type} (value : Option α) (message : String) :
    (context value message).Uses Op.Reads := by
  cases value <;> simp [context]

@[simp] lemma captureCleanSnapshot_uses :
    (captureCleanSnapshot checkout remote).Uses Op.Reads :=
  Proc.uses_ask _ trivial

@[simp] lemma revParse_uses (object : String) : (revParse checkout object).Uses Op.Reads :=
  Proc.uses_ask _ trivial

@[simp] lemma catFile_uses (object : String) : (catFile checkout object).Uses Op.Reads :=
  Proc.uses_ask _ trivial

@[simp] lemma isAncestor_uses (ancestor descendant : String) :
    (isAncestor checkout ancestor descendant).Uses Op.Reads :=
  Proc.uses_ask _ trivial

@[simp] lemma observeRemoteTarget_uses (branch : String) :
    (observeRemoteTarget checkout remote branch).Uses Op.Reads :=
  Proc.uses_ask _ trivial

@[simp] lemma treeOf_uses (revision : String) : (treeOf checkout revision).Uses Op.Reads := by
  simp [treeOf]

@[simp] lemma resolveExactCommit_uses (revision : String) :
    (resolveExactCommit checkout revision).Uses Op.Reads := by
  unfold resolveExactCommit
  repeat' with_reducible refine Proc.uses_bind ?_ fun _ => ?_
  all_goals simp [validateFullOid]

@[simp] lemma ensureAncestor_uses (ancestor descendant message : String) :
    (ensureAncestor checkout ancestor descendant message).Uses Op.Reads := by
  simp [ensureAncestor]

@[simp] lemma validateResult_uses : (validateResult intent).Uses Op.Reads := by
  unfold validateResult
  repeat' with_reducible refine Proc.uses_bind ?_ fun _ => ?_
  all_goals simp

@[simp] lemma validateIntentCheckout_uses :
    (validateIntentCheckout intent remote).Uses Op.Reads := by
  unfold validateIntentCheckout
  repeat' with_reducible refine Proc.uses_bind ?_ fun _ => ?_
  all_goals simp

@[simp] lemma materializeResultCheckout_uses :
    (materializeResultCheckout intent remote).Uses Op.Reads := by
  have hmerge : ∀ result, (mergeFastForward intent.checkout result).Uses Op.Reads :=
    fun _ => Proc.uses_ask _ trivial
  unfold materializeResultCheckout
  repeat' with_reducible first
    | refine Proc.uses_bind ?_ fun _ => ?_
    | refine Proc.uses_ite ?_ ?_
  all_goals simp [hmerge]

@[simp] lemma createIntegrationResult_uses :
    (createIntegrationResult intent).Uses Op.Reads := by
  have hmerge : (mergeTree intent.checkout intent.expectedTarget intent.candidate).Uses Op.Reads :=
    Proc.uses_ask _ trivial
  have hcommit : ∀ tree message, (commitTree intent.checkout tree intent.expectedTarget
      intent.candidate message).Uses Op.Reads :=
    fun _ _ => Proc.uses_ask _ trivial
  unfold createIntegrationResult
  repeat' with_reducible first
    | refine Proc.uses_bind ?_ fun _ => ?_
    | refine Proc.uses_ite ?_ ?_
  all_goals simp [validateFullOid, hmerge, hcommit]

@[simp] lemma updateIsolatedRef_uses (reference result : String) :
    (updateIsolatedRef checkout reference result).Uses Op.Reads := by
  refine Proc.uses_bind (Proc.uses_ask _ trivial) fun value => ?_
  cases value with
  | some value => exact Proc.uses_ensure _ _
  | none => exact Proc.uses_ask _ trivial

@[simp] lemma ensureSamePrepareRequest_uses (request : PrepareIntegration) :
    (ensureSamePrepareRequest intent request).Uses Op.Reads := by
  have hroot : (canonicalGitRoot request.checkout).Uses Op.Reads := Proc.uses_ask _ trivial
  have hremote : ∀ checkout,
      (canonicalRemoteIdentity checkout request.configuredRemote).Uses Op.Reads :=
    fun _ => Proc.uses_ask _ trivial
  unfold ensureSamePrepareRequest
  repeat' with_reducible refine Proc.uses_bind ?_ fun _ => ?_
  all_goals simp [hroot, hremote]

@[simp] lemma ensureRelated_uses (left right : String) :
    (ensureRelated checkout left right).Uses Op.Reads := by
  have hbase : (mergeBase checkout left right).Uses Op.Reads := Proc.uses_ask _ trivial
  simp [ensureRelated, hbase]

@[simp] lemma newIntent_uses (request : PrepareIntegration) :
    (newIntent request).Uses Op.Reads := by
  unfold newIntent
  repeat' with_reducible refine Proc.uses_bind ?_ fun _ => ?_
  all_goals simp

end Reads

/-! ### Rules -/

section Rules

variable {α β : Type} {h : List (Called git)} {d : Files} {i j : IntegrationIntent}
  {Q : List (Called git) → Files → Except String α → Prop}

lemma safe_context_bind {value : Option β} {message : String} {f : β → Git α}
    (hE : ∀ h d e, Q h d (.error e)) (hf : ∀ b, value = some b → (f b).Safe machine outline Q h d) :
    (context value message >>= f).Safe machine outline Q h d := by
  cases value with
  | some b => exact hf b rfl
  | none => exact hE _ _ _

/-- What is loaded is the state file. -/
lemma safe_load_bind {f : IntegrationIntent → Git α} (hE : ∀ h d e, Q h d (.error e))
    (hf : ∀ h' i, h <+: h' → d.state = some i → (f i).Safe machine outline Q h' d) :
    (loadIntent >>= f).Safe machine outline Q h d := by
  refine Proc.Safe.bind
    (Q := fun h' d' r => ∀ i, r = .ok i → d' = d ∧ h <+: h' ∧ d.state = some i) ?_ ?_ ?_
  · have hQ : ∀ (h' : List (Called git)) (d' : Files) (e : String) (i : IntegrationIntent),
        Except.error e = Except.ok i → d' = d ∧ h <+: h' ∧ d.state = some i :=
      fun _ _ _ _ hi => by cases hi
    refine reading.ask_bind hQ trivial fun answer i hanswer hd' => ?_
    refine Proc.safe_ensure_bind hQ fun _ => ?_
    rintro _ ⟨⟩
    refine ⟨rfl, List.prefix_append _ _, ?_⟩
    obtain rfl : answer = .ok i := hanswer
    change d ∈ (if d.state = some i then [d] else []) at hd'
    split at hd'
    · assumption
    · cases hd'
  · intro h' d' i hok
    obtain ⟨rfl, hh, hi⟩ := hok i rfl
    exact hf h' i hh hi
  · intro h' d' e _
    exact hE h' d' e

/-- The intent of the state file, of a call that needs a prepared result. -/
lemma safe_loadPrepared_bind {f : IntegrationIntent → Git α} (hE : ∀ h d e, Q h d (.error e))
    (hf : ∀ h' i, h <+: h' → d.state = some i → i.phase.Finished →
      (f i).Safe machine outline Q h' d) :
    (loadPrepared >>= f).Safe machine outline Q h d := by
  refine Proc.Safe.bind (Q := fun h' d' r => ∀ i, r = .ok i →
    d' = d ∧ h <+: h' ∧ d.state = some i ∧ i.phase.Finished) ?_ ?_ ?_
  · have hQ : ∀ (h' : List (Called git)) (d' : Files) (e : String) (i : IntegrationIntent),
        Except.error e = Except.ok i →
          d' = d ∧ h <+: h' ∧ d.state = some i ∧ i.phase.Finished :=
      fun _ _ _ _ hi => by cases hi
    refine safe_load_bind hQ fun h' i hh hi => ?_
    refine Proc.safe_ensure_bind hQ fun hfinished => ?_
    rintro _ ⟨⟩
    exact ⟨rfl, hh, hi, hfinished⟩
  · intro h' d' i hok
    obtain ⟨rfl, hh, hi, hfinished⟩ := hok i rfl
    exact hf h' i hh hi hfinished
  · intro h' d' e _
    exact hE h' d' e

/-- The files after a save. -/
def Files.saved (d : Files) (i : IntegrationIntent) : Files :=
  { d with state := some i, synced := some i }

/-- The new intent may be saved over what is recorded. -/
lemma Files.Ok.saved (hd : d.Ok) (hmoves : Recorded d.pushes d.state (some i)) :
    (d.saved i).Ok := by
  refine ⟨.refl _, hd.once, fun hone => ?_⟩
  obtain ⟨j, hj, hpushed⟩ := hd.pushed hone
  obtain ⟨k, hk, hmoves⟩ := (hd.synced.trans hmoves) j hj
  obtain rfl := Option.some.inj hk
  exact ⟨i, rfl, hmoves.pushed hpushed hone⟩

lemma Files.Ok.saves (hd : d.Ok) (hmoves : Recorded d.pushes d.state (some i))
    {answer : Except String Unit} {d' : Files} {event : String}
    (hd' : d' ∈ effects d (.saveIntent i event) answer) :
    d'.Ok ∧ d'.pushes = d.pushes ∧ Recorded d.pushes d.state d'.state ∧
      Recorded d.pushes d.synced d'.synced := by
  have hsynced := hd.synced.trans hmoves
  have hkept : Files.Ok { d with state := some i } := ⟨hsynced, hd.once, hd.pushed⟩
  have hsaved := hd.saved hmoves
  cases answer with
  | ok _ =>
    obtain rfl := List.mem_singleton.1 hd'
    exact ⟨hsaved, rfl, hmoves, hsynced⟩
  | error e =>
    simp only [effects, List.mem_cons, List.not_mem_nil, or_false] at hd'
    rcases hd' with rfl | rfl | rfl
    · exact ⟨hd, rfl, .refl _, .refl _⟩
    · exact ⟨hkept, rfl, hmoves, .refl _⟩
    · exact ⟨hsaved, rfl, hmoves, hsynced⟩

/-- A save that fails or goes on with the new file. -/
lemma safe_save_bind {event : String} {f : Unit → Git α} (hE : ∀ h d e, Q h d (.error e))
    (hmoves : Recorded d.pushes d.state (some j))
    (hf : (f ()).Safe machine outline Q (h ++ [⟨.saveIntent j event, .ok ()⟩]) (d.saved j)) :
    (saveIntent j event >>= f).Safe machine outline Q h d := by
  refine Proc.safe_call quiet fun answer d' hI _ hd' => ?_
  obtain ⟨hok, hpushes, hstate, hsynced⟩ := Files.Ok.saves hI hmoves hd'
  refine ⟨hok, ⟨hstate, hsynced, fun hpush => hpush.elim⟩, ?_⟩
  cases answer with
  | error e => exact hE _ _ _
  | ok _ =>
    obtain rfl := List.mem_singleton.1 hd'
    exact hf

/-- An intent that differs in its phase and in what was observed only. -/
lemma Recorded.update {before after : IntegrationIntent} (hstate : d.state = some before)
    (hinputs : after.toIntentInputs = before.toIntentInputs)
    (hresult : after.result = before.result ∧ after.resultTree = before.resultTree ∧
      after.localResultRef = before.localResultRef)
    (hphase : before.phase.Moves d.pushes after.phase) :
    Recorded d.pushes d.state (some after) := by
  intro k hk
  obtain rfl := Option.some.inj (hstate.symm.trans hk)
  obtain ⟨hr, htree, href⟩ := hresult
  exact ⟨after, rfl, hinputs, fun r h => ⟨hr.trans h, htree, href⟩, hphase⟩

/-- The intent with what was observed. -/
def IntegrationIntent.observing (i : IntegrationIntent) (observed : Option String) :
    IntegrationIntent :=
  { i with lastObservedTarget := observed, revision := i.revision + 1 }

/-- An observation is made and recorded. -/
lemma safe_observe_bind {remote event : String}
    {f : RemoteTargetObservation → IntegrationIntent → Git α} (hE : ∀ h d e, Q h d (.error e))
    (hstate : d.state = some i)
    (hf : ∀ observation, (f observation (i.observing observation.revision)).Safe machine outline Q
      (h ++ [⟨.observeRemoteTarget i.checkout remote i.targetBranch, .ok observation⟩] ++
        [⟨.saveIntent (i.observing observation.revision) event, .ok ()⟩])
      (d.saved (i.observing observation.revision))) :
    (observeRemoteTarget i.checkout remote i.targetBranch >>= fun observation =>
      recordObservation i observation.revision event >>= f observation).Safe
        machine outline Q h d := by
  refine reading.ask_bind hE trivial fun answer observation hanswer _ => ?_
  obtain rfl : answer = .ok observation := hanswer
  refine Proc.Safe.bind (Q := fun h' d' r => ∀ j, r = .ok j →
    j = i.observing observation.revision ∧ d' = d.saved j ∧ h' = h ++
      [⟨.observeRemoteTarget i.checkout remote i.targetBranch, .ok observation⟩] ++
        [⟨.saveIntent j event, .ok ()⟩]) ?_ ?_ ?_
  · refine safe_save_bind (fun _ _ _ _ hj => by cases hj) ?_ ?_
    · exact .update hstate rfl ⟨rfl, rfl, rfl⟩ (.inl (Nat.le_refl _))
    · rintro _ ⟨⟩
      exact ⟨rfl, rfl, rfl⟩
  · intro h' d' j hj
    obtain ⟨rfl, rfl, rfl⟩ := hj j rfl
    exact hf observation
  · intro h' d' e _
    exact hE h' d' e

lemma Observed.mono {revision : String} {h h' : List (Called git)} (hh : h <+: h')
    (hobserved : Observed h revision) : Observed h' revision := by
  obtain ⟨checkout, remote, branch, observation, hmem, hrevision⟩ := hobserved
  exact ⟨checkout, remote, branch, observation, hh.subset hmem, hrevision⟩

/-- The target was seen at the result, elsewhere, or where it is expected. -/
lemma safe_settled_bind {result : String} {observed : Option String}
    {f : Option PublicationOutcome → Git α} (hE : ∀ h d e, Q h d (.error e))
    (hstate : d.state = some i) (hresult : i.result = some result)
    (hobserved : observed = some result → Observed h result)
    (hpublished : ∀ h' d', Confirmed h' d' result →
      (f (some (.published result))).Safe machine outline Q h' d')
    (hmoved : (f (some (.targetMoved i.expectedTarget observed))).Safe machine outline Q h d)
    (hexpected : observed = some i.expectedTarget → (f none).Safe machine outline Q h d) :
    (settled i result observed >>= f).Safe machine outline Q h d := by
  unfold settled
  split
  · rename_i heq
    have hseen := hobserved heq
    refine Proc.Safe.bind (Q := fun h' d' r => ∀ o, r = .ok o →
      o = some (.published result) ∧ Confirmed h' d' result) ?_ ?_ ?_
    · unfold markPublished
      split
      · rename_i hphase
        refine Proc.Safe.bind (Q := fun h' d' r => ∀ j, r = .ok j → Confirmed h' d' result) ?_ ?_ ?_
        · refine safe_save_bind (fun _ _ _ _ hj => by cases hj) ?_ ?_
          · refine .update hstate rfl ⟨rfl, rfl, rfl⟩ (.inl ?_)
            exact i.phase.rank_le_published
          · rintro _ ⟨⟩
            exact ⟨hseen.mono (List.prefix_append _ _), _, rfl, hresult, rfl⟩
        · rintro h' d' j hj _ ⟨⟩
          exact ⟨rfl, hj j rfl⟩
        · rintro h' d' e _ _ ⟨⟩
      · rename_i hphase
        rintro _ ⟨⟩
        exact ⟨rfl, hseen, i, hstate, hresult, Decidable.not_not.1 hphase⟩
    · intro h' d' o ho
      obtain ⟨rfl, hconfirmed⟩ := ho o rfl
      exact hpublished h' d' hconfirmed
    · intro h' d' e _
      exact hE h' d' e
  · split
    · exact hmoved
    · rename_i hexp
      exact hexpected (Decidable.not_not.1 hexp)

end Rules

/-! ### The calls -/

section Calls

variable {h : List (Called git)} {d : Files} {i : IntegrationIntent}

/-- What a publication or reconciliation ends with. -/
def Published (h : List (Called git)) (d : Files) : Except String PublicationOutcome → Prop
  | .ok (.published revision) => Confirmed h d revision
  | _ => True

lemma published_error (h : List (Called git)) (d : Files) (e : String) :
    Published h d (.error e) :=
  trivial

/-- What was just observed was observed. -/
lemma observed_last {checkout remote branch revision : String}
    {observation : RemoteTargetObservation} {call : Called git}
    (hrevision : observation.revision = some revision) :
    Observed (h ++ [⟨.observeRemoteTarget checkout remote branch, .ok observation⟩] ++ [call])
      revision :=
  ⟨checkout, remote, branch, observation, by simp, hrevision⟩

/-- `reconcile_publication`. -/
lemma reconcilePublication_safe (configuredRemote : String) :
    (reconcilePublication configuredRemote).Safe machine outline Published h d := by
  unfold reconcilePublication
  refine safe_loadPrepared_bind published_error fun h₁ i _ hstate hfinished => ?_
  refine reading.uses_bind published_error (by simp) fun h₂ _ _ => ?_
  refine reading.uses_bind published_error (by simp) fun h₃ _ _ => ?_
  refine safe_observe_bind published_error hstate fun observation => ?_
  refine safe_context_bind published_error fun result hresult => ?_
  refine safe_settled_bind (i := i.observing observation.revision) published_error rfl hresult
    (fun hrevision => observed_last hrevision) ?_ ?_ ?_
  · intro h' d' hconfirmed
    exact hconfirmed
  · trivial
  · intro _
    show Proc.Safe _ _ _ (if _ then _ else _) _ _
    split <;> trivial

/-- The rest of a publication, once the push has ended. -/
lemma afterPush_safe (configuredRemote : String) {result : String} (success : Bool)
    (hstate : d.state = some i) (hresult : i.result = some result) :
    (afterPush i configuredRemote result success).Safe machine outline Published h d := by
  unfold afterPush
  refine safe_observe_bind published_error hstate fun observation => ?_
  refine safe_settled_bind (i := i.observing observation.revision) published_error rfl hresult
    (fun hrevision => observed_last hrevision) ?_ ?_ ?_
  · intro h' d' hconfirmed
    exact hconfirmed
  · trivial
  · intro _
    show Proc.Safe _ _ _ (if _ then _ else _) _ _
    split <;> trivial

lemma Reobserved.mono {h h' : List (Called git)} {authority : FreshPublicationAuthority}
    (hh : h <+: h') (hseen : Reobserved h i authority) : Reobserved h' i authority := by
  obtain ⟨tail, rfl⟩ := hh
  obtain ⟨before, between, after, context, remote, observation, rfl, hrevision⟩ := hseen
  exact ⟨before, between, after ++ tail, context, remote, observation, by simp, hrevision⟩

/-- A push is started where it may be, and shows in the file from then on. -/
lemma push_safe {checkout lease refspec : String} {f : Bool → Git PublicationOutcome}
    (hready : PushReady h d)
    (hf : ∀ h' success, (f success).Safe machine outline Published h'
      { d with pushes := d.pushes + 1 }) :
    ((Proc.ask (Op.push checkout lease refspec) id : Git Bool) >>= f).Safe machine outline Published h d := by
  refine Proc.safe_call quiet fun answer d' hI _ hd' => ?_
  obtain ⟨hzero, i, hsynced, hstate, hphase, -⟩ := id hready
  have hpushed : Files.Ok { d with pushes := d.pushes + 1 } := by
    refine ⟨?_, ?_, fun _ => ⟨i, hsynced, .inl hphase⟩⟩
    · show Recorded _ d.synced d.state
      rw [hsynced, hstate]
      exact .refl _
    · show d.pushes + 1 ≤ 1
      omega
  cases answer with
  | ok success =>
    obtain rfl := List.mem_singleton.1 hd'
    exact ⟨hpushed, ⟨.refl _, .refl _, fun _ => hready⟩, hf _ success⟩
  | error e =>
    simp only [machine, effects, List.mem_cons, List.not_mem_nil, or_false] at hd'
    rcases hd' with rfl | rfl
    · exact ⟨hI, ⟨.refl _, .refl _, fun _ => hready⟩, trivial⟩
    · exact ⟨hpushed, ⟨.refl _, .refl _, fun _ => hready⟩, trivial⟩

/-- The rest of a publication, once the target was seen where it is expected. -/
lemma startPush_safe (configuredRemote : String) {result : String}
    {authority : FreshPublicationAuthority} (hstate : d.state = some i)
    (hresult : i.result = some result) (hphase : i.phase = .prepared) (hzero : d.pushes = 0)
    (hseen : Reobserved h i authority) :
    (startPush i configuredRemote result authority).Safe machine outline Published h d := by
  unfold startPush
  refine reading.call trivial fun instant _ _ _ => ?_
  refine Proc.safe_ensure_bind published_error fun _ => ?_
  refine safe_save_bind published_error ?_ ?_
  · exact .update hstate rfl ⟨rfl, rfl, rfl⟩ (.inl (hphase ▸ Nat.le_succ 1))
  refine reading.uses_bind published_error (Proc.uses_ask _ trivial) fun h' _ hh => ?_
  refine reading.call trivial fun instant' _ _ _ => ?_
  show Proc.Safe _ _ _ (if _ then _ else _) _ _
  split
  · refine safe_save_bind published_error ?_ trivial
    exact .update rfl rfl ⟨rfl, rfl, rfl⟩ (.inr ⟨rfl, rfl, hzero⟩)
  · rename_i hremaining
    refine push_safe ⟨hzero, _, rfl, rfl, rfl, h', authority, instant', rfl, ?_, ?_⟩ ?_
    · refine Reobserved.mono ((List.prefix_append _ _).trans ((List.prefix_append _ _).trans hh)) ?_
      exact hseen
    · exact Nat.not_le.1 hremaining
    · intro h'' success
      exact afterPush_safe configuredRemote success rfl hresult

/-- The rest of a publication, once the result may be published. -/
lemma publishAuthorized_safe (configuredRemote : String) {result : String}
    (hok : d.Ok) (hstate : d.state = some i) (hresult : i.result = some result)
    (hphase : i.phase = .prepared) :
    (publishAuthorized i configuredRemote result).Safe machine outline Published h d := by
  have hzero : d.pushes = 0 := by
    rcases Nat.eq_zero_or_pos d.pushes with hzero | hone
    · exact hzero
    obtain ⟨j, hj, hpushed⟩ := hok.pushed hone
    obtain ⟨k, hk, hmoves⟩ := hok.synced j hj
    obtain rfl := Option.some.inj (hstate.symm.trans hk)
    rcases hmoves.pushed hpushed hone with hp | hp <;> rw [hphase] at hp <;> cases hp
  unfold publishAuthorized
  refine safe_context_bind published_error fun resultTree _ => ?_
  refine reading.ask_bind published_error trivial fun answer authority hanswer _ => ?_
  obtain rfl : answer = .ok authority := hanswer
  refine reading.uses_bind published_error (by simp) fun h₁ _ hh₁ => ?_
  refine reading.uses_bind published_error (by simp) fun h₂ _ hh₂ => ?_
  refine safe_observe_bind published_error hstate fun observation => ?_
  refine safe_settled_bind (i := i.observing observation.revision) published_error rfl hresult
    (fun hrevision => observed_last hrevision) ?_ ?_ ?_
  · intro h' d' hconfirmed
    exact hconfirmed
  · trivial
  · intro hrevision
    refine startPush_safe configuredRemote rfl hresult hphase hzero ?_
    obtain ⟨between, rfl⟩ := hh₁.trans hh₂
    exact ⟨h, between, _, _, _, observation, rfl, hrevision⟩

/-- `publish_prepared`. -/
lemma publishPrepared_safe (configuredRemote : String) (hok : d.Ok) :
    (publishPrepared configuredRemote).Safe machine outline Published h d := by
  unfold publishPrepared
  refine safe_loadPrepared_bind published_error fun h₁ i _ hstate hfinished => ?_
  refine reading.uses_bind published_error (by simp) fun h₂ _ _ => ?_
  refine reading.uses_bind published_error (by simp) fun h₃ _ _ => ?_
  refine safe_observe_bind published_error hstate fun observation => ?_
  refine safe_context_bind published_error fun result hresult => ?_
  refine safe_settled_bind (i := i.observing observation.revision) published_error rfl hresult
    (fun hrevision => observed_last hrevision) ?_ ?_ ?_
  · intro h' d' hconfirmed
    exact hconfirmed
  · trivial
  · intro _
    dsimp only
    split
    · trivial
    · trivial
    · rename_i hpush hpublished
      have hphase : i.phase = .prepared := by
        cases hphase : i.phase with
        | preparing =>
          rw [hphase] at hfinished
          exact hfinished.elim
        | prepared => rfl
        | pushIntent => exact absurd hphase hpush
        | published => exact absurd hphase hpublished
      refine publishAuthorized_safe configuredRemote ?_ rfl hresult hphase
      refine hok.saved ?_
      exact .update hstate rfl ⟨rfl, rfl, rfl⟩ (.inl (Nat.le_refl _))

/-- A result is recorded where there is none. -/
lemma recordResult_safe {α : Type} {Q : List (Called git) → Files → Except String α → Prop}
    {f : IntegrationIntent → Git α} (hE : ∀ h d e, Q h d (.error e)) (hstate : d.state = some i)
    (hnone : i.result = none)
    (hf : ∀ h' d' j, d'.state = some j → j.phase = i.phase →
      (f j).Safe machine outline Q h' d') :
    (recordResult i >>= f).Safe machine outline Q h d := by
  refine Proc.Safe.bind (Q := fun h' d' r => ∀ j, r = .ok j →
    d'.state = some j ∧ j.phase = i.phase) ?_ ?_ ?_
  · have hQ : ∀ (h' : List (Called git)) (d' : Files) (e : String) (j : IntegrationIntent),
        Except.error e = Except.ok j → d'.state = some j ∧ j.phase = i.phase :=
      fun _ _ _ _ hj => by cases hj
    unfold recordResult
    refine reading.uses_bind hQ (by simp) fun h₁ created _ => ?_
    obtain ⟨result, resultTree⟩ := created
    refine reading.uses_bind hQ (by simp) fun h₂ _ _ => ?_
    refine reading.uses_bind hQ (by simp) fun h₃ _ _ => ?_
    refine safe_save_bind hQ ?_ ?_
    · intro k hk
      obtain rfl := Option.some.inj (hstate.symm.trans hk)
      refine ⟨_, rfl, rfl, fun r hr => ?_, .inl (Nat.le_refl _)⟩
      rw [hnone] at hr
      cases hr
    · rintro _ ⟨⟩
      exact ⟨rfl, rfl⟩
  · intro h' d' j hj
    obtain ⟨hstate', hphase⟩ := hj j rfl
    exact hf h' d' j hstate' hphase
  · intro h' d' e _
    exact hE h' d' e

/-- The end of a preparation. -/
lemma finishPreparation_safe (configuredRemote : String) (hstate : d.state = some i) :
    (finishPreparation i configuredRemote).Safe machine outline (fun _ _ _ => True) h d := by
  have hfinish : ∀ (h' : List (Called git)) (d' : Files) (j : IntegrationIntent),
      d'.state = some j → j.phase = .preparing →
      Proc.Safe machine outline (fun _ _ _ => True) (do
        materializeResultCheckout j configuredRemote
        let j := { j with phase := .prepared, revision := j.revision + 1 }
        validateResult j
        saveIntent j "prepared"
        return j) h' d' := by
    intro h' d' j hj hpreparing
    refine reading.uses_bind (fun _ _ _ => trivial) (by simp) fun h₁ _ _ => ?_
    refine reading.uses_bind (fun _ _ _ => trivial) (by simp) fun h₂ _ _ => ?_
    refine safe_save_bind (fun _ _ _ => trivial) ?_ trivial
    exact .update hj rfl ⟨rfl, rfl, rfl⟩ (.inl (hpreparing ▸ Nat.zero_le 1))
  unfold finishPreparation
  refine reading.uses_bind (fun _ _ _ => trivial) (by simp) fun h₁ _ _ => ?_
  split
  · exact reading.uses_bind (fun _ _ _ => trivial) (by simp) fun _ _ _ => trivial
  · rename_i hphase
    have hpreparing := Decidable.not_not.1 hphase
    split
    · rename_i hnone
      refine recordResult_safe (fun _ _ _ => trivial) hstate hnone fun h' d' j hj hsame => ?_
      exact hfinish h' d' j hj (hsame.trans hpreparing)
    · exact hfinish h₁ d i hstate hpreparing

/-- `prepare_integration`, where the state file can be inspected. -/
lemma prepareIntegration_safe (request : PrepareIntegration) :
    (prepareIntegration request).Safe machine outline (fun _ _ _ => True) h d := by
  unfold prepareIntegration
  refine reading.uses_bind (fun _ _ _ => trivial) (Proc.uses_ask _ trivial) fun h₁ _ _ => ?_
  refine reading.call trivial fun exist _ hinspected _ => ?_
  have hexist : exist = d.state.isSome := hinspected
  show Proc.Safe _ _ _ (if exist = true then _ else _) _ _
  split
  · refine safe_load_bind (fun _ _ _ => trivial) fun h₂ i _ hi => ?_
    refine reading.uses_bind (fun _ _ _ => trivial) (by simp) fun h₃ _ _ => ?_
    exact finishPreparation_safe _ hi
  · rename_i habsent
    refine reading.uses_bind (fun _ _ _ => trivial) (by simp) fun h₂ i _ => ?_
    refine safe_save_bind (fun _ _ _ => trivial) ?_ (finishPreparation_safe _ rfl)
    intro j hj
    rw [hexist, hj] at habsent
    exact absurd rfl habsent

/-- `materialize_prepared_result`. -/
lemma materializePreparedResult_safe (configuredRemote : String) :
    (materializePreparedResult configuredRemote).Safe machine outline (fun _ _ _ => True) h d := by
  unfold materializePreparedResult
  refine safe_loadPrepared_bind (fun _ _ _ => trivial) fun h₁ i _ hi _ => ?_
  refine reading.uses_bind (fun _ _ _ => trivial) (by simp) fun h₂ _ _ => ?_
  refine safe_save_bind (fun _ _ _ => trivial) ?_ trivial
  exact .update hi rfl ⟨rfl, rfl, rfl⟩ (.inl (Nat.le_refl _))

end Calls

/-- The outline is right. -/
theorem outline_valid : outline.Valid machine where
  procedure request d hI := by
    cases request with
    | prepare request =>
      exact (prepareIntegration_safe request).bind (fun _ _ _ _ => trivial) fun _ _ _ _ => trivial
    | reconcile configuredRemote =>
      refine (reconcilePublication_safe configuredRemote).bind ?_ fun _ _ _ _ => trivial
      intro h' d' outcome hpublished
      cases outcome <;> exact hpublished
    | materialize configuredRemote =>
      exact (materializePreparedResult_safe configuredRemote).bind (fun _ _ _ _ => trivial)
        fun _ _ _ _ => trivial
    | publish configuredRemote =>
      refine (publishPrepared_safe configuredRemote hI).bind ?_ fun _ _ _ _ => trivial
      intro h' d' outcome hpublished
      cases outcome <;> exact hpublished
  others d d' _ h := h.elim
  ends request h d d' result _ h := h.elim
  crash d d' hI _ hcrash := by
    simp only [machine, List.mem_cons, List.not_mem_nil, or_false] at hcrash
    rcases hcrash with rfl | rfl | rfl
    · exact hI
    · exact ⟨.refl _, hI.once, hI.pushed⟩
    · refine ⟨.refl _, hI.once, fun hone => ?_⟩
      obtain ⟨i, hi, hpushed⟩ := hI.pushed hone
      obtain ⟨j, hj, hmoves⟩ := hI.synced i hi
      exact ⟨j, hj, hmoves.pushed hpushed hone⟩

/-! ### Runs -/

/-- Any intent file, or none, before the calls. -/
structure Initial (d : Files) : Prop where
  synced : d.synced = d.state
  pushes : d.pushes = 0

lemma Initial.ok {d : Files} (h : Initial d) : d.Ok where
  synced := by
    rw [h.synced]
    exact .refl _
  once := by
    rw [h.pushes]
    exact Nat.zero_le 1
  pushed hone := by
    rw [h.pushes] at hone
    exact absurd hone (Nat.lt_irrefl 0)

/-- While the state file can be inspected, at most one push is started for an intent: from a durable
push intent and after an observation that followed a grant of authority, two seconds of which are
left. What is recorded stays and moves on, and a publication is reported once it was observed. -/
theorem one_push_per_intent {x : Files × Option (Running git String Request Reply)}
    (hx : machine.program.ReachableBy Inspected.Holds Initial x) :
    x.1.pushes ≤ 1 ∧
    (∀ event x', Inspected.Holds x event → machine.program.Step x event x' →
      Recorded x.1.pushes x.1.synced x'.1.synced ∧
        (Recorded x.1.pushes x.1.state x'.1.state ∨
          event = .crash ∧ x'.1.state = x.1.synced)) ∧
    (∀ run checkout lease refspec answer x', x.2 = some run →
      machine.program.Step x (.work (.call (.push checkout lease refspec) answer)) x' →
        PushReady run.history x.1) ∧
    (∀ run revision x', x.2 = some run →
      machine.program.Step x (.work (.finish (.ok (.outcome (.published revision))))) x' →
        Confirmed run.history x.1 revision) := by
  have hok := outline_valid.inv (fun _ => Initial.ok) hx
  refine ⟨hok.once, ?_, ?_, ?_⟩
  · intro event x' hinspected hstep
    cases hstep with
    | work hwork =>
      cases hwork with
      | start request => exact ⟨.refl _, .inl (.refl _)⟩
      | call hcall =>
        obtain ⟨hstate, hsynced, -⟩ := outline_valid.commits (fun _ => Initial.ok) hx hinspected
          (.work (.call hcall))
        exact ⟨hsynced, .inl hstate⟩
      | returned => exact ⟨.refl _, .inl (.refl _)⟩
      | failed => exact ⟨.refl _, .inl (.refl _)⟩
    | crash hcrash =>
      simp only [machine, Machine.program, List.mem_cons, List.not_mem_nil, or_false] at hcrash
      rcases hcrash with rfl | rfl | rfl
      · exact ⟨.refl _, .inl (.refl _)⟩
      · exact ⟨.refl _, .inr ⟨rfl, rfl⟩⟩
      · exact ⟨hok.synced, .inl (.refl _)⟩
    | others hothers => exact hothers.elim
  · rintro run checkout lease refspec answer ⟨d', s⟩ hrun hstep
    obtain ⟨d, _⟩ := x
    obtain rfl := hrun
    refine (outline_valid.commits (fun _ => Initial.ok) hx ?_ hstep).2.2 trivial
    trivial
  · rintro run revision ⟨d', s⟩ hrun hstep
    obtain ⟨d, _⟩ := x
    obtain rfl := hrun
    exact outline_valid.ended (fun _ => Initial.ok) hx hstep

/-! ### An intent written over another -/

/-- A target, and a candidate on top of it. -/
def target : String := "aaaaaaaaaaaaaaaaaaaaaaaaaaaaaaaaaaaaaaaa"

def candidate : String := "bbbbbbbbbbbbbbbbbbbbbbbbbbbbbbbbbbbbbbbb"

/-- Everything works, but that the push does not land. The checkout is at the target for the first
three calls of a preparation, and then where the intent has it. Whether the state file is found is
left open. -/
def world (found : Files → Bool) (k : Nat) : Plays Files git := fun d op =>
  match op with
  | .stateExists => (found d, 0)
  | .readIntent => (match d.state with | some i => .ok i | none => .error "absent", 0)
  | .captureCleanSnapshot _ _ =>
    (.ok ⟨"/c", "/c/.git/worktrees/w", "/c/.git", some "task", "r",
      if k ≤ 2 ∧ found d = false then target else
        match d.state.bind (·.result) with | some r => r | none => target, "t"⟩, 0)
  | .observeRemoteTarget _ _ branch => (.ok ⟨branch, some target, some "t"⟩, 0)
  | .revParse _ object =>
    (.ok (if object = target ++ "^\x7bcommit\x7d" then target
      else if object = candidate ++ "^\x7bcommit\x7d" then candidate else "t"), 0)
  | .isAncestor _ ancestor descendant =>
    (.ok (ancestor ≠ candidate ∨ descendant = candidate), 0)
  | .mergeBase .. => (.ok true, 0)
  | .push .. => (.ok false, 0)
  | .authorize _ => (.ok ⟨0, 30000000000⟩, 0)
  | .now => (0, 0)
  | .canonicalGitRoot _ => (.ok "/c", 0)
  | .canonicalRemoteIdentity .. => (.ok "r", 0)
  | .gitRemoteArgument .. => (.ok "r", 0)
  | .commitTree .. => (.error "no merge", 0)
  | .verifyRef .. => (.ok none, 0)
  | .mergeTree .. => (.ok none, 0)
  | .saveIntent .. | .validateBranch .. | .catFile .. | .updateRef .. | .mergeFastForward .. =>
    (.ok (), 0)

/-- A preparation whose look at the state file is told by `found`. -/
def prepares (found : Files → Bool) : Machine.Episode Files git Request :=
  ⟨.prepare ⟨"/c", "r", "main", target, target, candidate⟩, 100, world found⟩

def publishes : Machine.Episode Files git Request := ⟨.publish "r", 100, world fun d => d.state.isSome⟩

/-- An intent whose push was started is prepared again, and pushed again: the second preparation
could not inspect the state file. -/
theorem second_push_of_intent :
    ∃ x, machine.program.Reachable Initial x ∧ x.1.pushes = 2 := by
  have hplayed : (machine.episodes ⟨none, none, 0⟩
      [prepares fun d => d.state.isSome, publishes, prepares fun _ => false, publishes]).map
        Files.pushes = some 2 := by
    decide +kernel
  obtain ⟨d, hd, hpushes⟩ := Option.map_eq_some_iff.1 hplayed
  have hreach : machine.program.ReachableBy Condition.all.Holds Initial (d, none) :=
    Machine.reachable_of_episodes hd (fun _ _ _ _ _ _ _ _ => trivial)
      (fun _ => trivial)
      (.start ⟨rfl, rfl⟩)
  exact ⟨(d, none), hreach.reachable, hpushes⟩

/-- The intent is prepared again, but its file is found, and nothing is pushed again. -/
theorem one_push_per_intent_found :
    ∃ d, machine.episodes ⟨none, none, 0⟩ [prepares fun d => d.state.isSome, publishes,
      prepares fun d => d.state.isSome, publishes] = some d ∧ d.pushes ≤ 1 := by
  have hplayed : (machine.episodes ⟨none, none, 0⟩ [prepares fun d => d.state.isSome, publishes,
      prepares fun d => d.state.isSome, publishes]).isSome = true := by
    decide +kernel
  obtain ⟨d, hd⟩ := Option.isSome_iff_exists.1 hplayed
  refine ⟨d, hd, (one_push_per_intent (Machine.reachable_of_episodes hd ?_ (fun _ => trivial)
    (Program.ReachableBy.start ⟨rfl, rfl⟩))).1⟩
  intro e he k h d op _ _
  have hworld : e.world = world fun d => d.state.isSome := by
    simp only [List.mem_cons, List.not_mem_nil, or_false] at he
    rcases he with rfl | rfl | rfl | rfl <;> rfl
  rw [hworld]
  cases op <;> first | rfl | trivial

end AgentCoordinator.GitWorkflow
