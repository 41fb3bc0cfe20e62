import AgentCoordinator.Local.CandidatePush

/-
The helper publishes at most one candidate.

Each stage of a request has an assertion about the refs, which other writers cannot disturb as they
only ever put commits of their own. The invariant says how the helper knows its own commit: while
the candidate ref is where the helper put it, the lease names it, or the intent names it and there
is no lease. The intent may be cleared once the lease is written, or once the ref is elsewhere.
-/

namespace AgentCoordinator.CandidatePush

open Crash Transition

/-! ### The proof outline -/

/-- Every commit that the helper put in the candidate ref satisfies `p`. -/
def Refs.Put (d : Refs) (p : Oid → Prop) : Prop :=
  ∀ revision, d.remote = some (revision, .helper) → p revision

/-- What holds of the refs at every stage. -/
structure Refs.Ok (d : Refs) : Prop where
  put : d.Put fun revision =>
    d.lease = some revision ∨ (d.lease = none ∧ d.intent = some revision)
  once : d.created ≤ 1
  absent : d.remote = none → d.created = 0

/-- A readback of a revision that the helper knows as its own. -/
structure Readback.Owned (seen : Readback) (revision : Oid) : Prop where
  named : seen.named = revision
  known : seen.intent = some revision ∨ seen.lease = some revision

/-- The assertion of each stage. -/
def Stage.Holds : Stage → Refs → Prop
  | .owns _ observed, d => observed = none → d.Put fun _ => False
  | .intend _, d => d.lease = none ∧ d.Put fun _ => False
  | .push c, d | .reobserve c, d => d.lease = none ∧ d.intent = some c.revision
  | .readback c _, d => d.intent = some c.revision ∨ d.lease = some c.revision
  | .forget _, d => d.Put fun revision => d.lease = some revision
  | .lease c _ seen, d =>
    seen.Owned c.revision ∧ d.remote.isSome ∧ d.Put fun revision => revision = c.revision
  | .clear c _ seen, d =>
    seen.Owned c.revision ∧ d.remote.isSome ∧ d.lease = some c.revision ∧
      d.Put fun revision => revision = c.revision
  | .accepted receipt seen candidate, _ => receipt.commit.revision = seen ∧
    (receipt.kind = .candidate → ∃ readback, candidate = some readback ∧ readback.Owned seen)
  | _, _ => True

section Others

variable {d d' : Refs}

/-- Others leave the helper's own refs alone, and put no commit of the helper's. -/
lemma Others.frame (h : Others d d') :
    d'.lease = d.lease ∧ d'.intent = d.intent ∧ d'.created = d.created ∧
      (d'.remote = none → d.remote = none) ∧
      ∀ revision, d'.remote = some (revision, .helper) → d.remote = some (revision, .helper) := by
  cases h with
  | candidate revision =>
    refine ⟨rfl, rfl, rfl, ?_, ?_⟩
    · intro h
      cases h
    · intro r h
      cases h
  | wip name revision => exact ⟨rfl, rfl, rfl, id, fun _ h => h⟩

lemma Others.ok (h : Others d d') (hd : d.Ok) : d'.Ok := by
  obtain ⟨hlease, hintent, hcreated, hnone, hput⟩ := h.frame
  constructor
  · intro r hr
    rw [hlease, hintent]
    exact hd.put r (hput r hr)
  · rw [hcreated]
    exact hd.once
  · intro hr
    rw [hcreated]
    exact hd.absent (hnone hr)

/-- No assertion is disturbed by others. -/
lemma Others.holds (h : Others d d') {s : Stage} (hs : s.Holds d) : s.Holds d' := by
  obtain ⟨hlease, hintent, -, hnone, hput⟩ := h.frame
  have hsome : d.remote.isSome → d'.remote.isSome := by
    intro hr
    cases hd' : d'.remote with
    | none => simp [hnone hd'] at hr
    | some _ => rfl
  cases s with
  | owns c observed => exact fun ho r hr => hs ho r (hput r hr)
  | intend c => exact ⟨hlease ▸ hs.1, fun r hr => hs.2 r (hput r hr)⟩
  | push c | reobserve c => exact ⟨hlease ▸ hs.1, hintent ▸ hs.2⟩
  | readback c previous =>
    rcases hs with hs | hs
    · exact .inl (hintent ▸ hs)
    · exact .inr (hlease ▸ hs)
  | forget why => exact fun r hr => hlease ▸ hs r (hput r hr)
  | lease c previous seen => exact ⟨hs.1, hsome hs.2.1, fun r hr => hs.2.2 r (hput r hr)⟩
  | clear c previous seen =>
    exact ⟨hs.1, hsome hs.2.1, hlease ▸ hs.2.2.1, fun r hr => hs.2.2.2 r (hput r hr)⟩
  | _ => exact hs

end Others

/-! ### One operation -/

section Operation

variable {d : Refs}

/-- Without a helper's commit in the ref, the intent may be changed. -/
lemma Refs.Ok.intend (h : d.Ok) {intent : Option Oid} (hput : d.Put fun _ => False) :
    Refs.Ok { d with intent := intent } :=
  ⟨fun r hr => (hput r hr).elim, h.once, h.absent⟩

/-- The intent may be cleared once the lease says the same. -/
lemma Refs.Ok.forget (h : d.Ok) (hput : d.Put fun revision => d.lease = some revision) :
    Refs.Ok { d with intent := none } :=
  ⟨fun r hr => .inl (hput r hr), h.once, h.absent⟩

lemma Refs.Ok.leased (h : d.Ok) {revision : Oid} (hput : d.Put fun r => r = revision) :
    Refs.Ok { d with lease := some revision } :=
  ⟨fun r hr => .inl (congrArg some (hput r hr).symm), h.once, h.absent⟩

/-- What a push creates is what the intent names. -/
lemma Refs.Ok.create (h : d.Ok) {revision : Oid} (hlease : d.lease = none)
    (hintent : d.intent = some revision) : (d.create revision).Ok := by
  unfold Refs.create
  split
  · rename_i hnone
    refine ⟨?_, ?_, ?_⟩
    · intro r hr
      obtain ⟨rfl, -⟩ := Prod.mk.inj (Option.some.inj hr)
      exact .inr ⟨hlease, hintent⟩
    · have := h.absent hnone
      show d.created + 1 ≤ 1
      omega
    · intro hr
      cases hr
  · exact h

@[simp] lemma Refs.create_lease (revision : Oid) : (d.create revision).lease = d.lease := by
  unfold Refs.create
  split <;> rfl

@[simp] lemma Refs.create_intent (revision : Oid) : (d.create revision).intent = d.intent := by
  unfold Refs.create
  split <;> rfl

lemma Refs.createWip_frame (revision : Oid) : (d.createWip revision).remote = d.remote ∧
    (d.createWip revision).lease = d.lease ∧ (d.createWip revision).intent = d.intent ∧
    (d.createWip revision).created = d.created := by
  unfold Refs.createWip
  split <;> exact ⟨rfl, rfl, rfl, rfl⟩

/-- When the ref is not at the commit the helper meant to put there, the intent may be cleared. -/
lemma Refs.Ok.missed (h : d.Ok) {revision : Oid}
    (hknown : d.intent = some revision ∨ d.lease = some revision)
    (hmissed : d.observed ≠ some revision) : d.Put fun r => d.lease = some r := by
  intro r hr
  rcases h.put r hr with hlease | ⟨hlease, hintent⟩
  · exact hlease
  · refine absurd ?_ hmissed
    rcases hknown with hknown | hknown
    · rw [← hknown, hintent, Refs.observed, hr]
      rfl
    · rw [hlease] at hknown
      cases hknown

/-- `owns` lets the helper create an absent ref, or confirm the commit it knows. -/
lemma Refs.afterOwns_holds {c : Commit} {observed : Option Oid}
    (h : observed = none → d.Put fun _ => False) : (d.afterOwns c observed).Holds d := by
  unfold Refs.afterOwns
  split
  · trivial
  rename_i howns
  have howns : observed = d.lease ∨ observed.isSome ∧ observed = d.intent := by
    simpa [Refs.owns, or_iff_not_imp_left] using howns
  cases observed with
  | none =>
    rcases howns with hlease | ⟨hsome, -⟩
    · exact ⟨hlease.symm, h rfl⟩
    · cases hsome
  | some current =>
    show Stage.Holds (if current = c.revision then _ else _) d
    split
    · rename_i heq
      subst heq
      rcases howns with hlease | ⟨-, hintent⟩
      · exact .inr hlease.symm
      · exact .inl hintent.symm
    · trivial

lemma Refs.Ok.afterPush_holds {c : Commit} (hlease : d.lease = none)
    (hintent : d.intent = some c.revision) : (d.afterPush c).Holds d := by
  unfold Refs.afterPush
  split
  · exact .inl hintent
  · exact ⟨hlease, hintent⟩

lemma Refs.Ok.afterFailedPush_holds (h : d.Ok) {c : Commit}
    (hintent : d.intent = some c.revision) : (d.afterFailedPush c).Holds d := by
  unfold Refs.afterFailedPush
  split
  · exact .inl hintent
  rename_i hmissed
  split
  · exact h.missed (.inl hintent) hmissed
  · exact h.missed (.inl hintent) hmissed

/-- A readback sees the commit the helper knows, or one that lets it clear the intent. -/
lemma Refs.Ok.afterReadback_holds (h : d.Ok) {c : Commit} {previous : Option Oid}
    (hknown : d.intent = some c.revision ∨ d.lease = some c.revision) :
    (d.afterReadback c previous).Holds d := by
  unfold Refs.afterReadback
  split
  · rename_i named writer hremote
    split
    · rename_i heq
      subst heq
      refine ⟨⟨rfl, hknown⟩, by simp [hremote], ?_⟩
      intro r hr
      rw [hremote] at hr
      exact (Prod.mk.inj (Option.some.inj hr)).1.symm
    · rename_i hne
      refine h.missed hknown ?_
      rw [Refs.observed, hremote]
      intro heq
      exact hne (Option.some.inj heq)
  · rename_i hremote
    refine h.missed hknown ?_
    rw [Refs.observed, hremote]
    intro heq
    cases heq

lemma Refs.afterObserveWip_holds {c : Commit} : (d.afterObserveWip c).Holds d := by
  unfold Refs.afterObserveWip
  split
  · trivial
  · split <;> trivial

lemma Refs.afterReadbackWip_holds {c : Commit} {previous : Option Oid} :
    (d.afterReadbackWip c previous).Holds d := by
  unfold Refs.afterReadbackWip
  split
  · split
    · rename_i heq
      refine ⟨heq.symm, ?_⟩
      intro h
      cases h
    · trivial
  · trivial

lemma PushRequest.start_holds (q : PushRequest) : q.start.Holds d := by
  unfold PushRequest.start
  split <;> trivial

lemma PushRequest.publish_holds (q : PushRequest) : q.publish.Holds d := by
  unfold PushRequest.publish
  split <;> trivial

/-- An operation leads from its assertion to the next, however it ends. -/
lemma advance_holds (h : d.Ok) {s : Stage} (hs : s.Holds d) (outcome : Outcome) :
    (advance d s outcome).1.Ok ∧ (advance d s outcome).2.Holds (advance d s outcome).1 := by
  cases s with
  | idle => exact ⟨h, trivial⟩
  | checkLease c =>
    cases outcome with
    | ok =>
      refine ⟨h, ?_⟩
      show Stage.Holds (if _ then _ else _) d
      split <;> trivial
    | _ => exact ⟨h, trivial⟩
  | receive q =>
    cases outcome with
    | ok => exact ⟨h, q.publish_holds⟩
    | _ => exact ⟨h, trivial⟩
  | observe c =>
    cases outcome with
    | ok =>
      refine ⟨h, ?_⟩
      intro hnone r hr
      change d.remote = _ at hr
      rw [Refs.observed, hr] at hnone
      cases hnone
    | _ => exact ⟨h, trivial⟩
  | owns c observed =>
    cases outcome with
    | ok => exact ⟨h, d.afterOwns_holds hs⟩
    | _ => exact ⟨h, trivial⟩
  | intend c =>
    cases outcome with
    | ok => exact ⟨h.intend hs.2, hs.1, rfl⟩
    | unreported => exact ⟨h.intend hs.2, trivial⟩
    | failed why => exact ⟨h, trivial⟩
  | push c =>
    have hlease : (d.create c.revision).lease = none := by rw [Refs.create_lease, hs.1]
    have hintent : (d.create c.revision).intent = some c.revision := by
      rw [Refs.create_intent, hs.2]
    cases outcome with
    | ok => exact ⟨h.create hs.1 hs.2, Refs.Ok.afterPush_holds hlease hintent⟩
    | unreported => exact ⟨h.create hs.1 hs.2, hlease, hintent⟩
    | failed why => exact ⟨h, hs⟩
  | reobserve c =>
    cases outcome with
    | ok => exact ⟨h, h.afterFailedPush_holds hs.2⟩
    | _ => exact ⟨h, trivial⟩
  | forget why =>
    cases outcome with
    | failed why' => exact ⟨h, trivial⟩
    | _ => exact ⟨h.forget hs, trivial⟩
  | readback c previous =>
    cases outcome with
    | ok => exact ⟨h, h.afterReadback_holds hs⟩
    | _ => exact ⟨h, trivial⟩
  | lease c previous seen =>
    obtain ⟨hseen, hsome, hput⟩ := hs
    cases outcome with
    | ok => exact ⟨h.leased hput, hseen, hsome, rfl, hput⟩
    | unreported => exact ⟨h.leased hput, trivial⟩
    | failed why => exact ⟨h, trivial⟩
  | clear c previous seen =>
    obtain ⟨hseen, -, hlease, hput⟩ := hs
    have hok : Refs.Ok { d with intent := none } :=
      h.forget fun r hr => by rw [hlease, hput r hr]
    cases outcome with
    | ok =>
      refine ⟨hok, hseen.named.symm, fun _ => ⟨seen, rfl, rfl, ?_⟩⟩
      rw [hseen.named]
      exact hseen.known
    | unreported => exact ⟨hok, trivial⟩
    | failed why => exact ⟨h, trivial⟩
  | observeWip c =>
    cases outcome with
    | ok => exact ⟨h, d.afterObserveWip_holds⟩
    | _ => exact ⟨h, trivial⟩
  | pushWip c =>
    obtain ⟨hremote, hlease, hintent, hcreated⟩ := d.createWip_frame c.revision
    have hok : (d.createWip c.revision).Ok := by
      constructor
      · intro r hr
        rw [hlease, hintent]
        exact h.put r (hremote ▸ hr)
      · rw [hcreated]
        exact h.once
      · intro hr
        rw [hcreated]
        exact h.absent (hremote ▸ hr)
    cases outcome with
    | failed why => exact ⟨h, trivial⟩
    | _ => exact ⟨hok, trivial⟩
  | readbackWip c previous =>
    cases outcome with
    | ok => exact ⟨h, d.afterReadbackWip_holds⟩
    | _ => exact ⟨h, trivial⟩
  | accepted receipt seen candidate => exact ⟨h, hs⟩
  | refused why => exact ⟨h, trivial⟩

end Operation

/-- The assertions are a proof outline of the helper among other writers. -/
theorem helper_annotated : helper.Annotated (fun _ _ => True) Refs.Ok Stage.Holds where
  rest _ _ := trivial
  work d s outcome d' s' h hs _ hwork := by
    cases hwork with
    | request q _ => exact ⟨h, q.start_holds⟩
    | advance _ => exact advance_holds h hs outcome
  crash d s d' h _ _ hcrash := by
    obtain rfl : d' = d := hcrash
    exact h
  others d d' h hothers := ⟨hothers.ok h, fun _ hs => hothers.holds hs⟩

lemma Initial.ok {d : Refs} (h : Initial d) : d.Ok where
  put r hr := absurd hr (h.remote r)
  once := by simp [h.created]
  absent _ := h.created

/-! ### Requests -/

section Requests

variable {d : Refs}

/-- Every remote ref that `d` has is as it is in `d'`. -/
structure Refs.Kept (d d' : Refs) : Prop where
  candidate : ∀ value, d.remote = some value → d'.remote = some value
  wip : ∀ name revision, d.wip name = some revision → d'.wip name = some revision

lemma Refs.Kept.refl : d.Kept d := ⟨fun _ h => h, fun _ _ h => h⟩

/-- A push is create-only. -/
lemma Refs.create_kept (revision : Oid) : d.Kept (d.create revision) := by
  unfold Refs.create
  split
  · rename_i hnone
    refine ⟨?_, fun _ _ h => h⟩
    intro value h
    rw [hnone] at h
    cases h
  · exact .refl

lemma Refs.createWip_kept (revision : Oid) : d.Kept (d.createWip revision) := by
  unfold Refs.createWip
  split
  · rename_i hnone
    refine ⟨fun _ h => h, ?_⟩
    intro name r h
    show Function.update d.wip revision (some revision) name = some r
    rw [Function.update_of_ne ?_]
    · exact h
    · rintro rfl
      rw [hnone] at h
      cases h
  · exact .refl

/-- The helper changes and deletes no remote ref. -/
lemma advance_kept (s : Stage) (outcome : Outcome) : d.Kept (advance d s outcome).1 := by
  cases s with
  | push c =>
    cases outcome with
    | failed why => exact .refl
    | _ => exact d.create_kept c.revision
  | pushWip c =>
    cases outcome with
    | failed why => exact .refl
    | _ => exact d.createWip_kept c.revision
  | _ => cases outcome <;> exact ⟨fun _ h => h, fun _ _ h => h⟩

/-- The stages of a WIP request. -/
def Stage.OfWip : Stage → Prop
  | .receive q => q.kind = .wip
  | .observeWip _ | .pushWip _ | .readbackWip .. => True
  | _ => False

/-- The operations of a WIP request change neither lease nor intent, and lead to each other. -/
lemma advance_ofWip {s : Stage} (hs : s.OfWip) (outcome : Outcome) :
    (advance d s outcome).1.lease = d.lease ∧ (advance d s outcome).1.intent = d.intent ∧
      ((advance d s outcome).2.OfWip ∨ (advance d s outcome).2.Free) := by
  cases s with
  | receive q =>
    have hpublish : q.publish = .observeWip q.commit := by
      simp [PushRequest.publish, show q.kind = .wip from hs]
    cases outcome with
    | ok => exact ⟨rfl, rfl, .inl (by simp [advance, hpublish, Stage.OfWip])⟩
    | _ => exact ⟨rfl, rfl, .inr trivial⟩
  | observeWip c =>
    refine ⟨?_, ?_, ?_⟩
    · cases outcome <;> rfl
    · cases outcome <;> rfl
    cases outcome with
    | ok =>
      show (d.afterObserveWip c).OfWip ∨ (d.afterObserveWip c).Free
      unfold Refs.afterObserveWip
      repeat' split
      · exact .inl trivial
      · exact .inl trivial
      · exact .inr trivial
    | _ => exact .inr trivial
  | pushWip c =>
    obtain ⟨-, hlease, hintent, -⟩ := d.createWip_frame c.revision
    cases outcome with
    | failed why => exact ⟨rfl, rfl, .inl trivial⟩
    | _ => exact ⟨hlease, hintent, .inl trivial⟩
  | readbackWip c previous =>
    refine ⟨?_, ?_, .inr ?_⟩
    · cases outcome <;> rfl
    · cases outcome <;> rfl
    cases outcome with
    | ok =>
      show (d.afterReadbackWip c previous).Free
      unfold Refs.afterReadbackWip
      repeat' split
      all_goals trivial
    | _ => trivial
  | _ => cases hs

/-- A repeated request for the commit that the helper put in the ref is accepted. -/
lemma Refs.Ok.serve_again (h : d.Ok) (wip : Nat → Oid → Option Oid) {c : Commit}
    (hremote : d.remote = some (c.revision, .helper)) :
    (serve wip d (PushRequest.start ⟨.candidate, c⟩) 7).2 =
      .accepted ⟨.candidate, c, some c.revision⟩ c.revision
        (some ⟨c.revision, .helper, d.intent, d.lease⟩) := by
  have hlease : d.lease.all (· = c.revision) = true := by
    rcases h.put _ hremote with hlease | ⟨hlease, -⟩ <;> simp [hlease]
  have howns : ∀ d' : Refs, d'.lease = d.lease → d'.intent = d.intent →
      d'.owns (some c.revision) = true := by
    intro d' hlease' hintent'
    rw [Refs.owns, hlease', hintent']
    rcases h.put _ hremote with hlease | ⟨-, hintent⟩
    · simp [hlease]
    · simp [hintent]
  simp [serve, PushRequest.start, advance, hlease, PushRequest.publish, Refs.observed, hremote,
    Refs.afterOwns, howns, Refs.afterReadback]

end Requests

/-! ### At most one candidate -/

/-- The helper publishes at most one candidate, in every state that any run reaches: it changes no
ref that exists, creates the candidate ref at most once, accepts only what a readback named and
what the lease or the intent of that moment named too, accepts again what it has published, and
its WIP requests touch neither lease nor intent. -/
theorem candidate_published_once {x : Refs × Stage} (hx : helper.Reachable Initial x) :
    x.1.created ≤ 1 ∧
    (∀ event x', helper.Step x event x' → event ≠ .others → x.1.Kept x'.1) ∧
    (∀ receipt seen candidate, x.2 = .accepted receipt seen candidate →
      receipt.commit.revision = seen ∧ (receipt.kind = .candidate →
        ∃ readback, candidate = some readback ∧ readback.named = seen ∧
          (readback.intent = some seen ∨ readback.lease = some seen))) ∧
    (∀ wip c, x.1.remote = some (c.revision, .helper) →
      ∃ readback, (serve wip x.1 (PushRequest.start ⟨.candidate, c⟩) 7).2 =
        .accepted ⟨.candidate, c, some c.revision⟩ c.revision (some readback)) ∧
    (x.2.OfWip → ∀ event x', helper.Step x event x' →
      x'.1.lease = x.1.lease ∧ x'.1.intent = x.1.intent ∧ (x'.2.OfWip ∨ x'.2.Free)) := by
  obtain ⟨hok, hholds⟩ := helper_annotated.reachable (fun _ => Initial.ok) hx
  refine ⟨hok.once, ?_, ?_, ?_, ?_⟩
  · intro event x' hstep hevent
    cases hstep with
    | work hwork =>
      cases hwork with
      | request q _ => exact .refl
      | advance _ => exact advance_kept _ _
    | crash hcrash =>
      obtain rfl : _ = _ := hcrash
      exact .refl
    | others _ => exact absurd rfl hevent
  · rintro receipt seen candidate hs
    rw [hs] at hholds
    refine ⟨hholds.1, fun hkind => ?_⟩
    obtain ⟨readback, hcandidate, howned⟩ := hholds.2 hkind
    exact ⟨readback, hcandidate, howned.named, howned.known⟩
  · intro wip c hremote
    exact ⟨_, hok.serve_again wip hremote⟩
  · intro hwip event x' hstep
    cases hstep with
    | @work d d' s s' _ hwork =>
      cases hwork with
      | request q hfree => cases s <;> first | exact hwip.elim | exact hfree.elim
      | advance _ => exact advance_ofWip hwip _
    | crash hcrash =>
      obtain rfl : _ = _ := hcrash
      exact ⟨rfl, rfl, .inr trivial⟩
    | others hothers =>
      obtain ⟨hlease, hintent, -⟩ := hothers.frame
      exact ⟨hlease, hintent, .inl hwip⟩

/-! ### Two runs -/

/-- An instruction for a run: a request comes in, an operation ends, another writer moves the
candidate ref. -/
inductive Act
  | request (q : PushRequest)
  | operation (outcome : Outcome)
  | moved (revision : Oid)

instance : DecidablePred Stage.Free := fun s => by
  cases s <;> simp only [Stage.Free] <;> infer_instance

/-- The state after an instruction. -/
def act (x : Refs × Stage) : Act → Option (Refs × Stage)
  | .request q => if x.2.Free then some (x.1, q.start) else none
  | .operation outcome => if x.2.Free then none else some (advance x.1 x.2 outcome)
  | .moved revision => some ({ x.1 with remote := some (revision, .other) }, x.2)

lemma act_step {x x' : Refs × Stage} {a : Act} (h : act x a = some x') :
    ∃ event, helper.Step x event x' := by
  obtain ⟨d, s⟩ := x
  cases a with
  | request q =>
    simp only [act, Option.ite_none_right_eq_some, Option.some.injEq] at h
    obtain ⟨hfree, rfl⟩ := h
    exact ⟨.work .ok, .work (.request q hfree)⟩
  | operation outcome =>
    simp only [act, Option.ite_none_left_eq_some, Option.some.injEq] at h
    obtain ⟨hbusy, rfl⟩ := h
    exact ⟨.work outcome, .work (.advance hbusy)⟩
  | moved revision =>
    obtain rfl := Option.some.inj h
    exact ⟨.others, .others (.candidate revision)⟩

/-- A helper at an absent ref. -/
def noRefs : Refs := ⟨none, fun _ => none, none, none, 0⟩

lemma reachable_of_acts (acts : List Act) {x : Refs × Stage}
    (h : follow act (fun _ _ => True) (noRefs, .idle) acts = some x) :
    helper.Reachable Initial x := by
  refine (run_of_follow h).invariant (I := fun x => helper.Reachable Initial x) ?_ ?_
  · intro s i s' hs _ hstep
    obtain ⟨event, hevent⟩ := act_step hstep
    exact hs.step hevent trivial
  · refine Program.ReachableBy.start (P := helper) ⟨rfl, rfl, rfl, ?_⟩
    intro revision h
    cases h

/-- A request for a commit, all of whose operations succeed. -/
def Commit.pushed (c : Commit) (operations : Nat) : List Act :=
  .request ⟨.candidate, c⟩ :: List.replicate operations (.operation .ok)

/-- The lease is not written although the push has landed, and the request is repeated. -/
theorem candidate_published_once_unleased :
    ∃ readback, (serve (fun _ _ => none) ⟨some ("a1", .helper), fun _ => none, none, some "a1", 1⟩
      (PushRequest.start ⟨.candidate, ⟨"a1", "t1"⟩⟩) 7).2 =
        .accepted ⟨.candidate, ⟨"a1", "t1"⟩, some "a1"⟩ "a1" (some readback) :=
  (candidate_published_once (x := (⟨some ("a1", .helper), fun _ => none, none, some "a1", 1⟩,
    .refused ⟨.internal, "helper could not record its lease"⟩))
    (reachable_of_acts (Commit.pushed ⟨"a1", "t1"⟩ 7 ++
      [.operation (.failed alreadyPublished)]) rfl)).2.2.2.1 _ ⟨"a1", "t1"⟩ rfl

/-- A commit that another writer put in the ref is accepted though no intent names it: it is the
one the helper has published before, the ref was moved away, and it was moved back. -/
theorem candidate_accepted_without_intent :
    ∃ x receipt seen readback, helper.Reachable Initial x ∧
      x.2 = .accepted receipt seen (some readback) ∧ readback.writer = .other ∧
      readback.intent ≠ some seen := by
  have hrun : follow act (fun _ _ => True) (noRefs, .idle)
      (Commit.pushed ⟨"a1", "t1"⟩ 9 ++ [.moved "b2", .moved "a1"] ++
        Commit.pushed ⟨"a1", "t1"⟩ 7) =
      some (⟨some ("a1", .other), fun _ => none, some "a1", none, 1⟩,
        .accepted ⟨.candidate, ⟨"a1", "t1"⟩, some "a1"⟩ "a1"
          (some ⟨"a1", .other, none, some "a1"⟩)) := rfl
  refine ⟨_, _, _, _, reachable_of_acts _ hrun, rfl, rfl, ?_⟩
  intro h
  cases h

end AgentCoordinator.CandidatePush
