import Mathlib.Algebra.Group.Nat.Defs
import AgentCoordinator.Library.Crash
import Mathlib.Logic.Function.Basic

/-
The candidate push helper.

One helper owns one candidate ref of a remote, and creates it at most once. What it has pushed it
infers from three refs: the remote one, its lease (the push it has confirmed), and its intent (the
push it is about to make). Each operation of a request is one Git command; the helper may crash
between any two, and other writers may create or move the remote refs at any time.
-/

namespace AgentCoordinator

open Crash

namespace CandidatePush

/-! ### Protocol -/

/-- A full object ID, in lowercase. -/
abbrev Oid := String

/-- `PushKind`. -/
inductive PushKind | candidate | wip
  deriving DecidableEq, Repr

/-- The commit a request names, with its tree. -/
structure Commit where
  revision : Oid
  tree : Oid
  deriving DecidableEq, Repr

/-- `PushRequest`. -/
structure PushRequest where
  kind : PushKind
  commit : Commit
  deriving DecidableEq, Repr

/-- `RefusalCode`. -/
inductive RefusalCode
  | badRequest | tooLarge | bundleInvalid | revisionMismatch | secretDetected | leaseConflict
  | candidateAlreadyPublished | pushFailed | internal
  deriving DecidableEq, Repr

/-- `PushRefusal`. -/
structure PushRefusal where
  code : RefusalCode
  message : String
  deriving DecidableEq, Repr

/-- `PushReceipt`; its ref is the one of the request's kind. -/
structure PushReceipt where
  kind : PushKind
  commit : Commit
  previous : Option Oid
  deriving DecidableEq, Repr

/-- `already_published`. -/
def alreadyPublished : PushRefusal :=
  ⟨.candidateAlreadyPublished,
    "this helper already published a different commit and publishes only one"⟩

/-- `wip_conflict`. -/
def wipConflict : PushRefusal :=
  ⟨.leaseConflict, "the WIP ref names another commit; WIP refs are never updated"⟩

/-! ### State -/

/-- Who put a commit where it is. -/
inductive Writer | helper | other
  deriving DecidableEq, Repr

/-- The refs, with who put the candidate there and how often the helper has created the ref. -/
structure Refs where
  /-- The candidate ref of the remote. -/
  remote : Option (Oid × Writer)
  /-- The WIP refs of the remote, by the revision in their names. -/
  wip : Oid → Option Oid
  lease : Option Oid
  intent : Option Oid
  created : Nat

/-- The commit the remote advertises for the candidate ref. -/
def Refs.observed (d : Refs) : Option Oid := d.remote.map Prod.fst

/-- What the readback of a request saw. -/
structure Readback where
  named : Oid
  writer : Writer
  intent : Option Oid
  lease : Option Oid
  deriving DecidableEq, Repr

/-- The next operation of a request. -/
inductive Stage
  | idle
  /-- `refuse_other_than_leased`. -/
  | checkLease (c : Commit)
  /-- `receive_bundle`, `import` and `scan`. -/
  | receive (q : PushRequest)
  /-- `publish`: its first observation. -/
  | observe (c : Commit)
  /-- `owns`. -/
  | owns (c : Commit) (observed : Option Oid)
  /-- Record the intent. -/
  | intend (c : Commit)
  /-- `push_create`. -/
  | push (c : Commit)
  /-- `push`: the observation after a push that reported a failure. -/
  | reobserve (c : Commit)
  /-- `clear_intent`, and then refuse. -/
  | forget (why : PushRefusal)
  /-- `confirm`: its readback. -/
  | readback (c : Commit) (previous : Option Oid)
  /-- Record the lease. -/
  | lease (c : Commit) (previous : Option Oid) (seen : Readback)
  /-- `clear_intent`, and then accept. -/
  | clear (c : Commit) (previous : Option Oid) (seen : Readback)
  /-- `publish_wip`: its first observation. -/
  | observeWip (c : Commit)
  /-- `push_create` of the WIP ref. -/
  | pushWip (c : Commit)
  /-- `publish_wip`: its readback. -/
  | readbackWip (c : Commit) (previous : Option Oid)
  | accepted (receipt : PushReceipt) (seen : Oid) (candidate : Option Readback)
  | refused (why : PushRefusal)
  deriving DecidableEq, Repr

/-- How one operation ends: done, done but reported as failed, or not done. -/
inductive Outcome
  | ok
  | unreported
  | failed (why : PushRefusal)

/-! ### The operations of a request -/

/-- The first operation of a request: a lease is looked at for a candidate only. -/
def PushRequest.start (q : PushRequest) : Stage :=
  match q.kind with
  | .candidate => .checkLease q.commit
  | .wip => .receive q

/-- The first operation after `receive`. -/
def PushRequest.publish (q : PushRequest) : Stage :=
  match q.kind with
  | .candidate => .observe q.commit
  | .wip => .observeWip q.commit

/-- The refusal of an observation that failed. -/
def notObserved : Stage := .refused ⟨.pushFailed, "helper could not observe the candidate ref"⟩

/-- The refusal of a bookkeeping ref that could not be read. -/
def notRead : Stage := .refused ⟨.internal, "helper could not read its bookkeeping refs"⟩

/-- The remote value is this helper's: its lease, or its intent. -/
def Refs.owns (d : Refs) (observed : Option Oid) : Bool :=
  observed = d.lease || (observed.isSome && observed = d.intent)

/-- The stage after `owns`. -/
def Refs.afterOwns (d : Refs) (c : Commit) (observed : Option Oid) : Stage :=
  if d.owns observed = false then
    .refused ⟨.leaseConflict, "the candidate ref is not one this helper pushed"⟩
  else match observed with
    | none => .intend c
    | some current => if current = c.revision then .readback c observed else .refused alreadyPublished

/-- A create-only push of the candidate: the remote takes it only while the ref is absent. -/
def Refs.create (d : Refs) (revision : Oid) : Refs :=
  match d.remote with
  | none => { d with remote := some (revision, .helper), created := d.created + 1 }
  | some _ => d

/-- The stage after a push: Git reports success when the remote has the revision now. -/
def Refs.afterPush (d : Refs) (c : Commit) : Stage :=
  if d.observed = some c.revision then .readback c none else .reobserve c

/-- The stage after the observation that follows a failed push. -/
def Refs.afterFailedPush (d : Refs) (c : Commit) : Stage :=
  if d.observed = some c.revision then .readback c none
  else if d.observed.isSome then
    .forget ⟨.leaseConflict, "the candidate ref moved while this helper pushed it"⟩
  else .forget ⟨.pushFailed, "Git could not push the candidate"⟩

/-- The stage after the readback of a candidate. -/
def Refs.afterReadback (d : Refs) (c : Commit) (previous : Option Oid) : Stage :=
  match d.remote with
  | some (named, writer) =>
    if named = c.revision then .lease c previous ⟨named, writer, d.intent, d.lease⟩
    else .forget ⟨.pushFailed, "the remote does not show the pushed candidate"⟩
  | none => .forget ⟨.pushFailed, "the remote does not show the pushed candidate"⟩

/-- A create-only push of a WIP ref. -/
def Refs.createWip (d : Refs) (revision : Oid) : Refs :=
  match d.wip revision with
  | none => { d with wip := Function.update d.wip revision (some revision) }
  | some _ => d

/-- The stage after the first observation of a WIP ref. -/
def Refs.afterObserveWip (d : Refs) (c : Commit) : Stage :=
  match d.wip c.revision with
  | none => .pushWip c
  | some current =>
    if current = c.revision then .readbackWip c (some current) else .refused wipConflict

/-- The stage after the readback of a WIP ref. -/
def Refs.afterReadbackWip (d : Refs) (c : Commit) (previous : Option Oid) : Stage :=
  match d.wip c.revision with
  | some now =>
    if now = c.revision then .accepted ⟨.wip, c, previous⟩ now none else .refused wipConflict
  | none => .refused ⟨.pushFailed, "Git could not push the WIP ref"⟩

/-- One operation with its outcome. An operation that only reads is done or not. -/
def advance (d : Refs) : Stage → Outcome → Refs × Stage
  | .checkLease c, .ok =>
    (d, if d.lease.all (· = c.revision) then .receive ⟨.candidate, c⟩ else .refused alreadyPublished)
  | .checkLease _, _ => (d, notRead)
  | .receive q, .ok => (d, q.publish)
  | .receive _, .failed why => (d, .refused why)
  | .receive _, .unreported =>
    (d, .refused ⟨.internal, "helper could not prepare its private repository"⟩)
  | .observe c, .ok => (d, .owns c d.observed)
  | .observe _, _ => (d, notObserved)
  | .owns c observed, .ok => (d, d.afterOwns c observed)
  | .owns .., _ => (d, notRead)
  | .intend c, .ok => ({ d with intent := some c.revision }, .push c)
  | .intend c, .unreported =>
    ({ d with intent := some c.revision },
      .refused ⟨.internal, "helper could not record its intent"⟩)
  | .intend _, .failed _ => (d, .refused ⟨.internal, "helper could not record its intent"⟩)
  | .push c, .ok => (d.create c.revision, (d.create c.revision).afterPush c)
  | .push c, .unreported => (d.create c.revision, .reobserve c)
  | .push c, .failed _ => (d, .reobserve c)
  | .reobserve c, .ok => (d, d.afterFailedPush c)
  | .reobserve _, _ => (d, notObserved)
  | .forget why, .ok => ({ d with intent := none }, .refused why)
  | .forget _, .unreported =>
    ({ d with intent := none }, .refused ⟨.internal, "helper could not clear its intent"⟩)
  | .forget _, .failed _ => (d, .refused ⟨.internal, "helper could not clear its intent"⟩)
  | .readback c previous, .ok => (d, d.afterReadback c previous)
  | .readback .., _ => (d, notObserved)
  | .lease c previous seen, .ok => ({ d with lease := some c.revision }, .clear c previous seen)
  | .lease c _ _, .unreported =>
    ({ d with lease := some c.revision }, .refused ⟨.internal, "helper could not record its lease"⟩)
  | .lease .., .failed _ => (d, .refused ⟨.internal, "helper could not record its lease"⟩)
  | .clear c previous seen, .ok =>
    ({ d with intent := none }, .accepted ⟨.candidate, c, previous⟩ seen.named (some seen))
  | .clear .., .unreported =>
    ({ d with intent := none }, .refused ⟨.internal, "helper could not clear its intent"⟩)
  | .clear .., .failed _ => (d, .refused ⟨.internal, "helper could not clear its intent"⟩)
  | .observeWip c, .ok => (d, d.afterObserveWip c)
  | .observeWip _, _ => (d, notObserved)
  | .pushWip c, .ok => (d.createWip c.revision, .readbackWip c none)
  | .pushWip c, .unreported => (d.createWip c.revision, .readbackWip c none)
  | .pushWip c, .failed _ => (d, .readbackWip c none)
  | .readbackWip c previous, .ok => (d, d.afterReadbackWip c previous)
  | .readbackWip .., _ => (d, notObserved)
  | .idle, _ => (d, .idle)
  | .accepted receipt seen candidate, _ => (d, .accepted receipt seen candidate)
  | .refused why, _ => (d, .refused why)

/-- The helper serves one request at a time. -/
def Stage.Free : Stage → Prop
  | .idle | .accepted .. | .refused _ => True
  | _ => False

/-- Work of the helper: it takes a request, or goes on with the one it has. -/
inductive Work : Refs → Stage → Outcome → Refs → Stage → Prop
  | request {d : Refs} {s : Stage} {outcome : Outcome} (q : PushRequest) (h : s.Free) :
      Work d s outcome d q.start
  | advance {d : Refs} {s : Stage} {outcome : Outcome} (h : ¬ s.Free) :
      Work d s outcome (advance d s outcome).1 (advance d s outcome).2

/-- Other writers create or move the refs of the remote; they delete none. -/
inductive Others : Refs → Refs → Prop
  | candidate {d : Refs} (revision : Oid) :
      Others d { d with remote := some (revision, .other) }
  | wip {d : Refs} (name revision : Oid) :
      Others d { d with wip := Function.update d.wip name (some revision) }

/-- The helper among other writers. -/
def helper : Program Refs Stage Outcome where
  rest := .idle
  work := Work
  crash d d' := d' = d
  others := Others

/-- A helper that has recorded nothing yet. -/
structure Initial (d : Refs) : Prop where
  lease : d.lease = none
  intent : d.intent = none
  created : d.created = 0
  remote : ∀ revision, d.remote ≠ some (revision, .helper)

/-- Operations of the helper without a failure. Before each, others may have changed WIP refs, but
not the candidate ref. -/
def serve (wip : Nat → Oid → Option Oid) (d : Refs) (s : Stage) : Nat → Refs × Stage
  | 0 => (d, s)
  | n + 1 =>
    let next := advance { d with wip := wip n } s .ok
    serve wip next.1 next.2 n

end CandidatePush

end AgentCoordinator
