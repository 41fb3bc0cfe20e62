import AgentCoordinator.Library.Procedure

/-
Publication of an integration result.

An integration intent is a protected file that survives the process. `prepare_integration` creates
it and its result, `publish_prepared` pushes the result under fresh authority, and
`reconcile_publication` and `materialize_prepared_result` go on after an interruption. All of them
hold the intent lock, so that one runs at a time. What Git, the remote and the service answer is
left open; the journal beside the file is written by `save_intent` and read by nothing.
-/

namespace AgentCoordinator.GitWorkflow

open Procedure

/-! ### Data -/

/-- `IntegrationPhase`. -/
inductive IntegrationPhase | preparing | prepared | pushIntent | published
  deriving DecidableEq, Repr

/-- `CleanSnapshot`. -/
structure CleanSnapshot where
  checkout : String
  gitDir : String
  commonGitDir : String
  branch : Option String
  remote : String
  revision : String
  tree : String
  deriving DecidableEq, Repr

/-- `RemoteTargetObservation`. -/
structure RemoteTargetObservation where
  targetBranch : String
  revision : Option String
  tree : Option String
  deriving DecidableEq, Repr

/-- `PrepareIntegration`, but for the state file. -/
structure PrepareIntegration where
  checkout : String
  configuredRemote : String
  targetBranch : String
  expectedTarget : String
  candidateBase : String
  candidate : String
  deriving DecidableEq, Repr

/-- What an `IntegrationIntent` is prepared from. -/
structure IntentInputs where
  checkout : String
  gitDir : String
  commonGitDir : String
  checkoutBranch : String
  remote : String
  targetBranch : String
  expectedTarget : String
  expectedTargetTree : String
  candidateBase : String
  candidate : String
  candidateTree : String
  deriving DecidableEq, Repr

/-- `IntegrationIntent`. -/
structure IntegrationIntent extends IntentInputs where
  version : Nat
  revision : Nat
  phase : IntegrationPhase
  result : Option String
  resultTree : Option String
  localResultRef : Option String
  lastObservedTarget : Option String
  deriving DecidableEq, Repr

/-- `INTENT_VERSION`. -/
def intentVersion : Nat := 1

/-- `PublicationAuthorizationContext`. -/
structure PublicationAuthorizationContext where
  targetBranch : String
  expectedTarget : String
  expectedTargetTree : String
  candidate : String
  result : String
  resultTree : String
  deriving DecidableEq, Repr

/-- `FreshPublicationAuthority`, in nanoseconds. -/
structure FreshPublicationAuthority where
  grantedAt : Nat
  validFor : Nat
  deriving DecidableEq, Repr

/-- `FreshPublicationAuthority::remaining`. -/
def FreshPublicationAuthority.remaining (a : FreshPublicationAuthority) (now : Nat) : Nat :=
  a.validFor - (now - a.grantedAt)

/-- `Duration::from_secs(2)`. -/
def twoSeconds : Nat := 2000000000

/-- `PublicationOutcome`. -/
inductive PublicationOutcome
  | published (revision : String)
  | targetMoved (expected : String) (observed : Option String)
  | notPublished (observed : Option String)
  | uncertain (observed : Option String)
  deriving DecidableEq, Repr

/-- What a call replies: the intent that a summary is made of, or an outcome. -/
inductive Reply
  | summary (intent : IntegrationIntent)
  | outcome (outcome : PublicationOutcome)
  deriving DecidableEq, Repr

/-! ### Operations -/

/-- What the calls do outside their own memory. -/
inductive Op
  /-- `Path::exists` of the state file, which is also false when the file cannot be inspected. -/
  | stateExists
  | readIntent
  | saveIntent (intent : IntegrationIntent) (event : String)
  | captureCleanSnapshot (checkout remote : String)
  | validateBranch (checkout branch : String)
  | canonicalGitRoot (checkout : String)
  | canonicalRemoteIdentity (checkout remote : String)
  | observeRemoteTarget (checkout remote branch : String)
  | gitRemoteArgument (checkout remote : String)
  /-- `git rev-parse`, of a commit that has to exist. -/
  | revParse (checkout object : String)
  /-- `git rev-parse --verify`, of a ref that may be absent. -/
  | verifyRef (checkout reference : String)
  /-- `git merge-base --is-ancestor`. -/
  | isAncestor (checkout ancestor descendant : String)
  /-- `git merge-base`. -/
  | mergeBase (checkout left right : String)
  /-- `git merge-tree`; no tree when there are conflicts. -/
  | mergeTree (checkout target candidate : String)
  /-- `git cat-file -e`. -/
  | catFile (checkout object : String)
  | commitTree (checkout tree target candidate message : String)
  | updateRef (checkout reference revision : String)
  /-- `git merge --ff-only`. -/
  | mergeFastForward (checkout revision : String)
  /-- The callback of `publish_prepared`. -/
  | authorize (context : PublicationAuthorizationContext)
  | now
  /-- `git push`; whether it reported success. -/
  | push (checkout lease refspec : String)
  deriving DecidableEq, Repr

/-- The operations with their answers. -/
@[reducible] def git : Interface where
  Op := Op
  Answer
    | .stateExists => Bool
    | .readIntent => Except String IntegrationIntent
    | .captureCleanSnapshot .. => Except String CleanSnapshot
    | .canonicalGitRoot _ | .canonicalRemoteIdentity .. | .gitRemoteArgument .. |
      .revParse .. | .commitTree .. => Except String String
    | .observeRemoteTarget .. => Except String RemoteTargetObservation
    | .verifyRef .. | .mergeTree .. => Except String (Option String)
    | .isAncestor .. | .mergeBase .. | .push .. => Except String Bool
    | .authorize _ => Except String FreshPublicationAuthority
    | .now => Nat
    | .saveIntent .. | .validateBranch .. | .catFile .. | .updateRef .. | .mergeFastForward .. =>
      Except String Unit

/-- A call, or a part of one. -/
abbrev Git := Proc git String

/-! ### The state file -/

/-- `Path::exists`. -/
def stateExists : Git Bool := .call .stateExists .pure

/-- `Instant::now`. -/
def now : Git Nat := .call .now .pure

/-- `load_intent`. -/
def loadIntent : Git IntegrationIntent := do
  let intent ← .ask .readIntent id
  .ensure (intent.version = intentVersion) "unsupported integration intent version"
  return intent

/-- `save_intent`. -/
def saveIntent (intent : IntegrationIntent) (event : String) : Git Unit :=
  .ask (.saveIntent intent event) id

/-- `mark_published`. -/
def markPublished (intent : IntegrationIntent) : Git IntegrationIntent :=
  if intent.phase ≠ .published then do
    let intent := { intent with phase := .published, revision := intent.revision + 1 }
    saveIntent intent "published"
    return intent
  else return intent

/-- `record_observation`. -/
def recordObservation (intent : IntegrationIntent) (observed : Option String) (event : String) :
    Git IntegrationIntent := do
  let intent := { intent with lastObservedTarget := observed, revision := intent.revision + 1 }
  saveIntent intent event
  return intent

/-! ### Git -/

/-- `capture_clean_snapshot`. -/
def captureCleanSnapshot (checkout remote : String) : Git CleanSnapshot :=
  .ask (.captureCleanSnapshot checkout remote) id

/-- `observe_remote_target`. -/
def observeRemoteTarget (checkout remote branch : String) : Git RemoteTargetObservation :=
  .ask (.observeRemoteTarget checkout remote branch) id

/-- `git rev-parse`. -/
def revParse (checkout object : String) : Git String := .ask (.revParse checkout object) id

/-- `git rev-parse --verify`. -/
def verifyRef (checkout reference : String) : Git (Option String) :=
  .ask (.verifyRef checkout reference) id

/-- `git cat-file -e`. -/
def catFile (checkout object : String) : Git Unit := .ask (.catFile checkout object) id

/-- `git update-ref`. -/
def updateRef (checkout reference revision : String) : Git Unit :=
  .ask (.updateRef checkout reference revision) id

/-- `git merge-base`. -/
def mergeBase (checkout left right : String) : Git Bool := .ask (.mergeBase checkout left right) id

/-- `git merge-tree`. -/
def mergeTree (checkout target candidate : String) : Git (Option String) :=
  .ask (.mergeTree checkout target candidate) id

/-- `git commit-tree`. -/
def commitTree (checkout tree target candidate message : String) : Git String :=
  .ask (.commitTree checkout tree target candidate message) id

/-- `git merge --ff-only`. -/
def mergeFastForward (checkout revision : String) : Git Unit :=
  .ask (.mergeFastForward checkout revision) id

/-- `validate_branch`. -/
def validateBranch (checkout branch : String) : Git Unit :=
  .ask (.validateBranch checkout branch) id

/-- `canonical_git_root`. -/
def canonicalGitRoot (checkout : String) : Git String := .ask (.canonicalGitRoot checkout) id

/-- `canonical_remote_identity`. -/
def canonicalRemoteIdentity (checkout remote : String) : Git String :=
  .ask (.canonicalRemoteIdentity checkout remote) id

/-- `git_remote_argument`. -/
def gitRemoteArgument (checkout remote : String) : Git String :=
  .ask (.gitRemoteArgument checkout remote) id

/-- `validate_full_oid`. -/
def fullOid (value : String) : Bool :=
  (value.length = 40 || value.length = 64) && value.toList.all fun c =>
    c.isDigit || ('a' ≤ c && c ≤ 'f') || ('A' ≤ c && c ≤ 'F')

/-- `validate_full_oid`, with its error. -/
def validateFullOid (value : String) : Git Unit :=
  .ensure (fullOid value) "revision must be a full hexadecimal Git object ID"

/-- `resolve_exact_commit`. -/
def resolveExactCommit (checkout revision : String) : Git String := do
  validateFullOid revision
  let revision := revision.toLower
  catFile checkout (revision ++ "^\x7bcommit\x7d")
  let resolved ← revParse checkout (revision ++ "^\x7bcommit\x7d")
  .ensure (resolved = revision) "commit object ID did not resolve exactly"
  return revision

/-- The tree of a commit. -/
def treeOf (checkout revision : String) : Git String :=
  revParse checkout (revision ++ "^\x7btree\x7d")

/-- `is_ancestor`. -/
def isAncestor (checkout ancestor descendant : String) : Git Bool :=
  .ask (.isAncestor checkout ancestor descendant) id

/-- `ensure_ancestor`. -/
def ensureAncestor (checkout ancestor descendant message : String) : Git Unit := do
  .ensure (← isAncestor checkout ancestor descendant) message

/-- `ensure_related`. -/
def ensureRelated (checkout left right : String) : Git Unit := do
  .ensure (← mergeBase checkout left right) "candidate and target have unrelated histories"

/-- `update_isolated_ref`. -/
def updateIsolatedRef (checkout reference result : String) : Git Unit := do
  match ← verifyRef checkout reference with
  | some value =>
    .ensure (value = result) "isolated integration result ref already names another commit"
  | none => updateRef checkout reference result

/-- The value of an optional field, or the error of `Option::context`. -/
def context {α : Type} (value : Option α) (message : String) : Git α :=
  match value with
  | some a => return a
  | none => .throw message

/-! ### Checks -/

/-- `validate_result`. -/
def validateResult (intent : IntegrationIntent) : Git Unit := do
  let expectedTargetTree ← treeOf intent.checkout intent.expectedTarget
  .ensure (expectedTargetTree = intent.expectedTargetTree) "expected target tree changed"
  let result ← context intent.result "integration result is missing"
  let result ← resolveExactCommit intent.checkout result
  ensureAncestor intent.checkout intent.expectedTarget result
    "integration result no longer contains the expected target"
  ensureAncestor intent.checkout intent.candidate result
    "integration result no longer contains the candidate"
  let tree ← treeOf intent.checkout result
  .ensure (intent.resultTree = some tree) "integration result tree changed"

/-- Where `validate_intent_checkout` lets the checkout be. -/
def IntegrationIntent.AtRecorded (intent : IntegrationIntent) (revision : String) : Prop :=
  match intent.phase with
  | .preparing => revision = intent.expectedTarget ∨ intent.result = some revision
  | .prepared | .pushIntent | .published => intent.result = some revision

instance (intent : IntegrationIntent) (revision : String) :
    Decidable (intent.AtRecorded revision) := by
  unfold IntegrationIntent.AtRecorded
  cases intent.phase <;> infer_instance

/-- `validate_intent_checkout`. -/
def validateIntentCheckout (intent : IntegrationIntent) (configuredRemote : String) :
    Git Unit := do
  let snapshot ← captureCleanSnapshot intent.checkout configuredRemote
  .ensure (snapshot.gitDir = intent.gitDir) "integration worktree Git identity changed"
  .ensure (snapshot.commonGitDir = intent.commonGitDir) "integration repository identity changed"
  .ensure (snapshot.remote = intent.remote) "configured repository identity changed"
  .ensure (snapshot.branch = some intent.checkoutBranch) "integration task branch changed"
  .ensure (intent.AtRecorded snapshot.revision)
    "integration checkout moved from its recorded commit"

/-- A phase in which the result is there. -/
def IntegrationPhase.Finished : IntegrationPhase → Prop
  | .preparing => False
  | _ => True

instance : DecidablePred IntegrationPhase.Finished := fun phase => by
  cases phase <;> simp only [IntegrationPhase.Finished] <;> infer_instance

/-- The intent of a call that needs a prepared result. -/
def loadPrepared : Git IntegrationIntent := do
  let intent ← loadIntent
  .ensure intent.phase.Finished "integration result has not finished preparation"
  return intent

/-! ### Preparation -/

/-- `create_integration_result`. -/
def createIntegrationResult (intent : IntegrationIntent) : Git (String × String) := do
  if ← isAncestor intent.checkout intent.candidate intent.expectedTarget then
    let tree ← treeOf intent.checkout intent.expectedTarget
    return (intent.expectedTarget, tree)
  else if ← isAncestor intent.checkout intent.expectedTarget intent.candidate then
    return (intent.candidate, intent.candidateTree)
  else
    let merged ← mergeTree intent.checkout intent.expectedTarget intent.candidate
    let tree ← context merged
      "candidate conflicts with the expected target; no target ref was changed"
    validateFullOid tree
    catFile intent.checkout (tree ++ "^\x7btree\x7d")
    let message := "Agent Coordinator integration\n\ntarget " ++ intent.expectedTarget ++
      "\ncandidate " ++ intent.candidate ++ "\n"
    let commit ← commitTree intent.checkout tree intent.expectedTarget intent.candidate message
    validateFullOid commit
    return (commit, tree.toLower)

/-- `materialize_result_checkout`. -/
def materializeResultCheckout (intent : IntegrationIntent) (configuredRemote : String) :
    Git Unit := do
  let snapshot ← captureCleanSnapshot intent.checkout configuredRemote
  .ensure (snapshot.gitDir = intent.gitDir ∧ snapshot.commonGitDir = intent.commonGitDir)
    "integration checkout identity changed"
  .ensure (snapshot.remote = intent.remote) "configured repository identity changed"
  .ensure (snapshot.branch = some intent.checkoutBranch) "integration task branch changed"
  let result ← context intent.result "integration result is missing"
  if snapshot.revision = result then
    return ()
  else
    .ensure (snapshot.revision = intent.expectedTarget)
      "integration checkout moved from its recorded commit"
    mergeFastForward intent.checkout result
    let materialized ← captureCleanSnapshot intent.checkout configuredRemote
    .ensure (materialized.revision = result ∧ materialized.gitDir = intent.gitDir ∧
      materialized.commonGitDir = intent.commonGitDir ∧ materialized.remote = intent.remote ∧
      materialized.branch = some intent.checkoutBranch)
      "prepared integration result did not materialize exactly"

/-- The result of an intent that has none yet. -/
def recordResult (intent : IntegrationIntent) : Git IntegrationIntent := do
  let (result, resultTree) ← createIntegrationResult intent
  let localRef := "refs/agent-coordinator/integrations/" ++ result
  updateIsolatedRef intent.checkout localRef result
  let intent := { intent with
    result := some result
    resultTree := some resultTree
    localResultRef := some localRef
    revision := intent.revision + 1 }
  validateResult intent
  saveIntent intent "result_created"
  return intent

/-- `finish_preparation`. -/
def finishPreparation (intent : IntegrationIntent) (configuredRemote : String) :
    Git IntegrationIntent := do
  validateIntentCheckout intent configuredRemote
  if intent.phase ≠ .preparing then
    validateResult intent
    return intent
  else
    let intent ← if intent.result = none then recordResult intent else pure intent
    materializeResultCheckout intent configuredRemote
    let intent := { intent with phase := .prepared, revision := intent.revision + 1 }
    validateResult intent
    saveIntent intent "prepared"
    return intent

/-- `ensure_same_prepare_request`. -/
def ensureSamePrepareRequest (intent : IntegrationIntent) (request : PrepareIntegration) :
    Git Unit := do
  let checkout ← canonicalGitRoot request.checkout
  let remote ← canonicalRemoteIdentity checkout request.configuredRemote
  .ensure (intent.checkout = checkout ∧ intent.remote = remote ∧
    intent.targetBranch = request.targetBranch ∧
    intent.expectedTarget = request.expectedTarget.toLower ∧
    intent.candidateBase = request.candidateBase.toLower ∧
    intent.candidate = request.candidate.toLower)
    "this integration intent was prepared with different immutable inputs"

/-- The intent of a request for which there is none. -/
def newIntent (request : PrepareIntegration) : Git IntegrationIntent := do
  let snapshot ← captureCleanSnapshot request.checkout request.configuredRemote
  .ensure (snapshot.gitDir ≠ snapshot.commonGitDir)
    "integration requires an isolated linked Git worktree"
  let checkoutBranch ← context snapshot.branch
    "integration worktree must have its task branch checked out"
  .ensure (checkoutBranch ≠ request.targetBranch)
    "integration worktree task branch must differ from the target branch"
  let expectedTarget ← resolveExactCommit snapshot.checkout request.expectedTarget
  .ensure (snapshot.revision = expectedTarget)
    "integration checkout is not at the expected target commit"
  let expectedTargetTree := snapshot.tree
  let candidateBase ← resolveExactCommit snapshot.checkout request.candidateBase
  let candidate ← resolveExactCommit snapshot.checkout request.candidate
  ensureAncestor snapshot.checkout candidateBase candidate
    "candidate base is not an ancestor of the candidate"
  ensureRelated snapshot.checkout expectedTarget candidate
  let observation ← observeRemoteTarget snapshot.checkout request.configuredRemote
    request.targetBranch
  .ensure (observation.revision = some expectedTarget)
    "configured remote target does not equal the expected target commit"
  .ensure (observation.tree = some expectedTargetTree)
    "configured remote target tree does not equal the expected target tree"
  let candidateTree ← treeOf snapshot.checkout candidate
  return {
    version := intentVersion
    revision := 1
    phase := .preparing
    checkout := snapshot.checkout
    gitDir := snapshot.gitDir
    commonGitDir := snapshot.commonGitDir
    checkoutBranch := checkoutBranch
    remote := snapshot.remote
    targetBranch := request.targetBranch
    expectedTarget := expectedTarget
    expectedTargetTree := expectedTargetTree
    candidateBase := candidateBase
    candidate := candidate
    candidateTree := candidateTree
    result := none
    resultTree := none
    localResultRef := none
    lastObservedTarget := observation.revision }

/-- `prepare_integration`. -/
def prepareIntegration (request : PrepareIntegration) : Git IntegrationIntent := do
  validateBranch request.checkout request.targetBranch
  if ← stateExists then
    let intent ← loadIntent
    ensureSamePrepareRequest intent request
    finishPreparation intent request.configuredRemote
  else
    let intent ← newIntent request
    saveIntent intent "preparation_started"
    finishPreparation intent request.configuredRemote

/-- `materialize_prepared_result`. -/
def materializePreparedResult (configuredRemote : String) : Git IntegrationIntent := do
  let intent ← loadPrepared
  materializeResultCheckout intent configuredRemote
  let intent := { intent with revision := intent.revision + 1 }
  saveIntent intent "result_materialized"
  return intent

/-! ### Publication -/

/-- What an observation of the target says, if the target is not where it was expected. -/
def settled (intent : IntegrationIntent) (result : String) (observed : Option String) :
    Git (Option PublicationOutcome) :=
  if observed = some result then do
    let _ ← markPublished intent
    return some (.published result)
  else if observed ≠ some intent.expectedTarget then
    return some (.targetMoved intent.expectedTarget observed)
  else return none

/-- `reconcile_publication`. -/
def reconcilePublication (configuredRemote : String) : Git PublicationOutcome := do
  let intent ← loadPrepared
  validateIntentCheckout intent configuredRemote
  validateResult intent
  let observation ← observeRemoteTarget intent.checkout configuredRemote intent.targetBranch
  let intent ← recordObservation intent observation.revision "publication_reconciled"
  let result ← context intent.result "prepared integration has no result"
  match ← settled intent result observation.revision with
  | some outcome => return outcome
  | none =>
    if intent.phase = .prepared then return .notPublished observation.revision
    else return .uncertain observation.revision

/-- The rest of `publish_prepared`, once the push has ended. -/
def afterPush (intent : IntegrationIntent) (configuredRemote result : String) (success : Bool) :
    Git PublicationOutcome := do
  let observed ← observeRemoteTarget intent.checkout configuredRemote intent.targetBranch
  let intent ← recordObservation intent observed.revision "post_push_observed"
  match ← settled intent result observed.revision with
  | some outcome => return outcome
  | none =>
    if success then return .uncertain observed.revision
    else return .notPublished observed.revision

/-- The rest of `publish_prepared`, once the target was seen where it is expected. -/
def startPush (intent : IntegrationIntent) (configuredRemote result : String)
    (authority : FreshPublicationAuthority) : Git PublicationOutcome := do
  let instant ← now
  .ensure (authority.remaining instant > twoSeconds)
    "fresh publication authority is too close to expiry"
  let intent := { intent with phase := .pushIntent, revision := intent.revision + 1 }
  saveIntent intent "push_intent"
  let targetRef := "refs/heads/" ++ intent.targetBranch
  let lease := "--force-with-lease=" ++ targetRef ++ ":" ++ intent.expectedTarget
  let refspec := result ++ ":" ++ targetRef
  let _ ← gitRemoteArgument intent.checkout configuredRemote
  let instant ← now
  if authority.remaining instant ≤ twoSeconds then
    let intent := { intent with phase := .prepared, revision := intent.revision + 1 }
    saveIntent intent "push_not_started_authority_expired"
    .throw "fresh publication authority expired before Git could start"
  else
    let success ← .ask (.push intent.checkout lease refspec) id
    afterPush intent configuredRemote result success

/-- The rest of `publish_prepared`, once the result may be published. -/
def publishAuthorized (intent : IntegrationIntent) (configuredRemote result : String) :
    Git PublicationOutcome := do
  let resultTree ← context intent.resultTree "prepared integration has no result tree"
  let authority ← .ask (.authorize {
    targetBranch := intent.targetBranch
    expectedTarget := intent.expectedTarget
    expectedTargetTree := intent.expectedTargetTree
    candidate := intent.candidate
    result := result
    resultTree := resultTree }) id
  validateIntentCheckout intent configuredRemote
  validateResult intent
  let second ← observeRemoteTarget intent.checkout configuredRemote intent.targetBranch
  let intent ← recordObservation intent second.revision "remote_reobserved"
  match ← settled intent result second.revision with
  | some outcome => return outcome
  | none => startPush intent configuredRemote result authority

/-- `publish_prepared`. -/
def publishPrepared (configuredRemote : String) : Git PublicationOutcome := do
  let intent ← loadPrepared
  validateIntentCheckout intent configuredRemote
  validateResult intent
  let first ← observeRemoteTarget intent.checkout configuredRemote intent.targetBranch
  let intent ← recordObservation intent first.revision "remote_observed"
  let result ← context intent.result "prepared integration has no result"
  match ← settled intent result first.revision with
  | some outcome => return outcome
  | none =>
    match intent.phase with
    | .pushIntent => return .uncertain first.revision
    | .published => return .targetMoved result first.revision
    | _ => publishAuthorized intent configuredRemote result

/-! ### The calls among crashes -/

/-- A call. -/
inductive Request
  | prepare (request : PrepareIntegration)
  | reconcile (configuredRemote : String)
  | materialize (configuredRemote : String)
  | publish (configuredRemote : String)

/-- The call of a request. -/
def Request.run : Request → Git Reply
  | .prepare request => .summary <$> prepareIntegration request
  | .reconcile configuredRemote => .outcome <$> reconcilePublication configuredRemote
  | .materialize configuredRemote => .summary <$> materializePreparedResult configuredRemote
  | .publish configuredRemote => .outcome <$> publishPrepared configuredRemote

/-- The state file, as it is and as far as it is durable, and how many pushes were started. -/
structure Files where
  state : Option IntegrationIntent
  synced : Option IntegrationIntent
  pushes : Nat
  deriving DecidableEq, Repr

/-- What an operation leaves. A save that fails may have replaced the file or not, and a push that
fails may have been started or not. -/
def effects (d : Files) : (op : Op) → git.Answer op → List Files
  | .stateExists, exist => if exist ∧ d.state = none then [] else [d]
  | .readIntent, .ok intent => if d.state = some intent then [d] else []
  | .saveIntent intent _, .ok () => [{ d with state := some intent, synced := some intent }]
  | .saveIntent intent _, .error _ =>
    [d, { d with state := some intent },
      { d with state := some intent, synced := some intent }]
  | .push .., .ok _ => [{ d with pushes := d.pushes + 1 }]
  | .push .., .error _ => [d, { d with pushes := d.pushes + 1 }]
  | _, _ => [d]

/-- The calls. A crash of the process leaves the file as it is; one of the machine may lose what is
not durable, or make it durable. -/
def machine : Machine Files git String Request Reply where
  effects := effects
  crash d := [d, { d with state := d.synced }, { d with synced := d.state }]
  others _ _ := False
  procedure := Request.run

end AgentCoordinator.GitWorkflow
