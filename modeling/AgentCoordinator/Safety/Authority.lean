import AgentCoordinator.Library.Custody
import AgentCoordinator.Refinement.Authority
import AgentCoordinator.Safety.Landings

/-
Push authority in runs.

A grant of push authority locks the target of its submission. From then on only an observation of
a result of that submission releases the target: whatever agents, humans and integrators request
otherwise, it stays with the submission until the submission is superseded, and no other submission
gets it meanwhile (`authority_keeps_target`). So at most one result holds push authority for a
target among the submissions that stand (`authority_exclusive`).
-/

namespace AgentCoordinator

open Guarded Tabular Maps Transition Board

/-! ### What requests answer -/

section Answers

variable {n n' : Integration} {auth : Auth} {project result : Id}

lemma handle_recordResult {input : ResultInput}
    (h : (IntegratorRequest.recordResult project input).handle n auth = .ok n') :
    ∃ r, recordResult n.backlog.work.view auth project input = .ok (n'.db, r) := by
  simp only [IntegratorRequest.handle, bind_eq_ok] at h
  obtain ⟨⟨s, r⟩, hresult, h⟩ := h
  obtain rfl := pure_eq_ok.1 h
  exact ⟨r, hresult⟩

lemma handle_recordReceipt {input : ReceiptInput}
    (h : (IntegratorRequest.recordReceipt project input).handle n auth = .ok n') :
    ∃ r, recordReceipt n.backlog.work.view auth project input = .ok (n'.db, r) := by
  simp only [IntegratorRequest.handle, bind_eq_ok] at h
  obtain ⟨⟨s, r⟩, hreceipt, h⟩ := h
  obtain rfl := pure_eq_ok.1 h
  exact ⟨r, hreceipt⟩

lemma handle_revise {input : IntegratorReviseInput}
    (h : (IntegratorRequest.revise project input).handle n auth = .ok n') :
    ∃ w, integratorRevise (n.backlog.work.withDb n.backlog.work.view) auth project input = .ok w ∧
      n'.db = w.db := by
  simp only [IntegratorRequest.handle, bind_eq_ok, pure_eq_ok] at h
  obtain ⟨w, hrevise, rfl⟩ := h
  exact ⟨w, hrevise, rfl⟩

lemma handle_pushAuthority
    (h : (IntegratorRequest.pushAuthority project result).handle n auth = .ok n') :
    ∃ reply, (n.withDb n.backlog.work.view).pushAuthority auth project result
      = .ok (n', reply) := by
  simp only [IntegratorRequest.handle, bind_eq_ok] at h
  obtain ⟨⟨n₁, reply⟩, hpush, h⟩ := h
  obtain rfl := pure_eq_ok.1 h
  exact ⟨reply, hpush⟩

lemma handle_observe {input : TipObservationInput}
    (h : (IntegratorRequest.observe project input).handle n auth = .ok n') :
    ∃ d outcome, n.observe auth project input = .ok (n', d, outcome) := by
  simp only [IntegratorRequest.handle, bind_eq_ok] at h
  obtain ⟨⟨n₁, d, outcome⟩, hobserve, h⟩ := h
  obtain rfl := pure_eq_ok.1 h
  exact ⟨d, outcome, hobserve⟩

end Answers

/-! ### A target under authority -/

/-- The action is no observation of a result of the submission. -/
def sparesTarget (u : Id) (n : Integration) : IntegratorAction → Prop
  | .request _ (.observe _ input) =>
    ∀ r, n.db.ext.integratorResults.get? input.result = some r → r.submission ≠ u
  | _ => True

section Runs

variable {n n' : Integration} {s s' : Db} {auth : Auth} {project result : Id}

lemma Step.keepsLocks {i : Action} (h : Step s i s')
    (howners : i = .environment → ∀ project, s.integrates project → s'.integrates project)
    (hresults : i = .environment → s'.ext.integratorResults = s.ext.integratorResults) :
    s.KeepsLocks s' := by
  cases h with
  | accepted hserve =>
    obtain ⟨actor, -, -, hhandle⟩ := serve_ok hserve
    exact Request.handle_keepsLocks hhandle
  | refused => exact .refl s
  | environment henv =>
    exact ⟨.of_owners henv.submissions henv.workflowActivities henv.integrationHolds (howners rfl),
      hresults rfl⟩
  | clockRollback => exact .keep (.refl s) rfl rfl rfl rfl rfl
  | clockReconciled => exact .keep (.refl s) rfl rfl rfl rfl rfl
  | invalidateDecision => exact .keep (.refl s) rfl rfl rfl rfl rfl

/-- A request keeps the lock of a submission, unless it observes a result of it. -/
lemma IntegratorRequest.handle_keepsLockOf {req : IntegratorRequest} {u : Id}
    (hspares : sparesTarget u n (.request auth req)) (h : req.handle n auth = .ok n') :
    n.db.KeepsLockOf u n'.db := by
  have hview : n.db.KeepsTargets n.backlog.work.view := .of_tables rfl rfl rfl rfl
  cases req with
  | recordResult project input =>
    obtain ⟨r, hresult⟩ := handle_recordResult h
    exact (hview.trans (recordResult_keepsTargets hresult)).lockOf u
  | recordReceipt project input =>
    obtain ⟨r, hreceipt⟩ := handle_recordReceipt h
    exact (hview.trans (recordReceipt_keepsLocks hreceipt).toKeepsTargets).lockOf u
  | revise project input =>
    obtain ⟨w, hrevise, hn'⟩ := handle_revise h
    rw [hn']
    exact (hview.trans (integratorRevise_keepsLocks hrevise).toKeepsTargets).lockOf u
  | pushAuthority project result =>
    obtain ⟨reply, hpush⟩ := handle_pushAuthority h
    exact (hview.trans (pushAuthority_keepsTargets hpush)).lockOf u
  | observe project input =>
    obtain ⟨d, outcome, hobserve⟩ := handle_observe h
    exact observe_keepsLockOf hspares hobserve

lemma IntegratorStep.keepsLockOf {i : IntegratorAction} {u : Id} (hspares : sparesTarget u n i)
    (h : IntegratorStep n i n') : n.db.KeepsLockOf u n'.db := by
  cases h with
  | service hstep howners hresults =>
    have hview : n.db.KeepsLocks n.backlog.work.view := .keep (.refl n.db) rfl rfl rfl rfl rfl
    exact (hview.trans (hstep.keepsLocks howners hresults)).toKeepsTargets.lockOf u
  | accepted hhandle => exact IntegratorRequest.handle_keepsLockOf hspares hhandle
  | refused => exact (Db.KeepsLocks.refl _).toKeepsTargets.lockOf u

/-- In every run without an observation of the submission its lock is kept. -/
theorem run_keepsLockOf {u : Id} (h : Run IntegratorStep (sparesTarget u) n n') :
    n.db.KeepsLockOf u n'.db :=
  Run.invariant (I := fun m => n.db.KeepsLockOf u m.db)
    (fun _ _ _ hm hok hstep => hm.trans (hstep.keepsLockOf hok)) h
    ((Db.KeepsLocks.refl _).toKeepsTargets.lockOf u)

/-- In every run without an observation of the submission, the target stays locked by it until it is
superseded, and by no other. -/
theorem target_stays_locked {u : Id} {x : String × String} (hb : n.db.board.WellHeld)
    (hlocks : n.db.LocksTarget u x) (hrun : Run IntegratorStep (sparesTarget u) n n') :
    n'.db.board.Superseded u ∨
      n'.db.LocksTarget u x ∧ ∀ u', n'.db.LocksTarget u' x → u' = u := by
  have hkeeps := run_keepsLockOf hrun
  rcases hkeeps.keeps hb x hlocks with hstill | hsuperseded
  · exact .inr ⟨hstill, fun u' hu' => (hkeeps.wellHeld hb).locks_unique hu' hstill⟩
  · exact .inl hsuperseded

/-- Activities are in the project of their submission, as the foreign key of their table says. -/
def Db.ActivitiesFiled (s : Db) : Prop :=
  ∀ wa ∈ s.workflowActivities, ∀ u, s.submissions.get? wa.submission = some u →
    wa.project = u.project

/-- The activity that takes the hold is in a project of the integrator. -/
lemma MayHold.locks_of_eligible {j : Judged} {activity : Id} {key branch : String} (actor : Id)
    (hfiled : s.Filed) (hactivities : s.ActivitiesFiled) (hb : s.board.WellHeld)
    (howned : s.integrates project)
    (hrow : eligibleSubject s project j.result.submission = .ok j.row)
    (hm : MayHold s activity j.row.submission key branch) :
    (((s.recordContributors j.result.id j.contributorTasks).holdFor activity key branch
      actor).issue j.result.id).LocksTarget j.result.submission (key, branch) := by
  obtain ⟨hu, hproject⟩ := submission_of_eligible hfiled hrow
  have hid : j.row.submission.id = j.result.submission := Table.key_of_get? hu
  have hlocks := (hm.recorded (r := j.result.id) (t := j.contributorTasks)).locks actor hb
    fun wa' hwa' => ?_
  · rw [← hid]
    exact hlocks
  · obtain ⟨wa, hwa, hwu, -⟩ := hm.integration
    obtain rfl := Option.some.inj (hwa'.symm.trans hwa)
    have hhome := hactivities wa' (Table.mem_of_get? hwa') j.row.submission (by rw [hwu, hid, hu])
    rw [hhome, hproject]
    exact howned

/-- A grant of push authority locks the target of its submission. -/
theorem pushAuthority_locks {r t0 : String} {runs : List DecidingRun}
    {rosterIds required : List String} {expiresAt : Time} (hfiled : n.db.Filed)
    (hactivities : n.db.ActivitiesFiled) (hb : n.db.board.WellHeld)
    (h : n.pushAuthority auth project result =
      .ok (n', .granted r t0 runs rosterIds required expiresAt)) :
    ∃ row u key branch, loadResult n.db project result = .ok row ∧
      n.db.submissions.get? row.submission = some u ∧ u.canonicalRepositoryKey = some key ∧
      u.targetBranch = some branch ∧ n'.db.LocksTarget row.submission (key, branch) := by
  obtain ⟨actor, j, gates, runs', s, kind, howned, hjudge, hdecide, hn'⟩ := pushAuthority_ok h
  obtain ⟨hresult, hrow, -⟩ := judge_ok hjudge
  obtain ⟨hu, -⟩ := submission_of_eligible hfiled hrow
  obtain ⟨voided, hreply, -⟩ | ⟨wa, key, branch, hwa, hm, rfl⟩ :=
    decideAuthority_ok (submission_of_eligibleSubject hrow) hdecide
  · exact absurd hreply (by simp)
  refine ⟨j.result, j.row.submission, key, branch, hresult, hu, hm.pinsKey, hm.pinsBranch, ?_⟩
  rw [hn']
  exact hm.locks_of_eligible actor.id hfiled hactivities hb howned hrow

/-- From a grant of push authority on, in every run without an observation of the submission, the
submission has its target locked, and no other submission gets it, until it is superseded. -/
theorem authority_keeps_target {r t0 : String} {runs : List DecidingRun}
    {rosterIds required : List String} {expiresAt : Time} (hfiled : n.db.Filed)
    (hactivities : n.db.ActivitiesFiled) (hb : n.db.board.WellHeld)
    (h : n.pushAuthority auth project result =
      .ok (n', .granted r t0 runs rosterIds required expiresAt)) :
    ∃ row u key branch, loadResult n.db project result = .ok row ∧
      n.db.submissions.get? row.submission = some u ∧ u.canonicalRepositoryKey = some key ∧
      u.targetBranch = some branch ∧
      ∀ n'', Run IntegratorStep (sparesTarget row.submission) n' n'' →
        n''.db.board.Superseded row.submission ∨
          n''.db.LocksTarget row.submission (key, branch) ∧
            ∀ u', n''.db.LocksTarget u' (key, branch) → u' = row.submission := by
  obtain ⟨row, u, key, branch, hresult, hu, hkey, hbranch, hlocks⟩ :=
    pushAuthority_locks hfiled hactivities hb h
  exact ⟨row, u, key, branch, hresult, hu, hkey, hbranch, fun _ hrun =>
    target_stays_locked ((pushAuthority_keepsTargets h).wellHeld hb) hlocks hrun⟩

end Runs

/-! ### A push that is authorized -/

namespace Scenario

/-- A candidate whose integration is queued, with a result to push. -/
def pushable : Integration where
  backlog :=
    { work :=
        { db := { service .none with
            projects := table [{ project .none with integrationOwner := .integrator }]
            tasks := table [task 3 .code, task 4 .general]
            submissions := table [codeSubmission 3 3 onTop]
            workflowSubjects := table [⟨3, 1, 3, .integration, 0⟩]
            workflowActivities := table
              [⟨7, 1, 3, 3, 4, .integration, 1, .queued, 0, none, none, none, none⟩]
            ext := { integratorAccounts with
              integratorResults := table [{ landedResult with
                id := 2, submission := 3, c := onTop, r := onTop, landingRange := [onTop] }] } }
          dependencies := []
          children := []
          objectives := .empty
          definitionGrants := []
          budgetHeld := [] }
      origins := .empty
      reports := []
      previews := .empty
      records := .empty
      knowledge := .empty
      journal := [] }
  gates := []
  relands := []

end Scenario

open Scenario

lemma wellHeld_pushable : pushable.db.board.WellHeld := by
  have hholds : ∀ h, pushable.db.board.holds h = none := by
    intro h
    show (Table.empty : Table IntegrationHold).project IntegrationHold.row h = none
    simp
  refine ⟨fun h row hrow => ?_, fun h _ row _ hrow => ?_, fun h _ row _ hrow => ?_⟩ <;>
    exact absurd hrow (by simp [hholds h])

lemma filed_pushable : pushable.db.Filed ∧ pushable.db.ActivitiesFiled := by
  refine ⟨by decide +kernel, fun wa hwa u hu => ?_⟩
  have hall : ∀ wa ∈ pushable.db.workflowActivities,
      (pushable.db.submissions.get? wa.submission).all (fun u => wa.project = u.project) =
        true := by
    decide +kernel
  have hproject := hall wa hwa
  rwa [hu, Option.all_some, decide_eq_true_eq] at hproject

set_option maxRecDepth 20000 in
theorem authority_keeps_target_granted : ∃ n' r t0 runs rosterIds required expiresAt,
    pushable.pushAuthority (.bearer 5 none) 1 2 =
      .ok (n', .granted r t0 runs rosterIds required expiresAt) ∧
    ∃ row u key branch, loadResult pushable.db 1 2 = .ok row ∧
      pushable.db.submissions.get? row.submission = some u ∧ u.canonicalRepositoryKey = some key ∧
      u.targetBranch = some branch ∧
      ∀ n'', Run IntegratorStep (sparesTarget row.submission) n' n'' →
        n''.db.board.Superseded row.submission ∨
          n''.db.LocksTarget row.submission (key, branch) ∧
            ∀ u', n''.db.LocksTarget u' (key, branch) → u' = row.submission := by
  obtain ⟨⟨n', reply⟩, hn', hgranted⟩ := exists_of_any
    (o := (pushable.pushAuthority (.bearer 5 none) 1 2).toOption)
    (p := fun a => decide (a.2.event = "integrator.push_authorized")) (by decide +kernel)
  obtain ⟨hfiled, hactivities⟩ := filed_pushable
  have hpush := toOption_eq_some.1 hn'
  cases reply with
  | returnedToReview => simp [AuthorityReply.event] at hgranted
  | granted r t0 runs rosterIds required expiresAt =>
    exact ⟨n', r, t0, runs, rosterIds, required, expiresAt, hpush,
      authority_keeps_target hfiled hactivities wellHeld_pushable hpush⟩

/-! ### One authority for a target -/

/-- The result of this submission holds push authority. -/
def Db.HoldsAuthority (s : Db) (k u : Id) : Prop :=
  ∃ r, s.ext.integratorResults.get? k = some r ∧ r.submission = u ∧ r.authorityIssuedAt ≠ none

/-- The submission is for this target. -/
def Db.PinsTarget (s : Db) (u : Id) (x : String × String) : Prop :=
  ∃ c, s.board.submissions u = some c ∧ c.key = some x.1 ∧ c.branch = some x.2

/-- Push authority, as tokens of results for submissions that lock their targets. -/
def Db.custody (s : Db) : Custody Id Id (String × String) where
  wants := s.PinsTarget
  locked := s.LocksTarget
  out := s.HoldsAuthority
  revoked := s.board.Superseded

section Exclusive

variable {n n' : Integration} {s s' : Db} {auth : Auth} {actor : Actor} {project k u : Id}

lemma Db.KeepsLocks.holdsAuthority (h : s.KeepsLocks s') :
    s'.HoldsAuthority k u ↔ s.HoldsAuthority k u := by
  unfold Db.HoldsAuthority
  rw [h.results]

/-- A written result holds the authority that the write gives it. -/
lemma holdsAuthority_of_update {id : Id} {f : IntegratorResult → IntegratorResult}
    {hf : ∀ r, Keyed.key (f r) = Keyed.key r} (h : (s.updateResult id f hf).HoldsAuthority k u)
    (hsubmission : ∀ r, (f r).submission = r.submission) :
    ∃ r, s.ext.integratorResults.get? k = some r ∧ r.submission = u ∧
      (if k = id then f r else r).authorityIssuedAt ≠ none := by
  obtain ⟨r', hr', hu, hissued⟩ := h
  simp only [Db.updateResult, Table.get?_modify, Option.map_eq_some_iff] at hr'
  obtain ⟨r, hr, rfl⟩ := hr'
  have hid : r.id = k := Table.key_of_get? hr
  rw [hid] at hu hissued
  refine ⟨r, hr, ?_, hissued⟩
  split at hu
  · rwa [hsubmission] at hu
  · exact hu

lemma Db.HoldsAuthority.of_recorded {id : Id} {tasks : List Id}
    (h : (s.recordContributors id tasks).HoldsAuthority k u) : s.HoldsAuthority k u := by
  obtain ⟨r, hr, hu, hissued⟩ := holdsAuthority_of_update h fun _ => rfl
  refine ⟨r, hr, hu, ?_⟩
  split at hissued <;> exact hissued

lemma Db.HoldsAuthority.of_issued {id : Id} (h : (s.issue id).HoldsAuthority k u) :
    s.HoldsAuthority k u ∨ k = id ∧ ∃ r, s.ext.integratorResults.get? k = some r ∧
      r.submission = u := by
  obtain ⟨r, hr, hu, hissued⟩ := holdsAuthority_of_update h fun _ => rfl
  split at hissued
  · rename_i hid
    exact .inr ⟨hid, r, hr, hu⟩
  · exact .inl ⟨r, hr, hu, hissued⟩

lemma Db.HoldsAuthority.of_ended {o : ObservedResult} {why : String}
    (h : (s.endAuthority actor o why).HoldsAuthority k u) :
    s.HoldsAuthority k u ∧ k ≠ o.result.id := by
  have hended : (s.updateResult o.result.id (fun r => { r with authorityIssuedAt := none })
    fun _ => rfl).HoldsAuthority k u := h
  obtain ⟨r, hr, hu, hissued⟩ := holdsAuthority_of_update hended fun _ => rfl
  split at hissued
  · exact absurd rfl hissued
  · rename_i hid
    exact ⟨⟨r, hr, hu, hissued⟩, hid⟩

/-- A new result holds no authority. -/
lemma Db.HoldsAuthority.of_inserted {input : ResultInput}
    (h : (s.insertResult actor project input).HoldsAuthority k u) : s.HoldsAuthority k u := by
  obtain ⟨r, hr, hu, hissued⟩ := h
  simp only [Db.insertResult] at hr
  rw [Table.get?_create _ _ (fun _ => rfl) _] at hr
  split at hr
  · obtain rfl := Option.some.inj hr
    exact absurd rfl hissued
  · exact ⟨r, hr, hu, hissued⟩

/-! Each step is one of the custody. -/

lemma custody_step (hb : s.board.WellHeld) (hb' : s'.board.WellHeld)
    (hgrown : Grown Candidate.Stands s.board.submissions s'.board.submissions)
    (hkeeps : ∀ k u, s.HoldsAuthority k u → s'.HoldsAuthority k u → s.KeepsLockOf u s')
    (hissues : ∀ k u, s'.HoldsAuthority k u → s.HoldsAuthority k u ∨
      s'.custody.Holds u ∧ ∀ k', s'.HoldsAuthority k' u → k' = k) :
    Custody.Step s.custody s'.custody where
  exclusive _ _ _ hu hu' := hb'.locks_unique hu hu'
  revoked _ hu := hu.of_grown hgrown
  keeps k u hk hk' := by
    rintro ⟨x, ⟨c, hc, hkey, hbranch⟩, hlocked⟩
    rcases (hkeeps k u hk hk').keeps hb x hlocked with hstill | hsuperseded
    · obtain ⟨c', hc', hstands⟩ := hgrown u c hc
      exact .inr ⟨x, ⟨c', hc', hstands.key.trans hkey, hstands.branch.trans hbranch⟩, hstill⟩
    · exact .inl hsuperseded
  issues := hissues

/-- Nothing is granted. -/
lemma Db.KeepsTargets.custody_step (h : s.KeepsTargets s') (hb : s.board.WellHeld)
    (hold : ∀ k u, s'.HoldsAuthority k u → s.HoldsAuthority k u) :
    Custody.Step s.custody s'.custody :=
  AgentCoordinator.custody_step hb (h.wellHeld hb) h.submissions (fun _ u _ _ => h.lockOf u)
    fun k u hk => .inl (hold k u hk)

/-- A grant is the only one of its submission, which locks its target. -/
lemma pushAuthority_custody {result : Id} {reply : AuthorityReply} (hfiled : n.db.Filed)
    (hactivities : n.db.ActivitiesFiled) (hb : n.db.board.WellHeld)
    (h : n.pushAuthority auth project result = .ok (n', reply)) :
    Custody.Step n.db.custody n'.db.custody := by
  have htargets := pushAuthority_keepsTargets h
  obtain ⟨actor, j, gates, runs, s, kind, howned, hjudge, hdecide, hn'⟩ := pushAuthority_ok h
  obtain ⟨hresult, hrow, hother⟩ := judge_ok hjudge
  obtain ⟨hu, -⟩ := submission_of_eligible hfiled hrow
  obtain ⟨voided, -, hkeeps⟩ | ⟨wa, key, branch, -, hm, rfl⟩ :=
    decideAuthority_ok (submission_of_eligibleSubject hrow) hdecide
  · refine htargets.custody_step hb fun k u hk => ?_
    rw [hn'] at hk
    exact .of_recorded (hkeeps.holdsAuthority.1 hk)
  -- what holds authority afterwards held it before, or is the granted result
  have hcases : ∀ k u, n'.db.HoldsAuthority k u → n.db.HoldsAuthority k u ∨
      k = j.result.id ∧ u = j.result.submission := by
    intro k u hk
    rw [hn'] at hk
    have hheld := hm.recorded (r := j.result.id) (t := j.contributorTasks)
    obtain hold | ⟨rfl, r, hr, rfl⟩ := Db.HoldsAuthority.of_issued hk
    · exact .inl (.of_recorded ((hheld.keepsLocks actor.id).holdsAuthority.1 hold))
    · refine .inr ⟨rfl, ?_⟩
      rw [(hheld.keepsLocks actor.id).results] at hr
      simp only [Db.recordContributors, Db.updateResult, Table.get?_modify,
        Option.map_eq_some_iff] at hr
      obtain ⟨r₀, hr₀, rfl⟩ := hr
      simp only [loadResult, okOr_eq_ok, Option.filter_eq_some_iff] at hresult
      have hid : j.result.id = result := Table.key_of_get? hresult.1
      rw [hid, hresult.1] at hr₀
      obtain rfl := Option.some.inj hr₀
      split <;> rfl
  refine AgentCoordinator.custody_step hb (htargets.wellHeld hb) htargets.submissions
    (fun _ u _ _ => htargets.lockOf u) fun k u hk => ?_
  obtain hold | ⟨rfl, rfl⟩ := hcases k u hk
  · exact .inl hold
  refine .inr ⟨⟨(key, branch), ?_, ?_⟩, fun k' hk' => ?_⟩
  · have hc : n.db.board.submissions j.result.submission = some j.row.submission.row :=
      board_submission hu
    obtain ⟨c', hc', hstands⟩ := htargets.submissions _ _ hc
    exact ⟨c', hc', hstands.key.trans hm.pinsKey, hstands.branch.trans hm.pinsBranch⟩
  · rw [show n'.db.custody.locked = n'.db.LocksTarget from rfl, hn']
    exact hm.locks_of_eligible actor.id hfiled hactivities hb howned hrow
  · obtain ⟨r, hr, hsubmission, hissued⟩ | ⟨hk', -⟩ := hcases k' _ hk'
    · by_contra hne
      have hid : r.id = k' := Table.key_of_get? hr
      exact hissued (hother r (Table.mem_of_get? hr) hsubmission (by rw [hid]; exact hne))
    · exact hk'

/-- An observation takes the authority back, before it gives back the lock. -/
lemma observe_custody {input : TipObservationInput} {d : ObservedDisposition}
    {outcome : Option ReviseOutcome} (hb : n.db.board.WellHeld) (hs : n.db.custody.Sound)
    (h : n.observe auth project input = .ok (n', d, outcome)) :
    Custody.Step n.db.custody n'.db.custody ∧ n'.db.board.WellHeld := by
  obtain ⟨actor, o, why, x, hr, hfirst, hbefore, hafter⟩ := Integration.observe_ok h
  have hkeeps : ∀ u, o.result.submission ≠ u → n.db.KeepsLockOf u n'.db := fun u hne =>
    ((hbefore.toKeepsTargets.lockOf u).trans (endAuthority_keepsLockOf hne)).trans
      (hafter.toKeepsTargets.lockOf u)
  have hsome := hkeeps (o.result.submission + 1) (Nat.ne_of_lt (Nat.lt_succ_self _))
  have hcases : ∀ k u, n'.db.HoldsAuthority k u → n.db.HoldsAuthority k u ∧ k ≠ o.result.id := by
    intro k u hk
    obtain ⟨hold, hne⟩ := Db.HoldsAuthority.of_ended (hafter.holdsAuthority.1 hk)
    exact ⟨hbefore.holdsAuthority.1 hold, hne⟩
  refine ⟨custody_step hb (hsome.wellHeld hb) hsome.submissions (fun k u hk hk' => hkeeps u ?_)
    fun k u hk => .inl (hcases k u hk).1, hsome.wellHeld hb⟩
  -- the authority of the observed submission is that of the observed result
  rintro rfl
  obtain ⟨r, hr', hsubmission, hissued⟩ := hk
  cases hout : n.db.outstandingAuthority? o.result.submission with
  | none =>
    have hnone := List.find?_eq_none.1 hout r (Table.mem_of_get? hr')
    simp [hsubmission, Option.isSome_iff_ne_none, hissued] at hnone
  | some r' =>
    have hmem := List.mem_of_find?_eq_some hout
    have hfound := List.find?_some hout
    simp only [Bool.and_eq_true, decide_eq_true_eq, Option.isSome_iff_ne_none] at hfound
    have hsingle := hs.single k r'.id o.result.submission ⟨r, hr', hsubmission, hissued⟩
      ⟨r', Table.get?_of_mem hmem, hfound.1, hfound.2⟩
    exact (hcases k _ hk').2 (hsingle.trans (hfirst r' hout))

/-- The foreign keys of subjects and activities hold. -/
def inPlace (n : Integration) (_ : IntegratorAction) : Prop := n.db.Filed ∧ n.db.ActivitiesFiled

/-- Every step keeps push authority under the locks on targets. -/
lemma IntegratorStep.sound {i : IntegratorAction} (hplace : inPlace n i) (hb : n.db.board.WellHeld)
    (hs : n.db.custody.Sound) (h : IntegratorStep n i n') :
    n'.db.board.WellHeld ∧ n'.db.custody.Sound := by
  have hview : n.db.KeepsLocks n.backlog.work.view := .keep (.refl n.db) rfl rfl rfl rfl rfl
  have hkept : ∀ {s : Db}, n.db.KeepsLocks s → s.board.WellHeld ∧ s.custody.Sound := fun hk =>
    ⟨hk.wellHeld hb, hs.step (hk.toKeepsTargets.custody_step hb fun _ _ => hk.holdsAuthority.1)⟩
  cases h with
  | service hstep howners hresults => exact hkept (hview.trans (hstep.keepsLocks howners hresults))
  | refused => exact ⟨hb, hs⟩
  | accepted hhandle =>
    rename_i auth req
    cases req with
    | recordResult project input =>
      obtain ⟨r, hresult⟩ := handle_recordResult hhandle
      have htargets := hview.toKeepsTargets.trans (recordResult_keepsTargets hresult)
      refine ⟨htargets.wellHeld hb, hs.step (htargets.custody_step hb fun k u hk => ?_)⟩
      obtain ⟨actor, x, kind, hx, hdb⟩ := recordResult_ok hresult
      rw [hdb] at hk
      rcases hx with rfl | rfl
      · exact hview.holdsAuthority.1 hk
      · exact hview.holdsAuthority.1 (.of_inserted hk)
    | recordReceipt project input =>
      obtain ⟨r, hreceipt⟩ := handle_recordReceipt hhandle
      exact hkept (hview.trans (recordReceipt_keepsLocks hreceipt))
    | revise project input =>
      obtain ⟨w, hrevise, hn'⟩ := handle_revise hhandle
      rw [hn']
      exact hkept (hview.trans (integratorRevise_keepsLocks hrevise))
    | pushAuthority project result =>
      obtain ⟨reply, hpush⟩ := handle_pushAuthority hhandle
      obtain ⟨hfiled, hactivities⟩ := hplace
      obtain ⟨hb₁, hs₁⟩ := hkept hview
      -- the request reads the view, which has the same rows of subjects and activities
      obtain ⟨m, hm⟩ : ∃ m, m = n.withDb n.backlog.work.view := ⟨_, rfl⟩
      have hdb : m.db = n.backlog.work.view := by rw [hm, Integration.db_withDb]
      rw [← hdb] at hb₁ hs₁
      rw [← hm] at hpush
      have hfiled₁ : m.db.Filed := by
        rw [hdb]
        exact hfiled
      have hactivities₁ : m.db.ActivitiesFiled := by
        rw [hdb]
        exact hactivities
      exact ⟨(pushAuthority_keepsTargets hpush).wellHeld hb₁,
        hs₁.step (pushAuthority_custody hfiled₁ hactivities₁ hb₁ hpush)⟩
    | observe project input =>
      obtain ⟨d, outcome, hobserve⟩ := handle_observe hhandle
      obtain ⟨hstep, hb'⟩ := observe_custody hb hs hobserve
      exact ⟨hb', hs.step hstep⟩

/-- In every run that starts without push authority and keeps to the foreign keys, at most one
result holds push authority for a target among the submissions that stand. -/
theorem authority_exclusive (hrun : Run IntegratorStep inPlace n n') (hb : n.db.board.WellHeld)
    (hnone : ∀ k u, ¬ n.db.HoldsAuthority k u) {k k' u u' : Id} {x : String × String}
    (hk : n'.db.HoldsAuthority k u) (hk' : n'.db.HoldsAuthority k' u')
    (hu : ¬ n'.db.board.Superseded u) (hu' : ¬ n'.db.board.Superseded u')
    (hx : n'.db.PinsTarget u x) (hx' : n'.db.PinsTarget u' x) : k = k' ∧ u = u' := by
  have hsound₀ : n.db.custody.Sound :=
    Custody.sound_of_none (fun _ _ _ hu hu' => hb.locks_unique hu hu') hnone
  obtain ⟨-, hsound⟩ := Run.invariant
    (I := fun m : Integration => m.db.board.WellHeld ∧ m.db.custody.Sound)
    (fun _ _ _ hm hok hstep => hstep.sound hok hm.1 hm.2) hrun ⟨hb, hsound₀⟩
  refine hsound.unique (fun v y y' hy hy' => ?_) hk hk' hu hu' hx hx'
  obtain ⟨c, hc, hkey, hbranch⟩ := hy
  obtain ⟨c', hc', hkey', hbranch'⟩ := hy'
  obtain rfl := Option.some.inj (hc.symm.trans hc')
  exact Prod.ext (Option.some.inj (hkey.symm.trans hkey'))
    (Option.some.inj (hbranch.symm.trans hbranch'))

end Exclusive

set_option maxRecDepth 20000 in
theorem authority_exclusive_granted : ∃ n', Run IntegratorStep inPlace pushable n' ∧
    n'.db.HoldsAuthority 2 3 ∧
    ∀ k u, n'.db.HoldsAuthority k u → ¬ n'.db.board.Superseded u →
      n'.db.PinsTarget u ("repository", "main") → 2 = k ∧ 3 = u := by
  obtain ⟨n', hn', hchecks⟩ := exists_of_any
    (o := ((IntegratorRequest.pushAuthority 1 2).handle pushable (.bearer 5 none)).toOption)
    (p := fun n' : Integration =>
      (n'.db.ext.integratorResults.get? 2).any (fun r =>
        r.submission = 3 ∧ r.authorityIssuedAt ≠ none) &&
      (n'.db.submissions.get? 3).any (fun u => u.supersededAt = none ∧
        u.canonicalRepositoryKey = some "repository" ∧ u.targetBranch = some "main"))
    (by decide +kernel)
  simp only [Bool.and_eq_true, Option.any_eq_true, decide_eq_true_eq] at hchecks
  obtain ⟨⟨r, hr, hsubmission, hissued⟩, u, hu, hstands, hkey, hbranch⟩ := hchecks
  have hrun : Run IntegratorStep inPlace pushable n' :=
    .single filed_pushable (.accepted (toOption_eq_some.1 hn'))
  have hheld : n'.db.HoldsAuthority 2 3 := ⟨r, hr, hsubmission, hissued⟩
  have hrow : n'.db.board.submissions 3 = some u.row := board_submission hu
  have hcurrent : ¬ n'.db.board.Superseded 3 := by
    rintro ⟨c, hc, hs⟩
    obtain rfl := Option.some.inj (hrow.symm.trans hc)
    simp [Submission.row, hstands] at hs
  have hnone : ∀ k u, ¬ pushable.db.HoldsAuthority k u := by
    rintro k u ⟨r, hr, -, hissued⟩
    have hall : ∀ r ∈ pushable.db.ext.integratorResults, r.authorityIssuedAt = none := by
      decide +kernel
    exact hissued (hall r (Table.mem_of_get? hr))
  have hpins : n'.db.PinsTarget 3 ("repository", "main") := ⟨u.row, hrow, hkey, hbranch⟩
  exact ⟨n', hrun, hheld, fun k v hk hv hx =>
    authority_exclusive hrun wellHeld_pushable hnone hheld hk hcurrent hv hpins hx⟩

end AgentCoordinator
