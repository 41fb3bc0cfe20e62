import AgentCoordinator.Integrator.Service
import AgentCoordinator.Refinement.Custody

/-
The requests of an integrator and the locks on targets.

A grant of push authority takes the lock on the target of its submission, and an observation gives
back the lock of the observed submission. No request of an integrator takes any other lock away from
a submission that stands.
-/

namespace AgentCoordinator

open Guarded Tabular Maps Transition Board

/-! ### Taking the hold -/

section Hold

variable {s s' : Db} {actor : Actor} {activity : Id} {key branch : String} {u : Submission}

/-- A hold that the activity has is held again. -/
lemma board_holdFor {actor : Id} {h : IntegrationHold} (hhold : s.holdOf activity = some h) :
    (s.holdFor activity key branch actor).board
      = { s.board with holds := s.board.retake activity } := by
  simp only [Db.holdFor, hhold, Db.board, Board.retake]
  congr 1
  funext k
  simp only [Table.project, alter, Table.get?_modify]
  cases hk : s.integrationHolds.get? k with
  | none => rfl
  | some h => by_cases hp : h.activity = activity <;> simp [IntegrationHold.row, hp]

/-- The activity, its submission and the target that it may take. -/
structure MayHold (s : Db) (activity : Id) (u : Submission) (key branch : String) : Prop where
  integration : ∃ wa, s.workflowActivities.get? activity = some wa ∧ wa.submission = u.id ∧
    wa.kind = .integration
  submission : s.submissions.get? u.id = some u
  pinsKey : u.canonicalRepositoryKey = some key
  pinsBranch : u.targetBranch = some branch
  free : ∀ h ∈ s.integrationHolds, h.state = .held → h.activity ≠ activity →
    h.canonicalRepositoryKey = key → h.targetBranch ≠ branch

/-- A hold of the activity is on the target of its submission. -/
lemma MayHold.target (hm : MayHold s activity u key branch) (hb : s.board.WellHeld) {h : Id}
    {row : Hold} (hrow : s.board.holds h = some row) (ha : row.activity = activity) :
    row.key = key ∧ row.branch = branch := by
  obtain ⟨wa, hwa, hwu, -⟩ := hm.integration
  obtain ⟨r, c, hr, hc, hkey, hbranch⟩ := hb.pinned h row hrow
  rw [ha, board_activity hwa] at hr
  obtain rfl := Option.some.inj hr
  rw [show wa.row.submission = u.id from hwu, board_submission hm.submission] at hc
  obtain rfl := Option.some.inj hc
  exact ⟨Option.some.inj (hkey.symm.trans hm.pinsKey),
    Option.some.inj (hbranch.symm.trans hm.pinsBranch)⟩

/-- No other activity holds the target. -/
lemma MayHold.free_row (hm : MayHold s activity u key branch) {h : Id} {row : Hold}
    (hrow : s.board.holds h = some row) (hheld : row.held = true) (hne : row.activity ≠ activity)
    (hkey : row.key = key) : row.branch ≠ branch := by
  obtain ⟨r, hr, rfl⟩ := Table.project_eq_some.1 hrow
  exact hm.free r (Table.mem_of_get? hr) (by simpa [IntegrationHold.row] using hheld) hne hkey

lemma MayHold.keepsLocks (hm : MayHold s activity u key branch) (actor : Id) :
    s.KeepsLocks (s.holdFor activity key branch actor) := by
  cases hhold : s.holdOf activity with
  | none =>
    obtain ⟨wa, hwa, hwu, -⟩ := hm.integration
    have hu : s.submissions.get? wa.submission = some u := by rw [hwu, hm.submission]
    have htakes : s.board.Takes s.integrationHolds.fresh ⟨activity, key, branch, true⟩ := by
      refine ⟨Table.project_fresh _, ⟨wa.row, u.row, board_activity hwa, board_submission hu,
        hm.pinsKey, hm.pinsBranch⟩, fun k row hrow => ?_⟩
      have hne : row.activity ≠ activity := by
        obtain ⟨r, hr, rfl⟩ := Table.project_eq_some.1 hrow
        simpa [IntegrationHold.row] using List.find?_eq_none.1 hhold r (Table.mem_of_get? hr)
      exact ⟨hne, fun hheld hkey => hm.free_row hrow hheld hne hkey⟩
    have hboard : (s.holdFor activity key branch actor).board = { s.board with
        holds := Function.update s.board.holds s.integrationHolds.fresh
          (some ⟨activity, key, branch, true⟩) } := by
      rw [← board_createHold activity key branch actor]
      simp only [Db.holdFor, hhold]
    refine .of_board ?_ (by simp only [Db.holdFor, hhold]) (by simp only [Db.holdFor, hhold])
    rw [hboard]
    exact .take htakes
  | some h =>
    refine .of_board ?_ (by simp only [Db.holdFor, hhold]) (by simp only [Db.holdFor, hhold])
    rw [board_holdFor hhold]
    exact .retake (fun hb _ _ hrow ha => hm.target hb hrow ha)
      fun _ _ hrow hheld hne hkey => hm.free_row hrow hheld hne hkey

/-- The activity holds the target. -/
lemma MayHold.locks (hm : MayHold s activity u key branch) (actor : Id) (hb : s.board.WellHeld)
    (howned : ∀ wa, s.workflowActivities.get? activity = some wa → s.integrates wa.project) :
    (s.holdFor activity key branch actor).LocksTarget u.id (key, branch) := by
  obtain ⟨wa, hwa, hwu, hkind⟩ := hm.integration
  have hproject := howned wa hwa
  cases hhold : s.holdOf activity with
  | none =>
    have hrow : (s.integrationHolds.create (heldHold s activity key branch actor)
        (key_heldHold s activity key branch actor)).project IntegrationHold.row
        s.integrationHolds.fresh = some ⟨activity, key, branch, true⟩ := by
      rw [Table.project_create, Function.update_self]
      rfl
    simp only [Db.holdFor, hhold]
    exact ⟨s.integrationHolds.fresh, _, wa.row, hrow, rfl, rfl, board_activity hwa, hwu, hkind,
      hproject⟩
  | some h =>
    have hmem := List.mem_of_find?_eq_some hhold
    have ha : h.activity = activity := by simpa using List.find?_some hhold
    have hrow : s.board.holds h.id = some h.row := Table.project_of_get? (Table.get?_of_mem hmem)
    obtain ⟨hkey, hbranch⟩ := hm.target hb hrow ha
    have hretaken : s.board.retake activity h.id = some { h.row with held := true } :=
      alter_of_pos (p := fun _ (row : Hold) => row.activity = activity) hrow ha
    refine ⟨h.id, { h.row with held := true }, wa.row, ?_, rfl, Prod.ext hkey hbranch, ?_, hwu,
      hkind, ?_⟩
    · rw [board_holdFor hhold]
      exact hretaken
    · rw [board_holdFor hhold]
      exact (congrArg s.board.activities ha).trans (board_activity hwa)
    · rw [integrates_congr (s := s) (by simp only [Db.holdFor, hhold])]
      exact hproject

/-- Contributors are recorded on the result only. -/
lemma MayHold.recorded {r : Id} {t : List Id} (hm : MayHold s activity u key branch) :
    MayHold (s.recordContributors r t) activity u key branch :=
  ⟨hm.integration, hm.submission, hm.pinsKey, hm.pinsBranch, hm.free⟩

lemma MayHold.of_recorded {r : Id} {t : List Id}
    (hm : MayHold (s.recordContributors r t) activity u key branch) :
    MayHold s activity u key branch :=
  ⟨hm.integration, hm.submission, hm.pinsKey, hm.pinsBranch, hm.free⟩

/-- What `take_hold` checked before it writes. -/
lemma takeHold_ok (hu : s.submissions.get? u.id = some u) (h : takeHold s actor u = .ok s') :
    ∃ wa key branch, s.workflowActivities.get? wa.id = some wa ∧
      MayHold s wa.id u key branch ∧ s' = s.holdFor wa.id key branch actor.id := by
  simp only [takeHold, bind_eq_ok] at h
  obtain ⟨wa, hwa, ⟨key, branch⟩, htarget, h⟩ := h
  simp only [refuseIf_eq_ok, pure_eq_ok] at h
  obtain ⟨_, hfree, rfl⟩ := h
  simp only [integrationActivity, okOr_eq_ok] at hwa
  simp only [holdTarget, okOr_eq_ok, Option.bind_eq_some_iff, Option.map_eq_some_iff,
    Prod.mk.injEq] at htarget
  obtain ⟨_, hkey, _, hbranch, rfl, rfl⟩ := htarget
  have hget := Table.get?_of_mem (List.mem_of_find?_eq_some hwa)
  obtain ⟨hwu, hkind, -⟩ : liveIntegrationOf u.id wa := by simpa using List.find?_some hwa
  exact ⟨wa, _, _, hget, ⟨⟨wa, hget, hwu, hkind⟩, hu, hkey, hbranch, fun r hr hheld hne hk hbr =>
    hfree ⟨r, hr, hheld, hne, hk, hbr⟩⟩, rfl⟩

end Hold

/-! ### Requests -/

section Requests

variable {n n' : Integration} {w w' : Work} {s s' : Db} {auth : Auth} {actor : Actor}
  {project result : Id}

/-- A result that is not pinned yet is inserted. -/
lemma recordResult_ok {input : ResultInput} {r : IntegratorResult}
    (h : recordResult s auth project input = .ok (s', r)) : ∃ actor x kind,
      (x = s ∨ x = s.insertResult actor project input) ∧ s' = x.finish actor kind r.id := by
  simp only [recordResult, bind_eq_ok] at h
  obtain ⟨-, -, actor, -, -, -, ⟨x, stored⟩, hstore, h⟩ := h
  obtain ⟨rfl, rfl⟩ := Prod.mk.inj (pure_eq_ok.1 h)
  simp only [storeResult, bind_eq_ok] at hstore
  obtain ⟨row, -, -, -, hstore⟩ := hstore
  split at hstore
  · simp only [bind_eq_ok, pure_eq_ok, Prod.mk.injEq] at hstore
    obtain ⟨-, -, rfl, -⟩ := hstore
    exact ⟨actor, _, _, .inl rfl, rfl⟩
  · simp only [bind_eq_ok, pure_eq_ok, Prod.mk.injEq] at hstore
    obtain ⟨-, -, rfl, -⟩ := hstore
    exact ⟨actor, _, _, .inr rfl, rfl⟩

lemma recordResult_keepsTargets {input : ResultInput} {r : IntegratorResult}
    (h : recordResult s auth project input = .ok (s', r)) : s.KeepsTargets s' := by
  obtain ⟨actor, x, kind, rfl | rfl, rfl⟩ := recordResult_ok h
  · exact .of_tables rfl rfl rfl rfl
  · exact .of_tables rfl rfl rfl rfl

lemma recordReceipt_keepsLocks {input : ReceiptInput} {r : Option IntegratorReceipt}
    (h : recordReceipt s auth project input = .ok (s', r)) : s.KeepsLocks s' := by
  simp only [recordReceipt, bind_eq_ok, pure_eq_ok, Prod.mk.injEq] at h
  obtain ⟨conclusion, -, actor, -, -, -, -, -, x, hinsert, rfl, -⟩ := h
  refine .finish ?_
  unfold insertReceipt at hinsert
  split at hinsert
  · simp only [bind_eq_ok, pure_eq_ok] at hinsert
    obtain ⟨-, -, rfl⟩ := hinsert
    exact .refl _
  · obtain rfl := pure_eq_ok.1 hinsert
    exact .keep (.refl s) rfl rfl rfl rfl rfl

lemma dependOnLanding_keepsLocks {case : ReviseCase} {landing : Option Id}
    (h : dependOnLanding w case landing = .ok w') : w.db.KeepsLocks w'.db := by
  cases landing with
  | none =>
    obtain rfl := pure_eq_ok.1 h
    exact .refl _
  | some landing =>
    simp only [dependOnLanding, dependOn] at h
    split at h
    · obtain rfl := pure_eq_ok.1 h
      exact .refl _
    · simp only [bind_eq_ok, pure_eq_ok] at h
      obtain ⟨x, hsave, rfl⟩ := h
      obtain ⟨revisions, rfl⟩ := saveTaskRevision_ok hsave
      exact .keep (.refl w.db) rfl rfl rfl rfl rfl

lemma recordAdmitted_keepsLocks {case : ReviseCase} {admission : ReviseAdmission}
    (h : recordAdmitted w case admission = .ok w') : w.db.KeepsLocks w'.db := by
  simp only [recordAdmitted, bind_eq_ok, pure_eq_ok] at h
  obtain ⟨w₁, hdepends, revises, -, rfl⟩ := h
  exact .keep (dependOnLanding_keepsLocks hdepends) rfl rfl rfl rfl rfl

/-- The integrator's revise supersedes the submission before it releases its target. -/
lemma integratorRevise_keepsLocks {input : IntegratorReviseInput}
    (h : integratorRevise w auth project input = .ok w') : w.db.KeepsLocks w'.db := by
  simp only [integratorRevise, bind_eq_ok, pure_eq_ok] at h
  obtain ⟨-, -, actor, -, -, -, task, -, admission, -, -, -, -, -, w₁, hw₁, rfl⟩ := h
  simp only [applyIntegratorRevise, bind_eq_ok] at hw₁
  obtain ⟨x, hback, hrecord⟩ := hw₁
  have hrecorded : w.db.KeepsLocks w₁.db := (supersedeSubmission_keepsLocks hback).trans
    (recordAdmitted_keepsLocks (w := w.withDb x) hrecord)
  exact hrecorded.finish

/-- Voided approvals leave the holds as they are. -/
lemma returnToReview_keepsLocks {row : IntegrableSubject}
    {voided : List (ReviewDecision × ActivityKind)} :
    s.KeepsLocks (s.returnToReview project row voided) := by
  have hvoid : ∀ (voided : List (ReviewDecision × ActivityKind)) (x : Db), s.KeepsLocks x →
      s.KeepsLocks (voided.foldl (fun s a => s.voidApproval project row a) x) := by
    intro voided
    induction voided with
    | nil => exact fun _ hx => hx
    | cons a voided ih =>
      intro x hx
      have hinvalid : s.KeepsLocks (x.invalidateDecision a.1.activity) :=
        .keep hx rfl rfl rfl rfl rfl
      exact ih _ hinvalid.createActivity
  exact .setTasks (.setPhase (hvoid voided s (.refl s)))

/-- A result is judged for an eligible submission, no other result of which holds authority. -/
lemma judge_ok {gates : List PrivilegeGate} {j : Judged} {runs : List DecidingRun}
    (h : judge s gates project result = .ok (j, runs)) :
    loadResult s project result = .ok j.result ∧
      eligibleSubject s project j.result.submission = .ok j.row ∧
      ∀ r ∈ s.ext.integratorResults, r.submission = j.result.submission → r.id ≠ j.result.id →
        r.authorityIssuedAt = none := by
  simp only [judge, bind_eq_ok, pure_eq_ok, Prod.mk.injEq] at h
  obtain ⟨r, hr, -, -, row, hrow, -, -, -, -, -, -, -, -, rfl, -⟩ := h
  simp only [authoritySubject, bind_eq_ok, refuseIf_eq_ok, pure_eq_ok, not_exists, not_and,
    not_not] at hrow
  obtain ⟨row', hrow', -, -, -, hother, rfl⟩ := hrow
  exact ⟨hr, hrow', hother⟩

/-- An eligible submission is one of the database. -/
lemma submission_of_eligibleSubject {submission : Id} {row : IntegrableSubject}
    (h : eligibleSubject s project submission = .ok row) :
    s.submissions.get? row.submission.id = some row.submission := by
  simp only [eligibleSubject, bind_eq_ok, okOr_eq_ok, refuseIf_eq_ok, pure_eq_ok] at h
  obtain ⟨_, hrow, _, -, -, -, rfl⟩ := h
  simp only [Db.integrableSubject?, Option.bind_eq_bind, Option.bind_eq_some_iff,
    Option.filter_eq_some_iff, Option.pure_def, Option.some.injEq] at hrow
  obtain ⟨ws, -, u, ⟨hu, -⟩, t, -, rfl⟩ := hrow
  have hid : u.id = submission := Table.key_of_get? hu
  show s.submissions.get? u.id = some u
  rw [hid, hu]

/-- Authority is granted with the target held, or the subject returns to review. -/
lemma decideAuthority_ok {j : Judged} {runs : List DecidingRun} {reply : AuthorityReply}
    (hu : s.submissions.get? j.row.submission.id = some j.row.submission)
    (h : decideAuthority s actor project j runs = .ok (s', reply)) :
    (∃ voided, reply = .returnedToReview voided ∧
      (s.recordContributors j.result.id j.contributorTasks).KeepsLocks s') ∨
    ∃ wa key branch, s.workflowActivities.get? wa.id = some wa ∧
      MayHold s wa.id j.row.submission key branch ∧
      s' = ((s.recordContributors j.result.id j.contributorTasks).holdFor wa.id key branch
        actor.id).issue j.result.id := by
  simp only [decideAuthority] at h
  split at h
  · obtain ⟨rfl, rfl⟩ := Prod.mk.inj (pure_eq_ok.1 h)
    exact .inl ⟨_, rfl, returnToReview_keepsLocks⟩
  · simp only [bind_eq_ok, pure_eq_ok, Prod.mk.injEq] at h
    obtain ⟨x, htake, rfl, -⟩ := h
    obtain ⟨wa, key, branch, hwa, hm, rfl⟩ :=
      takeHold_ok (s := s.recordContributors j.result.id j.contributorTasks) hu htake
    exact .inr ⟨wa, key, branch, hwa, hm.of_recorded, rfl⟩

/-- What `push_authority` read and wrote. -/
lemma pushAuthority_ok {reply : AuthorityReply}
    (h : n.pushAuthority auth project result = .ok (n', reply)) :
    ∃ actor j gates runs s kind, n.db.integrates project ∧
      judge n.db gates project result = .ok (j, runs) ∧
      decideAuthority n.db actor project j runs = .ok (s, reply) ∧
      n'.db = s.finish actor kind result := by
  simp only [Integration.pushAuthority, bind_eq_ok] at h
  obtain ⟨actor, -, _, hproject, ⟨j, runs⟩, hjudge, ⟨s, reply'⟩, hdecide, h⟩ := h
  obtain ⟨rfl, rfl⟩ := Prod.mk.inj (pure_eq_ok.1 h)
  simp only [requireIntegratorProject, bind_eq_ok, okOr_eq_ok, refuseIf_eq_ok, not_not] at hproject
  obtain ⟨p, hp, howner⟩ := hproject
  refine ⟨actor, j, _, runs, s, _, ?_, hjudge, hdecide, rfl⟩
  rw [Db.integrates, hp, Option.any_some, decide_eq_true howner]

lemma pushAuthority_keepsTargets {reply : AuthorityReply}
    (h : n.pushAuthority auth project result = .ok (n', reply)) : n.db.KeepsTargets n'.db := by
  obtain ⟨actor, j, gates, runs, s, kind, -, hjudge, hdecide, hn'⟩ := pushAuthority_ok h
  obtain ⟨-, hrow, -⟩ := judge_ok hjudge
  have hrecord : n.db.KeepsTargets (n.db.recordContributors j.result.id j.contributorTasks) :=
    .of_tables rfl rfl rfl rfl
  rw [hn']
  obtain ⟨voided, -, hkeeps⟩ | ⟨wa, key, branch, -, hm, rfl⟩ :=
    decideAuthority_ok (submission_of_eligibleSubject hrow) hdecide
  · exact hrecord.trans hkeeps.finish.toKeepsTargets
  · refine (hrecord.trans (hm.recorded.keepsLocks actor.id).toKeepsTargets).trans ?_
    exact .of_tables rfl rfl rfl rfl

end Requests

/-! ### Observations -/

/-- A change that does not take its lock from the submission while it stands. -/
structure Db.KeepsLockOf (u : Id) (s s' : Db) : Prop where
  submissions : Grown Candidate.Stands s.board.submissions s'.board.submissions
  wellHeld : s.board.WellHeld → s'.board.WellHeld
  keeps : s.board.WellHeld → ∀ x, s.LocksTarget u x → s'.LocksTarget u x ∨ s'.board.Superseded u

section Observations

variable {n n' : Integration} {b b' : Backlog} {s s' s'' : Db} {auth : Auth} {actor : Actor}
  {project u : Id} {o : ObservedResult} {d : ObservedDisposition}

lemma Db.KeepsTargets.lockOf (h : s.KeepsTargets s') (u : Id) : s.KeepsLockOf u s' :=
  ⟨h.submissions, h.wellHeld, fun hb x hu => h.keeps hb u x hu⟩

lemma Db.KeepsLockOf.trans (h : s.KeepsLockOf u s') (h' : s'.KeepsLockOf u s'') :
    s.KeepsLockOf u s'' where
  submissions := h.submissions.trans (fun _ _ _ => .trans) h'.submissions
  wellHeld hb := h'.wellHeld (h.wellHeld hb)
  keeps hb x hu := by
    rcases h.keeps hb x hu with hlocks | hs
    · exact h'.keeps (h.wellHeld hb) x hlocks
    · exact .inr (hs.of_grown h'.submissions)

/-- The end of an authority releases the target of its submission only. -/
lemma endAuthority_keepsLockOf {why : String} (hne : o.result.submission ≠ u) :
    s.KeepsLockOf u (s.endAuthority actor o why) := by
  obtain ⟨X, hX⟩ : ∃ X, X = s.updateResult o.result.id
      (fun r => { r with authorityIssuedAt := none }) fun _ => rfl := ⟨_, rfl⟩
  have hend : s.KeepsTargets X := by
    rw [hX]
    exact .of_tables rfl rfl rfl rfl
  have hrelease : X.KeepsLockOf u
      (X.releaseHolds (s.activityOf o.result.submission) actor.id why) := by
    have hboard := board_releaseHolds (s := X) (p := s.activityOf o.result.submission) actor.id why
    refine ⟨by rw [hboard]; exact .refl .refl _, fun hb => by rw [hboard]; exact hb.release,
      fun _ x hu => .inl ?_⟩
    obtain ⟨h, row, wa, hrow, hheld, hx, hwa, hwu, hkind, howned⟩ := hu
    have hother : ¬ s.activityOf o.result.submission row.activity := by
      obtain ⟨r, hr, rfl⟩ := Table.project_eq_some.1 hwa
      rw [hX] at hr
      rw [Db.activityOf, show s.workflowActivities.get? row.activity = some r from hr,
        Option.any_some, decide_eq_true_eq]
      exact fun heq => hne (heq.symm.trans hwu)
    have hstill : X.board.release (s.activityOf o.result.submission) h = some row :=
      alter_of_neg (p := fun _ (row : Hold) => s.activityOf o.result.submission row.activity)
        hrow hother
    exact ⟨h, row, wa, by rw [hboard]; exact hstill, hheld, hx, by rw [hboard]; exact hwa, hwu,
      hkind, howned⟩
  rw [Db.endAuthority, ← hX]
  exact (hend.lockOf u).trans hrelease

lemma completeSubject_keepsLocks : s.KeepsLocks (s.completeSubject o) := by
  have hcompleted := (Db.KeepsLocks.refl s).modifyActivities
    (p := liveIntegrationOf o.result.submission)
    (fun wa => { wa with state := .completed, completedAt := some s.now }) (fun _ => rfl)
    fun _ => ⟨rfl, rfl, rfl⟩
  exact .keep hcompleted rfl rfl rfl rfl rfl

/-! The tasks that the service inserts. -/

lemma insertServiceTask_keepsLocks {t : ServiceTask} {origin : Origin}
    {c : Option AdmissionClass} (h : b.insertServiceTask t origin c = .ok b') :
    b.work.db.KeepsLocks b'.work.db := by
  simp only [Backlog.insertServiceTask, bind_eq_ok, pure_eq_ok] at h
  obtain ⟨x, hsave, rfl⟩ := h
  obtain ⟨revisions, rfl⟩ := saveTaskRevision_ok hsave
  exact .keep (.refl b.work.db) rfl rfl rfl rfl rfl

lemma recordCreator_keepsLocks {task original principal : Id} {session : Option Id} :
    s.KeepsLocks (s.recordCreator task original principal session) := by
  have hloop : ∀ (contributors : List TaskContributor) (x : Db), s.KeepsLocks x →
      s.KeepsLocks (contributors.foldl
        (fun s tc => s.recordContributor task tc.principal tc.session) x) := by
    intro contributors
    induction contributors with
    | nil => exact fun _ hx => hx
    | cons tc contributors ih => exact fun x hx => ih _ (.keep hx rfl rfl rfl rfl rfl)
  exact hloop _ _ (.keep (.refl s) rfl rfl rfl rfl rfl)

lemma insertRevert_keepsLocks {r : NewRevert} (h : b.insertRevert r = .ok b') :
    b.work.db.KeepsLocks b'.work.db := by
  simp only [Backlog.insertRevert, bind_eq_ok, pure_eq_ok] at h
  obtain ⟨b₁, hinsert, rfl⟩ := h
  refine (insertServiceTask_keepsLocks hinsert).trans (.trans ?_ recordCreator_keepsLocks)
  exact .keep (.refl b₁.work.db) rfl rfl rfl rfl rfl

/-- What becomes of a revise that lost to a push is a new task. -/
lemma createFollowUp_keepsLocks {published : Bool} {q : ReviseRequest} {task : Id}
    (h : createFollowUp b project o published q = .ok (b', task)) :
    b.work.db.KeepsLocks b'.work.db := by
  unfold createFollowUp at h
  split at h
  · unfold Backlog.createAutomatic at h
    split at h
    · obtain ⟨rfl, -⟩ := Prod.mk.inj (pure_eq_ok.1 h)
      exact .refl _
    · simp only [bind_eq_ok] at h
      obtain ⟨⟨r, original⟩, -, b₁, hinsert, h⟩ := h
      obtain ⟨rfl, -⟩ := Prod.mk.inj (pure_eq_ok.1 h)
      exact insertRevert_keepsLocks hinsert
  · simp only [bind_eq_ok, pure_eq_ok, Prod.mk.injEq] at h
    obtain ⟨t, -, b₁, hinsert, rfl, -⟩ := h
    exact insertServiceTask_keepsLocks hinsert

lemma proposeReland_keepsLocks {task : Id} (h : n.proposeReland project task = .ok n') :
    n.db.KeepsLocks n'.db := by
  unfold Integration.proposeReland at h
  split at h
  · obtain rfl := pure_eq_ok.1 h
    exact .refl _
  · simp only [bind_eq_ok, pure_eq_ok] at h
    obtain ⟨b, hinsert, rfl⟩ := h
    exact insertServiceTask_keepsLocks hinsert

lemma completeLanded_keepsLocks (h : completeLanded n project o d = .ok n') :
    n.db.KeepsLocks n'.db := by
  unfold completeLanded at h
  split at h
  · obtain rfl := pure_eq_ok.1 h
    exact .refl _
  · have hcompleted : n.db.KeepsLocks (n.db.completeSubject o) := completeSubject_keepsLocks
    dsimp only at h
    split at h
    · exact hcompleted.trans (proposeReland_keepsLocks h)
    · obtain rfl := pure_eq_ok.1 h
      exact hcompleted

lemma resolveRevise_keepsLocks {submission : Id} {outcome : ReviseOutcome} :
    s.KeepsLocks (s.resolveRevise submission outcome) := .keep (.refl s) rfl rfl rfl rfl rfl

/-- A deferred revise that applies supersedes the submission before it releases its target. -/
lemma applyRevise_keepsLocks {q : ReviseRequest} (h : applyRevise s actor project o q = .ok s') :
    s.KeepsLocks s' := by
  simp only [applyRevise, bind_eq_ok, pure_eq_ok] at h
  obtain ⟨x, hback, hs'⟩ := h
  rw [← hs']
  exact (supersedeSubmission_keepsLocks hback).trans resolveRevise_keepsLocks

lemma settleRevise_keepsLocks {outcome : Option ReviseOutcome}
    (h : settleRevise n actor project o d = .ok (n', outcome)) : n.db.KeepsLocks n'.db := by
  unfold settleRevise at h
  split at h
  · obtain ⟨rfl, -⟩ := Prod.mk.inj (pure_eq_ok.1 h)
    exact .refl _
  · split at h
    · obtain ⟨rfl, -⟩ := Prod.mk.inj (pure_eq_ok.1 h)
      exact resolveRevise_keepsLocks
    · split at h
      · simp only [bind_eq_ok, pure_eq_ok, Prod.mk.injEq] at h
        obtain ⟨x, happly, rfl, -⟩ := h
        exact applyRevise_keepsLocks happly
      · simp only [bind_eq_ok] at h
        obtain ⟨⟨b, task⟩, hfollow, h⟩ := h
        obtain ⟨rfl, -⟩ := Prod.mk.inj (pure_eq_ok.1 h)
        exact (createFollowUp_keepsLocks hfollow).trans resolveRevise_keepsLocks

/-- An observation ends the authority of its result, which no other result of the submission may
hold. -/
lemma Integration.observe_ok {input : TipObservationInput} {outcome : Option ReviseOutcome}
    (h : n.observe auth project input = .ok (n', d, outcome)) : ∃ actor o why x,
      n.db.ext.integratorResults.get? input.result = some o.result ∧
      (∀ r, n.db.outstandingAuthority? o.result.submission = some r → r.id = o.result.id) ∧
      n.db.KeepsLocks x ∧ (x.endAuthority actor o why).KeepsLocks n'.db := by
  simp only [Integration.observe, applyDisposition, bind_eq_ok] at h
  obtain ⟨-, -, actor, -, -, -, o, ho, d', -, _, hobservable, ⟨n₁, outcome'⟩,
    ⟨n₂, hcomplete, hsettle⟩, h⟩ := h
  obtain ⟨rfl, -⟩ := Prod.mk.inj (pure_eq_ok.1 h)
  simp only [observedResult, loadResult, bind_eq_ok, okOr_eq_ok, Option.filter_eq_some_iff,
    pure_eq_ok] at ho
  obtain ⟨r, ⟨hr, -⟩, u, -, ws, -, _, -, rfl⟩ := ho
  simp only [ensureObservable, bind_eq_ok, refuseIf_eq_ok] at hobservable
  obtain ⟨_, hfirst, -⟩ := hobservable
  have hsettled := (completeLanded_keepsLocks hcomplete).trans (settleRevise_keepsLocks hsettle)
  refine ⟨actor, ⟨r, u, ws⟩, _, n.backlog.work.view.insertObservation input d', hr, fun r' hr' => ?_,
    .keep (.refl n.db) rfl rfl rfl rfl rfl, hsettled.finish⟩
  by_contra hne
  refine hfirst ((Option.any_eq_true _ _).2 ⟨r', hr', decide_eq_true hne⟩)

/-- An observation keeps the locks of all submissions but the observed one. -/
lemma observe_keepsLockOf {input : TipObservationInput} {outcome : Option ReviseOutcome}
    (hspares : ∀ r, n.db.ext.integratorResults.get? input.result = some r → r.submission ≠ u)
    (h : n.observe auth project input = .ok (n', d, outcome)) : n.db.KeepsLockOf u n'.db := by
  obtain ⟨actor, o, why, x, hr, -, hbefore, hafter⟩ := Integration.observe_ok h
  exact ((hbefore.toKeepsTargets.lockOf u).trans (endAuthority_keepsLockOf (hspares _ hr))).trans
    (hafter.toKeepsTargets.lockOf u)

end Observations

end AgentCoordinator
