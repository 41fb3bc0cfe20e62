import AgentCoordinator.Board.Basic

/-
What every reachable board satisfies.

`Wired` says that the rows refer to each other as the schema's keys intend; it does not mention
anything a row changes in its life. `Coherent` adds what the moves maintain: which submission is
current, that at most one integration of a submission is open, that an unsettled intent has its
target locked, that the integrations of a submission in review are asleep.
-/

namespace AgentCoordinator

namespace Board

open Maps

/-- The references between rows. -/
structure Wired (b : Board) : Prop where
  activitySubmission : ∀ a wa, b.activities a = some wa →
    ∃ u, b.submissions wa.submission = some u ∧ u.task = wa.subjectTask ∧
      (wa.kind = .integration → u.kind = .code)
  activitySubject : ∀ a wa, b.activities a = some wa →
    ∃ ws, b.subjects wa.subjectTask = some ws
  activityTask : ∀ a wa, b.activities a = some wa →
    ∃ t, b.tasks wa.task = some t ∧ t.project = wa.project ∧ t.kind = .general
  ownTask : ∀ a a' wa wa', b.activities a = some wa → b.activities a' = some wa' →
    wa.task = wa'.task → a = a'
  subjectTask : ∀ k ws, b.subjects k = some ws →
    ∃ t, b.tasks k = some t ∧ t.project = ws.project
  subjectSubmission : ∀ k ws, b.subjects k = some ws →
    ∃ u, b.submissions ws.current = some u ∧ u.task = k
  subjectProject : ∀ k ws u, b.subjects k = some ws → b.submissions ws.current = some u →
    u.project = ws.project
  submissionSubject : ∀ id u, b.submissions id = some u → ∃ ws, b.subjects u.task = some ws
  codeTask : ∀ id u, b.submissions id = some u → u.kind = .code → ¬ b.ActivityTask u.task
  holdActivity : ∀ h row, b.holds h = some row → ∃ wa u, b.activities row.activity = some wa ∧
    wa.kind = .integration ∧ b.submissions wa.submission = some u ∧ u.key = some row.key ∧
      u.branch = some row.branch
  ownHold : ∀ h h' row row', b.holds h = some row → b.holds h' = some row' →
    row.activity = row'.activity → h = h'
  intentActivity : ∀ a, b.intended a → ∃ wa, b.activities a = some wa ∧ wa.kind = .integration
  reconciledIntent : ∀ a, b.reconciled a → b.intended a

/-- What the moves maintain. -/
structure Coherent (b : Board) : Prop extends Wired b where
  current : ∀ id u, b.submissions id = some u → u.superseded = false →
    ∃ ws, b.subjects u.task = some ws ∧ ws.current = id
  revision : ∀ k ws u, b.subjects k = some ws → b.submissions ws.current = some u →
    (ws.phase = .revisionNeeded ↔ u.superseded = true)
  integrationPhase : ∀ k ws u, b.subjects k = some ws → b.submissions ws.current = some u →
    ws.phase = .integration → u.kind = .code
  targetUnique : ∀ h h' row row', b.holds h = some row → b.holds h' = some row' →
    row.held = true → row'.held = true → row.key = row'.key → row.branch = row'.branch → h = h'
  reconciledLive : ∀ a wa, b.reconciled a → b.activities a = some wa → ¬ wa.state.Live
  reconciledHold : ∀ h row, b.reconciled row.activity → b.holds h = some row → row.held = false
  recoveryIntent : ∀ a wa, b.activities a = some wa → wa.state = .recoveryRequired →
    b.intended a
  openUnique : ∀ a a' wa wa', b.activities a = some wa → b.activities a' = some wa' →
    wa.kind = .integration → wa'.kind = .integration → wa.submission = wa'.submission →
      b.Open a wa → b.Open a' wa' → a = a'
  /-- The integration of a submission in review is queued, its task is blocked and without an
  owner or a submission of its own, and it has neither intent nor hold. -/
  asleep : ∀ a wa ws, b.activities a = some wa → wa.kind = .integration →
    b.subjects wa.subjectTask = some ws → ws.current = wa.submission → ws.phase = .review →
      wa.state = .queued ∧
        (∃ t, b.tasks wa.task = some t ∧ t.blocked = true ∧ t.owned = false) ∧
        b.subjects wa.task = none ∧ ¬ b.intended a ∧
        ∀ h row, b.holds h = some row → row.activity ≠ a
  /-- An intent that is neither finalized nor reconciled keeps its target. -/
  locked : ∀ a, b.intended a → (∃ wa, b.activities a = some wa ∧ wa.state = .completed) ∨
    b.reconciled a ∨ ∃ h row, b.holds h = some row ∧ row.activity = a ∧ row.held = true
  /-- Nobody owns an ordinary task while its submission is in the workflow. -/
  settled : ∀ k ws t, b.subjects k = some ws → ws.phase ≠ .revisionNeeded →
    ¬ b.ActivityTask k → b.tasks k = some t → t.owned = false
  verdictActivity : ∀ a v, b.verdicts a = some v → ∃ wa, b.activities a = some wa ∧
    wa.state = .completed ∧ wa.kind ≠ .integration ∧ wa.submission = v.submission ∧
      ∃ k, v.reviewer = some k ∧ fits wa.kind k
  completedVerdict : ∀ a wa, b.activities a = some wa → wa.kind ≠ .integration →
    wa.state = .completed → ∃ v, b.verdicts a = some v ∧
      (v.approved = false → ∀ u, b.submissions wa.submission = some u → u.superseded = true)

/-! ### Rows in another state -/

/-- The same activity, possibly in another state. -/
def SameActivity (wa wa' : Activity) : Prop := wa' = { wa with state := wa'.state }

/-- The same submission, possibly superseded since. -/
def SameCandidate (u u' : Candidate) : Prop := u' = { u with superseded := u'.superseded }

/-- The same subject, possibly in another phase. -/
def SameSubject (ws ws' : Subject) : Prop := ws' = { ws with phase := ws'.phase }

/-- The same hold, possibly released since. -/
def SameHold (h h' : Hold) : Prop := h' = { h with held := h'.held }

lemma sameActivities (m : Id → Option Activity) : Related SameActivity m m :=
  Related.refl (R := SameActivity) (fun _ => rfl) m

lemma sameCandidates (m : Id → Option Candidate) : Related SameCandidate m m :=
  Related.refl (R := SameCandidate) (fun _ => rfl) m

lemma sameSubjects (m : Id → Option Subject) : Related SameSubject m m :=
  Related.refl (R := SameSubject) (fun _ => rfl) m

lemma sameHolds (m : Id → Option Hold) : Related SameHold m m :=
  Related.refl (R := SameHold) (fun _ => rfl) m

lemma related_setState {b : Board} {p : Id → Activity → Prop} [∀ a wa, Decidable (p a wa)]
    {state : ActivityState} : Related SameActivity b.activities (b.setState p state) :=
  Related.alter (fun _ => rfl) fun _ => rfl

lemma related_supersede {b : Board} {u : Id} :
    Related SameCandidate b.submissions (b.supersede u) :=
  Related.alter (fun _ => rfl) fun _ => rfl

lemma related_setPhase {b : Board} {k : Id} {phase : Phase} :
    Related SameSubject b.subjects (b.setPhase k phase) :=
  Related.alter (fun _ => rfl) fun _ => rfl

lemma related_release {b : Board} {p : Id → Prop} [DecidablePred p] :
    Related SameHold b.holds (b.release p) :=
  Related.alter (fun _ => rfl) fun _ => rfl

lemma SameActivity.symm {wa wa' : Activity} (h : SameActivity wa wa') : SameActivity wa' wa := by
  rw [SameActivity, h]

lemma activityTask_iff {b b' : Board} (h : Related SameActivity b.activities b'.activities)
    {k : Id} : b'.ActivityTask k ↔ b.ActivityTask k := by
  constructor
  · rintro ⟨a, wa', hwa', rfl⟩
    obtain ⟨wa, hwa, he⟩ := h.old a wa' hwa'
    exact ⟨a, wa, hwa, by rw [he]⟩
  · rintro ⟨a, wa, hwa, rfl⟩
    obtain ⟨wa', hwa', he⟩ := h.new a wa hwa
    exact ⟨a, wa', hwa', by rw [he]⟩

/-- References do not see changes of state. -/
lemma Wired.of_same {b b' : Board} (h : Wired b) (tasks : b'.tasks = b.tasks)
    (activities : Related SameActivity b.activities b'.activities)
    (submissions : Related SameCandidate b.submissions b'.submissions)
    (subjects : Related SameSubject b.subjects b'.subjects)
    (holds : Related SameHold b.holds b'.holds) (intended : b'.intended = b.intended)
    (reconciled : ∀ a, b'.reconciled a → b.intended a) : Wired b' := by
  have htask := fun k => activityTask_iff activities (k := k)
  obtain ⟨aold, anew⟩ := activities
  obtain ⟨uold, unew⟩ := submissions
  obtain ⟨wold, wnew⟩ := subjects
  obtain ⟨hold, hnew⟩ := holds
  simp only [SameActivity, SameCandidate, SameSubject, SameHold] at *
  exact
    { activitySubmission := by grind [h.activitySubmission]
      activitySubject := by grind [h.activitySubject]
      activityTask := by grind [h.activityTask]
      ownTask := by grind [h.ownTask]
      subjectTask := by grind [h.subjectTask]
      subjectSubmission := by grind [h.subjectSubmission]
      subjectProject := by grind [h.subjectProject]
      submissionSubject := by grind [h.submissionSubject]
      codeTask := by grind [h.codeTask]
      holdActivity := by grind [h.holdActivity]
      ownHold := by grind [h.ownHold]
      intentActivity := by
        intro a ha
        rw [intended] at ha
        obtain ⟨wa, hwa, hkind⟩ := h.intentActivity a ha
        obtain ⟨wa', hwa', he⟩ := anew a wa hwa
        exact ⟨wa', hwa', by rw [he]; exact hkind⟩
      reconciledIntent := fun a ha => by
        rw [intended]
        exact reconciled a ha }

end Board

end AgentCoordinator
