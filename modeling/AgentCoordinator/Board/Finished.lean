import AgentCoordinator.Board.Preserve

/-
Completed work.

A subject that is done has no integration left that could still publish, as long as nobody
reconciles a publication of completed work. From that it follows that no move but such a
reconciliation, or a late decision of one of its reviews, touches a completed subject.
-/

namespace AgentCoordinator

namespace Board

open Maps

variable {b b' : Board}

/-- The integrations of the current submission of a completed subject are closed; one whose
intent was never reconciled has completed. -/
def Finished (b : Board) : Prop :=
  ∀ a wa ws, b.activities a = some wa → wa.kind = .integration →
    b.subjects wa.subjectTask = some ws → ws.current = wa.submission → ws.phase = .done →
      b.Open a wa → wa.state = .completed

/-- No human reconciles a publication of completed work. -/
def ReconcilesUnfinished (b : Board) : Label → Prop
  | .reconcile true a => ∀ wa ws, b.activities a = some wa →
      b.subjects wa.subjectTask = some ws → ws.phase ≠ .done
  | _ => True

/-- Moreover, no late decision sends completed work back, or on to an integration. -/
def LeavesDone (b : Board) : Label → Prop
  | .reconcile true a | .sendBack a => ∀ wa ws, b.activities a = some wa →
      b.subjects wa.subjectTask = some ws → ws.phase ≠ .done
  | .advance k => ∀ ws u, b.subjects k = some ws → b.submissions ws.current = some u →
      ws.phase = .done → u.kind = .general
  | _ => True

lemma LeavesDone.reconcilesUnfinished {l : Label} (h : LeavesDone b l) :
    ReconcilesUnfinished b l := by
  cases l with
  | reconcile human a => cases human <;> exact h
  | _ => trivial

/-- A live integration of its subject's current submission keeps the subject from being done. -/
lemma Finished.notDone (h : Finished b) {a : Id} {wa : Activity} {ws : Subject}
    (activity : b.activities a = some wa) (kind : wa.kind = .integration) (live : wa.state.Live)
    (subject : b.subjects wa.subjectTask = some ws) (current : ws.current = wa.submission) :
    ws.phase ≠ .done := by
  intro hdone
  have hstate := h a wa ws activity kind subject current hdone (.inl live)
  rw [hstate] at live
  exact absurd live (by decide)

/-- What may be reconciled is not done. -/
lemma Finished.reconcile_notDone (h : Finished b) (hb : Coherent b) {human : Bool} {a : Id}
    {wa : Activity} {ws : Subject} (activity : b.activities a = some wa) (intended : b.intended a)
    (unreconciled : ¬ b.reconciled a) (subject : b.subjects wa.subjectTask = some ws)
    (current : ws.current = wa.submission)
    (agent : human = false → wa.state ∈ [ActivityState.active, .recoveryRequired])
    (hok : ReconcilesUnfinished b (.reconcile human a)) : ws.phase ≠ .done := by
  cases human with
  | true => exact hok wa ws activity subject
  | false =>
    intro hdone
    obtain ⟨wa', hwa', hkind⟩ := hb.intentActivity a intended
    obtain rfl := Option.some.inj (hwa'.symm.trans activity)
    have hstate := h a wa' ws activity hkind subject current hdone (.inr ⟨intended, unreconciled⟩)
    have hagent := agent rfl
    rw [hstate] at hagent
    exact absurd hagent (by decide)

/-- Every move that reconciles nothing of completed work keeps completed work closed. -/
theorem Finished.move {l : Label} (h : Finished b) (hb : Coherent b)
    (hok : ReconcilesUnfinished b l) (hmove : Move b l b') : Finished b' := by
  cases hmove with
  | retask => exact h
  | @submit k id t u ws out task owned awake fresh uTask standing code project same current =>
    intro x w ws' hw hk hws' hcur hdone ho
    rcases update_eq_some.1 hws' with ⟨-, rfl⟩ | ⟨-, hold⟩
    · -- the new submission has no activity
      obtain ⟨u', hu', -⟩ := hb.activitySubmission x w hw
      rw [← hcur, current, fresh] at hu'
      exact absurd hu' (by simp)
    · exact h x w ws' hw hk hold hcur hdone ho
  | @enqueue a wa t ws u queued pinned review integration others =>
    intro x w ws' hw hk hws' hcur hdone ho
    rcases update_eq_some.1 hw with ⟨rfl, rfl⟩ | ⟨-, hold⟩
    · obtain rfl := Option.some.inj (hws'.symm.trans pinned.subject)
      obtain ⟨-, hphase, -⟩ := integration hk
      rw [hdone] at hphase
      simp at hphase
    · exact h x w ws' hold hk hws' hcur hdone ho
  | @restate p _ state _ _ notCompleted live awake recovery canceled =>
    intro x w ws' hw hk hws' hcur hdone ho
    obtain ⟨w₀, hw₀, hsame, ⟨hp, -⟩ | ⟨-, rfl⟩⟩ := of_setState (b := b) (p := p) hw
    · rw [hsame] at hk hws' hcur
      exact absurd hdone (h.notDone hw₀ hk (live x w₀ hw₀ hp) hws' hcur)
    · exact h x w ws' hw₀ hk hws' hcur hdone ho
  | takeHold => exact h
  | @intend a wa activity kind live awake held =>
    intro x w ws' hw hk hws' hcur hdone ho
    rcases ho with hl | ⟨rfl | hi, hr⟩
    · exact h x w ws' hw hk hws' hcur hdone (.inl hl)
    · obtain rfl := Option.some.inj (hw.symm.trans activity)
      exact absurd hdone (h.notDone hw hk live hws' hcur)
    · exact h x w ws' hw hk hws' hcur hdone (.inr ⟨hi, hr⟩)
  | @releaseIntegration a a' wa wa' t ws u activity kind live awake pinned unintended queued same =>
    have hphase := h.notDone activity kind live pinned.subject pinned.current
    intro x w ws' hw hk hws' hcur hdone ho
    rcases update_eq_some.1 hw with ⟨rfl, rfl⟩ | ⟨-, hold⟩
    · rw [same.1] at hws'
      obtain rfl := Option.some.inj (hws'.symm.trans pinned.subject)
      exact absurd hdone hphase
    · obtain ⟨w₀, hw₀, hsame, ⟨rfl, -⟩ | ⟨-, rfl⟩⟩ := of_setState (b := b) (p := only a) hold
      · obtain rfl := Option.some.inj (hw₀.symm.trans activity)
        rw [hsame] at hws'
        obtain rfl := Option.some.inj (hws'.symm.trans pinned.subject)
        exact absurd hdone hphase
      · exact h x w ws' hw₀ hk hws' hcur hdone ho
  | @approve a wa v k activity kind live =>
    intro x w ws' hw hk hws' hcur hdone ho
    obtain ⟨w₀, hw₀, hsame, ⟨-, hs⟩ | ⟨-, rfl⟩⟩ := of_setState (b := b) (p := only a) hw
    · exact hs
    · exact h x w ws' hw₀ hk hws' hcur hdone ho
  | @advance k ws u phase subject submission notRevision next =>
    intro x w ws' hw hk hws' hcur hdone ho
    obtain ⟨w₀, hw₀, hsame, hcase⟩ :=
      of_setState (b := b) (p := queuedReviewOf ws.current) hw
    rcases hcase with ⟨hp, -⟩ | ⟨-, rfl⟩
    · rw [hsame] at hk
      exact absurd hk hp.2.1
    · obtain ⟨ws₀, hws₀, hcur₀, ⟨hk', hphase⟩ | ⟨-, rfl⟩⟩ := of_setPhase (b := b) hws'
      · -- only general work is done without an integration
        rcases next with ⟨hgeneral, -⟩ | ⟨-, rfl⟩
        · obtain ⟨u', hu', -, hcode⟩ := hb.activitySubmission x w hw₀
          rw [hk'] at hws₀
          obtain rfl := Option.some.inj (hws₀.symm.trans subject)
          rw [← hcur, hcur₀, submission] at hu'
          obtain rfl := Option.some.inj hu'
          rw [hcode hk] at hgeneral
          exact absurd hgeneral (by simp)
        · rw [hphase] at hdone
          exact absurd hdone (by simp)
      · exact h x w ws' hw₀ hk hws₀ hcur hdone ho
  | @sendBack a wa v k ws u activity kind live pinned undecided submission approved reviewer fit =>
    intro x w ws' hw hk hws' hcur hdone ho
    obtain ⟨ws₀, hws₀, hcur₀, ⟨-, hphase⟩ | ⟨hne, rfl⟩⟩ := of_setPhase (b := b) hws'
    · rw [hphase] at hdone
      exact absurd hdone (by simp)
    · -- what the decision ends belongs to the subject that goes back
      rcases of_alter hw with ⟨w₁, hw₁, hp, rfl⟩ | ⟨hw₁, -⟩
      · obtain ⟨w₀, hw₀, hsame, -⟩ := of_setState (b := b) (p := only a) hw₁
        rw [hsame] at hp hne
        exact absurd (hb.same_subject activity hw₀ hp.1) hne
      · obtain ⟨w₀, hw₀, hsame, ⟨rfl, -⟩ | ⟨-, rfl⟩⟩ := of_setState (b := b) (p := only a) hw₁
        · obtain rfl := Option.some.inj (hw₀.symm.trans activity)
          rw [hsame] at hne
          exact absurd rfl hne
        · exact h x w ws' hw₀ hk hws₀ hcur hdone ho
  | @reopen k ws subject notDone settled p _ holds =>
    intro x w ws' hw hk hws' hcur hdone ho
    obtain ⟨ws₀, hws₀, hcur₀, ⟨-, hphase⟩ | ⟨hne, rfl⟩⟩ := of_setPhase (b := b) hws'
    · rw [hphase] at hdone
      exact absurd hdone (by simp)
    · obtain ⟨w₀, hw₀, hsame, ⟨hp, -⟩ | ⟨-, rfl⟩⟩ :=
        of_setState (b := b) (p := liveOf ws.current fun _ => False) hw
      · obtain ⟨u, hu, htask, -⟩ := hb.activitySubmission x w₀ hw₀
        obtain ⟨u', hu', htask'⟩ := hb.subjectSubmission k ws subject
        rw [hp.1, hu'] at hu
        obtain rfl := Option.some.inj hu
        rw [hsame] at hne
        exact absurd (htask.symm.trans htask') hne
      · exact h x w ws' hw₀ hk hws₀ hcur hdone ho
  | @reconcile human a a' hid wa wa' t ws u row activity intended unreconciled subject current
      submission agent queued same rowActivity fresh free =>
    have hphase := h.reconcile_notDone hb activity intended unreconciled subject current
      (fun hh => (agent hh).1) hok
    intro x w ws' hw hk hws' hcur hdone ho
    rcases update_eq_some.1 hw with ⟨rfl, rfl⟩ | ⟨-, hold⟩
    · rw [same.1] at hws'
      obtain rfl := Option.some.inj (hws'.symm.trans subject)
      exact absurd hdone hphase
    · obtain ⟨w₀, hw₀, hsame, ⟨⟨rfl, -⟩, -⟩ | ⟨-, rfl⟩⟩ :=
        of_setState (b := b) (p := fun x wa => x = a ∧ wa.state.Live) hold
      · obtain rfl := Option.some.inj (hw₀.symm.trans activity)
        rw [hsame] at hws'
        obtain rfl := Option.some.inj (hws'.symm.trans subject)
        exact absurd hdone hphase
      · exact h x w ws' hw₀ hk hws' hcur hdone
          (ho.imp_right fun ⟨hi, hr⟩ => ⟨hi, fun hx => hr (.inr hx)⟩)
  | @finalize a wa ws u activity kind live awake pinned =>
    intro x w ws' hw hk hws' hcur hdone ho
    obtain ⟨w₀, hw₀, hsame, ⟨-, hs⟩ | ⟨hx, rfl⟩⟩ := of_setState (b := b) (p := only a) hw
    · exact hs
    · obtain ⟨ws₀, hws₀, hcur₀, ⟨htask, -⟩ | ⟨-, rfl⟩⟩ := of_setPhase (b := b) hws'
      · -- the finalized integration was the only open one
        rw [htask, pinned.subject] at hws₀
        obtain rfl := Option.some.inj hws₀
        have hsub : w.submission = wa.submission := by rw [← hcur, hcur₀, pinned.current]
        exact absurd (hb.openUnique x a w wa hw₀ activity hk kind hsub ho (.inl live)) hx
      · exact h x w ws' hw₀ hk hws₀ hcur hdone ho

/-! ### Completed subjects -/

/-- What a move leaves alone of the subject of task `k`, and of its current submission. -/
structure Undisturbed (b b' : Board) (k : Id) (ws : Subject) : Prop where
  subject : b'.subjects k = some ws
  submission : ∀ u, b.submissions ws.current = some u → b'.submissions ws.current = some u
  activities : ∀ a wa', b'.activities a = some wa' → wa'.subjectTask = k →
    ∃ wa, b.activities a = some wa ∧ wa.subjectTask = k
  holds : ∀ h row wa, b'.holds h = some row → row.held = true →
    b'.activities row.activity = some wa → wa.subjectTask = k → b.holds h = some row

lemma Undisturbed.refl {k : Id} {ws : Subject} (subject : b.subjects k = some ws) :
    Undisturbed b b k ws :=
  ⟨subject, fun _ hu => hu, fun _ wa hwa hk => ⟨wa, hwa, hk⟩, fun _ _ _ hrow _ _ _ => hrow⟩

lemma Undisturbed.trans {b'' : Board} {k : Id} {ws : Subject} (h : Undisturbed b b' k ws)
    (h' : Undisturbed b' b'' k ws) : Undisturbed b b'' k ws where
  subject := h'.subject
  submission u hu := h'.submission u (h.submission u hu)
  activities a wa hwa hk := by
    obtain ⟨wa', hwa', hk'⟩ := h'.activities a wa hwa hk
    exact h.activities a wa' hwa' hk'
  holds x row wa hrow hheld hwa hk := by
    obtain ⟨wa', hwa', hk'⟩ := h'.activities row.activity wa hwa hk
    exact h.holds x row wa' (h'.holds x row wa hrow hheld hwa hk) hheld hwa' hk'

/-- A move that changes no identity of an activity and no hold leaves a subject alone once it
leaves its row and its submission alone. -/
lemma Undisturbed.of_rows {k : Id} {ws : Subject} (subject : b'.subjects k = some ws)
    (submissions : ∀ u, b.submissions ws.current = some u → b'.submissions ws.current = some u)
    (activities : Related SameActivity b.activities b'.activities)
    (holds : ∀ h row, b'.holds h = some row → row.held = true → b.holds h = some row) :
    Undisturbed b b' k ws where
  subject := subject
  submission := submissions
  activities a wa' hwa' hk := by
    obtain ⟨wa, hwa, hsame⟩ := activities.old a wa' hwa'
    exact ⟨wa, hwa, by rwa [hsame] at hk⟩
  holds h row _ hrow hheld _ _ := holds h row hrow hheld

/-- Releasing holds leaves no held hold that was not there. -/
lemma held_of_release {p : Id → Prop} [DecidablePred p] {h : Id} {row : Hold}
    (hrow : b.release p h = some row) (hheld : row.held = true) : b.holds h = some row := by
  obtain ⟨row₀, hrow₀, -, ⟨-, hx⟩ | ⟨-, rfl⟩⟩ := of_release (b := b) (p := p) hrow
  · rw [hx] at hheld
    exact absurd hheld (by simp)
  · exact hrow₀

/-- Another subject's phase. -/
lemma setPhase_of_ne {k k' : Id} {phase : Phase} {ws : Subject} (h : b.subjects k' = some ws)
    (hne : k' ≠ k) : b.setPhase k phase k' = some ws := alter_of_neg h hne

/-- A subject that is in the phase already. -/
lemma setPhase_self {k : Id} {phase : Phase} {ws : Subject} (h : b.subjects k = some ws)
    (hphase : ws.phase = phase) : b.setPhase k phase k = some ws := by
  subst hphase
  exact alter_of_pos (p := fun k' _ => k' = k) h rfl

/-- Superseding another submission. -/
lemma supersede_of_ne {u id : Id} {c : Candidate} (h : b.submissions id = some c)
    (hne : id ≠ u) : b.supersede u id = some c := alter_of_neg h hne

/-- A move that respects completed work leaves every completed subject alone. -/
theorem Move.undisturbed {l : Label} {k : Id} {ws : Subject} (hmove : Move b l b')
    (hb : Coherent b) (h : Finished b) (hok : LeavesDone b l) (hws : b.subjects k = some ws)
    (hdone : ws.phase = .done) : Undisturbed b b' k ws := by
  have hnot : ∀ k' ws', b.subjects k' = some ws' → ws'.phase ≠ .done → k ≠ k' := by
    rintro k' ws' hws' hphase rfl
    obtain rfl := Option.some.inj (hws.symm.trans hws')
    exact hphase hdone
  have hother : ∀ k' ws', b.subjects k' = some ws' → k ≠ k' → ws.current ≠ ws'.current := by
    intro k' ws' hws' hne hcur
    obtain ⟨u, hu, rfl⟩ := hb.subjectSubmission k ws hws
    obtain ⟨u', hu', rfl⟩ := hb.subjectSubmission k' ws' hws'
    rw [hcur] at hu
    obtain rfl := Option.some.inj (hu.symm.trans hu')
    exact hne rfl
  cases hmove with
  | retask =>
    exact .of_rows hws (fun _ hu => hu) (sameActivities _) fun _ _ hrow _ => hrow
  | @submit k' id t u ws' out task owned awake fresh =>
    refine .of_rows ?_ (fun u' hu' => update_of_fresh fresh hu') (sameActivities _)
      fun _ _ hrow _ => hrow
    refine update_eq_some.2 (.inr ⟨?_, hws⟩)
    rintro rfl
    rw [out ws hws] at hdone
    exact absurd hdone (by simp)
  | @enqueue a wa t ws' u queued pinned review integration others =>
    have hphase : ws'.phase ≠ .done := by
      intro hd
      by_cases hk : wa.kind = .integration
      · obtain ⟨-, hp, -⟩ := integration hk
        rw [hd] at hp
        simp at hp
      · rw [review hk] at hd
        exact absurd hd (by simp)
    refine ⟨hws, fun _ hu => hu, ?_, fun _ _ _ hrow _ _ _ => hrow⟩
    intro x w hw hk
    rcases update_eq_some.1 hw with ⟨rfl, rfl⟩ | ⟨-, hold⟩
    · exact absurd hk.symm (hnot _ ws' pinned.subject hphase)
    · exact ⟨w, hold, hk⟩
  | restate => exact .of_rows hws (fun _ hu => hu) related_setState fun _ _ hrow _ => hrow
  | @takeHold a hid row wa ws' u activity kind live awake pinned rowActivity fresh free =>
    have hphase := h.notDone activity kind live pinned.subject pinned.current
    refine ⟨hws, fun _ hu => hu, fun _ wa' hwa' hk => ⟨wa', hwa', hk⟩, ?_⟩
    intro x row' w hrow' _ hw hk
    rcases update_eq_some.1 hrow' with ⟨rfl, rfl⟩ | ⟨-, hold⟩
    · rw [rowActivity] at hw
      obtain rfl := Option.some.inj (hw.symm.trans activity)
      exact absurd hk.symm (hnot _ ws' pinned.subject hphase)
    · exact hold
  | intend => exact .of_rows hws (fun _ hu => hu) (sameActivities _) fun _ _ hrow _ => hrow
  | @releaseIntegration a a' wa wa' t ws' u activity kind live awake pinned unintended queued same =>
    have hphase := h.notDone activity kind live pinned.subject pinned.current
    refine ⟨hws, fun _ hu => hu, ?_, fun _ _ _ hrow hheld _ _ =>
      held_of_release (b := b) (p := (· = a)) hrow hheld⟩
    intro x w hw hk
    rcases update_eq_some.1 hw with ⟨rfl, rfl⟩ | ⟨-, hold⟩
    · rw [same.1] at hk
      exact absurd hk.symm (hnot _ ws' pinned.subject hphase)
    · obtain ⟨w₀, hw₀, hsame, -⟩ := of_setState (b := b) (p := only a) hold
      exact ⟨w₀, hw₀, by rwa [hsame] at hk⟩
  | approve => exact .of_rows hws (fun _ hu => hu) related_setState fun _ _ hrow _ => hrow
  | @advance k' ws' u phase subject submission notRevision next =>
    refine .of_rows ?_ (fun _ hu => hu) related_setState fun _ _ hrow _ => hrow
    by_cases hk : k = k'
    · subst hk
      obtain rfl := Option.some.inj (hws.symm.trans subject)
      have hgeneral := hok ws u hws submission hdone
      obtain ⟨-, rfl⟩ | ⟨hcode, -⟩ := next
      · exact setPhase_self hws hdone
      · rw [hgeneral] at hcode
        exact absurd hcode (by simp)
    · exact setPhase_of_ne hws hk
  | @sendBack a wa v k' ws' u activity kind live pinned =>
    have hphase : ws'.phase ≠ .done := hok wa ws' activity pinned.subject
    have hne := hnot _ ws' pinned.subject hphase
    have hcur := hother _ ws' pinned.subject hne
    rw [pinned.current] at hcur
    exact .of_rows (setPhase_of_ne hws hne) (fun u' hu' => supersede_of_ne hu' hcur)
      (related_setState.trans (fun _ _ _ h₁ h₂ => by rw [SameActivity, h₂, h₁])
        (Related.alter (fun _ => rfl) fun _ => rfl)) fun _ _ hrow _ => hrow
  | @reopen k' ws' subject notDone settled p _ holds =>
    have hne := hnot _ ws' subject notDone
    exact .of_rows (setPhase_of_ne hws hne)
      (fun u' hu' => supersede_of_ne hu' (hother _ ws' subject hne)) related_setState
      fun _ _ hrow hheld => held_of_release hrow hheld
  | @reconcile human a a' hid wa wa' t ws' u row activity intended unreconciled subject current
      submission agent queued same rowActivity fresh free =>
    have hphase := h.reconcile_notDone hb activity intended unreconciled subject current
      (fun hh => (agent hh).1) hok.reconcilesUnfinished
    have hne := hnot _ ws' subject hphase
    rw [← same.1] at hne
    refine ⟨hws, fun _ hu => hu, ?_, ?_⟩
    · intro x w hw hk
      rcases update_eq_some.1 hw with ⟨rfl, rfl⟩ | ⟨-, hold⟩
      · exact absurd hk.symm hne
      · obtain ⟨w₀, hw₀, hsame, -⟩ :=
          of_setState (b := b) (p := fun x wa => x = a ∧ wa.state.Live) hold
        exact ⟨w₀, hw₀, by rwa [hsame] at hk⟩
    · intro x row' w hrow' hheld hw hk
      rcases update_eq_some.1 hrow' with ⟨rfl, rfl⟩ | ⟨-, hold⟩
      · rw [rowActivity] at hw
        rcases update_eq_some.1 hw with ⟨-, rfl⟩ | ⟨hx, -⟩
        · exact absurd hk.symm hne
        · exact absurd rfl hx
      · exact held_of_release hold hheld
  | @finalize a wa ws' u activity kind live awake pinned =>
    have hphase := h.notDone activity kind live pinned.subject pinned.current
    exact .of_rows (setPhase_of_ne hws (hnot _ ws' pinned.subject hphase)) (fun _ hu => hu)
      related_setState fun _ _ hrow hheld => held_of_release (b := b) (p := (· = a)) hrow hheld

end Board

end AgentCoordinator
