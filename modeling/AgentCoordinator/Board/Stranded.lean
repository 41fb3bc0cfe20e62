import AgentCoordinator.Board.Holds

/-
Stranded activities.

An activity that nobody will work on any more should be over: one that was replaced, or whose
submission went back or was completed. The moves keep this as long as a reconciliation meets no
activity in recovery, and whatever ends a submission meets only activities that it ends.
-/

namespace AgentCoordinator

namespace Board

open Maps

variable {b b' : Board}

/-- Every activity that is not over is the newest of its kind, and its submission is the current
one of a subject in review or in integration. -/
structure Unstranded (b : Board) : Prop where
  running : ∀ a wa, b.activities a = some wa → ¬ wa.state.Ended →
    ∃ ws, b.subjects wa.subjectTask = some ws ∧ ws.current = wa.submission ∧
      (ws.phase = .review ∨ ws.phase = .integration)
  newest : ∀ a a' wa wa', b.activities a = some wa → b.activities a' = some wa' →
    wa'.submission = wa.submission → wa'.kind = wa.kind → wa.slot < wa'.slot → wa.state.Ended
  recovery : ∀ a wa, b.activities a = some wa → wa.state = .recoveryRequired → ¬ b.reconciled a

/-- What ends a submission meets only activities that it ends. -/
def StrandsNothing (b : Board) : Label → Prop
  | .plain | .submit _ | .intend _ | .dismiss | .approve _ => True
  | .reconcile human a => ∀ wa, b.activities a = some wa → wa.state ≠ .recoveryRequired ∧
      (human = true → ∀ ws, b.subjects wa.subjectTask = some ws → ws.phase = .integration)
  | .sendBack a => ∀ wa x w, b.activities a = some wa → b.activities x = some w →
      w.submission = wa.submission → w.state ≠ .recoveryRequired
  | .advance k => ∀ ws u x w, b.subjects k = some ws → b.submissions ws.current = some u →
      u.kind = .general → b.activities x = some w → w.submission = ws.current → w.state ≠ .active
  | .finalize a => ∀ wa x w, b.activities a = some wa → b.activities x = some w →
      w.submission = wa.submission → w.kind ≠ .integration → ¬ w.state.Live

/-- A review never waits for a recovery. -/
lemma Coherent.review_live (h : Coherent b) {a : Id} {wa : Activity}
    (hwa : b.activities a = some wa) (hkind : wa.kind ≠ .integration) (hrun : ¬ wa.state.Ended) :
    wa.state.Live := by
  rcases ActivityState.live_or_recovery hrun with hl | hr
  · exact hl
  · obtain ⟨wa', hwa', hk⟩ := h.intentActivity a (h.recoveryIntent a wa hwa hr)
    obtain rfl := Option.some.inj (hwa'.symm.trans hwa)
    exact absurd hk hkind

namespace Unstranded

/-- An integration that is not over may still publish. -/
lemma opened (h : Unstranded b) (hb : Coherent b) {a : Id} {wa : Activity}
    (hwa : b.activities a = some wa) (hrun : ¬ wa.state.Ended) : b.Open a wa := by
  rcases ActivityState.live_or_recovery hrun with hl | hr
  · exact .inl hl
  · exact .inr ⟨hb.recoveryIntent a wa hwa hr, h.recovery a wa hwa hr⟩

/-- At most one integration of a submission is not over. -/
lemma unique (h : Unstranded b) (hb : Coherent b) {a a' : Id} {wa wa' : Activity}
    (hwa : b.activities a = some wa) (hwa' : b.activities a' = some wa')
    (hkind : wa.kind = .integration) (hkind' : wa'.kind = .integration)
    (hsub : wa.submission = wa'.submission) (hrun : ¬ wa.state.Ended)
    (hrun' : ¬ wa'.state.Ended) : a = a' :=
  hb.openUnique a a' wa wa' hwa hwa' hkind hkind' hsub (h.opened hb hwa hrun)
    (h.opened hb hwa' hrun')

/-- An activity that is not over belongs to a submission that stands. -/
lemma standing (h : Unstranded b) (hb : Coherent b) {a : Id} {wa : Activity} {u : Candidate}
    (hwa : b.activities a = some wa) (hrun : ¬ wa.state.Ended)
    (hu : b.submissions wa.submission = some u) : u.superseded = false := by
  obtain ⟨ws, hws, hcur, hphase⟩ := h.running a wa hwa hrun
  rw [← hcur] at hu
  have hiff := hb.revision _ ws u hws hu
  cases hs : u.superseded with
  | false => rfl
  | true =>
    have hrev := hiff.2 hs
    rcases hphase with hp | hp <;> rw [hp] at hrev <;> exact absurd hrev (by simp)

/-- Activities only end, and stay where they are. -/
lemma of_ending (h : Unstranded b) (tasks : Id → Option Task) {p : Id → Activity → Prop}
    [∀ a wa, Decidable (p a wa)] (state : ActivityState) (hstate : state.Ended) :
    Unstranded { b with tasks := tasks, activities := b.setState p state } where
  running x w hw hrun := by
    obtain ⟨w₀, hw₀, -, ⟨-, hs⟩ | ⟨-, rfl⟩⟩ := of_setState (b := b) (p := p) hw
    · rw [hs] at hrun
      exact absurd hstate hrun
    · exact h.running x w hw₀ hrun
  newest x y w w' hw hw' hsub hkind hslot := by
    obtain ⟨w₀, hw₀, hsame, hcase⟩ := of_setState (b := b) (p := p) hw
    obtain ⟨w₁, hw₁, hsame₁, -⟩ := of_setState (b := b) (p := p) hw'
    rw [hsame, hsame₁] at hsub hkind hslot
    rcases hcase with ⟨-, hs⟩ | ⟨-, rfl⟩
    · rw [hs]
      exact hstate
    · exact h.newest x y w w₁ hw₀ hw₁ hsub hkind hslot
  recovery x w hw hs := by
    obtain ⟨w₀, hw₀, -, ⟨-, hs'⟩ | ⟨-, rfl⟩⟩ := of_setState (b := b) (p := p) hw
    · rw [hs'] at hs
      subst hs
      exact absurd hstate (by decide)
    · exact h.recovery x w hw₀ hs

/-- A subject may leave its phase when nothing of its submission goes on there. -/
lemma setPhase (h : Unstranded b) {k : Id} (phase : Phase) {ws : Subject}
    (subject : b.subjects k = some ws)
    (quiet : phase ≠ .integration → ∀ a wa, b.activities a = some wa →
      wa.submission = ws.current → wa.state.Ended) :
    Unstranded { b with subjects := b.setPhase k phase } where
  running x w hw hrun := by
    obtain ⟨ws', hws', hcur, hphase⟩ := h.running x w hw hrun
    by_cases hk : w.subjectTask = k
    · by_cases hi : phase = .integration
      · exact ⟨_, alter_of_pos (p := fun k' _ => k' = k) hws' hk, hcur, .inr hi⟩
      · rw [hk, subject] at hws'
        obtain rfl := Option.some.inj hws'
        exact absurd (quiet hi x w hw hcur.symm) hrun
    · exact ⟨ws', setPhase_of_ne hws' hk, hcur, hphase⟩
  newest := h.newest
  recovery := h.recovery

/-- A new activity of a subject in review or in integration, newer than all that are not over. -/
lemma addActivity (h : Unstranded b) (tasks : Id → Option Task) {a : Id} {wa : Activity} {t : Task}
    {ws : Subject} (queued : b.Queued a wa t) (subject : b.subjects wa.subjectTask = some ws)
    (current : ws.current = wa.submission) (phase : ws.phase = .review ∨ ws.phase = .integration)
    (others : ∀ a' wa', b.activities a' = some wa' → wa'.submission = wa.submission →
      wa'.kind = wa.kind → wa'.state.Ended) :
    Unstranded
      { b with tasks := tasks, activities := Function.update b.activities a (some wa) } where
  running x w hw hrun := by
    rcases update_eq_some.1 hw with ⟨-, rfl⟩ | ⟨-, hold⟩
    · exact ⟨ws, subject, current, phase⟩
    · exact h.running x w hold hrun
  newest x y w w' hw hw' hsub hkind hslot := by
    rcases update_eq_some.1 hw with ⟨-, rfl⟩ | ⟨-, hold⟩
    · rcases update_eq_some.1 hw' with ⟨-, rfl⟩ | ⟨-, hold'⟩
      · exact absurd hslot (Nat.lt_irrefl _)
      · have hlt := queued.slot y w' hold' hsub hkind
        omega
    · rcases update_eq_some.1 hw' with ⟨-, rfl⟩ | ⟨-, hold'⟩
      · exact others x w hold hsub.symm hkind.symm
      · exact h.newest x y w w' hold hold' hsub hkind hslot
  recovery x w hw hs := by
    rcases update_eq_some.1 hw with ⟨-, rfl⟩ | ⟨-, hold⟩
    · rw [queued.state] at hs
      exact absurd hs (by simp)
    · exact h.recovery x w hold hs

end Unstranded

/-- Every move that strands nothing leaves nothing stranded. -/
theorem Unstranded.move {l : Label} (h : Unstranded b) (hb : Coherent b)
    (hok : StrandsNothing b l) (hmove : Move b l b') : Unstranded b' := by
  cases hmove with
  | retask => exact { h with }
  | @submit k id t u ws out task owned awake fresh uTask standing code project same current =>
    refine { h with running := fun x w hw hrun => ?_ }
    obtain ⟨ws', hws', hcur, hphase⟩ := h.running x w hw hrun
    refine ⟨ws', update_eq_some.2 (.inr ⟨?_, hws'⟩), hcur, hphase⟩
    rintro rfl
    rw [out ws' hws'] at hphase
    simp at hphase
  | @enqueue a wa t ws u queued pinned review integration others =>
    refine h.addActivity _ queued pinned.subject pinned.current ?_ fun x w hw hsub hkind =>
      .inr (others x w hw hsub hkind)
    by_cases hk : wa.kind = .integration
    · obtain ⟨-, hphase, -⟩ := integration hk
      exact hphase.symm.imp_left fun hp => hp.1
    · exact .inl (review hk)
  | @restate p _ state _ _ notCompleted live awake recovery canceled =>
    constructor
    · intro x w hw hrun
      obtain ⟨w₀, hw₀, hsame, ⟨hp, -⟩ | ⟨-, rfl⟩⟩ := of_setState (b := b) (p := p) hw
      · rw [hsame]
        exact h.running x w₀ hw₀ (live x w₀ hw₀ hp).not_ended
      · exact h.running x w hw₀ hrun
    · intro x y w w' hw hw' hsub hkind hslot
      obtain ⟨w₀, hw₀, hsame, hcase⟩ := of_setState (b := b) (p := p) hw
      obtain ⟨w₁, hw₁, hsame₁, -⟩ := of_setState (b := b) (p := p) hw'
      rw [hsame, hsame₁] at hsub hkind hslot
      have hended := h.newest x y w₀ w₁ hw₀ hw₁ hsub hkind hslot
      rcases hcase with ⟨hp, -⟩ | ⟨-, rfl⟩
      · exact absurd hended (live x w₀ hw₀ hp).not_ended
      · exact hended
    · intro x w hw hs hrec
      obtain ⟨w₀, hw₀, hsame, ⟨hp, -⟩ | ⟨-, rfl⟩⟩ := of_setState (b := b) (p := p) hw
      · exact hb.reconciledLive x w₀ hrec hw₀ (live x w₀ hw₀ hp)
      · exact h.recovery x w hw₀ hs hrec
  | takeHold => exact { h with }
  | intend => exact { h with }
  | @releaseIntegration a a' wa wa' t ws u activity kind live awake pinned unintended queued same =>
    have hcanceled := h.of_ending b.tasks (p := only a) .canceled (.inr rfl)
    have hadded := hcanceled.addActivity (Function.update b.tasks wa'.task (some t))
      (queued.of_same rfl (related_setState (b := b)))
      (by rw [same.1]; exact pinned.subject) (by rw [same.2.1]; exact pinned.current) (by
        obtain ⟨ws', hws', -, hphase⟩ := h.running a wa activity live.not_ended
        obtain rfl := Option.some.inj (hws'.symm.trans pinned.subject)
        exact hphase) (by
        intro x w hw hsub hkind
        obtain ⟨w₀, hw₀, hsame, ⟨-, hs⟩ | ⟨hne, rfl⟩⟩ := of_setState (b := b) (p := only a) hw
        · rw [hs]
          exact .inr rfl
        · by_contra hrun
          exact hne (h.unique hb hw₀ activity (hkind.trans same.2.2) kind (hsub.trans same.2.1)
            hrun live.not_ended))
    exact { hadded with }
  | approve =>
    exact { h.of_ending b.tasks .completed (.inl rfl) with }
  | @advance k ws u phase subject submission notRevision next =>
    have hcanceled := h.of_ending b.tasks (p := queuedReviewOf ws.current) .canceled (.inr rfl)
    refine hcanceled.setPhase phase subject fun hphase x w hw hsub => ?_
    have hgeneral : u.kind = .general := by
      rcases next with ⟨hg, -⟩ | ⟨-, hp⟩
      · exact hg
      · exact absurd hp hphase
    by_contra hrun
    obtain ⟨w₀, hw₀, hsame, ⟨-, hs⟩ | ⟨hne, rfl⟩⟩ :=
      of_setState (b := b) (p := queuedReviewOf ws.current) hw
    · rw [hs] at hrun
      exact hrun (.inr rfl)
    · -- all of the submission's activities are reviews, and none of them is active
      have hkind : w.kind ≠ .integration := by
        intro hi
        obtain ⟨u', hu', -, hcode⟩ := hb.activitySubmission x w hw₀
        rw [hsub, submission] at hu'
        obtain rfl := Option.some.inj hu'
        rw [hcode hi] at hgeneral
        exact absurd hgeneral (by simp)
      rcases hb.review_live hw₀ hkind hrun with hs | hs
      · exact hne ⟨hsub, hkind, hs⟩
      · exact hok ws u x w subject submission hgeneral hw₀ hsub hs
  | @sendBack a wa v k ws u activity kind live pinned undecided submission approved reviewer fit =>
    have hdecided := h.of_ending b.tasks (p := only a) .completed (.inl rfl)
    have hended := hdecided.of_ending b.tasks (p := liveOf wa.submission (· = a)) .canceled
      (.inr rfl)
    have hphase := hended.setPhase .revisionNeeded pinned.subject (by
      intro _ x w hw hsub
      rw [pinned.current] at hsub
      obtain ⟨w₁, hw₁, hsame₁, hcase⟩ :=
        of_setState (b := { b with activities := b.setState (only a) .completed })
          (p := liveOf wa.submission (· = a)) hw
      rcases hcase with ⟨-, hs⟩ | ⟨hne, rfl⟩
      · rw [hs]
        exact .inr rfl
      · obtain ⟨w₀, hw₀, hsame, ⟨-, hs⟩ | ⟨hx, rfl⟩⟩ := of_setState (b := b) (p := only a) hw₁
        · rw [hs]
          exact .inl rfl
        · -- neither decided nor canceled: it would be in recovery
          by_contra hrun
          rcases ActivityState.live_or_recovery hrun with hl | hr
          · exact hne ⟨hsub, hx, hl⟩
          · exact hok wa x w activity hw₀ hsub hr)
    exact { hphase with }
  | @reopen k ws subject notDone settled p _ holds =>
    have hended := h.of_ending b.tasks (p := liveOf ws.current fun _ => False) .canceled
      (.inr rfl)
    have hphase := hended.setPhase .revisionNeeded subject (by
      intro _ x w hw hsub
      obtain ⟨w₀, hw₀, hsame, ⟨-, hs⟩ | ⟨hne, rfl⟩⟩ :=
        of_setState (b := b) (p := liveOf ws.current fun _ => False) hw
      · rw [hs]
        exact .inr rfl
      · -- an activity in recovery has an unsettled intent
        by_contra hrun
        rcases ActivityState.live_or_recovery hrun with hl | hr
        · exact hne ⟨hsub, id, hl⟩
        · exact h.recovery x w hw₀ hr (settled x w hw₀ hsub (hb.recoveryIntent x w hw₀ hr)))
    exact { hphase with }
  | @reconcile human a a' hid wa wa' t ws u row activity intended unreconciled subject current
      submission agent queued same rowActivity fresh free =>
    obtain ⟨wa₀, hwa₀, hkind⟩ := hb.intentActivity a intended
    obtain rfl := Option.some.inj (hwa₀.symm.trans activity)
    obtain ⟨hrecovery, hhuman⟩ := hok wa₀ activity
    have hphase : ws.phase = .review ∨ ws.phase = .integration := by
      cases human with
      | true => exact .inr (hhuman rfl ws subject)
      | false =>
        have hrun : ¬ wa₀.state.Ended := by
          have hs := (agent rfl).1
          intro he
          rcases he with he | he <;> rw [he] at hs <;> exact absurd hs (by decide)
        obtain ⟨ws', hws', -, hp⟩ := h.running a wa₀ activity hrun
        obtain rfl := Option.some.inj (hws'.symm.trans subject)
        exact hp
    have hcanceled := h.of_ending b.tasks (p := fun x wa => x = a ∧ wa.state.Live) .canceled
      (.inr rfl)
    have hadded := hcanceled.addActivity (Function.update b.tasks wa'.task (some t))
      (queued.of_same rfl (related_setState (b := b)))
      (by rw [same.1]; exact subject) (by rw [same.2.1]; exact current) hphase (by
        intro x w hw hsub hkind'
        obtain ⟨w₀, hw₀, hsame, ⟨-, hs⟩ | ⟨hne, rfl⟩⟩ :=
          of_setState (b := b) (p := fun x wa => x = a ∧ wa.state.Live) hw
        · rw [hs]
          exact .inr rfl
        · -- the reconciled integration was the only open one, and it is over now
          by_contra hrun
          obtain rfl := hb.openUnique x a w wa₀ hw₀ activity (hkind'.trans same.2.2) hkind
            (hsub.trans same.2.1) (h.opened hb hw₀ hrun) (.inr ⟨intended, unreconciled⟩)
          obtain rfl := Option.some.inj (hw₀.symm.trans activity)
          rcases ActivityState.live_or_recovery hrun with hl | hr
          · exact hne ⟨rfl, hl⟩
          · exact hrecovery hr)
    refine { hadded with recovery := ?_ }
    rintro x w hw hs (rfl | hrec)
    · rcases update_eq_some.1 hw with ⟨-, rfl⟩ | ⟨-, hold⟩
      · rw [queued.state] at hs
        exact absurd hs (by simp)
      · obtain ⟨w₀, hw₀, hsame, ⟨-, hs'⟩ | ⟨-, rfl⟩⟩ :=
          of_setState (b := b) (p := fun y wa => y = x ∧ wa.state.Live) hold
        · rw [hs'] at hs
          exact absurd hs (by simp)
        · obtain rfl := Option.some.inj (hw₀.symm.trans activity)
          exact hrecovery hs
    · exact hadded.recovery x w hw hs hrec
  | @finalize a wa ws u activity kind live awake pinned =>
    have hended := h.of_ending b.tasks (p := only a) .completed (.inl rfl)
    have hphase := hended.setPhase .done pinned.subject (by
      intro _ x w hw hsub
      rw [pinned.current] at hsub
      obtain ⟨w₀, hw₀, hsame, ⟨-, hs⟩ | ⟨hne, rfl⟩⟩ := of_setState (b := b) (p := only a) hw
      · rw [hs]
        exact .inl rfl
      · by_contra hrun
        by_cases hk : w.kind = .integration
        · exact hne (h.unique hb hw₀ activity hk kind hsub hrun live.not_ended)
        · exact hok wa x w activity hw₀ hsub hk (hb.review_live hw₀ hk hrun))
    exact { hphase with }

end Board

end AgentCoordinator
