import AgentCoordinator.Board.Finished

/-
Submissions in review.

A subject enters review by a submission only, and leaves it by moving on, or for its revision.
While it stays, its reviews go back and forth between queued and active, and complete; only a
dismissal cancels one. Verdicts come from decisions and are never taken back.
-/

namespace AgentCoordinator

namespace Board

open Maps

variable {b b' : Board} {l : Label} {k : Id} {ws : Subject}

/-- A subject enters review by a submission only. -/
theorem Move.was_in_review (h : Move b l b') {ws' : Subject} (hws' : b'.subjects k = some ws')
    (hphase : ws'.phase = .review) (hsubmit : l ≠ .submit k) :
    b.subjects k = some ws' := by
  have hput : ∀ k' phase, phase ≠ .review → b.setPhase k' phase k = some ws' →
      b.subjects k = some ws' := by
    intro k' phase hne hset
    obtain ⟨ws, hws, -, ⟨-, hp⟩ | ⟨-, rfl⟩⟩ := of_setPhase (b := b) hset
    · exact absurd (hp.symm.trans hphase) hne
    · exact hws
  cases h with
  | @submit k' =>
    rcases update_eq_some.1 hws' with ⟨rfl, -⟩ | ⟨-, hold⟩
    · exact absurd rfl hsubmit
    · exact hold
  | advance _ _ _ next =>
    refine hput _ _ ?_ hws'
    rcases next with ⟨-, rfl⟩ | ⟨-, rfl⟩ <;> simp
  | sendBack => exact hput _ _ (by simp) hws'
  | reopen => exact hput _ _ (by simp) hws'
  | finalize => exact hput _ _ (by simp) hws'
  | _ => exact hws'

/-- Tasks last, and keep their project. -/
theorem Move.task (h : Move b l b') {t : Task} (ht : b.tasks k = some t) :
    ∃ t', b'.tasks k = some t' ∧ t'.project = t.project := by
  cases h with
  | retask old =>
    obtain ⟨t', ht', hretask⟩ := old k t ht
    exact ⟨t', ht', hretask.project⟩
  | enqueue queued => exact ⟨t, update_of_fresh queued.newTask ht, rfl⟩
  | releaseIntegration _ _ _ _ _ _ queued => exact ⟨t, update_of_fresh queued.newTask ht, rfl⟩
  | reconcile _ _ _ _ _ _ _ queued => exact ⟨t, update_of_fresh queued.newTask ht, rfl⟩
  | _ => exact ⟨t, ht, rfl⟩

/-- A subject's project is the one it had, or that of the task it was submitted for. -/
theorem Move.subject_project (h : Move b l b') {ws' : Subject} (hws' : b'.subjects k = some ws') :
    (∃ ws, b.subjects k = some ws ∧ ws'.project = ws.project) ∨
      (l = .submit k ∧ ∃ t, b.tasks k = some t ∧ ws'.project = t.project) := by
  have hput : ∀ k' phase, b.setPhase k' phase k = some ws' →
      ∃ ws, b.subjects k = some ws ∧ ws'.project = ws.project := by
    intro k' phase hset
    obtain ⟨ws, hws, hsame⟩ := (related_setPhase (b := b)).old k ws' hset
    exact ⟨ws, hws, by rw [hsame]⟩
  cases h with
  | @submit k' _ t _ _ _ task _ _ _ _ _ _ project =>
    rcases update_eq_some.1 hws' with ⟨rfl, rfl⟩ | ⟨-, hold⟩
    · exact .inr ⟨rfl, t, task, project⟩
    · exact .inl ⟨ws', hold, rfl⟩
  | advance => exact .inl (hput _ _ hws')
  | sendBack => exact .inl (hput _ _ hws')
  | reopen => exact .inl (hput _ _ hws')
  | finalize => exact .inl (hput _ _ hws')
  | _ => exact .inl ⟨ws', hws', rfl⟩

/-- Verdicts are never taken back. -/
theorem Move.verdict (h : Move b l b') {a : Id} {v : Verdict} (hv : b.verdicts a = some v) :
    b'.verdicts a = some v := by
  cases h with
  | approve _ _ _ undecided => exact update_of_fresh undecided hv
  | sendBack _ _ _ _ undecided => exact update_of_fresh undecided hv
  | _ => exact hv

/-- Only decisions give verdicts. -/
theorem Move.verdicts_eq (h : Move b l b') (happrove : ∀ a, l ≠ .approve a)
    (hsend : ∀ a, l ≠ .sendBack a) : b'.verdicts = b.verdicts := by
  cases h with
  | approve => exact absurd rfl (happrove _)
  | sendBack => exact absurd rfl (hsend _)
  | _ => rfl

/-- While its subject stays in review, a review is canceled by a dismissal only, and completes by
its own decision only. -/
theorem Move.review_kept (hb : Coherent b) (h : Move b l b') (hdismiss : l ≠ .dismiss)
    (hws : b.subjects k = some ws) (hphase : ws.phase = .review) (hws' : b'.subjects k = some ws)
    {a : Id} {wa : Activity} (hwa : b.activities a = some wa) (hsub : wa.submission = ws.current)
    (hkind : wa.kind ≠ .integration) (hrun : wa.state ≠ .canceled) :
    ∃ wa', b'.activities a = some wa' ∧ SameActivity wa wa' ∧ wa'.state ≠ .canceled ∧
      (l ≠ .approve a → wa.state.Live → wa'.state.Live) := by
  have hkeep : ∃ wa', b.activities a = some wa' ∧ SameActivity wa wa' ∧ wa'.state ≠ .canceled ∧
      (l ≠ .approve a → wa.state.Live → wa'.state.Live) := ⟨wa, hwa, rfl, hrun, fun _ => id⟩
  -- activities that `p` leaves alone stay
  have hset : ∀ (p : Id → Activity → Prop) (_ : ∀ a wa, Decidable (p a wa)) state, ¬ p a wa →
      ∃ wa', b.setState p state a = some wa' ∧ SameActivity wa wa' ∧ wa'.state ≠ .canceled ∧
        (l ≠ .approve a → wa.state.Live → wa'.state.Live) :=
    fun p _ state hp => ⟨wa, alter_of_neg hwa hp, rfl, hrun, fun _ => id⟩
  -- a subject that leaves review is another one, with another submission
  have hother : ∀ k' ws₁, b.subjects k' = some ws₁ → ∀ phase, phase ≠ .review →
      b.setPhase k' phase k = some ws → wa.submission ≠ ws₁.current := by
    intro k' ws₁ hws₁ phase hne hset hcur
    obtain ⟨ws₂, hws₂, -, ⟨-, hp⟩ | ⟨hk, -⟩⟩ := of_setPhase (b := b) hset
    · exact hne (hp.symm.trans hphase)
    · obtain ⟨u, hu, htask⟩ := hb.subjectSubmission k ws hws
      obtain ⟨u', hu', htask'⟩ := hb.subjectSubmission k' ws₁ hws₁
      rw [← hcur, hsub, hu] at hu'
      obtain rfl := Option.some.inj hu'
      exact hk (htask.symm.trans htask')
  cases h with
  | @enqueue a' wa' t ws' u queued =>
    exact ⟨wa, update_of_fresh queued.newActivity hwa, rfl, hrun, fun _ => id⟩
  | @restate p _ state _ label notCompleted live awake recovery canceled =>
    by_cases hp : p a wa
    · refine ⟨{ wa with state := state }, alter_of_pos hwa hp, rfl, ?_, fun _ _ => ?_⟩
      · rintro rfl
        exact hdismiss label
      · cases state with
        | queued => exact .inl rfl
        | active => exact .inr rfl
        | recoveryRequired =>
          obtain ⟨w, hw, hk⟩ := hb.intentActivity a (recovery rfl a wa hwa hp)
          obtain rfl := Option.some.inj (hwa.symm.trans hw)
          exact absurd hk hkind
        | completed => exact absurd rfl notCompleted
        | canceled => exact absurd label hdismiss
    · exact hset p _ state hp
  | @releaseIntegration a₁ a₂ wa₁ wa₂ t ws₁ u activity kind live awake pinned unintended queued =>
    have hne : a ≠ a₁ := by
      rintro rfl
      obtain rfl := Option.some.inj (hwa.symm.trans activity)
      exact hkind kind
    obtain ⟨wa', hwa', hrest⟩ := hset (only a₁) _ .canceled hne
    refine ⟨wa', update_of_fresh ?_ hwa', hrest⟩
    exact alter_eq_none.2 queued.newActivity
  | @approve a₁ wa₁ v k' activity =>
    by_cases heq : a = a₁
    · subst heq
      exact ⟨{ wa with state := .completed }, alter_of_pos (p := only a) hwa rfl, rfl, by simp,
        fun hne => absurd rfl hne⟩
    · exact hset (only a₁) _ .completed heq
  | @advance k' ws₁ u phase subject submission notRevision next =>
    have hne := hother k' ws₁ subject phase
      (by rcases next with ⟨-, rfl⟩ | ⟨-, rfl⟩ <;> simp) hws'
    exact hset _ _ .canceled fun hp => hne hp.1
  | @sendBack a₁ wa₁ v k' ws₁ u activity kind live pinned =>
    have hne := hother _ ws₁ pinned.subject _ (by simp) hws'
    rw [pinned.current] at hne
    have heq : a ≠ a₁ := by
      rintro rfl
      obtain rfl := Option.some.inj (hwa.symm.trans activity)
      exact hne rfl
    exact ⟨wa, alter_of_neg (alter_of_neg (p := only a₁) hwa heq) fun hp => hne hp.1, rfl, hrun,
      fun _ => id⟩
  | @reopen k' ws₁ subject notDone settled p _ holds =>
    have hne := hother k' ws₁ subject _ (by simp) hws'
    exact hset _ _ .canceled fun hp => hne hp.1
  | @reconcile human a₁ a₂ h₂ wa₁ wa₂ t ws₁ u row activity intended unreconciled subject current
      submission agent queued =>
    have hne : a ≠ a₁ := by
      rintro rfl
      obtain ⟨w, hw, hk⟩ := hb.intentActivity a intended
      obtain rfl := Option.some.inj (hwa.symm.trans hw)
      exact hkind hk
    obtain ⟨wa', hwa', hrest⟩ := hset (fun x wa => x = a₁ ∧ wa.state.Live) _ .canceled
      fun hp => hne hp.1
    refine ⟨wa', update_of_fresh ?_ hwa', hrest⟩
    exact alter_eq_none.2 queued.newActivity
  | @finalize a₁ wa₁ ws₁ u activity kind =>
    have hne : a ≠ a₁ := by
      rintro rfl
      obtain rfl := Option.some.inj (hwa.symm.trans activity)
      exact hkind kind
    exact hset (only a₁) _ .completed hne
  | _ => exact hkeep

end Board

end AgentCoordinator
