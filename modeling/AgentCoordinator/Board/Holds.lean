import AgentCoordinator.Board.Finished

/-
Holds in use.

A held hold belongs to an integration that is still wanted, as long as no decision sends a
submission back while a hold of it is held, and no human reconciles a publication outside the
integration phase.
-/

namespace AgentCoordinator

namespace Board

open Maps

variable {b b' : Board}

/-- The activity is a running part of its subject's integration. -/
structure Wanted (subjects : Id → Option Subject) (wa : Activity) : Prop where
  running : ¬ wa.state.Ended
  subject : ∃ ws, subjects wa.subjectTask = some ws ∧ ws.current = wa.submission ∧
    ws.phase = .integration

/-- Every held hold belongs to a wanted activity. -/
def HoldsInUse (b : Board) : Prop :=
  ∀ h row wa, b.holds h = some row → row.held = true → b.activities row.activity = some wa →
    Wanted b.subjects wa

/-- No decision sends back a submission whose target is held; no human reconciles a publication
outside the integration phase. -/
def SparesHolds (b : Board) : Label → Prop
  | .reconcile true a => ∀ wa ws, b.activities a = some wa →
      b.subjects wa.subjectTask = some ws → ws.phase = .integration
  | .sendBack a => ∀ wa h row w, b.activities a = some wa → b.holds h = some row →
      b.activities row.activity = some w → w.submission = wa.submission → row.held = false
  | _ => True

lemma SparesHolds.reconcilesUnfinished {l : Label} (h : SparesHolds b l) :
    ReconcilesUnfinished b l := by
  cases l with
  | reconcile human a =>
    cases human with
    | true => exact fun wa ws hwa hws => by simp [h wa ws hwa hws]
    | false => trivial
  | _ => trivial

/-- The subject of the current submission is in integration while one of its holds is held. -/
lemma HoldsInUse.integration (h : HoldsInUse b) {x : Id} {row : Hold} {wa : Activity}
    {ws : Subject} (hrow : b.holds x = some row) (hheld : row.held = true)
    (hwa : b.activities row.activity = some wa) (hws : b.subjects wa.subjectTask = some ws) :
    ws.phase = .integration := by
  obtain ⟨-, ws', hws', -, hphase⟩ := h x row wa hrow hheld hwa
  obtain rfl := Option.some.inj (hws'.symm.trans hws)
  exact hphase

/-- A pinned live integration that is awake, of work that is not completed, is in integration. -/
lemma Pinned.integration {a : Id} {wa : Activity} {ws : Subject} {u : Candidate}
    (h : b.Pinned wa ws u) (hf : Finished b) (activity : b.activities a = some wa)
    (kind : wa.kind = .integration) (live : wa.state.Live) (awake : ¬ b.Asleep wa.task) :
    ws.phase = .integration := by
  have hreview := h.notReview activity kind awake
  have hdone := hf.notDone activity kind live h.subject h.current
  have hrevision := h.phase
  cases hphase : ws.phase <;> simp_all

/-- Every move that spares holds keeps the holds in use. -/
theorem HoldsInUse.move {l : Label} (h : HoldsInUse b) (hb : Coherent b) (hf : Finished b)
    (hok : SparesHolds b l) (hmove : Move b l b') : HoldsInUse b' := by
  cases hmove with
  | retask => exact h
  | @submit k id t u ws out task owned awake fresh uTask standing code project same current =>
    intro x row w hrow hheld hw
    obtain ⟨hrun, ws', hws', hcur, hphase⟩ := h x row w hrow hheld hw
    refine ⟨hrun, ws', update_eq_some.2 (.inr ⟨?_, hws'⟩), hcur, hphase⟩
    rintro rfl
    rw [out ws' hws'] at hphase
    exact absurd hphase (by simp)
  | @enqueue a wa t ws u queued pinned review integration others =>
    intro x row w hrow hheld hw
    rcases update_eq_some.1 hw with ⟨hx, -⟩ | ⟨-, hold⟩
    · -- a new activity has no hold
      obtain ⟨w₀, u₀, hw₀, -⟩ := hb.holdActivity x row hrow
      rw [hx, queued.newActivity] at hw₀
      exact absurd hw₀ (by simp)
    · exact h x row w hrow hheld hold
  | @restate p _ state _ _ notCompleted live awake recovery canceled =>
    intro x row w hrow hheld hw
    obtain ⟨w₀, hw₀, hsame, hcase⟩ := of_setState (b := b) (p := p) hw
    obtain ⟨hrun, hsubject⟩ := h x row w₀ hrow hheld hw₀
    rcases hcase with ⟨hp, hstate⟩ | ⟨-, rfl⟩
    · obtain ⟨w₁, u₁, hw₁, hkind, -⟩ := hb.holdActivity x row hrow
      obtain rfl := Option.some.inj (hw₁.symm.trans hw₀)
      refine ⟨?_, by rw [hsame]; exact hsubject⟩
      rw [hstate]
      rintro (hs | hs)
      · exact notCompleted hs
      · exact canceled hs _ w₁ hw₀ hp hkind
    · exact ⟨hrun, hsubject⟩
  | @takeHold a hid row₀ wa ws u activity kind live awake pinned rowActivity fresh free =>
    intro x row w hrow hheld hw
    rcases update_eq_some.1 hrow with ⟨-, rfl⟩ | ⟨-, hold⟩
    · rw [rowActivity] at hw
      obtain rfl := Option.some.inj (hw.symm.trans activity)
      exact ⟨live.not_ended, ws, pinned.subject, pinned.current,
        pinned.integration hf activity kind live awake⟩
    · exact h x row w hold hheld hw
  | intend => exact h
  | @releaseIntegration a a' wa wa' t ws u activity kind live awake pinned unintended queued same =>
    intro x row w hrow hheld hw
    obtain ⟨row₀, hrow₀, hact, ⟨-, hx⟩ | ⟨hne, rfl⟩⟩ := of_release (b := b) (p := (· = a)) hrow
    · rw [hx] at hheld
      exact absurd hheld (by simp)
    · rcases update_eq_some.1 hw with ⟨hx, -⟩ | ⟨-, hold⟩
      · obtain ⟨w₀, u₀, hw₀, -⟩ := hb.holdActivity x row hrow₀
        rw [hx, queued.newActivity] at hw₀
        exact absurd hw₀ (by simp)
      · obtain ⟨w₀, hw₀, hsame, ⟨hp, -⟩ | ⟨-, rfl⟩⟩ := of_setState (b := b) (p := only a) hold
        · exact absurd hp hne
        · exact h x row w hrow₀ hheld hw₀
  | @approve a wa v k activity kind live =>
    intro x row w hrow hheld hw
    obtain ⟨w₀, hw₀, hsame, ⟨hp, -⟩ | ⟨-, rfl⟩⟩ := of_setState (b := b) (p := only a) hw
    · -- only integrations have holds
      obtain ⟨w₁, u₁, hw₁, hkind, -⟩ := hb.holdActivity x row hrow
      obtain rfl := Option.some.inj (hw₁.symm.trans hw₀)
      rw [hp] at hw₁
      obtain rfl := Option.some.inj (hw₁.symm.trans activity)
      exact absurd hkind kind
    · exact h x row w hrow hheld hw₀
  | @advance k ws u phase subject submission notRevision next =>
    intro x row w hrow hheld hw
    obtain ⟨w₀, hw₀, hsame, hcase⟩ := of_setState (b := b) (p := queuedReviewOf ws.current) hw
    obtain ⟨hrun, ws₀, hws₀, hcur, hphase⟩ := h x row w₀ hrow hheld hw₀
    obtain ⟨w₁, u₁, hw₁, hkind, hu₁, -⟩ := hb.holdActivity x row hrow
    obtain rfl := Option.some.inj (hw₁.symm.trans hw₀)
    rcases hcase with ⟨hp, -⟩ | ⟨-, rfl⟩
    · exact absurd hkind hp.2.1
    · refine ⟨hrun, ?_⟩
      by_cases hk : w.subjectTask = k
      · -- a subject with a held hold is about code
        subst hk
        obtain rfl := Option.some.inj (hws₀.symm.trans subject)
        have hcode := hb.integrationPhase _ ws₀ u subject submission hphase
        rcases next with ⟨hgeneral, -⟩ | ⟨-, rfl⟩
        · rw [hcode] at hgeneral
          exact absurd hgeneral (by simp)
        · exact ⟨ws₀, setPhase_self hws₀ hphase, hcur, hphase⟩
      · exact ⟨ws₀, setPhase_of_ne hws₀ hk, hcur, hphase⟩
  | @sendBack a wa v k ws u activity kind live pinned undecided submission approved reviewer fit =>
    intro x row w hrow hheld hw
    -- the holder is not of the submission that goes back, so it stays as it is
    have hother : ∀ w₀, b.activities row.activity = some w₀ → w₀.submission ≠ wa.submission := by
      intro w₀ hw₀ hsub
      rw [hok wa x row w₀ activity hrow hw₀ hsub] at hheld
      exact absurd hheld (by simp)
    have hw₀ : b.activities row.activity = some w := by
      rcases of_alter hw with ⟨w₁, hw₁, hp, -⟩ | ⟨hw₁, -⟩
      · obtain ⟨w₀, hw₀, hsame, -⟩ := of_setState (b := b) (p := only a) hw₁
        rw [hsame] at hp
        exact absurd hp.1 (hother w₀ hw₀)
      · obtain ⟨w₀, hw₀, hsame, ⟨hx, -⟩ | ⟨-, rfl⟩⟩ := of_setState (b := b) (p := only a) hw₁
        · rw [hx] at hw₀
          obtain rfl := Option.some.inj (hw₀.symm.trans activity)
          exact absurd rfl (hother w₀ (by rw [hx]; exact hw₀))
        · exact hw₀
    obtain ⟨hrun, ws₀, hws₀, hcur, hphase⟩ := h x row w hrow hheld hw₀
    refine ⟨hrun, ws₀, setPhase_of_ne hws₀ fun htask => ?_, hcur, hphase⟩
    rw [htask, pinned.subject] at hws₀
    obtain rfl := Option.some.inj hws₀
    exact hother w hw₀ (hcur.symm.trans pinned.current)
  | @reopen k ws subject notDone settled p _ holds =>
    intro x row w hrow hheld hw
    obtain ⟨row₀, hrow₀, hact, ⟨-, hx⟩ | ⟨hne, rfl⟩⟩ := of_release (b := b) (p := p) hrow
    · rw [hx] at hheld
      exact absurd hheld (by simp)
    · obtain ⟨w₀, hw₀, hsame, ⟨hp, -⟩ | ⟨-, rfl⟩⟩ :=
        of_setState (b := b) (p := liveOf ws.current fun _ => False) hw
      · exact absurd ((holds _).2 ⟨w₀, hw₀, hp.1⟩) hne
      · obtain ⟨hrun, ws₀, hws₀, hcur, hphase⟩ := h x row w hrow₀ hheld hw₀
        refine ⟨hrun, ws₀, setPhase_of_ne hws₀ fun htask => ?_, hcur, hphase⟩
        rw [htask, subject] at hws₀
        obtain rfl := Option.some.inj hws₀
        exact hne ((holds _).2 ⟨w, hw₀, hcur.symm⟩)
  | @reconcile human a a' hid wa wa' t ws u row₀ activity intended unreconciled subject current
      submission agent queued same rowActivity fresh free =>
    have hphase : ws.phase = .integration := by
      cases human with
      | true => exact hok wa ws activity subject
      | false =>
        obtain ⟨-, x, row, hrow, rfl, hheld⟩ := agent rfl
        exact h.integration hrow hheld activity subject
    intro x row w hrow hheld hw
    rcases update_eq_some.1 hrow with ⟨-, rfl⟩ | ⟨-, hold⟩
    · rw [rowActivity] at hw
      rcases update_eq_some.1 hw with ⟨-, rfl⟩ | ⟨hx, -⟩
      · refine ⟨by rw [queued.state]; decide, ws, ?_, ?_, hphase⟩
        · rw [same.1]
          exact subject
        · rw [same.2.1]
          exact current
      · exact absurd rfl hx
    · have hrow₀ := held_of_release (b := b) (p := (· = a)) hold hheld
      obtain ⟨w₁, u₁, hw₁, -⟩ := hb.holdActivity x row hrow₀
      rcases update_eq_some.1 hw with ⟨hx, -⟩ | ⟨-, hw'⟩
      · rw [hx, queued.newActivity] at hw₁
        exact absurd hw₁ (by simp)
      · obtain ⟨row₁, hrow₁, hact, ⟨-, hx⟩ | ⟨hne, -⟩⟩ := of_release (b := b) (p := (· = a)) hold
        · rw [hx] at hheld
          exact absurd hheld (by simp)
        · obtain ⟨w₀, hw₀, hsame, ⟨hp, -⟩ | ⟨-, rfl⟩⟩ :=
            of_setState (b := b) (p := fun x wa => x = a ∧ wa.state.Live) hw'
          · rw [hact] at hp
            exact absurd hp.1 hne
          · exact h x row w hrow₀ hheld hw₀
  | @finalize a wa ws u activity kind live awake pinned =>
    intro x row w hrow hheld hw
    have hrow₀ := held_of_release (b := b) (p := (· = a)) hrow hheld
    have hne : row.activity ≠ a := by
      obtain ⟨row₁, hrow₁, hact, ⟨-, hx⟩ | ⟨hne, -⟩⟩ := of_release (b := b) (p := (· = a)) hrow
      · rw [hx] at hheld
        exact absurd hheld (by simp)
      · rw [hact]
        exact hne
    obtain ⟨w₀, hw₀, hsame, ⟨hp, -⟩ | ⟨-, rfl⟩⟩ := of_setState (b := b) (p := only a) hw
    · exact absurd hp hne
    · obtain ⟨hrun, ws₀, hws₀, hcur, hphase⟩ := h x row w hrow₀ hheld hw₀
      refine ⟨hrun, ws₀, setPhase_of_ne hws₀ fun htask => ?_, hcur, hphase⟩
      -- the finalized integration was the only open one of its submission
      rw [htask, pinned.subject] at hws₀
      obtain rfl := Option.some.inj hws₀
      obtain ⟨w₁, u₁, hw₁, hkind, -⟩ := hb.holdActivity x row hrow₀
      obtain rfl := Option.some.inj (hw₁.symm.trans hw₀)
      have hopen : b.Open row.activity w₁ := by
        rcases ActivityState.live_or_recovery hrun with hl | hr
        · exact .inl hl
        · refine .inr ⟨hb.recoveryIntent _ w₁ hw₀ hr, fun hrec => ?_⟩
          rw [hb.reconciledHold x row hrec hrow₀] at hheld
          exact absurd hheld (by simp)
      exact hne (hb.openUnique _ a w₁ wa hw₀ activity hkind kind
        (hcur.symm.trans pinned.current) hopen (.inl live))

end Board

end AgentCoordinator
