import Mathlib.Algebra.Order.Group.Int
import AgentCoordinator.Refinement.Jobs

/-
Shared resources are never oversubscribed.

A reservation is granted whole or not at all, its units count until it is given back, and it is
not given back while a producer under it is unfinished. So in every reachable state the held units
of each resource are within its capacity, whatever operators change about resources in between,
and whatever is still running was counted.
-/

namespace AgentCoordinator

open Guarded Tabular Transition Allocation

namespace Jobs

/-! ### Held units -/

section HeldUnits

variable {J : JobService} {s : Db}

lemma Reservation.units_nonneg {v : Reservation} (h : WellFormed v.items) (resource : Id) :
    0 ≤ v.units resource :=
  asked_nonneg fun i hi => Int.le_of_lt (h.positive i hi)

/-- A new reservation adds its units. -/
lemma heldUnits_reserved (actor : Actor) (project attempt : Id) (now : Time)
    (input : ReservationInput) (resource : Id) :
    { J with
      service := s
      reservations := J.reservations.create (input.row actor project attempt now) }.heldUnits
        resource
      = J.heldUnits resource
        + asked ReservationItem.resource ReservationItem.units input.items resource := by
  simp only [JobService.heldUnits, Table.sum_create]
  rfl

/-- A reservation that is no longer held takes its units with it. -/
lemma heldUnits_closed {f : Reservation → Reservation}
    {hf : ∀ v, Keyed.key (f v) = Keyed.key v} (hitems : ∀ v ∈ J.reservations, WellFormed v.items)
    (hclosed : ∀ v, (f v).state ≠ .held) (reservation resource : Id) :
    (J.reservations.modify (fun v => v.id = reservation) f hf).sum
        (fun v => if v.state = .held then v.units resource else 0)
      ≤ J.heldUnits resource := by
  rw [Table.sum_modify]
  refine Table.sum_le_sum fun v hv => ?_
  by_cases hid : v.id = reservation
  · rw [if_pos hid, if_neg (hclosed v)]
    split_ifs
    · exact Reservation.units_nonneg (hitems v hv) resource
    · exact Int.le_refl 0
  · rw [if_neg hid]

end HeldUnits

/-! ### The invariant -/

/-- Held units fit, and unfinished jobs are under held reservations. -/
structure Admitted (J : JobService) : Prop where
  wellFormed : ∀ v ∈ J.reservations, WellFormed v.items
  known : ∀ v ∈ J.reservations, ∀ i ∈ v.items, ∃ r ∈ J.resources, r.id = i.resource
  capacity : ∀ r ∈ J.resources, J.heldUnits r.id ≤ r.capacity
  alone : ∀ v ∈ J.reservations, ∀ v' ∈ J.reservations, v.state = .held → v'.state = .held →
    v.attempt = v'.attempt → v = v'
  attached : ∀ j ∈ J.registrations, J.Unfinished j →
    ∃ v ∈ J.reservations, v.id = j.reservation ∧ v.attempt = j.attempt ∧ v.state = .held

lemma Admitted.initial {J : JobService} (h : JobService.Initial J) : Admitted J where
  wellFormed v hv := absurd hv (by rw [h.reservations]; exact Table.not_mem_empty v)
  known v hv := absurd hv (by rw [h.reservations]; exact Table.not_mem_empty v)
  capacity r hr := absurd hr (by rw [h.resources]; exact Table.not_mem_empty r)
  alone v hv := absurd hv (by rw [h.reservations]; exact Table.not_mem_empty v)
  attached j hj := absurd hj (by rw [h.registrations]; exact Table.not_mem_empty j)

section Kept

variable {J J' : JobService}

/-- Nothing of a resource that nobody names is held. -/
lemma heldUnits_eq_zero {resource : Id}
    (h : ∀ v ∈ J.reservations, ∀ i ∈ v.items, i.resource ≠ resource) :
    J.heldUnits resource ≤ 0 := by
  have hle : J.heldUnits resource ≤ J.reservations.sum fun _ => 0 := by
    refine Table.sum_le_sum fun v hv => ?_
    split_ifs
    · rw [Reservation.units, asked_of_absent (h v hv)]
    · exact Int.le_refl 0
  have hzero : J.reservations.sum (fun _ => (0 : Int)) = 0 := by
    unfold Table.sum
    induction J.reservations.rows with
    | nil => rfl
    | cons v rows ih => rw [List.foldr_cons, ih, Int.add_zero]
  rwa [hzero] at hle

/-- Giving one reservation back, once its jobs are accounted for, keeps what was admitted. -/
lemma Admitted.close (h : Admitted J) (f : Reservation → Reservation)
    (hf : ∀ v, Keyed.key (f v) = Keyed.key v) {reservation : Id}
    (hitems : ∀ v, (f v).items = v.items) (hclosed : ∀ v, (f v).state ≠ .held)
    (hreservations : J'.reservations = J.reservations.modify (fun v => v.id = reservation) f hf)
    (hresources : J'.resources = J.resources)
    (hjobs : ∀ j ∈ J'.registrations, J'.Unfinished j →
      j.reservation ≠ reservation ∧ j ∈ J.registrations ∧ J.Unfinished j) :
    Admitted J' where
  wellFormed v hv := by
    rw [hreservations] at hv
    obtain ⟨w, hw, rfl⟩ := Table.mem_modify.1 hv
    split_ifs
    · exact hitems w ▸ h.wellFormed w hw
    · exact h.wellFormed w hw
  known v hv i hi := by
    rw [hreservations] at hv
    obtain ⟨w, hw, rfl⟩ := Table.mem_modify.1 hv
    rw [hresources]
    split_ifs at hi
    · exact h.known w hw i (hitems w ▸ hi)
    · exact h.known w hw i hi
  capacity r hr := by
    rw [hresources] at hr
    refine Int.le_trans ?_ (h.capacity r hr)
    unfold JobService.heldUnits
    rw [hreservations]
    exact heldUnits_closed h.wellFormed hclosed reservation r.id
  alone v hv v' hv' hs hs' hat := by
    rw [hreservations] at hv hv'
    obtain ⟨w, hw, rfl⟩ := Table.mem_modify.1 hv
    obtain ⟨w', hw', rfl⟩ := Table.mem_modify.1 hv'
    split_ifs at hs hs' hat ⊢
    · exact absurd hs (hclosed w)
    · exact absurd hs (hclosed w)
    · exact absurd hs' (hclosed w')
    · exact h.alone w hw w' hw' hs hs' hat
  attached j hj hopen := by
    obtain ⟨hother, hj₀, hopen₀⟩ := hjobs j hj hopen
    obtain ⟨v, hv, hid, hrest⟩ := h.attached j hj₀ hopen₀
    refine ⟨v, ?_, hid, hrest⟩
    rw [hreservations]
    exact Table.mem_modify_of_neg hv fun heq => hother (hid.symm.trans heq)

/-- A reservation that fits is admitted. -/
lemma Admitted.reserve (h : Admitted J) {actor : Actor} {project attempt : Id} {now : Time}
    {input : ReservationInput}
    (hadmissible : ReservationInput.Admissible J attempt input.items)
    (hreservations : J'.reservations
      = J.reservations.create (input.row actor project attempt now))
    (hresources : J'.resources = J.resources)
    (hheld : ∀ k, J'.heldUnits k = J.heldUnits k
      + asked ReservationItem.resource ReservationItem.units input.items k)
    (hattached : ∀ j ∈ J'.registrations, J'.Unfinished j →
      ∃ v ∈ J'.reservations, v.id = j.reservation ∧ v.attempt = j.attempt ∧ v.state = .held) :
    Admitted J' where
  wellFormed v hv := by
    rw [hreservations, Table.mem_create] at hv
    rcases hv with hv | rfl
    · exact h.wellFormed v hv
    · exact hadmissible.wellFormed
  known v hv i hi := by
    rw [hreservations, Table.mem_create] at hv
    rw [hresources]
    rcases hv with hv | rfl
    · exact h.known v hv i hi
    · obtain ⟨r, hr, hid, -⟩ := hadmissible.fits i hi
      exact ⟨r, hr, hid⟩
  capacity r hr := by
    rw [hresources] at hr
    rw [hheld]
    -- the items were checked one by one against the same held units
    have hget : ∀ r ∈ J.resources, J.resources.get? r.id = some r := fun r => Table.get?_of_mem
    have hcapacity : ((J.resources.get? r.id).map (·.capacity)).getD 0 = r.capacity := by
      rw [hget r hr]
      rfl
    obtain ⟨capacity, hdef⟩ : ∃ capacity : Id → Int,
        ∀ k, capacity k = ((J.resources.get? k).map (·.capacity)).getD 0 := ⟨_, fun _ => rfl⟩
    have hitem : ∀ i ∈ input.items, J.heldUnits i.resource + i.units ≤ capacity i.resource := by
      intro i hi
      obtain ⟨r', hr', hid, hle⟩ := hadmissible.fits i hi
      rw [hdef, ← hid, hget r' hr', hid]
      exact hle
    rw [← hcapacity, ← hdef]
    refine fits hadmissible.wellFormed.distinct ?_ hitem
    rw [hdef, hcapacity]
    exact h.capacity r hr
  alone v hv v' hv' hs hs' hat := by
    rw [hreservations, Table.mem_create] at hv hv'
    rcases hv with hv | rfl <;> rcases hv' with hv' | rfl
    · exact h.alone v hv v' hv' hs hs' hat
    · exact absurd hs (hadmissible.free v hv hat)
    · exact absurd hs' (hadmissible.free v' hv' hat.symm)
    · rfl
  attached := hattached

/-- Whatever happens to the resources keeps what was admitted, as long as none that is reserved
goes away, and none shrinks below what is held of it. -/
lemma Admitted.resources (h : Admitted J) (hreservations : J'.reservations = J.reservations)
    (hkept : ∀ r ∈ J.resources, (∃ v ∈ J.reservations, ∃ i ∈ v.items, i.resource = r.id) →
      ∃ r' ∈ J'.resources, r'.id = r.id)
    (hcapacity : ∀ r' ∈ J'.resources, J.heldUnits r'.id ≤ r'.capacity)
    (hattached : ∀ j ∈ J'.registrations, J'.Unfinished j →
      ∃ v ∈ J'.reservations, v.id = j.reservation ∧ v.attempt = j.attempt ∧ v.state = .held) :
    Admitted J' where
  wellFormed := by
    rw [hreservations]
    exact h.wellFormed
  known v hv i hi := by
    rw [hreservations] at hv
    obtain ⟨r, hr, hid⟩ := h.known v hv i hi
    obtain ⟨r', hr', hid'⟩ := hkept r hr ⟨v, hv, i, hi, hid.symm⟩
    exact ⟨r', hr', hid'.trans hid⟩
  capacity r' hr' := by
    unfold JobService.heldUnits
    rw [hreservations]
    exact hcapacity r' hr'
  alone := by
    rw [hreservations]
    exact h.alone
  attached := hattached

/-- Unfinished jobs stay attached as long as no reservation is given back. -/
lemma Effect.attached (h : Admitted J) (he : Effect J J')
    (hkept : ∀ v ∈ J.reservations, v ∈ J'.reservations) :
    ∀ j ∈ J'.registrations, J'.Unfinished j →
      ∃ v ∈ J'.reservations, v.id = j.reservation ∧ v.attempt = j.attempt ∧ v.state = .held := by
  intro j hj hopen
  rcases he.unfinished hj hopen with ⟨hj₀, hopen₀⟩ | ⟨v, hv, hv', hrest⟩
  · obtain ⟨v, hv, hrest⟩ := h.attached j hj₀ hopen₀
    exact ⟨v, hkept v hv, hrest⟩
  · exact ⟨v, hv', hrest⟩

/-- Each effect keeps what was admitted. -/
lemma Admitted.effect (h : Admitted J) (he : Effect J J') : Admitted J' := by
  have hattached := he.attached h
  cases he with
  | idle | registered | observed | compacted | restored =>
    exact ⟨h.wellFormed, h.known, h.capacity, h.alone, hattached fun _ => id⟩
  | @created s actor now input hcapacity hkey =>
    refine h.resources rfl (fun r hr _ => ?_) (fun r' hr' => ?_) (hattached fun _ => id)
    · have hkept : r ∈ J.resources.create (input.row actor now) := Table.mem_create.2 (.inl hr)
      exact ⟨r, hkept, rfl⟩
    · have hmem : r' ∈ J.resources.create (input.row actor now) := hr'
      rcases Table.mem_create.1 hmem with hr | rfl
      · exact h.capacity r' hr
      · -- no reservation can name a resource that did not exist
        have hnone : J.heldUnits J.resources.fresh ≤ 0 := heldUnits_eq_zero fun v hv i hi heq => by
          obtain ⟨r, hr, hid⟩ := h.known v hv i hi
          exact Table.ne_fresh (Table.get?_of_mem hr) (hid.trans heq)
        change J.heldUnits J.resources.fresh ≤ input.capacity
        omega
  | @updated s resource input hadmissible =>
    refine h.resources rfl (fun r hr _ => ?_) (fun r' hr' => ?_) (hattached fun _ => id)
    · have hkept : (if r.id = resource then input.apply r else r) ∈
          J.resources.modify (fun r => r.id = resource) input.apply fun _ => rfl :=
        Table.mem_modify.2 ⟨r, hr, rfl⟩
      refine ⟨_, hkept, ?_⟩
      split_ifs <;> rfl
    · have hmem : r' ∈ J.resources.modify (fun r => r.id = resource) input.apply fun _ => rfl := hr'
      obtain ⟨r, hr, rfl⟩ := Table.mem_modify.1 hmem
      by_cases hid : r.id = resource
      · rw [if_pos hid]
        change J.heldUnits r.id ≤ input.capacity.getD r.capacity
        cases hc : input.capacity with
        | none => exact h.capacity r hr
        | some c => exact hid ▸ hadmissible.capacity c hc
      · rw [if_neg hid]
        exact h.capacity r hr
  | @deleted s resource hunused =>
    refine h.resources rfl (fun r hr hused => ?_) (fun r' hr' => ?_) (hattached fun _ => id)
    · obtain ⟨v, hv, i, hi, hid⟩ := hused
      exact ⟨r, Table.mem_erase.2 ⟨hr, fun heq => hunused v hv i hi (hid.trans heq)⟩, rfl⟩
    · exact h.capacity r' (Table.mem_erase.1 hr').1
  | @reserved s actor project attempt now input hadmissible =>
    refine h.reserve hadmissible rfl rfl (heldUnits_reserved actor project attempt now input)
      (hattached fun v hv => ?_)
    have hkept : v ∈ J.reservations.create (input.row actor project attempt now) :=
      Table.mem_create.2 (.inl hv)
    exact hkept
  | @released s reservation actor now reason v hrow hheld hquiet =>
    refine h.close (Reservation.release now actor reason) (fun _ => rfl) (fun _ => rfl)
      (fun _ => by simp [Reservation.release]) rfl rfl fun j hj hopen => ?_
    exact ⟨fun heq => hquiet j hj heq hopen, hj, hopen⟩
  | @resolved s reservation actor now input v hrow hheld =>
    refine h.close (Reservation.resolve now actor input) (fun _ => rfl) (fun _ => rfl)
      (fun _ => by simp [Reservation.resolve]) rfl rfl fun j hj hopen => ?_
    have hmem : j ∈ J.registrations.modify (fun j => j.reservation = reservation ∧ J.Unfinished j)
        (Registration.reconcile now actor input) fun _ => rfl := hj
    obtain ⟨j₀, hj₀, rfl⟩ := Table.mem_modify.1 hmem
    split_ifs at hopen ⊢ with hp
    · exact absurd hopen.2 (by simp [Registration.reconcile])
    · exact ⟨fun heq => hp ⟨heq, hopen⟩, hj₀, hopen⟩

/-! ### Reservations are written once -/

/-- The same reservation later on: its attempt and its items are fixed, and once it is given back
nothing about it changes. -/
def Reservation.Later (v v' : Reservation) : Prop :=
  v'.id = v.id ∧ v'.attempt = v.attempt ∧ v'.items = v.items ∧ (v.state ≠ .held → v' = v)

lemma Reservation.Later.refl (v : Reservation) : v.Later v := ⟨rfl, rfl, rfl, fun _ => rfl⟩

lemma Reservation.Later.trans {v v' v'' : Reservation} (h : v.Later v') (h' : v'.Later v'') :
    v.Later v'' := by
  obtain ⟨hid, hattempt, hitems, hsame⟩ := h
  obtain ⟨hid', hattempt', hitems', hsame'⟩ := h'
  refine ⟨hid'.trans hid, hattempt'.trans hattempt, hitems'.trans hitems, fun hs => ?_⟩
  obtain rfl := hsame hs
  exact hsame' hs

/-- Every reservation is still there. -/
def Continued (J J' : JobService) : Prop :=
  ∀ v ∈ J.reservations, ∃ v' ∈ J'.reservations, v.Later v'

/-- Closing the held reservation under one identity leaves the others as they are. -/
lemma Continued.close {f : Reservation → Reservation}
    (hf : ∀ v, Keyed.key (f v) = Keyed.key v)
    (hfixed : ∀ v, (f v).attempt = v.attempt ∧ (f v).items = v.items) {reservation : Id}
    {v₀ : Reservation} (hrow : J.reservations.get? reservation = some v₀) (hheld : v₀.state = .held)
    (hreservations : J'.reservations = J.reservations.modify (fun v => v.id = reservation) f hf) :
    Continued J J' := by
  intro v hv
  rw [hreservations]
  refine ⟨_, Table.mem_modify.2 ⟨v, hv, rfl⟩, ?_⟩
  by_cases hid : v.id = reservation
  · obtain rfl : v = v₀ := Table.eq_of_get? hrow hv hid
    rw [if_pos hid]
    exact ⟨hf v, (hfixed v).1, (hfixed v).2, fun hs => absurd hheld hs⟩
  · rw [if_neg hid]
    exact .refl v

lemma Effect.continued (he : Effect J J') : Continued J J' := by
  cases he with
  | idle | created | updated | deleted | registered | observed | compacted | restored =>
    exact fun v hv => ⟨v, hv, .refl v⟩
  | @reserved s actor project attempt now input hadmissible =>
    intro v hv
    have hkept : v ∈ J.reservations.create (input.row actor project attempt now) :=
      Table.mem_create.2 (.inl hv)
    exact ⟨v, hkept, .refl v⟩
  | @released s reservation actor now reason v hrow hheld hquiet =>
    exact Continued.close (f := Reservation.release now actor reason) (fun _ => rfl)
      (fun _ => ⟨rfl, rfl⟩) hrow hheld rfl
  | @resolved s reservation actor now input v hrow hheld =>
    exact Continued.close (f := Reservation.resolve now actor input) (fun _ => rfl)
      (fun _ => ⟨rfl, rfl⟩) hrow hheld rfl

lemma continued_run {ok : JobService → JobAction → Prop} (h : Run JobStep ok J J') :
    Continued J J' := by
  induction h with
  | refl => exact fun v hv => ⟨v, hv, .refl v⟩
  | tail _ _ hstep ih =>
    intro v hv
    obtain ⟨v', hv', hlater⟩ := ih v hv
    obtain ⟨v'', hv'', hlater'⟩ := hstep.effect.continued v' hv'
    exact ⟨v'', hv'', hlater.trans hlater'⟩

end Kept

/-! ### Admission -/

/-- The units of a resource under which some producer is unfinished. -/
def JobService.busyUnits (J : JobService) (resource : Id) : Int :=
  J.reservations.sum fun v =>
    if ∃ j ∈ J.registrations, j.reservation = v.id ∧ J.Unfinished j then v.units resource else 0

/-- What unfinished producers work with is held. -/
lemma Admitted.busyUnits_le {J : JobService} (h : Admitted J) (resource : Id) :
    J.busyUnits resource ≤ J.heldUnits resource := by
  refine Table.sum_le_sum fun v hv => ?_
  by_cases hbusy : ∃ j ∈ J.registrations, j.reservation = v.id ∧ J.Unfinished j
  · rw [if_pos hbusy]
    obtain ⟨j, hj, hat, hopen⟩ := hbusy
    obtain ⟨w, hw, hid, -, hheld⟩ := h.attached j hj hopen
    obtain rfl : v = w := Table.eq_of_get? (Table.get?_of_mem hw) hv (hat.symm.trans hid.symm)
    rw [if_pos hheld]
  · rw [if_neg hbusy]
    split_ifs
    · exact Reservation.units_nonneg (h.wellFormed v hv) resource
    · exact Int.le_refl 0

/-- In every reachable state the producers that are still at work use, of each resource, at most
what is held, and that is at most its capacity; an attempt holds at most one reservation, and each
unfinished producer is under a held one of its own attempt. What is given back stays so. -/
theorem resources_admitted {J : JobService} (h : J.Reachable anyJobStep) :
    (∀ r ∈ J.resources,
      J.busyUnits r.id ≤ J.heldUnits r.id ∧ J.heldUnits r.id ≤ r.capacity) ∧
    (∀ v ∈ J.reservations, ∀ v' ∈ J.reservations, v.state = .held → v'.state = .held →
      v.attempt = v'.attempt → v = v') ∧
    (∀ j ∈ J.registrations, J.Unfinished j → ∃ v ∈ J.reservations,
      v.id = j.reservation ∧ v.attempt = j.attempt ∧ v.state = .held) ∧
    ∀ J', Run JobStep anyJobStep J J' → ∀ v ∈ J.reservations, ∃ v' ∈ J'.reservations,
      v.Later v' := by
  have hadmitted : Admitted J :=
    h.invariant (fun _ => Admitted.initial) fun _ _ hJ he => hJ.effect he
  exact ⟨fun r hr => ⟨hadmitted.busyUnits_le r.id, hadmitted.capacity r hr⟩, hadmitted.alone,
    hadmitted.attached, fun _ hrun => continued_run hrun⟩

/-- While the build runs, the resource is in use to the last unit. -/
theorem resources_admitted_build :
    ∃ J : JobService, J.busyUnits 1 = 2 ∧
      (∀ r ∈ J.resources, J.busyUnits r.id ≤ J.heldUnits r.id ∧ J.heldUnits r.id ≤ r.capacity) := by
  obtain ⟨J, hJ, hbusy⟩ := exists_of_any
    (show (Workshop.empty.replay Workshop.launches).any (fun J => J.busyUnits 1 = 2) = true by
      decide +kernel)
  exact ⟨J, of_decide_eq_true hbusy, (resources_admitted (Workshop.reachable_of_replay hJ)).1⟩

end Jobs

end AgentCoordinator
