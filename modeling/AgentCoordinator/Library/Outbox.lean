import AgentCoordinator.Library.Crash
import Mathlib.Data.List.Duplicate
import Mathlib.Data.List.NodupEquivFin
import Mathlib.Data.Set.Insert

/-
Calls that are saved before they are sent.

A client has one call at a time: it saves the call in a journal that outlives it, sends it, and
clears the journal once an answer settles the call. Requests and answers may be late or lost, and
the client may crash at any point; what it does not know to be settled it may send again. The
server is shared with others, and a call may have taken effect at it or not. Nothing that was sent
is forgotten then: it is settled, or still pending in the journal.
-/

namespace Outbox

open Crash

universe u v w x

variable {τ : Type u} {α : Type v} {σ : Type w} {ω : Type x}

/-! ### Journals and servers -/

/-- A journal that holds one pending call. -/
structure Journal (τ : Type u) (α : Type v) where
  pending : τ → Option α
  /-- What is saved before the call is sent. -/
  prepare : τ → α → τ → Prop
  /-- What is saved once the pending call is settled. -/
  complete : τ → τ → Prop
  /-- The call has been saved. -/
  saved : τ → α → Prop
  /-- The client exits when it cannot save. -/
  exits : Prop

/-- Only the pending call is prepared again, and nothing that was saved is dropped. -/
structure Journal.Lawful (J : Journal τ α) : Prop where
  prepare : ∀ {t a t'}, J.prepare t a t' →
    (J.pending t = none ∨ J.pending t = some a) ∧ J.pending t' = some a ∧ J.saved t' a
  complete : ∀ {t t'}, J.complete t t' → J.pending t' = none
  prepare_saved : ∀ {t a t' b}, J.prepare t a t' → J.saved t b → J.saved t' b
  complete_saved : ∀ {t t' b}, J.complete t t' → J.saved t b → J.saved t' b
  resumed : ∀ {t a}, J.exits → J.pending t = some a → J.saved t a

/-- What an answer says about its call. -/
inductive Verdict | confirmed | rejected | unsettled
  deriving DecidableEq, Repr

/-- A server of calls, and how its answers are read. -/
structure Server (σ : Type w) (α : Type v) (ω : Type x) where
  serve : σ → α → σ → ω → Prop
  others : σ → σ → Prop
  /-- The call has taken effect. -/
  done : σ → α → Prop
  verdict : α → ω → Verdict

/-- An effect lasts; an answer that confirms a call comes after it, and the service of a call that
is rejected is not what it comes from. -/
structure Server.Lawful (S : Server σ α ω) : Prop where
  others : ∀ {s s' a}, S.others s s' → S.done s a → S.done s' a
  serve : ∀ {s s' a b r}, S.serve s a s' r → S.done s b → S.done s' b
  confirmed : ∀ {s s' a r}, S.serve s a s' r → S.verdict a r = .confirmed → S.done s' a
  rejected : ∀ {s s' a r}, S.serve s a s' r → S.verdict a r = .rejected → S.done s' a → S.done s a

/-- A rejection also says that the call has no effect yet. -/
def Server.Refuses (S : Server σ α ω) : Prop :=
  ∀ {s s' a r}, S.serve s a s' r → S.verdict a r = .rejected → ¬ S.done s' a

/-! ### The client among others -/

/-- How a request was served, and whether that is what the effect of its call comes from. -/
structure Service (α : Type v) (ω : Type x) where
  request : Nat
  call : α
  answer : ω
  performed : Bool

/-- The server, the journal, and what has happened: the calls that were sent, of which the
position is the number of the request, those that were served, and what the client has heard. -/
structure World (σ : Type w) (τ : Type u) (α : Type v) (ω : Type x) where
  server : σ
  disk : τ
  sent : List α
  served : List (Service α ω)
  confirmed : Set α
  rejected : Set α

/-- The stages of a client, which holds its journal in memory. -/
inductive Stage (τ : Type u) (α : Type v)
  | down
  | idle (memory : τ)
  | ready (memory : τ) (call : α)
  | waiting (memory : τ) (request : Nat) (call : α)

/-- What the client does. -/
inductive Outcome
  | opened | prepared | unsaved | resumed | sent | unanswered | settled | kept | uncleared
  | reconciled

namespace World

/-- A call is sent, and counts as rejected no more. -/
def send (w : World σ τ α ω) (a : α) : World σ τ α ω :=
  { w with sent := w.sent ++ [a], rejected := w.rejected \ {a} }

/-- The client has heard a verdict. -/
def hear (w : World σ τ α ω) (a : α) : Verdict → World σ τ α ω
  | .confirmed => { w with confirmed := insert a w.confirmed }
  | .rejected => { w with rejected := insert a w.rejected }
  | .unsettled => w

/-- The calls whose effects come from requests of the client. -/
def performed (w : World σ τ α ω) : List α := (w.served.filter Service.performed).map Service.call

/-- The client knows how the call ended. -/
def Heard (w : World σ τ α ω) (a : α) : Prop := a ∈ w.confirmed ∨ a ∈ w.rejected

end World

variable (J : Journal τ α) (S : Server σ α ω)

/-- The steps of the client. A save that fails may still have reached the disk. -/
inductive Work : World σ τ α ω → Stage τ α → Outcome → World σ τ α ω → Stage τ α → Prop
  | opened {w : World σ τ α ω} : Work w .down .opened w (.idle w.disk)
  | prepared {w : World σ τ α ω} {m m' : τ} {a : α} (h : J.prepare m a m') :
      Work w (.idle m) .prepared { w with disk := m' } (.ready m' a)
  | unsaved {w : World σ τ α ω} {m m' disk : τ} {a : α} (hexits : ¬ J.exits)
      (h : J.prepare m a m') (hdisk : disk = w.disk ∨ disk = m') :
      Work w (.idle m) .unsaved { w with disk := disk } (.idle m)
  /-- A client that exits when it cannot save may send what is pending without saving it again. -/
  | resumed {w : World σ τ α ω} {m : τ} {a : α} (hexits : J.exits) (h : J.pending m = some a) :
      Work w (.idle m) .resumed w (.ready m a)
  | sent {w : World σ τ α ω} {m : τ} {a : α} :
      Work w (.ready m a) .sent (w.send a) (.waiting m w.sent.length a)
  /-- There is no answer, or none that settles the call. -/
  | unanswered {w : World σ τ α ω} {m : τ} {n : Nat} {a : α} :
      Work w (.waiting m n a) .unanswered w (.idle m)
  | settled {w : World σ τ α ω} {m m' : τ} {a : α} {e : Service α ω} (he : e ∈ w.served)
      (hv : S.verdict a e.answer ≠ .unsettled) (h : J.complete m m') :
      Work w (.waiting m e.request a) .settled
        { w.hear a (S.verdict a e.answer) with disk := m' } (.idle m')
  /-- The call stays pending although it is settled. -/
  | kept {w : World σ τ α ω} {m : τ} {a : α} {e : Service α ω} (he : e ∈ w.served)
      (hv : S.verdict a e.answer ≠ .unsettled) :
      Work w (.waiting m e.request a) .kept (w.hear a (S.verdict a e.answer)) (.idle m)
  | uncleared {w : World σ τ α ω} {m m' : τ} {a : α} {e : Service α ω} (hexits : ¬ J.exits)
      (he : e ∈ w.served) (hv : S.verdict a e.answer ≠ .unsettled) (h : J.complete m m') :
      Work w (.waiting m e.request a) .uncleared
        { w.hear a (S.verdict a e.answer) with disk := m' } (.idle m)
  /-- The client reads at the server that the pending call has taken effect. -/
  | reconciled {w : World σ τ α ω} {m m' : τ} {a : α} (h : J.complete m m')
      (hpending : J.pending m = some a) (hdone : S.done w.server a) :
      Work w (.idle m) .reconciled { w.hear a .confirmed with disk := m' } (.idle m')

/-- What happens meanwhile: a request arrives, late or not, or somebody else uses the server. -/
inductive Others : World σ τ α ω → World σ τ α ω → Prop
  | served {w : World σ τ α ω} {n : Nat} {a : α} {s' : σ} {r : ω} {b : Bool}
      (hsent : w.sent[n]? = some a) (hnew : ∀ e ∈ w.served, e.request ≠ n)
      (h : S.serve w.server a s' r) (hb : b = true ↔ ¬ S.done w.server a ∧ S.done s' a) :
      Others w { w with server := s', served := w.served ++ [⟨n, a, r, b⟩] }
  | others {w : World σ τ α ω} {s' : σ} (h : S.others w.server s') :
      Others w { w with server := s' }

/-- The client as a program that crashes. -/
def client : Program (World σ τ α ω) (Stage τ α) Outcome where
  rest := .down
  work := Work J S
  crash w w' := w' = w
  others := Others S

/-- Nothing has been sent yet. -/
structure New (w : World σ τ α ω) : Prop where
  sent : w.sent = []
  served : w.served = []
  confirmed : w.confirmed = ∅
  rejected : w.rejected = ∅

/-! ### What holds of every call -/

/-- The requests that were served are some that were sent, each of them once. -/
structure Served (w : World σ τ α ω) : Prop where
  sent : ∀ e ∈ w.served, w.sent[e.request]? = some e.call
  once : (w.served.map Service.request).Nodup

/-- What is known of the effects of the calls. -/
structure Effective (w : World σ τ α ω) : Prop where
  /-- No call takes effect twice. -/
  once : w.performed.Nodup
  performed : ∀ a ∈ w.performed, S.done w.server a
  confirmed : ∀ a ∈ w.confirmed, S.done w.server a
  answered : ∀ e ∈ w.served, S.verdict e.call e.answer = .confirmed → S.done w.server e.call
  refused : ∀ e ∈ w.served, S.verdict e.call e.answer = .rejected → e.performed = false
  heard : ∀ a ∈ w.rejected, ∃ e ∈ w.served, e.call = a ∧ S.verdict a e.answer = .rejected

/-- A journal accounts for every call that was sent. -/
structure Accounts (w : World σ τ α ω) (t : τ) : Prop where
  settled : ∀ a ∈ w.sent, w.Heard a ∨ J.pending t = some a
  saved : ∀ a ∈ w.sent, J.saved t a

/-- What holds in every stage. -/
structure Sound (w : World σ τ α ω) : Prop where
  served : Served w
  effective : Effective S w
  disk : Accounts J w w.disk

/-- What holds in a stage. -/
def Assertion : Stage τ α → World σ τ α ω → Prop
  | .down, _ => True
  | .idle m, w => Accounts J w m ∧ (J.exits → m = w.disk)
  | .ready m a, w => m = w.disk ∧ J.pending m = some a ∧ J.saved m a
  | .waiting m n a, w => m = w.disk ∧ J.pending m = some a ∧ w.sent[n]? = some a

section Calls

variable {J : Journal τ α} {S : Server σ α ω} {w w' : World σ τ α ω} {m m' : τ} {a : α}
  {e : Service α ω} {v : Verdict}

lemma New.sound (h : New w) : Sound J S w where
  served := ⟨by simp [h.served], by simp [h.served]⟩
  effective := ⟨by simp [World.performed, h.served], by simp [World.performed, h.served],
    by simp [h.confirmed], by simp [h.served], by simp [h.served], by simp [h.rejected]⟩
  disk := ⟨by simp [h.sent], by simp [h.sent]⟩

/-! What the client hears -/

@[simp] lemma hear_sent : (w.hear a v).sent = w.sent := by cases v <;> rfl

@[simp] lemma hear_served : (w.hear a v).served = w.served := by cases v <;> rfl

@[simp] lemma hear_server : (w.hear a v).server = w.server := by cases v <;> rfl

@[simp] lemma hear_disk : (w.hear a v).disk = w.disk := by cases v <;> rfl

lemma heard_hear {b : α} (h : w.Heard b) : (w.hear a v).Heard b := by
  cases v with
  | confirmed => exact h.imp_left (Set.mem_insert_of_mem a)
  | rejected => exact h.imp_right (Set.mem_insert_of_mem a)
  | unsettled => exact h

lemma heard_of_hear (hv : v ≠ .unsettled) : (w.hear a v).Heard a := by
  cases v with
  | confirmed => exact .inl (Set.mem_insert a _)
  | rejected => exact .inr (Set.mem_insert a _)
  | unsettled => exact absurd rfl hv

lemma Served.hear (h : Served w) : Served (w.hear a v) := by
  refine ⟨?_, ?_⟩
  · rw [hear_served, hear_sent]
    exact h.sent
  · rw [hear_served]
    exact h.once

/-- The answer to a request is one to its call. -/
lemma Served.call_eq (h : Served w) (he : e ∈ w.served) (hsent : w.sent[e.request]? = some a) :
    e.call = a :=
  Option.some.inj ((h.sent e he).symm.trans hsent)

lemma Effective.hear (h : Effective S w) (he : e ∈ w.served) (hcall : e.call = a) :
    Effective S (w.hear a (S.verdict a e.answer)) := by
  subst hcall
  cases hv : S.verdict e.call e.answer with
  | confirmed =>
    refine { h with confirmed := fun b hb => ?_ }
    obtain rfl | hb := Set.mem_insert_iff.1 hb
    · exact h.answered e he hv
    · exact h.confirmed b hb
  | rejected =>
    refine { h with heard := fun b hb => ?_ }
    obtain rfl | hb := Set.mem_insert_iff.1 hb
    · exact ⟨e, he, rfl, hv⟩
    · exact h.heard b hb
  | unsettled => exact h

/-- Once the pending call is settled, there is nothing that a journal has to account for but what
it has saved. -/
lemma Accounts.hear (h : Accounts J w m) (hpending : J.pending m = some a)
    (hv : v ≠ .unsettled) (hsaved : ∀ b, J.saved m b → J.saved m' b) :
    Accounts J (w.hear a v) m' where
  settled b hb := by
    rw [hear_sent] at hb
    rcases h.settled b hb with hheard | hb
    · exact .inl (heard_hear hheard)
    · obtain rfl : a = b := Option.some.inj (hpending.symm.trans hb)
      exact .inl (heard_of_hear hv)
  saved b hb := hsaved b (h.saved b (by rwa [hear_sent] at hb))

/-! What it saves and sends -/

/-- A call may be prepared once the others are settled. -/
lemma Accounts.prepare (hJ : J.Lawful) (h : Accounts J w m) (hm : J.prepare m a m') :
    Accounts J w m' where
  settled b hb := by
    obtain ⟨hbefore, hafter, -⟩ := hJ.prepare hm
    rcases h.settled b hb with hheard | hb
    · exact .inl hheard
    · rcases hbefore with hnone | ha
      · rw [hnone] at hb
        exact absurd hb (by simp)
      · obtain rfl : a = b := Option.some.inj (ha.symm.trans hb)
        exact .inr hafter
  saved b hb := hJ.prepare_saved hm (h.saved b hb)

lemma Served.send (h : Served w) : Served (w.send a) where
  sent e he := by
    obtain ⟨hlt, -⟩ := List.getElem?_eq_some_iff.1 (h.sent e he)
    rw [World.send, List.getElem?_append_left hlt]
    exact h.sent e he
  once := h.once

lemma Effective.send (h : Effective S w) : Effective S (w.send a) :=
  { h with heard := fun b hb => h.heard b hb.1 }

/-- The pending call may be sent. -/
lemma Accounts.send (h : Accounts J w m) (hpending : J.pending m = some a)
    (hsaved : J.saved m a) : Accounts J (w.send a) m where
  settled b hb := by
    by_cases hba : b = a
    · exact .inr (hba ▸ hpending)
    · obtain hb | rfl := by simpa [World.send] using hb
      · refine (h.settled b hb).imp_left fun hheard => ?_
        exact hheard.imp_right fun hrejected => ⟨hrejected, hba⟩
      · exact absurd rfl hba
  saved b hb := by
    obtain hb | rfl := by simpa [World.send] using hb
    · exact h.saved b hb
    · exact hsaved

end Calls

/-! ### The steps -/

section Steps

variable {J : Journal τ α} {S : Server σ α ω} {w w' : World σ τ α ω} {s s' : Stage τ α}
  {o : Outcome}

/-- What the client does keeps the accounts. -/
lemma Work.sound (hJ : J.Lawful) (hI : Sound J S w) (hA : Assertion J s w)
    (h : Work J S w s o w' s') : Sound J S w' ∧ Assertion J s' w' := by
  have hserved := hI.served
  have heffective := hI.effective
  cases h with
  | opened => exact ⟨hI, hI.disk, fun _ => rfl⟩
  | prepared h =>
    have hdisk := hA.1.prepare hJ h
    obtain ⟨-, hpending, hsaved⟩ := hJ.prepare h
    exact ⟨⟨⟨hserved.sent, hserved.once⟩, { heffective with }, ⟨hdisk.settled, hdisk.saved⟩⟩,
      rfl, hpending, hsaved⟩
  | unsaved hexits h hdisk =>
    have hnew : Accounts J w _ := hA.1.prepare hJ h
    refine ⟨⟨⟨hserved.sent, hserved.once⟩, { heffective with }, ?_⟩,
      ⟨hA.1.settled, hA.1.saved⟩, fun h => absurd h hexits⟩
    obtain rfl | rfl := hdisk
    · exact hI.disk
    · exact ⟨hnew.settled, hnew.saved⟩
  | resumed hexits h => exact ⟨hI, hA.2 hexits, h, hJ.resumed hexits h⟩
  | sent =>
    obtain ⟨rfl, hpending, hsaved⟩ := hA
    exact ⟨⟨hserved.send, heffective.send, hI.disk.send hpending hsaved⟩, rfl, hpending,
      by simp [World.send]⟩
  | unanswered =>
    obtain ⟨rfl, -⟩ := hA
    exact ⟨hI, hI.disk, fun _ => rfl⟩
  | settled he hv h =>
    obtain ⟨rfl, hpending, hsent⟩ := hA
    have hcall := hserved.call_eq he hsent
    have haccounts := hI.disk.hear hpending hv fun _ => hJ.complete_saved h
    refine ⟨⟨⟨hserved.hear.sent, hserved.hear.once⟩, { heffective.hear he hcall with },
      ⟨haccounts.settled, haccounts.saved⟩⟩, ⟨haccounts.settled, haccounts.saved⟩, fun _ => rfl⟩
  | kept he hv =>
    obtain ⟨rfl, hpending, hsent⟩ := hA
    have haccounts := hI.disk.hear hpending hv fun _ hsaved => hsaved
    refine ⟨⟨hserved.hear, heffective.hear he (hserved.call_eq he hsent), ?_⟩, haccounts,
      fun _ => hear_disk.symm⟩
    rw [hear_disk]
    exact haccounts
  | uncleared hexits he hv h =>
    obtain ⟨rfl, hpending, hsent⟩ := hA
    have hcall := hserved.call_eq he hsent
    have hold := hI.disk.hear hpending hv fun _ hsaved => hsaved
    have hnew := hI.disk.hear hpending hv fun _ => hJ.complete_saved h
    exact ⟨⟨⟨hserved.hear.sent, hserved.hear.once⟩, { heffective.hear he hcall with },
      ⟨hnew.settled, hnew.saved⟩⟩, ⟨hold.settled, hold.saved⟩, fun h => absurd h hexits⟩
  | @reconciled m m' a h hpending hdone =>
    have haccounts : Accounts J (w.hear a .confirmed) m' :=
      hA.1.hear hpending (by simp) fun _ => hJ.complete_saved h
    refine ⟨⟨⟨hserved.hear.sent, hserved.hear.once⟩, { heffective with
      confirmed := fun b hb => ?_ }, ⟨haccounts.settled, haccounts.saved⟩⟩,
      ⟨haccounts.settled, haccounts.saved⟩, fun _ => rfl⟩
    obtain rfl | hb := Set.mem_insert_iff.1 hb
    · exact hdone
    · exact heffective.confirmed b hb

lemma performed_append {n : Nat} {a : α} {r : ω} {b : Bool} {x : σ} :
    ({ w with server := x, served := w.served ++ [⟨n, a, r, b⟩] } : World σ τ α ω).performed
      = w.performed ++ if b then [a] else [] := by
  cases b <;> simp [World.performed]

/-- What happens meanwhile changes nothing that the client has saved or heard. -/
lemma Others.sound (hS : S.Lawful) (hI : Sound J S w) (h : Others S w w') :
    Sound J S w' ∧ ∀ s, Assertion J s w → Assertion J s w' := by
  obtain ⟨hserved, heffective, hdisk⟩ := hI
  cases h with
  | served hsent hnew h hb =>
    refine ⟨⟨⟨fun e he => ?_, ?_⟩, ⟨?_, fun b hb' => ?_, ?_, fun e he hv => ?_, fun e he hv => ?_,
      fun b hb' => ?_⟩, ⟨hdisk.settled, hdisk.saved⟩⟩, fun s hs => ?_⟩
    · obtain he | rfl := by simpa using he
      · exact hserved.sent e he
      · exact hsent
    · rw [List.map_append, List.nodup_append]
      refine ⟨hserved.once, List.nodup_singleton _, fun n hn n' hn' heq => ?_⟩
      obtain ⟨e, he, rfl⟩ := List.mem_map.1 hn
      exact hnew e he (heq.trans (List.mem_singleton.1 hn'))
    · -- the request has an effect only if its call had none
      rw [performed_append]
      split
      · rename_i hperformed
        rw [List.nodup_append]
        refine ⟨heffective.once, List.nodup_singleton _, fun b hb' c hc hbc => ?_⟩
        obtain rfl := List.mem_singleton.1 hc
        exact (hb.1 hperformed).1 (heffective.performed _ (hbc ▸ hb'))
      · simpa using heffective.once
    · rw [performed_append] at hb'
      rcases List.mem_append.1 hb' with hb' | hb'
      · exact hS.serve h (heffective.performed b hb')
      · split at hb'
        · rename_i hperformed
          obtain rfl := List.mem_singleton.1 hb'
          exact (hb.1 hperformed).2
        · simp at hb'
    · exact fun b hb' => hS.serve h (heffective.confirmed b hb')
    · obtain he | rfl := by simpa using he
      · exact hS.serve h (heffective.answered e he hv)
      · exact hS.confirmed h hv
    · obtain he | rfl := by simpa using he
      · exact heffective.refused e he hv
      · refine Bool.eq_false_iff.2 fun hperformed => ?_
        exact (hb.1 hperformed).1 (hS.rejected h hv (hb.1 hperformed).2)
    · obtain ⟨e, he, hheard⟩ := heffective.heard b hb'
      exact ⟨e, List.mem_append_left _ he, hheard⟩
    · cases s with
      | down => trivial
      | idle => exact ⟨⟨hs.1.settled, hs.1.saved⟩, hs.2⟩
      | ready => exact hs
      | waiting => exact hs
  | others h =>
    refine ⟨⟨⟨hserved.sent, hserved.once⟩, { heffective with
      performed := fun a ha => hS.others h (heffective.performed a ha)
      confirmed := fun a ha => hS.others h (heffective.confirmed a ha)
      answered := fun e he hv => hS.others h (heffective.answered e he hv) },
      ⟨hdisk.settled, hdisk.saved⟩⟩, fun s hs => ?_⟩
    cases s with
    | down => trivial
    | idle => exact ⟨⟨hs.1.settled, hs.1.saved⟩, hs.2⟩
    | ready => exact hs
    | waiting => exact hs

/-- The stages of a client. -/
theorem annotated (hJ : J.Lawful) (hS : S.Lawful) :
    (client J S).Annotated (fun _ _ => True) (Sound J S) (Assertion J) where
  rest _ _ := trivial
  work _ _ _ _ _ hI hA _ h := Work.sound hJ hI hA h
  crash _ _ _ hI _ _ h := by
    obtain rfl := h
    exact hI
  others _ _ hI h := Others.sound hS hI h

/-- Whatever happens, each call that was sent is accounted for. -/
theorem sound (hJ : J.Lawful) (hS : S.Lawful) {x : World σ τ α ω × Stage τ α}
    (h : (client J S).Reachable New x) : Sound J S x.1 :=
  ((annotated hJ hS).reachable (fun _ hw => hw.sound) h).1

/-- What every save of the journal keeps, holds of the journal. -/
theorem disk_invariant {P : τ → Prop} (hprepare : ∀ {m a m'}, P m → J.prepare m a m' → P m')
    (hcomplete : ∀ {m m'}, P m → J.complete m m' → P m') {x : World σ τ α ω × Stage τ α}
    (h : (client J S).Reachable (fun w => P w.disk) x) : P x.1.disk := by
  have hannotated : (client J S).Annotated (fun _ _ => True) (fun w => P w.disk) fun s _ =>
      match s with
      | .down => True
      | .idle m => P m
      | .ready m _ => P m
      | .waiting m _ _ => P m :=
    { rest := fun _ _ => trivial
      work := fun w s o w' s' hI hA _ h => by
        cases h with
        | opened => exact ⟨hI, hI⟩
        | prepared h => exact ⟨hprepare hA h, hprepare hA h⟩
        | unsaved _ h hdisk =>
          obtain rfl | rfl := hdisk
          · exact ⟨hI, hA⟩
          · exact ⟨hprepare hA h, hA⟩
        | resumed => exact ⟨hI, hA⟩
        | sent => exact ⟨hI, hA⟩
        | unanswered => exact ⟨hI, hA⟩
        | settled _ _ h => exact ⟨hcomplete hA h, hcomplete hA h⟩
        | kept => exact ⟨by rwa [hear_disk], hA⟩
        | uncleared _ _ _ h => exact ⟨hcomplete hA h, hA⟩
        | reconciled h => exact ⟨hcomplete hA h, hcomplete hA h⟩
      crash := fun _ _ _ hI _ _ h => by
        obtain rfl := h
        exact hI
      others := fun _ _ hI h => by cases h <;> exact ⟨hI, fun _ hA => hA⟩ }
  exact (hannotated.reachable (fun _ hw => hw) h).1

end Steps

/-! ### Runs of the client -/

section Runs

variable {J : Journal τ α} {S : Server σ α ω} {initial : World σ τ α ω → Prop}
  {w w' : World σ τ α ω} {s s' : Stage τ α} {o : Outcome}

lemma reachable_work (hx : (client J S).Reachable initial (w, s)) (h : Work J S w s o w' s') :
    (client J S).Reachable initial (w', s') :=
  Program.ReachableBy.step hx (.work h) trivial

lemma reachable_others (hx : (client J S).Reachable initial (w, s)) (h : Others S w w') :
    (client J S).Reachable initial (w', s) :=
  Program.ReachableBy.step hx (.others h) trivial

lemma reachable_crash (hx : (client J S).Reachable initial (w, s)) :
    (client J S).Reachable initial (w, .down) :=
  Program.ReachableBy.step hx (.crash rfl) trivial

end Runs

/-! ### Rejected calls -/

section Rejections

variable {J : Journal τ α} {S : Server σ α ω} {w : World σ τ α ω} {a : α}

lemma mem_performed : a ∈ w.performed ↔ ∃ e ∈ w.served, e.performed = true ∧ e.call = a := by
  simp [World.performed, and_assoc]

/-- A rejected call that was sent once has no effect. -/
theorem Sound.not_performed [DecidableEq α] (h : Sound J S w) (hrejected : a ∈ w.rejected)
    (honce : w.sent.count a ≤ 1) : a ∉ w.performed := by
  intro hperformed
  obtain ⟨e, he, hcall, hv⟩ := h.effective.heard a hrejected
  obtain ⟨e', he', htrue, hcall'⟩ := mem_performed.1 hperformed
  have hne : e.request ≠ e'.request := by
    refine fun heq => ?_
    obtain rfl : e = e' := List.inj_on_of_nodup_map h.served.once he he' heq
    rw [h.effective.refused e he (hcall ▸ hv)] at htrue
    exact absurd htrue (by simp)
  have hsent := hcall ▸ h.served.sent e he
  have hsent' := hcall' ▸ h.served.sent e' he'
  obtain ⟨hlt, hget⟩ := List.getElem?_eq_some_iff.1 hsent
  obtain ⟨hlt', hget'⟩ := List.getElem?_eq_some_iff.1 hsent'
  have hduplicate : List.Duplicate a w.sent := by
    rw [List.duplicate_iff_exists_distinct_get]
    rcases Nat.lt_or_gt_of_ne hne with hlt'' | hlt''
    · exact ⟨⟨_, hlt⟩, ⟨_, hlt'⟩, hlt'', hget.symm, hget'.symm⟩
    · exact ⟨⟨_, hlt'⟩, ⟨_, hlt⟩, hlt'', hget'.symm, hget.symm⟩
  have htwo := List.duplicate_iff_two_le_count.1 hduplicate
  omega

/-- No request of a call that is rejected had an effect before. -/
def RefusedFirst (S : Server σ α ω) (w : World σ τ α ω) : Prop :=
  w.served.Pairwise fun e e' =>
    S.verdict e'.call e'.answer = .rejected → e.call = e'.call → e.performed = false

/-- If the server only rejects calls without an effect, then an effect of a rejected call comes
from a request that it served later. -/
theorem refusedFirst (hJ : J.Lawful) (hS : S.Lawful) (hR : S.Refuses)
    {x : World σ τ α ω × Stage τ α} (h : (client J S).Reachable New x) : RefusedFirst S x.1 := by
  have hannotated := annotated hJ hS
  have hboth : (client J S).Annotated (fun _ _ => True)
      (fun w => Sound J S w ∧ RefusedFirst S w) (Assertion J) :=
    { rest := fun _ _ => trivial
      work := fun w s o w' s' hI hA hok h => by
        obtain ⟨hsound, hA'⟩ := hannotated.work _ _ _ _ _ hI.1 hA hok h
        refine ⟨⟨hsound, ?_⟩, hA'⟩
        have hserved : w'.served = w.served := by cases h <;> simp [World.send]
        rw [RefusedFirst, hserved]
        exact hI.2
      crash := fun _ _ _ hI _ _ h => by
        obtain rfl := h
        exact hI
      others := fun w w' hI h => by
        obtain ⟨hsound, hA⟩ := hannotated.others _ _ hI.1 h
        refine ⟨⟨hsound, ?_⟩, hA⟩
        cases h with
        | served hsent hnew h hb =>
          refine List.pairwise_append.2 ⟨hI.2, List.pairwise_singleton _ _, fun e he e' he' => ?_⟩
          obtain rfl := List.mem_singleton.1 he'
          refine fun hv hcall => Bool.eq_false_iff.2 fun htrue => hR h hv ?_
          have hdone := hI.1.effective.performed e.call (mem_performed.2 ⟨e, he, htrue, rfl⟩)
          rw [hcall] at hdone
          exact hS.serve h hdone
        | others => exact hI.2 }
  exact (hboth.reachable (fun w hw => ⟨hw.sound, by simp [RefusedFirst, hw.served]⟩) h).1.2

end Rejections

end Outbox
