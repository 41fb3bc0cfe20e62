import AgentCoordinator.Library.Authority
import AgentCoordinator.Accounts.Service

/-
The requests to the accounts, read as a log of secrets.

The acts of an installation are a log in which secrets are issued, used and ended. A request uses
secrets that the tables accept, and after it the tables accept what they did before, less what it
used up or ended, and what it issued (`Serves`). Each write of a table is described once (`Leaves`),
and a request by the writes that it is made of.
-/

namespace AgentCoordinator.Accounts

open Guarded Tabular Authority

/-! ### What the tables hold -/

/-- Which rows count. -/
structure Grade where
  session : BrowserSession → Prop
  link : MailedLink → Prop
  challenge : Challenge → Prop

/-- Every row. -/
def Grade.any : Grade := ⟨fun _ => True, fun _ => True, fun _ => True⟩

/-- The rows that the service would still accept. -/
def Grade.usable (now : Time) : Grade :=
  ⟨fun b => b.revokedAt = none, fun l => l.Outstanding now, fun c => now < c.expiresAt⟩

/-- A row of the grade has the secret. -/
inductive AccountDb.Has (db : AccountDb) (g : Grade) : Secret → Prop
  | session {b : BrowserSession} (hb : b ∈ db.sessions) (hg : g.session b) :
      db.Has g (sessionSecret b)
  | password {a : Account} (ha : a ∈ db.accounts) : db.Has g a.password
  | passkey {k : Passkey} (hk : k ∈ db.passkeys) : db.Has g k.secret
  | resetLink {l : MailedLink} (hl : l ∈ db.resets) (hg : g.link l) : db.Has g l.reset
  | verificationLink {l : MailedLink} (hl : l ∈ db.verifications) (hg : g.link l) :
      db.Has g l.verification
  | challenge {c : Challenge} (hc : c ∈ db.challenges) (hg : g.challenge c) : db.Has g c.secret

/-- The database contains the secret. -/
abbrev AccountDb.Holds (db : AccountDb) (x : Secret) : Prop := db.Has .any x

/-- The database would accept the secret at `now`. -/
abbrev AccountDb.Live (db : AccountDb) (now : Time) (x : Secret) : Prop := db.Has (.usable now) x

section Tables

variable {db : AccountDb} {g : Grade} {x : Secret} {now : Time} {id : Id}

lemma AccountDb.Live.holds (h : db.Live now x) : db.Holds x := by
  cases h with
  | session hb => exact .session hb trivial
  | password ha => exact .password ha
  | passkey hk => exact .passkey hk
  | resetLink hl => exact .resetLink hl trivial
  | verificationLink hl => exact .verificationLink hl trivial
  | challenge hc => exact .challenge hc trivial

lemma AccountDb.holds_iff : db.Holds x ↔ x ∈ db.secrets := by
  simp only [AccountDb.secrets, List.mem_append, List.mem_map]
  constructor
  · intro h
    cases h with
    | session hb => exact .inl (.inl (.inl (.inl (.inl ⟨_, hb, rfl⟩))))
    | password ha => exact .inl (.inl (.inl (.inl (.inr ⟨_, ha, rfl⟩))))
    | passkey hk => exact .inl (.inl (.inl (.inr ⟨_, hk, rfl⟩)))
    | resetLink hl => exact .inl (.inl (.inr ⟨_, hl, rfl⟩))
    | verificationLink hl => exact .inl (.inr ⟨_, hl, rfl⟩)
    | challenge hc => exact .inr ⟨_, hc, rfl⟩
  · rintro (((((⟨b, hb, rfl⟩ | ⟨a, ha, rfl⟩) | ⟨k, hk, rfl⟩) | ⟨l, hl, rfl⟩) | ⟨l, hl, rfl⟩) |
      ⟨c, hc, rfl⟩)
    · exact .session hb trivial
    · exact .password ha
    · exact .passkey hk
    · exact .resetLink hl trivial
    · exact .verificationLink hl trivial
    · exact .challenge hc trivial

/-- What is live later was live before. -/
lemma AccountDb.Live.earlier {now' : Time} (h : db.Live now' x) (hle : now ≤ now') :
    db.Live now x := by
  cases h with
  | session hb hg => exact .session hb hg
  | password ha => exact .password ha
  | passkey hk => exact .passkey hk
  | resetLink hl hg => exact .resetLink hl ⟨hg.1, hg.2.1, Int.lt_of_le_of_lt hle hg.2.2⟩
  | verificationLink hl hg =>
    exact .verificationLink hl ⟨hg.1, hg.2.1, Int.lt_of_le_of_lt hle hg.2.2⟩
  | challenge hc hg => exact .challenge hc (Int.lt_of_le_of_lt hle hg)

/-! Rewriting one table leaves the secrets of the other kinds. -/

lemma AccountDb.Has.of_sessions {t : Table BrowserSession}
    (h : ({ db with sessions := t } : AccountDb).Has g x) :
    (∃ b ∈ t, g.session b ∧ x = sessionSecret b) ∨ (db.Has g x ∧ x.kind ≠ .session) := by
  cases h with
  | session hb hg => exact .inl ⟨_, hb, hg, rfl⟩
  | password ha => exact .inr ⟨.password ha, by simp [Account.password]⟩
  | passkey hk => exact .inr ⟨.passkey hk, by simp [Passkey.secret]⟩
  | resetLink hl hg => exact .inr ⟨.resetLink hl hg, by simp [MailedLink.reset]⟩
  | verificationLink hl hg =>
    exact .inr ⟨.verificationLink hl hg, by simp [MailedLink.verification]⟩
  | challenge hc hg => exact .inr ⟨.challenge hc hg, by simp [Challenge.secret]⟩

lemma AccountDb.Has.of_accounts {t : Table Account}
    (h : ({ db with accounts := t } : AccountDb).Has g x) :
    (∃ a ∈ t, x = a.password) ∨ (db.Has g x ∧ x.kind ≠ .password) := by
  cases h with
  | session hb hg => exact .inr ⟨.session hb hg, by simp [sessionSecret]⟩
  | password ha => exact .inl ⟨_, ha, rfl⟩
  | passkey hk => exact .inr ⟨.passkey hk, by simp [Passkey.secret]⟩
  | resetLink hl hg => exact .inr ⟨.resetLink hl hg, by simp [MailedLink.reset]⟩
  | verificationLink hl hg =>
    exact .inr ⟨.verificationLink hl hg, by simp [MailedLink.verification]⟩
  | challenge hc hg => exact .inr ⟨.challenge hc hg, by simp [Challenge.secret]⟩

lemma AccountDb.Has.of_passkeys {t : Table Passkey}
    (h : ({ db with passkeys := t } : AccountDb).Has g x) :
    (∃ k ∈ t, x = k.secret) ∨ (db.Has g x ∧ x.kind ≠ .passkey) := by
  cases h with
  | session hb hg => exact .inr ⟨.session hb hg, by simp [sessionSecret]⟩
  | password ha => exact .inr ⟨.password ha, by simp [Account.password]⟩
  | passkey hk => exact .inl ⟨_, hk, rfl⟩
  | resetLink hl hg => exact .inr ⟨.resetLink hl hg, by simp [MailedLink.reset]⟩
  | verificationLink hl hg =>
    exact .inr ⟨.verificationLink hl hg, by simp [MailedLink.verification]⟩
  | challenge hc hg => exact .inr ⟨.challenge hc hg, by simp [Challenge.secret]⟩

lemma AccountDb.Has.of_resets {t : Table MailedLink}
    (h : ({ db with resets := t } : AccountDb).Has g x) :
    (∃ l ∈ t, g.link l ∧ x = l.reset) ∨ (db.Has g x ∧ x.kind ≠ .resetLink) := by
  cases h with
  | session hb hg => exact .inr ⟨.session hb hg, by simp [sessionSecret]⟩
  | password ha => exact .inr ⟨.password ha, by simp [Account.password]⟩
  | passkey hk => exact .inr ⟨.passkey hk, by simp [Passkey.secret]⟩
  | resetLink hl hg => exact .inl ⟨_, hl, hg, rfl⟩
  | verificationLink hl hg =>
    exact .inr ⟨.verificationLink hl hg, by simp [MailedLink.verification]⟩
  | challenge hc hg => exact .inr ⟨.challenge hc hg, by simp [Challenge.secret]⟩

lemma AccountDb.Has.of_verifications {t : Table MailedLink}
    (h : ({ db with verifications := t } : AccountDb).Has g x) :
    (∃ l ∈ t, g.link l ∧ x = l.verification) ∨ (db.Has g x ∧ x.kind ≠ .verificationLink) := by
  cases h with
  | session hb hg => exact .inr ⟨.session hb hg, by simp [sessionSecret]⟩
  | password ha => exact .inr ⟨.password ha, by simp [Account.password]⟩
  | passkey hk => exact .inr ⟨.passkey hk, by simp [Passkey.secret]⟩
  | resetLink hl hg => exact .inr ⟨.resetLink hl hg, by simp [MailedLink.reset]⟩
  | verificationLink hl hg => exact .inl ⟨_, hl, hg, rfl⟩
  | challenge hc hg => exact .inr ⟨.challenge hc hg, by simp [Challenge.secret]⟩

lemma AccountDb.Has.of_challenges {t : Table Challenge}
    (h : ({ db with challenges := t } : AccountDb).Has g x) :
    (∃ c ∈ t, g.challenge c ∧ x = c.secret) ∨ (db.Has g x ∧ x.kind ≠ .challenge) := by
  cases h with
  | session hb hg => exact .inr ⟨.session hb hg, by simp [sessionSecret]⟩
  | password ha => exact .inr ⟨.password ha, by simp [Account.password]⟩
  | passkey hk => exact .inr ⟨.passkey hk, by simp [Passkey.secret]⟩
  | resetLink hl hg => exact .inr ⟨.resetLink hl hg, by simp [MailedLink.reset]⟩
  | verificationLink hl hg =>
    exact .inr ⟨.verificationLink hl hg, by simp [MailedLink.verification]⟩
  | challenge hc hg => exact .inl ⟨_, hc, hg, rfl⟩

end Tables

/-! ### The log -/

/-- Links and challenges are good for one use. -/
def Secret.OneUse (x : Secret) : Prop :=
  x.kind = .resetLink ∨ x.kind = .verificationLink ∨ x.kind = .challenge

/-- A change of the account's password ends its browser sessions and reset links. -/
def Secret.EndedBy (account : Id) (x : Secret) : Prop :=
  (x.kind = .session ∨ x.kind = .resetLink) ∧ x.account = some account

/-- The secret acts before its expiry, on the account and address that it was issued for, while that
address is the account's (verified, for a reset) and the account is enabled. -/
structure Secret.Fits (x : Secret) (a : Account) (now : Time) : Prop where
  account : x.account.all (fun id => decide (id = a.id)) = true
  address : x.email = none ∨ x.email = a.email
  unexpired : x.expiresAt.all (fun e => decide (now < e)) = true
  enabled : a.disabledAt = none
  verified : x.kind = .resetLink → a.emailVerifiedAt ≠ none

/-- The acts of an installation, read as what they do with secrets. -/
def reading : Reading Act Secret where
  issues act x := act = .issued x
  uses act x := ∃ a now, act = .authorized x a now
  ends act x :=
    (∃ account, act = .passwordChanged account ∧ x.EndedBy account) ∨
      ∃ contents, act = .restored contents ∧ x ∈ contents ∧ x.kind ≠ .challenge
  oneUse := Secret.OneUse

lemma issued_iff {log : List Act} {x : Secret} : reading.Issued log x ↔ .issued x ∈ log := by
  constructor
  · rintro ⟨act, hact, rfl⟩
    exact hact
  · intro h
    exact ⟨_, h, rfl⟩

/-- Uses of live secrets, of which no one-use secret occurs twice. -/
lemma keeps_uses (now : Time) {us : List (Secret × Account)} {log : List Act} {live : Set Secret}
    (h : reading.Keeps log live) (huse : ∀ u ∈ us, u.1 ∈ live)
    (hone : us.Pairwise fun u v => u.1.OneUse → u.1 ≠ v.1) :
    reading.Keeps (log ++ us.map fun u => .authorized u.1 u.2 now)
      {x | x ∈ live ∧ (x.OneUse → ∀ u ∈ us, u.1 ≠ x)} := by
  induction us generalizing log live with
  | nil =>
    rw [List.map_nil, List.append_nil]
    exact h.mono fun x hx => hx.1
  | cons u us ih =>
    rw [List.pairwise_cons] at hone
    have hfirst := h.use (a := .authorized u.1 u.2 now)
      (by
        rintro x ⟨a, t, heq⟩
        obtain ⟨rfl, -, -⟩ := (Act.authorized.injEq ..).mp heq
        exact huse u List.mem_cons_self)
      (by
        rintro x (⟨account, heq, -⟩ | ⟨contents, heq, -⟩) <;> cases heq)
    have hrest := ih hfirst
      (fun v hv => ⟨huse v (List.mem_cons_of_mem _ hv), fun hv1 hu => by
        obtain ⟨a, t, heq⟩ := hu
        obtain ⟨heq, -, -⟩ := (Act.authorized.injEq ..).mp heq
        exact hone.1 v hv (heq ▸ hv1) heq⟩)
      hone.2
    rw [List.append_assoc] at hrest
    refine hrest.mono fun x hx => ⟨⟨hx.1, fun h1 hu => ?_⟩, fun h1 v hv => ?_⟩
    · obtain ⟨a, t, heq⟩ := hu
      obtain ⟨heq, -, -⟩ := (Act.authorized.injEq ..).mp heq
      exact hx.2 h1 u List.mem_cons_self heq
    · exact hx.2 h1 v (List.mem_cons_of_mem _ hv)

lemma keeps_changed (changed : Option Id) {log : List Act} {live : Set Secret}
    (h : reading.Keeps log live) :
    reading.Keeps (log ++ changed.toList.map .passwordChanged)
      {x | x ∈ live ∧ ∀ account ∈ changed, ¬ x.EndedBy account} := by
  cases changed with
  | none =>
    rw [Option.toList_none, List.map_nil, List.append_nil]
    exact h.mono fun x hx => hx.1
  | some account =>
    have hfinish := h.finish (a := .passwordChanged account) (by
      rintro x ⟨a, now, heq⟩
      cases heq)
    refine hfinish.mono fun x hx => ⟨hx.1, ?_⟩
    · rintro (⟨account', heq, hended⟩ | ⟨contents, heq, -⟩)
      · cases heq
        exact hx.2 account rfl hended
      · cases heq

/-- New secrets are issued one after the other. -/
lemma keeps_issues (is : List Secret) {log : List Act} {live : Set Secret}
    (h : reading.Keeps log live) (hnew : ∀ x ∈ is, .issued x ∉ log) (hnodup : is.Nodup) :
    reading.Keeps (log ++ is.map .issued) {x | x ∈ live ∨ x ∈ is} := by
  induction is generalizing log live with
  | nil => simpa using h
  | cons y is ih =>
    rw [List.nodup_cons] at hnodup
    have hfirst := h.issue (a := .issued y)
      (by
        intro x heq hx
        cases heq
        exact hnew _ List.mem_cons_self (issued_iff.1 hx))
      (by
        rintro x ⟨a, now, heq⟩
        cases heq)
      (by
        rintro x (⟨account, heq, -⟩ | ⟨contents, heq, -⟩) <;> cases heq)
    have hrest := ih hfirst
      (by
        intro x hx hlog
        rcases List.mem_append.1 hlog with hold | hlast
        · exact hnew x (List.mem_cons_of_mem _ hx) hold
        · obtain rfl : x = y := by simpa using hlast
          exact hnodup.1 hx)
      hnodup.2
    rw [List.append_assoc] at hrest
    refine hrest.mono fun x hx => ?_
    rcases hx with hlive | hx
    · exact .inl (.inl hlive)
    · rcases List.mem_cons.1 hx with rfl | hx
      · exact .inl (.inr rfl)
      · exact .inr hx

/-! ### What one write leaves -/

/-- After the write nothing is live but what was live, less what is `gone`, and what is `new`. -/
structure Leaves (now : Time) (db db' : AccountDb) (gone new : Secret → Prop) : Prop where
  live : ∀ x, db'.Live now x → (db.Live now x ∧ ¬ gone x) ∨ new x
  holds : ∀ x, db'.Holds x → db.Holds x ∨ new x

namespace Leaves

variable {now : Time} {db db' db'' : AccountDb} {gone gone' new new' : Secret → Prop}

lemma refl : Leaves now db db (fun _ => False) (fun _ => False) :=
  ⟨fun _ h => .inl ⟨h, not_false⟩, fun _ h => .inl h⟩

lemma trans (h : Leaves now db db' gone new) (h' : Leaves now db' db'' gone' new') :
    Leaves now db db'' (fun x => gone x ∨ gone' x) (fun x => new x ∨ new' x) := by
  constructor
  · intro x hx
    rcases h'.live x hx with ⟨hlive, hg'⟩ | hn'
    · rcases h.live x hlive with ⟨hold, hg⟩ | hn
      · exact .inl ⟨hold, fun hor => hor.elim hg hg'⟩
      · exact .inr (.inl hn)
    · exact .inr (.inr hn')
  · intro x hx
    rcases h'.holds x hx with hheld | hn'
    · rcases h.holds x hheld with hold | hn
      · exact .inl hold
      · exact .inr (.inl hn)
    · exact .inr (.inr hn')

lemma mono (h : Leaves now db db' gone new) (hgone : ∀ x, gone' x → gone x)
    (hnew : ∀ x, new x → new' x) : Leaves now db db' gone' new' := by
  constructor
  · intro x hx
    exact (h.live x hx).imp (fun hl => ⟨hl.1, fun hg => hl.2 (hgone x hg)⟩) (hnew x)
  · intro x hx
    exact (h.holds x hx).imp_right (hnew x)

/-- Nothing new, and whatever is gone. -/
lemma nothing (h : Leaves now db db' gone (fun _ => False)) :
    Leaves now db db' (fun _ => False) (· ∈ []) :=
  h.mono (fun _ hf => hf.elim) fun _ hn => hn.elim

/-- One new secret, and whatever is gone. -/
lemma only {x : Secret} (h : Leaves now db db' gone (fun y => y = x)) :
    Leaves now db db' (fun _ => False) (· ∈ [x]) :=
  h.mono (fun _ hf => hf.elim) fun _ hn => List.mem_singleton.2 hn

/-- A write that adds nothing, and then another. -/
lemma andThen (h : Leaves now db db' gone (fun _ => False))
    (h' : Leaves now db' db'' gone' new') :
    Leaves now db db'' (fun x => gone x ∨ gone' x) new' :=
  (h.trans h').mono (fun _ hg => hg) fun _ hn => hn.resolve_left not_false

/-! The writes of one table. -/

lemma coordination {state : CoordinationState} :
    Leaves now db { db with coordinationState := state } (fun _ => False) (fun _ => False) := by
  have hsame : ∀ g x, ({ db with coordinationState := state } : AccountDb).Has g x →
      db.Has g x := by
    intro g x hx
    cases hx with
    | session hb hg => exact .session hb hg
    | password ha => exact .password ha
    | passkey hk => exact .passkey hk
    | resetLink hl hg => exact .resetLink hl hg
    | verificationLink hl hg => exact .verificationLink hl hg
    | challenge hc hg => exact .challenge hc hg
  exact ⟨fun x hx => .inl ⟨hsame _ x hx, not_false⟩, fun x hx => .inl (hsame _ x hx)⟩

lemma sessions {t : Table BrowserSession}
    (hlive : ∀ b ∈ t, b.revokedAt = none →
      (b ∈ db.sessions ∧ ¬ gone (sessionSecret b)) ∨ new (sessionSecret b))
    (hany : ∀ b ∈ t, (∃ b' ∈ db.sessions, sessionSecret b' = sessionSecret b) ∨
      new (sessionSecret b))
    (hgone : ∀ x, gone x → x.kind = .session) :
    Leaves now db { db with sessions := t } gone new := by
  constructor
  · intro x hx
    rcases hx.of_sessions with ⟨b, hb, hg, rfl⟩ | ⟨hold, hk⟩
    · exact (hlive b hb hg).imp_left fun h => ⟨.session h.1 hg, h.2⟩
    · exact .inl ⟨hold, fun hg => hk (hgone x hg)⟩
  · intro x hx
    rcases hx.of_sessions with ⟨b, hb, -, rfl⟩ | ⟨hold, -⟩
    · rcases hany b hb with ⟨b', hb', heq⟩ | hn
      · exact .inl (heq ▸ .session hb' trivial)
      · exact .inr hn
    · exact .inl hold

lemma accounts {t : Table Account}
    (hany : ∀ a ∈ t, (∃ a' ∈ db.accounts, a'.password = a.password) ∨ new a.password) :
    Leaves now db { db with accounts := t } (fun _ => False) new := by
  constructor
  · intro x hx
    rcases hx.of_accounts with ⟨a, ha, rfl⟩ | ⟨hold, -⟩
    · rcases hany a ha with ⟨a', ha', heq⟩ | hn
      · exact .inl ⟨heq ▸ .password ha', not_false⟩
      · exact .inr hn
    · exact .inl ⟨hold, not_false⟩
  · intro x hx
    rcases hx.of_accounts with ⟨a, ha, rfl⟩ | ⟨hold, -⟩
    · rcases hany a ha with ⟨a', ha', heq⟩ | hn
      · exact .inl (heq ▸ .password ha')
      · exact .inr hn
    · exact .inl hold

lemma passkeys {t : Table Passkey}
    (hany : ∀ k ∈ t, (∃ k' ∈ db.passkeys, k'.secret = k.secret) ∨ new k.secret) :
    Leaves now db { db with passkeys := t } (fun _ => False) new := by
  constructor
  · intro x hx
    rcases hx.of_passkeys with ⟨k, hk, rfl⟩ | ⟨hold, -⟩
    · rcases hany k hk with ⟨k', hk', heq⟩ | hn
      · exact .inl ⟨heq ▸ .passkey hk', not_false⟩
      · exact .inr hn
    · exact .inl ⟨hold, not_false⟩
  · intro x hx
    rcases hx.of_passkeys with ⟨k, hk, rfl⟩ | ⟨hold, -⟩
    · rcases hany k hk with ⟨k', hk', heq⟩ | hn
      · exact .inl (heq ▸ .passkey hk')
      · exact .inr hn
    · exact .inl hold

lemma resets {t : Table MailedLink}
    (hlive : ∀ l ∈ t, l.Outstanding now → (l ∈ db.resets ∧ ¬ gone l.reset) ∨ new l.reset)
    (hany : ∀ l ∈ t, (∃ l' ∈ db.resets, l'.reset = l.reset) ∨ new l.reset)
    (hgone : ∀ x, gone x → x.kind = .resetLink) :
    Leaves now db { db with resets := t } gone new := by
  constructor
  · intro x hx
    rcases hx.of_resets with ⟨l, hl, hg, rfl⟩ | ⟨hold, hk⟩
    · exact (hlive l hl hg).imp_left fun h => ⟨.resetLink h.1 hg, h.2⟩
    · exact .inl ⟨hold, fun hg => hk (hgone x hg)⟩
  · intro x hx
    rcases hx.of_resets with ⟨l, hl, -, rfl⟩ | ⟨hold, -⟩
    · rcases hany l hl with ⟨l', hl', heq⟩ | hn
      · exact .inl (heq ▸ .resetLink hl' trivial)
      · exact .inr hn
    · exact .inl hold

lemma verifications {t : Table MailedLink}
    (hlive : ∀ l ∈ t, l.Outstanding now →
      (l ∈ db.verifications ∧ ¬ gone l.verification) ∨ new l.verification)
    (hany : ∀ l ∈ t, (∃ l' ∈ db.verifications, l'.verification = l.verification) ∨
      new l.verification)
    (hgone : ∀ x, gone x → x.kind = .verificationLink) :
    Leaves now db { db with verifications := t } gone new := by
  constructor
  · intro x hx
    rcases hx.of_verifications with ⟨l, hl, hg, rfl⟩ | ⟨hold, hk⟩
    · exact (hlive l hl hg).imp_left fun h => ⟨.verificationLink h.1 hg, h.2⟩
    · exact .inl ⟨hold, fun hg => hk (hgone x hg)⟩
  · intro x hx
    rcases hx.of_verifications with ⟨l, hl, -, rfl⟩ | ⟨hold, -⟩
    · rcases hany l hl with ⟨l', hl', heq⟩ | hn
      · exact .inl (heq ▸ .verificationLink hl' trivial)
      · exact .inr hn
    · exact .inl hold

lemma challenges {t : Table Challenge}
    (hany : ∀ c ∈ t, (c ∈ db.challenges ∧ ¬ gone c.secret) ∨ new c.secret)
    (hgone : ∀ x, gone x → x.kind = .challenge) :
    Leaves now db { db with challenges := t } gone new := by
  constructor
  · intro x hx
    rcases hx.of_challenges with ⟨c, hc, hg, rfl⟩ | ⟨hold, hk⟩
    · exact (hany c hc).imp_left fun h => ⟨.challenge h.1 hg, h.2⟩
    · exact .inl ⟨hold, fun hg => hk (hgone x hg)⟩
  · intro x hx
    rcases hx.of_challenges with ⟨c, hc, -, rfl⟩ | ⟨hold, -⟩
    · exact (hany c hc).imp_left fun h => .challenge h.1 trivial
    · exact .inl hold

end Leaves

/-! ### The writes of the requests -/

section Writes

variable {db db' : AccountDb} {now : Time} {id fresh : Id}

lemma mem_insert {α : Type} [Keyed α Id] {t t' : Table α} {r x : α} (h : t.insert? r = some t')
    (hx : x ∈ t') : x ∈ t ∨ x = r := by
  have hrows := Table.rows_of_insert? h
  have hx' : x ∈ t.rows ++ [r] := hrows ▸ hx
  exact (List.mem_append.1 hx').imp_right List.mem_singleton.1

/-- The sessions of the account are revoked. -/
lemma leaves_signOut :
    Leaves now db (db.signOut now id) (fun x => x.kind = .session ∧ x.account = some id)
      (fun _ => False) := by
  refine .sessions (fun b hb hr => ?_) (fun b hb => ?_) fun x hx => hx.1
  · obtain ⟨b', hb', rfl⟩ := Table.mem_modify.1 hb
    split_ifs at hr ⊢ with hp
    refine .inl ⟨hb', fun hgone => hp ?_⟩
    exact Option.some.inj hgone.2
  · obtain ⟨b', hb', rfl⟩ := Table.mem_modify.1 hb
    refine .inl ⟨b', hb', ?_⟩
    split_ifs <;> rfl

/-- Revoking sessions one by one takes nothing else away. -/
lemma leaves_revoke {p : BrowserSession → Prop} [DecidablePred p]
    {f : BrowserSession → Option Time} :
    Leaves now db
      { db with sessions := db.sessions.modify p fun b =>
        { b with revokedAt := some ((f b).getD now) } }
      (fun _ => False) (fun _ => False) := by
  refine .sessions (fun b hb hr => ?_) (fun b hb => ?_) fun x hx => hx.elim
  · obtain ⟨b', hb', rfl⟩ := Table.mem_modify.1 hb
    split_ifs at hr ⊢ with hp
    exact .inl ⟨hb', not_false⟩
  · obtain ⟨b', hb', rfl⟩ := Table.mem_modify.1 hb
    refine .inl ⟨b', hb', ?_⟩
    split_ifs <;> rfl

lemma leaves_issueBrowserSession
    (h : db.issueBrowserSession id fresh now = .ok db') :
    Leaves now db db' (fun _ => False) (fun x => x = sessionSecret (newSession id fresh now)) := by
  simp only [AccountDb.issueBrowserSession, bind_eq_ok, okOr_eq_ok, pure_eq_ok] at h
  obtain ⟨t, ht, rfl⟩ := h
  have hbound : ∀ b ∈ boundSessions db.sessions id now,
      (b.revokedAt = none → b ∈ db.sessions) ∧
        ∃ b' ∈ db.sessions, sessionSecret b' = sessionSecret b := by
    intro b hb
    unfold boundSessions at hb
    rw [Table.mem_modify] at hb
    obtain ⟨b', hb', rfl⟩ := hb
    have hold := (Table.mem_delete.1 hb').1
    split_ifs with hp
    · exact ⟨fun hr => absurd hr (by simp), b', hold, rfl⟩
    · exact ⟨fun _ => hold, b', hold, rfl⟩
  refine .sessions (fun b hb hr => ?_) (fun b hb => ?_) fun x hx => hx.elim
  · rcases mem_insert ht hb with hold | rfl
    · exact .inl ⟨(hbound b hold).1 hr, not_false⟩
    · exact .inr rfl
  · rcases mem_insert ht hb with hold | rfl
    · exact .inl (hbound b hold).2
    · exact .inr rfl

/-- A rewrite of an account that keeps its password. -/
lemma leaves_setAccount {f : Account → Account} {hf : ∀ a, (f a).id = a.id}
    (hpassword : ∀ a, (f a).passwordHash = a.passwordHash) :
    Leaves now db (db.setAccount id f hf) (fun _ => False) (fun _ => False) := by
  refine .accounts fun a ha => .inl ?_
  obtain ⟨a', ha', rfl⟩ := Table.mem_modify.1 ha
  refine ⟨a', ha', ?_⟩
  split_ifs
  · rw [Account.password, Account.password, hf, hpassword]
  · rfl

/-- A rewrite of an account that sets a new password. -/
lemma leaves_setPassword {f : Account → Account} {hf : ∀ a, (f a).id = a.id}
    (hpassword : ∀ a, (f a).passwordHash.salt = fresh) :
    Leaves now db (db.setAccount id f hf) (fun _ => False)
      (fun x => x = ⟨.password, fresh, some id, none, none⟩) := by
  refine .accounts fun a ha => ?_
  obtain ⟨a', ha', rfl⟩ := Table.mem_modify.1 ha
  split_ifs with hid
  · right
    rw [Account.password, hf, hpassword, hid]
  · exact .inl ⟨a', ha', rfl⟩

/-- A new password, and no session. -/
lemma leaves_newPassword {f : Account → Account} {hf : ∀ a, (f a).id = a.id}
    (hpassword : ∀ a, (f a).passwordHash.salt = fresh) :
    Leaves now db ((db.setAccount id f hf).signOut now id)
      (fun x => x.kind = .session ∧ x.account = some id)
      (fun x => x = ⟨.password, fresh, some id, none, none⟩) :=
  ((leaves_setPassword hpassword).trans leaves_signOut).mono (fun _ hg => .inr hg)
    fun _ hn => hn.resolve_right not_false

/-! Links. -/

lemma outstanding_invalidateLinks {t : Table MailedLink} {l : MailedLink} {now' : Time}
    (h : l ∈ invalidateLinks t now' id) (ho : l.Outstanding now) : l ∈ t ∧ l.principal ≠ id := by
  obtain ⟨l', hl', rfl⟩ := Table.mem_modify.1 h
  split_ifs at ho ⊢ with hp
  · exact absurd ho.2.1 (by simp)
  · exact ⟨hl', fun hid => hp ⟨hid, ho.1, ho.2.1⟩⟩

lemma origin_invalidateLinks {t : Table MailedLink} {l : MailedLink} {now' : Time}
    (h : l ∈ invalidateLinks t now' id) :
    ∃ l' ∈ t, l'.reset = l.reset ∧ l'.verification = l.verification := by
  obtain ⟨l', hl', rfl⟩ := Table.mem_modify.1 h
  refine ⟨l', hl', ?_⟩
  split_ifs <;> exact ⟨rfl, rfl⟩

lemma outstanding_consumeLink {t : Table MailedLink} {l used : MailedLink} {now' : Time}
    (h : l ∈ consumeLink t now' used) (ho : l.Outstanding now) :
    l ∈ t ∧ l.principal ≠ used.principal := by
  obtain ⟨hmem, hp⟩ := outstanding_invalidateLinks h ho
  obtain ⟨l', hl', rfl⟩ := Table.mem_modify.1 hmem
  split_ifs at ho hp ⊢
  · exact absurd ho.1 (by simp)
  · exact ⟨hl', hp⟩

lemma origin_consumeLink {t : Table MailedLink} {l used : MailedLink} {now' : Time}
    (h : l ∈ consumeLink t now' used) :
    ∃ l' ∈ t, l'.reset = l.reset ∧ l'.verification = l.verification := by
  obtain ⟨l₁, hl₁, hr, hv⟩ := origin_invalidateLinks h
  obtain ⟨l₀, hl₀, rfl⟩ := Table.mem_modify.1 hl₁
  refine ⟨l₀, hl₀, ?_⟩
  rw [← hr, ← hv]
  split_ifs <;> exact ⟨rfl, rfl⟩

lemma leaves_issueVerification {email : String}
    (h : db.issueVerification id fresh email now = .ok db') :
    Leaves now db db' (fun _ => False)
      (fun x => x = (newLink fresh id email now verificationTtlMs).verification) := by
  simp only [AccountDb.issueVerification, bind_eq_ok, okOr_eq_ok, pure_eq_ok] at h
  obtain ⟨t, ht, rfl⟩ := h
  refine .verifications (fun l hl ho => ?_) (fun l hl => ?_) fun x hx => hx.elim
  · rcases mem_insert ht hl with hold | rfl
    · exact .inl ⟨(outstanding_invalidateLinks hold ho).1, not_false⟩
    · exact .inr rfl
  · rcases mem_insert ht hl with hold | rfl
    · obtain ⟨l', hl', -, hv⟩ := origin_invalidateLinks hold
      exact .inl ⟨l', hl', hv⟩
    · exact .inr rfl

lemma leaves_consumeVerification {l : MailedLink} :
    Leaves now db { db with verifications := consumeLink db.verifications now l }
      (fun x => x = l.verification) (fun _ => False) := by
  refine .verifications (fun l' hl' ho => .inl ?_) (fun l' hl' => .inl ?_) ?_
  · obtain ⟨hmem, hp⟩ := outstanding_consumeLink hl' ho
    refine ⟨hmem, fun heq => hp ?_⟩
    exact Option.some.inj (congrArg Secret.account heq)
  · obtain ⟨l₀, hl₀, -, hv⟩ := origin_consumeLink hl'
    exact ⟨l₀, hl₀, hv⟩
  · rintro x rfl
    rfl

lemma leaves_consumeReset {l : MailedLink} :
    Leaves now db { db with resets := consumeLink db.resets now l }
      (fun x => x.kind = .resetLink ∧ x.account = some l.principal) (fun _ => False) := by
  refine .resets (fun l' hl' ho => .inl ?_) (fun l' hl' => .inl ?_) fun x hx => hx.1
  · obtain ⟨hmem, hp⟩ := outstanding_consumeLink hl' ho
    exact ⟨hmem, fun hgone => hp (Option.some.inj hgone.2)⟩
  · obtain ⟨l₀, hl₀, hr, -⟩ := origin_consumeLink hl'
    exact ⟨l₀, hl₀, hr⟩

/-! Challenges and passkeys. -/

lemma leaves_issueChallenge {purpose : Purpose} {keep : Nat}
    (h : db.issueChallenge now fresh purpose keep = .ok db') :
    Leaves now db db' (fun _ => False) (fun x => x = (newChallenge fresh purpose now).secret) := by
  simp only [AccountDb.issueChallenge, bind_eq_ok, okOr_eq_ok, pure_eq_ok] at h
  obtain ⟨t, ht, rfl⟩ := h
  refine .challenges (fun c hc => ?_) fun x hx => hx.elim
  rcases mem_insert ht hc with hold | rfl
  · have hunexpired := (Table.mem_delete.1 hold).1
    exact .inl ⟨(Table.mem_delete.1 hunexpired).1, not_false⟩
  · exact .inr rfl

/-- A challenge that is taken is gone. -/
lemma leaves_takeChallenge {c : Challenge} {purpose : Purpose}
    (h : (db.takeChallenge id purpose now).2 = some c) :
    c ∈ db.challenges ∧ c.purpose = purpose ∧ now < c.expiresAt ∧
      Leaves now db (db.takeChallenge id purpose now).1 (fun x => x = c.secret)
        (fun _ => False) := by
  obtain ⟨hc, hpurpose, hlt⟩ : db.challenges.get? id = some c ∧ c.purpose = purpose ∧
      now < c.expiresAt := by
    simpa [AccountDb.takeChallenge, Option.filter_eq_some_iff] using h
  refine ⟨Table.mem_of_get? hc, hpurpose, hlt, .challenges (fun c' hc' => .inl ?_) ?_⟩
  · obtain ⟨hmem, hne⟩ := Table.mem_delete.1 hc'
    refine ⟨hmem, fun heq => hne ?_⟩
    have hid : c'.id = c.id := congrArg Secret.id heq
    have hkey : c.id = id := Table.key_of_get? hc
    obtain rfl := Table.eq_of_get? hc hmem (hid.trans hkey)
    exact ⟨hkey, hpurpose⟩
  · rintro x rfl
    rfl

/-- Taking a challenge adds nothing. -/
lemma leaves_takeChallenge_any {purpose : Purpose} :
    Leaves now db (db.takeChallenge id purpose now).1 (fun _ => False) (fun _ => False) :=
  .challenges (fun _ hc => .inl ⟨(Table.mem_delete.1 hc).1, not_false⟩) fun _ hx => hx.elim

end Writes

/-! ### What a request does -/

/-- An answer, read as a piece of the log. -/
structure Serves (db : AccountDb) (now : Time) (fresh : Id) (db' : AccountDb) (acts : List Act) :
    Prop where
  keeps : ∀ log, reading.Keeps log {x | db.Live now x} → (∀ x, .issued x ∈ log → x.id < fresh) →
    reading.Keeps (log ++ acts) {x | db'.Live now x}
  holds : ∀ x, db'.Holds x → db.Holds x ∨ .issued x ∈ acts
  fresh : ∀ x, .issued x ∈ acts → fresh ≤ x.id ∧ x.id < fresh + maxAccountsPerAddress
  fits : ∀ x a t, .authorized x a t ∈ acts → x.OneUse → x.Fits a t
  unrestored : ∀ contents, .restored contents ∉ acts

/-- A request that uses live secrets, may change a password, and issues new secrets. -/
theorem serves_of {db db' : AccountDb} {now : Time} {fresh : Id} (us : List (Secret × Account))
    (changed : Option Id) (is : List Secret) {gone : Secret → Prop}
    (huse : ∀ u ∈ us, db.Live now u.1) (hone : us.Pairwise fun u v => u.1.OneUse → u.1 ≠ v.1)
    (hfits : ∀ u ∈ us, u.1.OneUse → u.1.Fits u.2 now) (hnodup : is.Nodup)
    (hfresh : ∀ x ∈ is, fresh ≤ x.id ∧ x.id < fresh + maxAccountsPerAddress)
    (hleaves : Leaves now db db' gone (· ∈ is))
    (hgone : ∀ x, db.Live now x →
      ((x.OneUse ∧ ∃ u ∈ us, u.1 = x) ∨ ∃ account ∈ changed, x.EndedBy account) → gone x) :
    Serves db now fresh db'
      (us.map (fun u => .authorized u.1 u.2 now) ++
        (changed.toList.map .passwordChanged ++ is.map .issued)) := by
  constructor
  · intro log hlog hold
    have hkeeps := keeps_issues is (keeps_changed changed (keeps_uses now hlog huse hone))
      (by
        intro x hx hmem
        rcases List.mem_append.1 hmem with hmem | hmem
        · rcases List.mem_append.1 hmem with hmem | hmem
          · exact absurd (hold x hmem) (Nat.not_lt.2 (hfresh x hx).1)
          · simp at hmem
        · simp at hmem)
      hnodup
    rw [List.append_assoc, List.append_assoc] at hkeeps
    refine hkeeps.mono fun x hx => ?_
    rcases hleaves.live x hx with ⟨hlive, hng⟩ | hnew
    · refine .inl ⟨⟨hlive, fun h1 u hu heq => hng ?_⟩, fun account hacc hended => hng ?_⟩
      · exact hgone x hlive (.inl ⟨h1, u, hu, heq⟩)
      · exact hgone x hlive (.inr ⟨account, hacc, hended⟩)
    · exact .inr hnew
  · intro x hx
    refine (hleaves.holds x hx).imp_right fun hnew => ?_
    exact List.mem_append_right _ (List.mem_append_right _ (List.mem_map_of_mem hnew))
  · intro x hx
    refine hfresh x ?_
    simpa using hx
  · intro x a t hx h1
    obtain ⟨u, hu, rfl, rfl, rfl⟩ : ∃ u ∈ us, u.1 = x ∧ u.2 = a ∧ now = t := by
      simpa using hx
    exact hfits u hu h1
  · intro contents hx
    simp at hx

section Requests

variable {db : AccountDb} {h : Host} {sample : ClockSample} {session fresh : Id}

/-- A browser session that authenticates is live, and so is its account's password. -/
lemma verify_ok {now : Time} {b : BrowserSession} {a : Account}
    (hv : db.verify now session = .ok (b, a)) :
    db.Live now (sessionSecret b) ∧ db.accounts.get? b.principal = some a ∧ a.id = b.principal ∧
      a.disabledAt = none := by
  simp only [AccountDb.verify, bind_eq_ok, okOr_eq_ok, refuseIf_eq_ok, pure_eq_ok,
    Prod.mk.injEq] at hv
  obtain ⟨b', hb, a', ha, _, hok, rfl, rfl⟩ := hv
  rw [not_or, not_or, not_not, not_not] at hok
  exact ⟨.session (Table.mem_of_get? hb) hok.1, ha, Table.key_of_get? ha, hok.2.2⟩

lemma begin_ok {op : Operation} {b : BrowserSession} {a : Account}
    (hb : db.begin sample session op = .ok (b, a)) :
    db.verify sample.now session = .ok (b, a) := by
  simp only [AccountDb.begin, bind_eq_ok, refuseIf_eq_ok, pure_eq_ok] at hb
  obtain ⟨_, -, caller, hv, _, -, _, -, rfl⟩ := hb
  exact hv

/-- A request that only writes what takes no secret away. -/
lemma serves_session {db' : AccountDb} {now : Time} {b : BrowserSession} {a : Account}
    {is : List Secret} (hv : db.verify now session = .ok (b, a)) (hnodup : is.Nodup)
    (hfresh : ∀ x ∈ is, fresh ≤ x.id ∧ x.id < fresh + maxAccountsPerAddress)
    (hleaves : Leaves now db db' (fun _ => False) (· ∈ is)) :
    Serves db now fresh db' (.authorized (sessionSecret b) a now :: is.map .issued) := by
  have hnot : ¬ (sessionSecret b).OneUse := by simp [Secret.OneUse, sessionSecret]
  refine serves_of [(sessionSecret b, a)] none is ?_ (List.pairwise_singleton _ _) ?_ hnodup hfresh
    hleaves ?_
  · intro u hu
    rw [List.mem_singleton.1 hu]
    exact (verify_ok hv).1
  · intro u hu h1
    rw [List.mem_singleton.1 hu] at h1
    exact absurd h1 hnot
  · rintro x - (⟨h1, u, hu, rfl⟩ | ⟨account, hacc, -⟩)
    · rw [List.mem_singleton.1 hu] at h1
      exact hnot h1
    · cases hacc

/-- Secrets issued by one request, of which none is named twice. -/
lemma nodup_pair {x y : Secret} (hk : x.kind ≠ y.kind) : [x, y].Nodup := by
  refine List.nodup_cons.2 ⟨fun hmem => hk ?_, List.nodup_singleton _⟩
  rw [List.mem_singleton.1 hmem]

/-- The bounds of a single draw. -/
lemma fresh_bounds {x : Secret} (hx : x.id = fresh) :
    fresh ≤ x.id ∧ x.id < fresh + maxAccountsPerAddress := by
  rw [hx]
  exact ⟨Nat.le_refl _, Nat.lt_add_of_pos_right (by decide)⟩

/-! Requests of a session that issue nothing. -/

lemma serves_authenticated {r : AccountDb × List Act}
    (hr : db.authenticated sample session = .ok r) : Serves db sample.now fresh r.1 r.2 := by
  simp only [AccountDb.authenticated, bind_eq_ok, pure_eq_ok] at hr
  obtain ⟨⟨b, a⟩, hv, rfl⟩ := hr
  exact serves_session hv List.nodup_nil (by simp) Leaves.refl.nothing

lemma serves_logout {r : AccountDb × List Act} (hr : db.logout sample session = .ok r) :
    Serves db sample.now fresh r.1 r.2 := by
  simp only [AccountDb.logout, bind_eq_ok, pure_eq_ok] at hr
  obtain ⟨⟨b, a⟩, hb, rfl⟩ := hr
  exact serves_session (begin_ok hb) List.nodup_nil (by simp)
    (leaves_revoke (f := fun _ => none)).nothing

lemma serves_revokeBrowserSession {target : Id} {r : AccountDb × List Act}
    (hr : db.revokeBrowserSession sample session target = .ok r) :
    Serves db sample.now fresh r.1 r.2 := by
  simp only [AccountDb.revokeBrowserSession, bind_eq_ok, okOr_eq_ok, pure_eq_ok] at hr
  obtain ⟨⟨b, a⟩, hb, t, -, _, -, rfl⟩ := hr
  exact serves_session (begin_ok hb) List.nodup_nil (by simp)
    (leaves_revoke (f := fun c => c.revokedAt)).nothing

lemma serves_deletePasskey {id : Id} {r : AccountDb × List Act}
    (hr : db.deletePasskey sample session id = .ok r) : Serves db sample.now fresh r.1 r.2 := by
  simp only [AccountDb.deletePasskey, bind_eq_ok, refuseIf_eq_ok, pure_eq_ok] at hr
  obtain ⟨⟨b, a⟩, hb, _, -, rfl⟩ := hr
  refine serves_session (begin_ok hb) List.nodup_nil (by simp) (.passkeys fun k hk => .inl ?_)
  exact ⟨k, (Table.mem_delete.1 hk).1, rfl⟩

lemma serves_finishRestore {r : AccountDb × List Act}
    (hr : db.finishRestore sample session = .ok r) : Serves db sample.now fresh r.1 r.2 := by
  simp only [AccountDb.finishRestore, bind_eq_ok, refuseIf_eq_ok, pure_eq_ok] at hr
  obtain ⟨⟨b, a⟩, hb, _, -, _, -, rfl⟩ := hr
  exact serves_session (begin_ok hb) List.nodup_nil (by simp) Leaves.coordination.nothing

lemma serves_updateOperatorAccess {id : Id} {revision : Int} {role : Role} {enabled : Bool}
    {r : AccountDb × List Act}
    (hr : db.updateOperatorAccess sample session id revision role enabled = .ok r) :
    Serves db sample.now fresh r.1 r.2 := by
  simp only [AccountDb.updateOperatorAccess, bind_eq_ok, okOr_eq_ok, refuseIf_eq_ok] at hr
  obtain ⟨_, -, _, -, ⟨b, a⟩, hb, _, -, current, -, _, -, _, -, hr⟩ := hr
  rcases ite_eq_ok.1 hr with ⟨-, hr⟩ | ⟨-, hr⟩ <;> obtain rfl := pure_eq_ok.1 hr
  · refine serves_session (begin_ok hb) List.nodup_nil (by simp)
      (Leaves.nothing (Leaves.andThen (leaves_setAccount ?_) leaves_signOut))
    exact fun _ => rfl
  · exact serves_session (begin_ok hb) List.nodup_nil (by simp) Leaves.refl.nothing

/-! Requests of a session that issue a challenge or a link. -/

lemma serves_registrationOptions {r : AccountDb × List Act}
    (hr : db.registrationOptions sample session fresh = .ok r) :
    Serves db sample.now fresh r.1 r.2 := by
  simp only [AccountDb.registrationOptions, bind_eq_ok, refuseIf_eq_ok, pure_eq_ok] at hr
  obtain ⟨_, -, ⟨b, a⟩, hv, _, -, db', hissue, rfl⟩ := hr
  refine serves_session hv (List.nodup_singleton _) ?_
    (leaves_issueChallenge hissue).only
  intro x hx
  rw [List.mem_singleton.1 hx]
  exact fresh_bounds rfl

lemma serves_setEmail {revision : Int} {text : String} {r : AccountDb × List Act}
    (hr : db.setEmail h sample session fresh revision text = .ok r) :
    Serves db sample.now fresh r.1 r.2 := by
  simp only [AccountDb.setEmail, bind_eq_ok, refuseIf_eq_ok, pure_eq_ok] at hr
  obtain ⟨_, -, email, -, ⟨b, a⟩, hb, _, -, _, -, db', hissue, rfl⟩ := hr
  refine serves_session (begin_ok hb) (List.nodup_singleton _) ?_ (Leaves.only
    (Leaves.andThen (leaves_setAccount ?_) (leaves_issueVerification hissue)))
  · intro x hx
    rw [List.mem_singleton.1 hx]
    exact fresh_bounds rfl
  · exact fun _ => rfl

lemma serves_resendVerification {r : AccountDb × List Act}
    (hr : db.resendVerification sample session fresh = .ok r) :
    Serves db sample.now fresh r.1 r.2 := by
  simp only [AccountDb.resendVerification, bind_eq_ok, okOr_eq_ok, refuseIf_eq_ok,
    pure_eq_ok] at hr
  obtain ⟨⟨b, a⟩, hb, email, -, _, -, _, -, db', hissue, rfl⟩ := hr
  refine serves_session (begin_ok hb) (List.nodup_singleton _) ?_
    (leaves_issueVerification hissue).only
  intro x hx
  rw [List.mem_singleton.1 hx]
  exact fresh_bounds rfl

lemma serves_createOperator {name text password : String} {role : Role} {r : AccountDb × List Act}
    (hr : db.createOperator h sample session fresh name role text password = .ok r) :
    Serves db sample.now fresh r.1 r.2 := by
  simp only [AccountDb.createOperator, bind_eq_ok, okOr_eq_ok, refuseIf_eq_ok, pure_eq_ok] at hr
  obtain ⟨_, -, _, -, _, -, email, -, ⟨b, a⟩, hb, _, -, _, -, t, ht, db', hissue, rfl⟩ := hr
  refine serves_session (begin_ok hb) (nodup_pair ?_) ?_ ?_
  · simp [Account.password, MailedLink.verification]
  · intro x hx
    rcases List.mem_cons.1 hx with rfl | hx
    · exact fresh_bounds rfl
    · rw [List.mem_singleton.1 hx]
      exact fresh_bounds rfl
  · have haccounts : Leaves sample.now db { db with accounts := t } (fun _ => False)
        (fun x => x = (newAccount fresh name role (h.hashPassword password fresh)
          (some email)).password) := by
      refine .accounts fun x hx => ?_
      rcases mem_insert ht hx with hold | rfl
      · exact .inl ⟨x, hold, rfl⟩
      · exact .inr rfl
    refine (haccounts.trans (leaves_issueVerification hissue)).mono (fun _ hf => hf.elim) ?_
    rintro x (rfl | rfl)
    · exact List.mem_cons_self
    · exact List.mem_cons_of_mem _ List.mem_cons_self

/-! Requests without a caller. -/

/-- A request that uses no secret. -/
lemma serves_issue {db' : AccountDb} {now : Time} (is : List Secret) (hnodup : is.Nodup)
    (hfresh : ∀ x ∈ is, fresh ≤ x.id ∧ x.id < fresh + maxAccountsPerAddress)
    (hleaves : Leaves now db db' (fun _ => False) (· ∈ is)) :
    Serves db now fresh db' (is.map .issued) := by
  refine serves_of [] none is (by simp) List.Pairwise.nil (by simp) hnodup hfresh hleaves ?_
  rintro x - (⟨-, u, hu, -⟩ | ⟨account, hacc, -⟩)
  · cases hu
  · cases hacc

/-- A request that commits nothing. -/
lemma serves_nothing {now : Time} : Serves db now fresh db [] :=
  serves_issue [] List.nodup_nil (by simp) Leaves.refl.nothing

lemma serves_initAdmin {username password : String} {r : AccountDb × List Act}
    (hr : db.initAdmin h sample fresh username password = .ok r) :
    Serves db sample.now fresh r.1 r.2 := by
  simp only [AccountDb.initAdmin, bind_eq_ok, okOr_eq_ok, refuseIf_eq_ok, pure_eq_ok] at hr
  obtain ⟨_, -, _, -, _, -, _, -, t, ht, rfl⟩ := hr
  refine serves_issue [_] (List.nodup_singleton _) ?_ (.accounts fun x hx => ?_)
  · intro x hx
    rw [List.mem_singleton.1 hx]
    exact fresh_bounds rfl
  · rcases mem_insert ht hx with hold | rfl
    · exact .inl ⟨x, hold, rfl⟩
    · exact .inr (List.mem_singleton_self _)

lemma serves_signInOptions {r : AccountDb × List Act}
    (hr : db.signInOptions sample fresh = .ok r) : Serves db sample.now fresh r.1 r.2 := by
  simp only [AccountDb.signInOptions, bind_eq_ok, pure_eq_ok] at hr
  obtain ⟨_, -, db', hissue, rfl⟩ := hr
  refine serves_issue [_] (List.nodup_singleton _) ?_
    (leaves_issueChallenge hissue).only
  intro x hx
  rw [List.mem_singleton.1 hx]
  exact fresh_bounds rfl

/-! Links. -/

lemma usableVerification_ok {now : Time} {link : Id} {l : MailedLink} {a : Account}
    (hu : db.usableVerification link now = some (l, a)) :
    db.Live now l.verification ∧ l.verification.Fits a now := by
  simp only [AccountDb.usableVerification, Option.bind_eq_bind, Option.bind_eq_some_iff,
    Option.filter_eq_some_iff, decide_eq_true_eq, Option.pure_def, Option.some.injEq,
    Prod.mk.injEq] at hu
  obtain ⟨l, ⟨hl, hout⟩, a, ⟨ha, henabled, hemail, -⟩, rfl, rfl⟩ := hu
  refine ⟨.verificationLink (Table.mem_of_get? hl) hout, ?_, .inr hemail.symm, ?_, henabled, ?_⟩
  · exact decide_eq_true (Table.key_of_get? ha).symm
  · exact decide_eq_true hout.2.2
  · intro hk
    cases hk

lemma usableReset_ok {now : Time} {link : Id} {l : MailedLink} {a : Account}
    (hu : db.usableReset link now = some (l, a)) :
    db.Live now l.reset ∧ l.reset.Fits a now ∧ a.id = l.principal := by
  simp only [AccountDb.usableReset, Option.bind_eq_bind, Option.bind_eq_some_iff,
    Option.filter_eq_some_iff, decide_eq_true_eq, Option.pure_def, Option.some.injEq,
    Prod.mk.injEq] at hu
  obtain ⟨l, ⟨hl, hout⟩, a, ⟨ha, henabled, hemail, hverified⟩, rfl, rfl⟩ := hu
  have hid : a.id = l.principal := Table.key_of_get? ha
  refine ⟨.resetLink (Table.mem_of_get? hl) hout, ⟨?_, .inr hemail.symm, ?_, henabled, ?_⟩, hid⟩
  · exact decide_eq_true hid.symm
  · exact decide_eq_true hout.2.2
  · exact fun _ => hverified

lemma serves_verifyEmail {link : Id} {r : AccountDb × List Act}
    (hr : db.verifyEmail sample link = .ok r) : Serves db sample.now fresh r.1 r.2 := by
  simp only [AccountDb.verifyEmail, bind_eq_ok] at hr
  obtain ⟨_, -, hr⟩ := hr
  cases hu : db.usableVerification link sample.now with
  | none =>
    rw [hu] at hr
    obtain rfl := pure_eq_ok.1 hr
    exact serves_nothing
  | some la =>
    obtain ⟨l, a⟩ := la
    rw [hu] at hr
    obtain rfl := pure_eq_ok.1 hr
    obtain ⟨hlive, hfits⟩ := usableVerification_ok hu
    refine serves_of [(l.verification, a)] none [] ?_ (List.pairwise_singleton _ _) ?_
      List.nodup_nil (by simp)
      ((leaves_consumeVerification (l := l)).andThen
        (leaves_setAccount (f := fun a => { a with
          emailVerifiedAt := some sample.now, revision := a.revision + 1 }) ?_) |>.mono
          (fun x hx => .inl hx) fun _ hn => hn.elim) ?_
    · intro u hu'
      rw [List.mem_singleton.1 hu']
      exact hlive
    · intro u hu' _
      rw [List.mem_singleton.1 hu']
      exact hfits
    · exact fun _ => rfl
    · rintro x - (⟨-, u, hu', rfl⟩ | ⟨account, hacc, -⟩)
      · rw [List.mem_singleton.1 hu']
      · cases hacc

/-- One account's turn issues at most one link. -/
lemma issueReset_ok {now : Time} {a : Account} {r : AccountDb × List Act}
    (hr : db.issueReset now fresh a = .ok r) :
    ∃ is : List Secret, r.2 = is.map .issued ∧ is.Nodup ∧ (∀ x ∈ is, x.id = fresh) ∧
      Leaves now db r.1 (fun _ => False) (· ∈ is) := by
  rcases ite_eq_ok.1 hr with ⟨-, hr⟩ | ⟨-, hr⟩
  · obtain rfl := pure_eq_ok.1 hr
    exact ⟨[], rfl, List.nodup_nil, by simp, Leaves.refl.nothing⟩
  · simp only [bind_eq_ok, okOr_eq_ok, pure_eq_ok] at hr
    obtain ⟨t, ht, rfl⟩ := hr
    refine ⟨[(newLink fresh a.id (a.email.getD "") now resetTtlMs).reset], rfl,
      List.nodup_singleton _, ?_, .resets (fun l hl ho => ?_) (fun l hl => ?_)
        fun x hx => hx.elim⟩
    · intro x hx
      rw [List.mem_singleton.1 hx]
      rfl
    · rcases mem_insert ht hl with hold | rfl
      · exact .inl ⟨(outstanding_invalidateLinks hold ho).1, not_false⟩
      · exact .inr (List.mem_singleton_self _)
    · rcases mem_insert ht hl with hold | rfl
      · obtain ⟨l', hl', hr', -⟩ := origin_invalidateLinks hold
        exact .inl ⟨l', hl', hr'⟩
      · exact .inr (List.mem_singleton_self _)

/-- The loop issues one link an account at most, each under its own draw. -/
lemma issueResets_ok {now : Time} {as : List Account} {r : AccountDb × List Act}
    (hr : AccountDb.issueResets now as fresh db = .ok r) :
    ∃ is : List Secret, r.2 = is.map .issued ∧ is.Nodup ∧
      (∀ x ∈ is, fresh ≤ x.id ∧ x.id < fresh + as.length) ∧
      Leaves now db r.1 (fun _ => False) (· ∈ is) := by
  induction as generalizing fresh db r with
  | nil =>
    obtain rfl := pure_eq_ok.1 hr
    exact ⟨[], rfl, List.nodup_nil, by simp, Leaves.refl.nothing⟩
  | cons a as ih =>
    simp only [AccountDb.issueResets, bind_eq_ok, pure_eq_ok] at hr
    obtain ⟨⟨db₁, acts⟩, hfirst, ⟨db₂, more⟩, hrest, rfl⟩ := hr
    obtain ⟨is, hacts, hnodup, hid, hleaves⟩ := issueReset_ok hfirst
    obtain ⟨is', hmore, hnodup', hid', hleaves'⟩ := ih hrest
    refine ⟨is ++ is', ?_, ?_, ?_, (hleaves.trans hleaves').mono (fun _ hf => hf.elim) ?_⟩
    · rw [List.map_append]
      exact congrArg₂ _ hacts hmore
    · refine List.nodup_append.2 ⟨hnodup, hnodup', fun x hx y hy heq => ?_⟩
      have hx' := hid x hx
      have hy' := hid' y hy
      rw [← heq, hx'] at hy'
      exact Nat.not_succ_le_self fresh hy'.1
    · intro x hx
      rw [List.length_cons]
      rcases List.mem_append.1 hx with hx | hx
      · rw [hid x hx]
        exact ⟨Nat.le_refl _, Nat.lt_add_of_pos_right (Nat.succ_pos _)⟩
      · obtain ⟨hlow, hhigh⟩ := hid' x hx
        rw [Nat.add_comm as.length 1, ← Nat.add_assoc]
        exact ⟨Nat.le_of_succ_le hlow, hhigh⟩
    · rintro x (hx | hx)
      · exact List.mem_append_left _ hx
      · exact List.mem_append_right _ hx

lemma serves_requestReset {text : String} {r : AccountDb × List Act}
    (hr : db.requestReset h sample fresh text = .ok r) : Serves db sample.now fresh r.1 r.2 := by
  simp only [AccountDb.requestReset, bind_eq_ok] at hr
  obtain ⟨email, -, _, -, hr⟩ := hr
  obtain ⟨is, hacts, hnodup, hid, hleaves⟩ := issueResets_ok hr
  rw [hacts]
  refine serves_issue _ hnodup (fun x hx => ⟨(hid x hx).1, ?_⟩) hleaves
  have hlength : (db.recoverable email).length ≤ maxAccountsPerAddress := List.length_take_le _ _
  exact Nat.lt_of_lt_of_le (hid x hx).2 (Nat.add_le_add_left hlength _)

/-! Sign-in. -/

lemma serves_login {account : Id} {hash : PasswordHash} {r : AccountDb × List Act}
    (hr : db.login sample fresh account hash = .ok r) : Serves db sample.now fresh r.1 r.2 := by
  simp only [AccountDb.login, bind_eq_ok, okOr_eq_ok, refuseIf_eq_ok, pure_eq_ok] at hr
  obtain ⟨_, -, a, ha, _, -, db', hissue, rfl⟩ := hr
  have hnot : ¬ a.password.OneUse := by simp [Secret.OneUse, Account.password]
  refine serves_of [(a.password, a)] none [_] ?_ (List.pairwise_singleton _ _) ?_
    (List.nodup_singleton _) ?_ (leaves_issueBrowserSession hissue).only ?_
  · intro u hu
    rw [List.mem_singleton.1 hu]
    exact .password (Table.mem_of_get? ha)
  · intro u hu h1
    rw [List.mem_singleton.1 hu] at h1
    exact absurd h1 hnot
  · intro x hx
    rw [List.mem_singleton.1 hx]
    exact fresh_bounds rfl
  · rintro x - (⟨h1, u, hu, rfl⟩ | ⟨account, hacc, -⟩)
    · rw [List.mem_singleton.1 hu] at h1
      exact hnot h1
    · cases hacc

/-- A ceremony uses another secret that is not for one use, and its challenge up. -/
lemma serves_ceremony {db' : AccountDb} {now : Time} {c : Challenge} {a : Account} {x y : Secret}
    (hc : c ∈ db.challenges) (hlt : now < c.expiresAt) (hx : db.Live now x) (hx1 : ¬ x.OneUse)
    (hfits : c.secret.Fits a now) (hy : y.id = fresh)
    (hleaves : Leaves now db db' (fun z => z = c.secret) (fun z => z = y)) :
    Serves db now fresh db'
      [.authorized x a now, .authorized c.secret a now, .issued y] := by
  refine serves_of [(x, a), (c.secret, a)] none [y] ?_ ?_ ?_ (List.nodup_singleton _) ?_
    (hleaves.mono (fun _ hg => hg) fun _ hn => List.mem_singleton.2 hn) ?_
  · intro u hu
    rcases List.mem_pair.1 hu with rfl | rfl
    · exact hx
    · exact .challenge hc hlt
  · exact List.pairwise_pair.2 fun h1 => absurd h1 hx1
  · intro u hu h1
    rcases List.mem_pair.1 hu with rfl | rfl
    · exact absurd h1 hx1
    · exact hfits
  · intro z hz
    rw [List.mem_singleton.1 hz]
    exact fresh_bounds hy
  · rintro z - (⟨h1, u, hu, rfl⟩ | ⟨account, hacc, -⟩)
    · rcases List.mem_pair.1 hu with rfl | rfl
      · exact absurd h1 hx1
      · rfl
    · cases hacc

lemma serves_registerPasskey {input : RegistrationInput} {r : AccountDb × List Act}
    (hr : db.registerPasskey h sample session fresh input = .ok r) :
    Serves db sample.now fresh r.1 r.2 := by
  simp only [AccountDb.registerPasskey, bind_eq_ok, okOr_eq_ok, refuseIf_eq_ok, pure_eq_ok] at hr
  obtain ⟨⟨b, a⟩, hb, c, htaken, client, -, data, -, ⟨credentialId, publicKey⟩, -, _, -, _, -, _, -,
    t, ht, rfl⟩ := hr
  obtain ⟨hc, hpurpose, hlt, hleaves⟩ := leaves_takeChallenge htaken
  obtain ⟨hlive, -, -, henabled⟩ := verify_ok (begin_ok hb)
  refine serves_ceremony (y := ⟨.passkey, fresh, some a.id, none, none⟩) hc hlt hlive
    (by simp [Secret.OneUse, sessionSecret]) ⟨?_, .inl rfl, decide_eq_true hlt, henabled, ?_⟩ rfl
    (hleaves.andThen (Leaves.passkeys fun k hk => ?_) |>.mono (fun _ hg => .inl hg)
      fun _ hn => hn)
  · change c.purpose.principal.all _ = true
    rw [hpurpose]
    exact decide_eq_true rfl
  · intro hk
    cases hk
  · rcases mem_insert ht hk with hold | rfl
    · exact .inl ⟨k, hold, rfl⟩
    · exact .inr rfl

lemma verifyAssertion_ok {input : SignInInput} {c : Challenge} {k : Passkey} {a : Account}
    {counter : Nat} (hv : db.verifyAssertion h input c = some (k, a, counter)) :
    k ∈ db.passkeys ∧ a.disabledAt = none := by
  simp only [AccountDb.verifyAssertion, Option.bind_eq_bind, Option.bind_eq_some_iff,
    Option.filter_eq_some_iff, decide_eq_true_eq] at hv
  obtain ⟨client, -, data, -, k', hk, a', ⟨-, henabled⟩, hrest⟩ := hv
  split_ifs at hrest with hok
  cases hrest
  exact ⟨List.mem_of_find?_eq_some hk, henabled⟩

lemma serves_signIn {input : SignInInput} {r : AccountDb × List Act}
    (hr : db.signIn h sample fresh input = .ok r) : Serves db sample.now fresh r.1 r.2 := by
  simp only [AccountDb.signIn, bind_eq_ok] at hr
  obtain ⟨_, -, hr⟩ := hr
  cases hv : (db.takeChallenge input.challenge .signIn sample.now).2.bind fun c =>
      ((db.takeChallenge input.challenge .signIn sample.now).1.verifyAssertion h input c).map
        (c, ·) with
  | none =>
    rw [hv] at hr
    obtain rfl := pure_eq_ok.1 hr
    exact serves_issue [] List.nodup_nil (by simp) leaves_takeChallenge_any.nothing
  | some v =>
    obtain ⟨c, k, a, counter⟩ := v
    rw [hv] at hr
    simp only [Option.bind_eq_some_iff, Option.map_eq_some_iff, Prod.mk.injEq] at hv
    obtain ⟨c', htaken, ⟨k', a', counter'⟩, hassert, rfl, rfl, rfl, rfl⟩ := hv
    obtain ⟨hc, hpurpose, hlt, hleaves⟩ := leaves_takeChallenge htaken
    obtain ⟨hk, henabled⟩ := verifyAssertion_ok hassert
    simp only [AccountDb.signedIn, bind_eq_ok, pure_eq_ok] at hr
    obtain ⟨db', hissue, rfl⟩ := hr
    refine serves_ceremony hc hlt (.passkey hk) (by simp [Secret.OneUse, Passkey.secret])
      ⟨?_, .inl rfl, decide_eq_true hlt, henabled, ?_⟩ rfl
      ((hleaves.andThen (Leaves.passkeys fun x hx => .inl ?_)).andThen
        (leaves_issueBrowserSession hissue) |>.mono (fun _ hg => .inl (.inl hg)) fun _ hn => hn)
    · change c'.purpose.principal.all _ = true
      rw [hpurpose]
      rfl
    · intro hk
      cases hk
    · obtain ⟨x', hx', rfl⟩ := Table.mem_modify.1 hx
      refine ⟨x', hx', ?_⟩
      split_ifs <;> rfl

/-! Password changes. -/

/-- No reset link of the account is outstanding. -/
def AccountDb.NoResetLink (db : AccountDb) (now : Time) (account : Id) : Prop :=
  ∀ l ∈ db.resets, l.principal = account → ¬ l.Outstanding now

/-- A change of the password issues a new one, after the account's sessions and links have ended. -/
lemma serves_passwordChange {db' : AccountDb} {now : Time} {account : Id}
    (us : List (Secret × Account)) {gone : Secret → Prop}
    (huse : ∀ u ∈ us, db.Live now u.1) (hone : us.Pairwise fun u v => u.1.OneUse → u.1 ≠ v.1)
    (hfits : ∀ u ∈ us, u.1.OneUse → u.1.Fits u.2 now)
    (hleaves : Leaves now db db' gone (fun x => x = ⟨.password, fresh, some account, none, none⟩))
    (hgone : ∀ x, db.Live now x →
      ((x.OneUse ∧ ∃ u ∈ us, u.1 = x) ∨ x.EndedBy account) → gone x) :
    Serves db now fresh db' (us.map (fun u => .authorized u.1 u.2 now) ++
      [.passwordChanged account, .issued ⟨.password, fresh, some account, none, none⟩]) := by
  refine serves_of us (some account) [_] huse hone hfits (List.nodup_singleton _) ?_
    (hleaves.mono (fun _ hg => hg) fun _ hn => List.mem_singleton.2 hn) ?_
  · intro x hx
    rw [List.mem_singleton.1 hx]
    exact fresh_bounds rfl
  · rintro x hlive (hspent | ⟨account', hacc, hended⟩)
    · exact hgone x hlive (.inl hspent)
    · cases hacc
      exact hgone x hlive (.inr hended)

/-- Signing out takes what a change of the password ends, when no reset link is outstanding. -/
lemma ended_of_noResetLink {now : Time} {account : Id} {x : Secret}
    (hno : db.NoResetLink now account) (hlive : db.Live now x) (hended : x.EndedBy account) :
    x.kind = .session ∧ x.account = some account := by
  refine ⟨hended.1.resolve_right fun hk => ?_, hended.2⟩
  cases hlive with
  | resetLink hl hg => exact hno _ hl (Option.some.inj hended.2) hg
  | _ => cases hk

lemma serves_changePassword {original : PasswordHash} {password : String} {revision : Int}
    {r : AccountDb × List Act}
    (hno : ∀ b ∈ db.sessions, b.id = session → db.NoResetLink sample.now b.principal)
    (hr : db.changePassword h sample session fresh original password revision = .ok r) :
    Serves db sample.now fresh r.1 r.2 := by
  simp only [AccountDb.changePassword, bind_eq_ok, refuseIf_eq_ok, pure_eq_ok] at hr
  obtain ⟨⟨b, a⟩, hb, _, -, _, -, rfl⟩ := hr
  obtain ⟨hlive, ha, hid, -⟩ := verify_ok (begin_ok hb)
  have hsession : b ∈ db.sessions ∧ b.id = session := by
    have hv := begin_ok hb
    simp only [AccountDb.verify, bind_eq_ok, okOr_eq_ok, refuseIf_eq_ok, pure_eq_ok,
      Prod.mk.injEq] at hv
    obtain ⟨b', hb', a', -, _, -, rfl, -⟩ := hv
    exact ⟨Table.mem_of_get? hb', Table.key_of_get? hb'⟩
  have hno' : db.NoResetLink sample.now a.id := by
    rw [hid]
    exact hno b hsession.1 hsession.2
  have hs1 : ¬ (sessionSecret b).OneUse := by simp [Secret.OneUse, sessionSecret]
  have hp1 : ¬ a.password.OneUse := by simp [Secret.OneUse, Account.password]
  have hus : ∀ u ∈ [(sessionSecret b, a), (a.password, a)], ¬ u.1.OneUse := by
    intro u hu
    rcases List.mem_pair.1 hu with rfl | rfl
    · exact hs1
    · exact hp1
  refine serves_passwordChange [(sessionSecret b, a), (a.password, a)] ?_
    (List.pairwise_pair.2 fun h1 => absurd h1 hs1) (fun u hu h1 => absurd h1 (hus u hu))
    (leaves_newPassword ?_) ?_
  · intro u hu
    rcases List.mem_pair.1 hu with rfl | rfl
    · exact hlive
    · exact .password (Table.mem_of_get? ha)
  · exact fun _ => rfl
  · rintro x hx (⟨h1, u, hu, rfl⟩ | hended)
    · exact absurd h1 (hus u hu)
    · exact ended_of_noResetLink hno' hx hended

lemma serves_recoverOperatorPassword {username password : String} {r : AccountDb × List Act}
    (hno : ∀ a ∈ db.accounts, a.name = username → db.NoResetLink sample.now a.id)
    (hr : db.recoverOperatorPassword h sample fresh username password = .ok r) :
    Serves db sample.now fresh r.1 r.2 := by
  simp only [AccountDb.recoverOperatorPassword, bind_eq_ok, okOr_eq_ok, pure_eq_ok] at hr
  obtain ⟨_, -, _, -, _, -, a, ha, rfl⟩ := hr
  have hname : a.name = username := by simpa using List.find?_some ha
  have hno' := hno a (List.mem_of_find?_eq_some ha) hname
  refine serves_passwordChange [] (by simp) List.Pairwise.nil (by simp)
    (leaves_newPassword ?_) ?_
  · exact fun _ => rfl
  · rintro x hx (⟨-, u, hu, -⟩ | hended)
    · cases hu
    · exact ended_of_noResetLink hno' hx hended

/-- A reset ends every other link of the account by itself. -/
lemma serves_resetPassword {link : Id} {password confirmation : String} {r : AccountDb × List Act}
    (hr : db.resetPassword h sample fresh link password confirmation = .ok r) :
    Serves db sample.now fresh r.1 r.2 := by
  rcases ite_eq_ok.1 hr with ⟨-, hr⟩ | ⟨-, hr⟩
  · obtain rfl := pure_eq_ok.1 hr
    exact serves_nothing
  · simp only [bind_eq_ok] at hr
    obtain ⟨_, -, hr⟩ := hr
    cases hu : db.usableReset link sample.now with
    | none =>
      rw [hu] at hr
      obtain rfl := pure_eq_ok.1 hr
      exact serves_nothing
    | some la =>
      obtain ⟨l, a⟩ := la
      rw [hu] at hr
      obtain rfl := pure_eq_ok.1 hr
      obtain ⟨hlive, hfits, hid⟩ := usableReset_ok hu
      refine serves_passwordChange [(l.reset, a)] ?_ (List.pairwise_singleton _ _) ?_
        (leaves_consumeReset.andThen (leaves_newPassword ?_)) ?_
      · intro u hu'
        rw [List.mem_singleton.1 hu']
        exact hlive
      · intro u hu' _
        rw [List.mem_singleton.1 hu']
        exact hfits
      · exact fun _ => rfl
      · rintro x hx (⟨-, u, hu', rfl⟩ | ⟨hk | hk, hacc⟩)
        · rw [List.mem_singleton.1 hu']
          exact .inl ⟨rfl, rfl⟩
        · exact .inr ⟨hk, hacc⟩
        · exact .inl ⟨hk, by rw [hacc, hid]⟩

end Requests

end AgentCoordinator.Accounts
