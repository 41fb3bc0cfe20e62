import AgentCoordinator.Refinement.Accounts
import AgentCoordinator.Scenario

/-
A password or access change ends older access.

Every request keeps what the tables accept within what its log leaves standing, with two exceptions.
`change_password` and `recover_operator_password` leave the account's reset links as they are, and
`invalidate_restored_state` leaves passkeys, links and challenges as the snapshot has them. A run
without these steps ends older access; a run that changes a password under an outstanding reset link
does not.
-/

namespace AgentCoordinator.Accounts

open Guarded Tabular Authority Transition

/-! ### What should hold -/

/-- Older access ends: what the log of an installation should satisfy. -/
structure EndsOldAccess (log : List Act) : Prop where
  /-- A link or challenge takes effect at most once. -/
  once : ∀ before x a now after, log = before ++ .authorized x a now :: after → x.OneUse →
    ∀ a' now', .authorized x a' now' ∉ after
  /-- It does so in time, for the account and address that it was issued for. -/
  inTime : ∀ before x a now after, log = before ++ .authorized x a now :: after → x.OneUse →
    .issued x ∈ before ∧ x.Fits a now
  /-- After a change of the password, no earlier session and no earlier reset link has effect. -/
  changed : ∀ before account after, log = before ++ .passwordChanged account :: after →
    ∀ x, .issued x ∈ before → x.EndedBy account → ∀ a now, .authorized x a now ∉ after
  /-- After a restore, nothing that the snapshot contained has effect. -/
  restored : ∀ before contents after, log = before ++ .restored contents :: after →
    ∀ x ∈ contents, x.kind ≠ .challenge → ∀ a now, .authorized x a now ∉ after

/-- The act is a use of the secret. -/
def Act.uses (x : Secret) : Act → Bool
  | .authorized y _ _ => decide (y = x)
  | _ => false

/-- The step changes no password while a reset link of the account is outstanding, and restores no
passkey, no outstanding link and no unexpired challenge that was used. -/
def Service.Clean (w : Service) : Action → Prop
  | .resume sample (.changePassword session _ _ _) =>
    ∀ b ∈ w.db.sessions, b.id = session → w.db.NoResetLink sample.now b.principal
  | .request sample (.recoverOperatorPassword username _) =>
    ∀ a ∈ w.db.accounts, a.name = username → w.db.NoResetLink sample.now a.id
  | .restore now i => ∀ snapshot ∈ w.snapshots[i]?,
    snapshot.passkeys.rows = [] ∧ (∀ l ∈ snapshot.resets, ¬ l.Outstanding now) ∧
      (∀ l ∈ snapshot.verifications, ¬ l.Outstanding now) ∧
      ∀ c ∈ snapshot.challenges, now < c.expiresAt → ∀ act ∈ w.log, act.uses c.secret = false
  | _ => True

instance (db : AccountDb) (now : Time) (account : Id) : Decidable (db.NoResetLink now account) :=
  inferInstanceAs
    (Decidable (∀ l ∈ db.resets, l.principal = account → ¬ l.Outstanding now))

instance (w : Service) : (action : Action) → Decidable (w.Clean action)
  | .resume sample (.changePassword session _ _ _) =>
    inferInstanceAs (Decidable (∀ b ∈ w.db.sessions, b.id = session →
      w.db.NoResetLink sample.now b.principal))
  | .request sample (.recoverOperatorPassword username _) =>
    inferInstanceAs (Decidable (∀ a ∈ w.db.accounts, a.name = username →
      w.db.NoResetLink sample.now a.id))
  | .restore now i =>
    inferInstanceAs (Decidable (∀ snapshot ∈ w.snapshots[i]?,
      snapshot.passkeys.rows = [] ∧ (∀ l ∈ snapshot.resets, ¬ l.Outstanding now) ∧
        (∀ l ∈ snapshot.verifications, ¬ l.Outstanding now) ∧
        ∀ c ∈ snapshot.challenges, now < c.expiresAt → ∀ act ∈ w.log, act.uses c.secret = false))
  | .resume _ (.login _ _) => .isTrue trivial
  | .checkLogin _ _ | .checkPasswordChange _ _ _ _ _ | .backup => .isTrue trivial
  | .request _ (.initAdmin _ _) | .request _ (.createOperator _ _ _ _ _)
  | .request _ (.updateAccess _ _ _ _ _) | .request _ (.logout _)
  | .request _ (.revokeBrowserSession _ _) | .request _ (.registrationOptions _)
  | .request _ (.registerPasskey _ _) | .request _ (.deletePasskey _ _)
  | .request _ .signInOptions | .request _ (.signIn _) | .request _ (.setEmail _ _ _)
  | .request _ (.resendVerification _) | .request _ (.verifyEmail _) | .request _ (.requestReset _)
  | .request _ (.resetPassword _ _ _) | .request _ (.finishRestore _) | .request _ (.other _) =>
    .isTrue trivial

/-! ### The invariant -/

/-- The log is lawful and covers what the database and its backups contain. -/
structure Service.Sound (w : Service) : Prop where
  keeps : reading.Keeps w.log {x | w.db.Live w.now x}
  drawn : ∀ x, .issued x ∈ w.log → x.id < w.drawn
  fits : ∀ x a t, .authorized x a t ∈ w.log → x.OneUse → x.Fits a t
  held : ∀ x, w.db.Holds x → .issued x ∈ w.log
  snapshots : ∀ s ∈ w.snapshots, ∀ x, s.Holds x → .issued x ∈ w.log
  restored : ∀ before contents after, w.log = before ++ .restored contents :: after →
    ∀ x ∈ contents, .issued x ∈ before

lemma sound_initial (now : Time) : (Service.initial now).Sound := by
  have hnone : ∀ x, ¬ (Service.initial now).db.Holds x := by
    intro x hx
    rw [AccountDb.holds_iff] at hx
    exact absurd hx List.not_mem_nil
  constructor
  · exact ⟨Reading.lawful_nil, fun x hx => absurd (AccountDb.Live.holds hx) (hnone x)⟩
  · intro x hx
    cases hx
  · intro x a t hx
    cases hx
  · exact fun x hx => absurd hx (hnone x)
  · intro s hs
    cases hs
  · intro before contents after heq
    simp [Service.initial] at heq

/-- A lawful log under which what it leaves standing is known ends older access. -/
theorem Service.Sound.endsOldAccess {w : Service} (h : w.Sound) : EndsOldAccess w.log := by
  have hlaw := h.keeps.lawful
  constructor
  · intro before x a now after heq h1 a' now' hmem
    exact hlaw.once before _ after x heq h1 ⟨a, now, rfl⟩ _ hmem ⟨a', now', rfl⟩
  · intro before x a now after heq h1
    refine ⟨issued_iff.1 (hlaw.issued before _ after x heq ⟨a, now, rfl⟩), h.fits x a now ?_ h1⟩
    rw [heq]
    exact List.mem_append_right _ List.mem_cons_self
  · intro before account after heq x hissued hended a now hmem
    exact hlaw.ended before _ after x heq (.inl ⟨account, rfl, hended⟩) (issued_iff.2 hissued) _
      hmem ⟨a, now, rfl⟩
  · intro before contents after heq x hx hk a now hmem
    have hissued := h.restored before contents after heq x hx
    exact hlaw.ended before _ after x heq (.inr ⟨contents, rfl, hx, hk⟩) (issued_iff.2 hissued) _
      hmem ⟨a, now, rfl⟩

/-! ### Steps -/

section Steps

variable {h : Host} {w w' : Service} {db : AccountDb} {acts : List Act} {now : Time}

/-- What serves a request keeps the invariant. -/
lemma Service.Sound.serve (hs : w.Sound) (hle : w.now ≤ now) {fresh : Id} (hdrawn : w.drawn ≤ fresh)
    (hserves : Serves w.db now w.drawn db acts)
    (hfresh : ∀ x, .issued x ∈ acts → x.id < fresh) (checked : List Checked) :
    (⟨db, now, checked, w.snapshots, fresh, w.log ++ acts⟩ : Service).Sound := by
  constructor
  · exact hserves.keeps w.log (hs.keeps.mono fun x hx => AccountDb.Live.earlier hx hle) hs.drawn
  · intro x hx
    rcases List.mem_append.1 hx with hx | hx
    · exact Nat.lt_of_lt_of_le (hs.drawn x hx) hdrawn
    · exact hfresh x hx
  · intro x a t hx h1
    rcases List.mem_append.1 hx with hx | hx
    · exact hs.fits x a t hx h1
    · exact hserves.fits x a t hx h1
  · intro x hx
    rcases hserves.holds x hx with hold | hnew
    · exact List.mem_append_left _ (hs.held x hold)
    · exact List.mem_append_right _ hnew
  · intro s hmem x hx
    exact List.mem_append_left _ (hs.snapshots s hmem x hx)
  · intro before contents after heq x hx
    rcases List.append_eq_append_iff.1 heq with ⟨rest, rfl, hacts⟩ | ⟨rest, hlog, hrest⟩
    · -- the acts hold no restore
      refine absurd ?_ (hserves.unrestored contents)
      rw [hacts]
      exact List.mem_append_right _ List.mem_cons_self
    · cases rest with
      | nil =>
        refine absurd ?_ (hserves.unrestored contents)
        rw [List.nil_append] at hrest
        rw [← hrest]
        exact List.mem_cons_self
      | cons b rest =>
        obtain ⟨rfl, -⟩ := List.cons.inj hrest
        exact hs.restored before contents rest hlog x hx

lemma Service.Sound.commit (hs : w.Sound) (hle : w.now ≤ now) {answer : Answer}
    (hserves : ∀ db acts, answer = .ok (db, acts) → Serves w.db now w.drawn db acts)
    (checked : List Checked) : (({ w with checked := checked }).commit now answer).Sound := by
  cases answer with
  | error e =>
    exact ⟨hs.keeps.mono fun x hx => AccountDb.Live.earlier hx hle, hs.drawn, hs.fits, hs.held,
      hs.snapshots, hs.restored⟩
  | ok r =>
    obtain ⟨db, acts⟩ := r
    have hanswer := hserves db acts rfl
    exact hs.serve hle (Nat.le_add_right _ _) hanswer (fun x hx => (hanswer.fresh x hx).2) checked

lemma serves_handle {sample : ClockSample} {r : Request} (hclean : w.Clean (.request sample r))
    (hr : w.db.handle h sample w.drawn r = .ok (db, acts)) :
    Serves w.db sample.now w.drawn db acts := by
  cases r with
  | initAdmin username password => exact serves_initAdmin hr
  | createOperator session name role email password => exact serves_createOperator hr
  | updateAccess session id revision role enabled => exact serves_updateOperatorAccess hr
  | logout session => exact serves_logout hr
  | revokeBrowserSession session target => exact serves_revokeBrowserSession hr
  | registrationOptions session => exact serves_registrationOptions hr
  | registerPasskey session input => exact serves_registerPasskey hr
  | deletePasskey session id => exact serves_deletePasskey hr
  | signInOptions => exact serves_signInOptions hr
  | signIn input => exact serves_signIn hr
  | setEmail session revision email => exact serves_setEmail hr
  | resendVerification session => exact serves_resendVerification hr
  | verifyEmail link => exact serves_verifyEmail hr
  | requestReset email => exact serves_requestReset hr
  | resetPassword link password confirmation => exact serves_resetPassword hr
  | recoverOperatorPassword username password =>
    exact serves_recoverOperatorPassword hclean hr
  | finishRestore session => exact serves_finishRestore hr
  | other session => exact serves_authenticated hr

lemma serves_resume {sample : ClockSample} {c : Checked} (hclean : w.Clean (.resume sample c))
    (hr : w.db.resume h sample w.drawn c = .ok (db, acts)) :
    Serves w.db sample.now w.drawn db acts := by
  cases c with
  | login account hash => exact serves_login hr
  | changePassword session hash password revision => exact serves_changePassword hclean hr

lemma serves_checkPasswordChange {sample : ClockSample} {session : Id} {current new : String}
    {revision : Int} {c : Checked}
    (hr : db.checkPasswordChange h sample session current new revision = .ok (c, acts))
    (fresh : Id) : Serves db sample.now fresh db acts ∧ ∀ x, .issued x ∉ acts := by
  simp only [AccountDb.checkPasswordChange, bind_eq_ok, refuseIf_eq_ok, pure_eq_ok,
    Prod.mk.injEq] at hr
  obtain ⟨⟨b, a⟩, hv, _, -, _, -, _, -, _, -, -, rfl⟩ := hr
  refine ⟨serves_session hv List.nodup_nil (by simp) Leaves.refl.nothing, ?_⟩
  intro x hx
  simp at hx

/-- What a snapshot brings back under the condition: challenges that were not used, and the disabled
password. -/
lemma live_invalidateRestoredState {snapshot : AccountDb} {fresh : Id} {x : Secret}
    (hkeys : snapshot.passkeys.rows = []) (hresets : ∀ l ∈ snapshot.resets, ¬ l.Outstanding now)
    (hverifications : ∀ l ∈ snapshot.verifications, ¬ l.Outstanding now)
    (hx : (snapshot.invalidateRestoredState h now fresh).1.Live now x) :
    (∃ c ∈ snapshot.challenges, now < c.expiresAt ∧ x = c.secret) ∨
      ∃ a ∈ snapshot.accounts.rows, x = ⟨.password, fresh, some a.id, none, none⟩ := by
  cases hx with
  | session hb hg =>
    simp only [AccountDb.invalidateRestoredState, Table.mem_modify, if_true] at hb
    obtain ⟨b', hb', rfl⟩ := hb
    cases hg
  | password ha =>
    simp only [AccountDb.invalidateRestoredState, Table.mem_modify, if_true] at ha
    obtain ⟨a', ha', rfl⟩ := ha
    exact .inr ⟨a', ha', rfl⟩
  | passkey hk =>
    have hk' : _ ∈ snapshot.passkeys.rows := hk
    rw [hkeys] at hk'
    cases hk'
  | resetLink hl hg => exact absurd hg (hresets _ hl)
  | verificationLink hl hg => exact absurd hg (hverifications _ hl)
  | challenge hc hg => exact .inl ⟨_, hc, hg, rfl⟩

lemma holds_invalidateRestoredState {snapshot : AccountDb} {fresh : Id} {x : Secret}
    (hx : (snapshot.invalidateRestoredState h now fresh).1.Holds x) :
    snapshot.Holds x ∨
      ∃ a ∈ snapshot.accounts.rows, x = ⟨.password, fresh, some a.id, none, none⟩ := by
  cases hx with
  | session hb hg =>
    simp only [AccountDb.invalidateRestoredState, Table.mem_modify, if_true] at hb
    obtain ⟨b', hb', rfl⟩ := hb
    have hold : snapshot.Holds (sessionSecret b') := .session hb' trivial
    exact .inl hold
  | password ha =>
    simp only [AccountDb.invalidateRestoredState, Table.mem_modify, if_true] at ha
    obtain ⟨a', ha', rfl⟩ := ha
    exact .inr ⟨a', ha', rfl⟩
  | passkey hk => exact .inl (.passkey hk)
  | resetLink hl hg => exact .inl (.resetLink hl hg)
  | verificationLink hl hg => exact .inl (.verificationLink hl hg)
  | challenge hc hg => exact .inl (.challenge hc hg)

/-- A restore under the condition keeps the invariant. -/
lemma Service.Sound.restore (hs : w.Sound) {i : Nat} {snapshot : AccountDb}
    (hsnapshot : w.snapshots[i]? = some snapshot) (hclean : w.Clean (.restore now i)) :
    (w.restore h now snapshot).Sound := by
  obtain ⟨hkeys, hresets, hverifications, hunused⟩ := hclean snapshot hsnapshot
  have hmem : snapshot ∈ w.snapshots := List.mem_of_getElem? hsnapshot
  let passwords : List Secret :=
    snapshot.accounts.rows.map fun a => ⟨.password, w.drawn, some a.id, none, none⟩
  have hacts : (snapshot.invalidateRestoredState h now w.drawn).2 =
      .restored snapshot.secrets :: passwords.map .issued := by
    simp only [passwords, List.map_map]
    rfl
  have hissued : ∀ x, snapshot.Holds x → .issued x ∈ w.log := hs.snapshots snapshot hmem
  have hnodup : passwords.Nodup := by
    refine List.Nodup.of_map Secret.account ?_
    rw [List.map_map]
    have hids := List.Nodup.map (f := Option.some) (Option.some_injective Id)
      snapshot.accounts.nodup
    rwa [List.map_map] at hids
  -- unused challenges stand after the log, and no restore ends them
  have hchallenges : reading.Keeps w.log
      {x | ∃ c ∈ snapshot.challenges, now < c.expiresAt ∧ x = c.secret} := by
    refine ⟨hs.keeps.lawful, ?_⟩
    rintro x ⟨c, hc, hlt, rfl⟩
    refine ⟨issued_iff.2 (hissued _ (.challenge hc trivial)), ?_, ?_⟩
    · rintro - act hact ⟨a, t, rfl⟩
      exact absurd (hunused c hc hlt _ hact) (by simp [Act.uses])
    · rintro before act after - (⟨account, -, ⟨hk | hk, -⟩⟩ | ⟨contents, -, -, hk⟩)
      · cases hk
      · cases hk
      · exact absurd rfl hk
  have hfinish := hchallenges.finish (a := .restored snapshot.secrets) (by
    rintro x ⟨a, t, heq⟩
    cases heq)
  have hkeeps := keeps_issues passwords hfinish (by
    intro x hx hlog
    obtain ⟨a, -, rfl⟩ := List.mem_map.1 hx
    rcases List.mem_append.1 hlog with hold | hnew
    · exact absurd (hs.drawn _ hold) (Nat.lt_irrefl _)
    · simp at hnew) hnodup
  rw [List.append_assoc] at hkeeps
  have hlog : (w.restore h now snapshot).log =
      w.log ++ .restored snapshot.secrets :: passwords.map .issued := by
    rw [← hacts]
    rfl
  constructor
  · rw [hlog]
    refine hkeeps.mono fun x hx => ?_
    rcases live_invalidateRestoredState hkeys hresets hverifications hx with
      ⟨c, hc, hlt, rfl⟩ | ⟨a, ha, rfl⟩
    · refine .inl ⟨⟨c, hc, hlt, rfl⟩, ?_⟩
      rintro (⟨account, heq, -⟩ | ⟨contents, -, -, hk⟩)
      · cases heq
      · exact hk rfl
    · exact .inr (List.mem_map_of_mem ha)
  · intro x hx
    rw [hlog] at hx
    change x.id < w.drawn + 1
    rcases List.mem_append.1 hx with hx | hx
    · exact Nat.lt_succ_of_lt (hs.drawn x hx)
    · obtain ⟨a, -, rfl⟩ : ∃ a ∈ snapshot.accounts.rows,
          ⟨.password, w.drawn, some a.id, none, none⟩ = x := by
        simpa [passwords] using hx
      exact Nat.lt_succ_self _
  · intro x a t hx h1
    rw [hlog] at hx
    rcases List.mem_append.1 hx with hx | hx
    · exact hs.fits x a t hx h1
    · simp at hx
  · intro x hx
    rw [hlog]
    rcases holds_invalidateRestoredState hx with hold | ⟨a, ha, rfl⟩
    · exact List.mem_append_left _ (hissued x hold)
    · refine List.mem_append_right _ (List.mem_cons_of_mem _ ?_)
      exact List.mem_map_of_mem (List.mem_map_of_mem ha)
  · intro s hs' x hx
    rw [hlog]
    exact List.mem_append_left _ (hs.snapshots s hs' x hx)
  · intro before contents after heq x hx
    rw [hlog] at heq
    rcases List.append_eq_append_iff.1 heq with ⟨rest, rfl, hrest⟩ | ⟨rest, hlog', hrest⟩
    · cases rest with
      | nil =>
        -- this restore itself
        obtain ⟨hsame, -⟩ := List.cons.inj hrest
        cases hsame
        rw [List.append_nil]
        exact hissued x (AccountDb.holds_iff.2 hx)
      | cons b rest =>
        obtain ⟨-, htail⟩ := List.cons.inj hrest
        have hcontra : (.restored contents : Act) ∈ passwords.map .issued := by
          rw [htail]
          exact List.mem_append_right _ List.mem_cons_self
        simp at hcontra
    · cases rest with
      | nil =>
        obtain ⟨hsame, -⟩ := List.cons.inj hrest
        cases hsame
        rw [List.append_nil] at hlog'
        rw [← hlog']
        exact hissued x (AccountDb.holds_iff.2 hx)
      | cons b rest =>
        obtain ⟨rfl, -⟩ := List.cons.inj hrest
        exact hs.restored before contents rest hlog' x hx

theorem Service.Sound.step (hs : w.Sound) {action : Action} (hclean : w.Clean action)
    (hstep : w.step h action = some w') : w'.Sound := by
  cases action with
  | request sample r =>
    simp only [Service.step, Option.ite_none_right_eq_some, Option.some.injEq] at hstep
    obtain ⟨hle, rfl⟩ := hstep
    exact hs.commit hle (fun db acts hr => serves_handle hclean hr) w.checked
  | checkLogin username password =>
    simp only [Service.step, Option.map_eq_some_iff] at hstep
    obtain ⟨c, -, rfl⟩ := hstep
    exact ⟨hs.keeps, hs.drawn, hs.fits, hs.held, hs.snapshots, hs.restored⟩
  | checkPasswordChange sample session current new revision =>
    simp only [Service.step, Option.ite_none_right_eq_some, Option.map_eq_some_iff] at hstep
    obtain ⟨hle, ⟨c, acts⟩, hr, rfl⟩ := hstep
    obtain ⟨hserves, hnone⟩ := serves_checkPasswordChange (toOption_eq_some.1 hr) w.drawn
    exact hs.serve hle (Nat.le_refl _) hserves (fun x hx => absurd hx (hnone x)) _
  | resume sample c =>
    simp only [Service.step, Option.ite_none_right_eq_some, Option.some.injEq] at hstep
    obtain ⟨⟨hle, -⟩, rfl⟩ := hstep
    exact hs.commit hle (fun db acts hr => serves_resume hclean hr) _
  | backup =>
    simp only [Service.step, Option.some.injEq] at hstep
    subst hstep
    refine ⟨hs.keeps, hs.drawn, hs.fits, hs.held, ?_, hs.restored⟩
    intro s hs' x hx
    rcases List.mem_append.1 hs' with hold | hnew
    · exact hs.snapshots s hold x hx
    · rw [List.mem_singleton.1 hnew] at hx
      exact hs.held x hx
  | restore now i =>
    simp only [Service.step, Option.map_eq_some_iff] at hstep
    obtain ⟨snapshot, hsnapshot, rfl⟩ := hstep
    exact hs.restore hsnapshot hclean

end Steps

/-- In every run that changes no password under an outstanding reset link, and restores nothing that
would be accepted again, older access ends. -/
theorem old_access_ends (h : Host) (now : Time) (w : Service)
    (hruns : Service.Runs h Service.Clean (.initial now) w) : EndsOldAccess w.log :=
  (Run.invariant (fun _ _ _ hs hok hstep => Service.Sound.step hs hok hstep) hruns
    (sound_initial now)).endsOldAccess

/-! ### Runs -/

/-- A host whose password hashes show the password, and whose authenticators always sign. -/
def plainHost : Host :=
  ⟨"https://coordinator.example", "coordinator.example",
    fun password salt => password ++ toString salt, fun _ _ _ _ => true, fun _ => true, fun n => "secret " ++ toString n⟩

/-- A sample of a healthy clock. -/
def at' (now : Time) : ClockSample := ⟨now, false, false⟩

/-- An administrator signs in, verifies an address, and asks for a reset link (40). -/
def asksForReset : List Action :=
  [.request (at' 0) (.initAdmin "admin" "first password"), .checkLogin "admin" "first password",
    .resume (at' 0) (.login 0 ⟨0, "first password0"⟩),
    .request (at' 1) (.setEmail 10 1 "admin@example.org"), .request (at' 2) (.verifyEmail 20),
    .request (at' 3) (.requestReset "admin@example.org")]

/-- The password is changed in the browser, and then once more by the older link. -/
def resetsAfterChange : List Action :=
  asksForReset ++
    [.checkPasswordChange (at' 4) 10 "first password" "second password" 3,
      .resume (at' 5) (.changePassword 10 ⟨0, "first password0"⟩ "second password" 3),
      .request (at' 6) (.resetPassword 40 "third password" "third password")]

/-- The password is reset by the link, and a backup is restored and recovered. -/
def restoresAfterReset : List Action :=
  asksForReset ++
    [.request (at' 4) (.resetPassword 40 "second password" "second password"), .backup,
      .restore 5 0, .request (at' 6) (.recoverOperatorPassword "admin" "third password"),
      .checkLogin "admin" "third password", .resume (at' 7) (.login 0 ⟨61, "third password61"⟩)]

/-- The reset link of these runs. -/
def oldLink : Secret := ⟨.resetLink, 40, some 0, some "admin@example.org", some (3 + resetTtlMs)⟩

lemma uses_iff {act : Act} {x : Secret} :
    act.uses x = true ↔ ∃ a now, act = .authorized x a now := by
  cases act with
  | authorized y a now =>
    simp only [Act.uses, decide_eq_true_eq, Act.authorized.injEq]
    constructor
    · rintro rfl
      exact ⟨a, now, rfl, rfl, rfl⟩
    · rintro ⟨a', now', rfl, -, -⟩
      rfl
  | _ => simp [Act.uses]

/-- A list, cut at one of its places. -/
lemma cut_at {α : Type} {l : List α} {n : Nat} {a : α} (h : l[n]? = some a) :
    l = l.take n ++ a :: l.drop (n + 1) := by
  obtain ⟨hlt, rfl⟩ := List.getElem?_eq_some_iff.1 h
  rw [List.getElem_cons_drop, List.take_append_drop]

set_option maxRecDepth 20000 in
/-- A reset link that was mailed before `change_password` sets another password after it. -/
theorem reset_link_outlives_change : ¬ ∀ (h : Host) (now : Time) (w : Service),
    Service.Runs h (fun _ _ => True) (.initial now) w → EndsOldAccess w.log := by
  intro hall
  obtain ⟨w, hw, hp⟩ := exists_of_any
    (o := follow (fun (w : Service) a => w.step plainHost a) (fun _ _ => True) (.initial 0)
      resetsAfterChange)
    (p := fun w => decide (w.log[10]? = some (Act.passwordChanged 0)) &&
      (decide (Act.issued oldLink ∈ w.log.take 10) && (w.log.drop 11).any (Act.uses oldLink)))
    (by decide +kernel)
  obtain ⟨hchanged, hrest⟩ := (Bool.and_eq_true _ _).mp hp
  obtain ⟨hissued, hused⟩ := (Bool.and_eq_true _ _).mp hrest
  obtain ⟨act, hact, huse⟩ := List.any_eq_true.1 hused
  obtain ⟨a, t, rfl⟩ := uses_iff.1 huse
  have hends := hall plainHost 0 w (run_of_follow hw)
  exact hends.changed _ 0 _ (cut_at (of_decide_eq_true hchanged)) oldLink
    (of_decide_eq_true hissued) ⟨.inr rfl, rfl⟩ a t hact

set_option maxRecDepth 20000 in
/-- A used link, a restored backup and a recovered account: sixteen acts, all of them lawful. -/
theorem old_access_ends_restored : ∃ w, Service.Runs plainHost Service.Clean (.initial 0) w ∧
    w.log.length = 16 ∧ EndsOldAccess w.log := by
  obtain ⟨w, hw, hp⟩ := exists_of_any
    (o := follow (fun (w : Service) a => w.step plainHost a) Service.Clean (.initial 0)
      restoresAfterReset)
    (p := fun w => decide (w.log.length = 16)) (by decide +kernel)
  have hruns : Service.Runs plainHost Service.Clean (.initial 0) w := run_of_follow hw
  exact ⟨w, hruns, of_decide_eq_true hp, old_access_ends plainHost 0 w hruns⟩

end AgentCoordinator.Accounts
