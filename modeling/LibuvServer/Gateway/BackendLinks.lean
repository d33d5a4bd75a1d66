import LibuvServer.Gateway.Tables

/-!
# Links to servers

The life of the link to a server of the configuration: the timer starts an
attempt to connect when there is none, the callback of the attempt ends it,
and a link that is lost leaves `sType2Session` at once (`LinksOk`).
-/

namespace LibuvServer.Gateway

open LibuvServer.Lib LibuvServer.Netbus LibuvServer.Mylua State

/-! ## What is said of a state -/

/-- An attempt of `NetBus.getawayConnect` whose callback has not been called. -/
def Attempt (g : State) (stype : Nat) (s : SessId) : Prop :=
  (g.session s).stage = .connecting stype

inductive Phase where
  | idle
  | connecting
  | connected
  deriving DecidableEq

/-- How far the link for a type has come. -/
def Phase.Holds (g : State) (stype : Nat) : Phase → Prop
  | .idle => g.do_connecting stype = false ∧ g.sType2Session stype = none ∧
      ∀ s, ¬ Attempt g stype s
  | .connecting => g.do_connecting stype = true ∧ g.sType2Session stype = none ∧
      ∃! s, Attempt g stype s
  | .connected => g.do_connecting stype = true ∧
      (∃ s, g.sType2Session stype = some s ∧ (g.session s).as_client = 1 ∧ Live (g.session s)) ∧
      ∀ s, ¬ Attempt g stype s

/-- The step takes a link out of `sType2Session` when it is disconnected,
and only then. -/
def LinkKept (g g' : State) : Prop :=
  ∀ stype s, g.sType2Session stype = some s →
    g'.sType2Session stype = if (g'.session s).isShotdown then none else some s

section Links

variable {pm : ProtocolManager LuaBody} {g g' : State} {s x : SessId} {raw : Gateway2Server}
  {k stype : Nat} {p q : Phase}

theorem Phase.Holds.unique (hp : p.Holds g k) (hq : q.Holds g k) : p = q := by
  cases p <;> cases q
  case idle.connecting | idle.connected =>
    have hdo := hp.1.symm.trans hq.1
    cases hdo
  case connecting.idle | connected.idle =>
    have hdo := hp.1.symm.trans hq.1
    cases hdo
  case connecting.connected =>
    obtain ⟨s, hs, -⟩ := hp.2.2
    exact absurd hs (hq.2.2 s)
  case connected.connecting =>
    obtain ⟨s, hs, -⟩ := hq.2.2
    exact absurd hs (hp.2.2 s)
  all_goals rfl

/-- What the phase of a type depends on. -/
theorem Phase.Holds.same (h : p.Holds g k) (hdo : g'.do_connecting k = g.do_connecting k)
    (hslot : g'.sType2Session k = g.sType2Session k)
    (hattempt : ∀ s, Attempt g' k s ↔ Attempt g k s)
    (hlive : ∀ s, g.sType2Session k = some s → (g.session s).as_client = 1 → Live (g.session s) →
      (g'.session s).as_client = 1 ∧ Live (g'.session s)) : p.Holds g' k := by
  cases p with
  | idle => exact ⟨hdo.trans h.1, hslot.trans h.2.1, fun s hs => h.2.2 s ((hattempt s).mp hs)⟩
  | connecting =>
    obtain ⟨hset, hnone, s, hs, hone⟩ := h
    exact ⟨hdo.trans hset, hslot.trans hnone, s, (hattempt s).mpr hs,
      fun x hx => hone x ((hattempt x).mp hx)⟩
  | connected =>
    obtain ⟨hset, ⟨s, hs, hclient, hopen⟩, hnone⟩ := h
    exact ⟨hdo.trans hset, ⟨s, hslot.trans hs, hlive s hs hclient hopen⟩,
      fun x hx => hnone x ((hattempt x).mp hx)⟩

/-! ## Closing -/

/-- What `leaveServer` does to a type. -/
structure Left (g g' : State) (s : SessId) : Prop where
  slot : ∀ k, g'.sType2Session k = if g.sType2Session k = some s then none else g.sType2Session k
  doing : ∀ k, g'.do_connecting k = if g.sType2Session k = some s then false else g.do_connecting k

theorem Left.of_unused (hslot : g'.sType2Session = g.sType2Session)
    (hdo : g'.do_connecting = g.do_connecting) (h : ∀ k, g.sType2Session k ≠ some s) :
    Left g g' s where
  slot k := by rw [if_neg (h k), hslot]
  doing k := by rw [if_neg (h k), hdo]

theorem SessionsOk.left (h : SessionsOk g) (s : SessId) : Left g (g.leaveServer s) s := by
  unfold State.leaveServer
  split
  · rename_i k' hfind
    have hk' : g.sType2Session k' = some s := by
      have hsome := List.find?_some hfind
      simpa using hsome
    have hiff : ∀ k, g.sType2Session k = some s ↔ k = k' := by
      intro k
      constructor
      · exact fun hk => h.one k k' s hk hk'
      · rintro rfl
        exact hk'
    refine ⟨fun k => ?_, fun k => ?_⟩
    all_goals
      simp only [hiff]
      by_cases hk : k = k'
      · rw [hk, if_pos rfl, Function.update_self]
      · rw [if_neg hk, Function.update_of_ne hk]
  · rename_i hfind
    refine Left.of_unused rfl rfl fun k hk => ?_
    have hall := List.find?_eq_none.mp hfind k (h.server k s hk).2.2
    simp only [hk, decide_true, not_true_eq_false] at hall

/-- A second callback for the same session finds nothing more. -/
theorem Left.again (h : Left g g' s) : g'.leaveServer s = g' := by
  unfold State.leaveServer
  have hnone : (servers.find? fun k => g'.sType2Session k = some s) = none := by
    refine List.find?_eq_none.mpr fun k _ hk => ?_
    rw [decide_eq_true_eq, h.slot k] at hk
    split at hk
    · cases hk
    · exact absurd hk ‹_›
  rw [hnone]

theorem gw_disc_session_client (hclient : (g.session s).as_client ≠ 1) (stype : Nat) :
    (g.gw_disc_session s stype).1.sType2Session = g.sType2Session ∧
      (g.gw_disc_session s stype).1.do_connecting = g.do_connecting := by
  have htemp : (g.leaveTemp s).sType2Session = g.sType2Session ∧
      (g.leaveTemp s).do_connecting = g.do_connecting := by
    unfold State.leaveTemp
    simp only
    split <;> exact ⟨rfl, rfl⟩
  rw [State.gw_disc_session, if_neg hclient, ← htemp.1, ← htemp.2]
  simp only [State.leaveUid]
  split <;> exact ⟨rfl, rfl⟩

/-- **Closing a session** takes it out of the type it is the link for, and
changes no other. -/
theorem SessionsOk.close_left (h : SessionsOk g) (s : SessId) : Left g (g.close s).1 s := by
  unfold State.close
  split
  · rename_i hshut
    refine Left.of_unused rfl rfl fun k hk => ?_
    have hopen := (h.server k s hk).2.1.2
    rw [hshut] at hopen
    cases hopen
  · rw [sessionDisconnect_types]
    simp only [State.discAll]
    by_cases hserver : (g.session s).as_client = 1
    · have hone : g.gw_disc_session s 1 = (g.leaveServer s, []) := by
        rw [State.gw_disc_session, if_pos hserver]
      have htwo : (g.leaveServer s).gw_disc_session s 2 = (g.leaveServer s, []) := by
        rw [State.gw_disc_session, (Kept.leaveServer g s).as_client, if_pos hserver,
          (h.left s).again]
      rw [hone, htwo]
      exact ⟨(h.left s).slot, (h.left s).doing⟩
    · have hone := gw_disc_session_client hserver 1
      have hkept := (Kept.gw_disc_session g s 1).as_client s
      have htwo := gw_disc_session_client (g := (g.gw_disc_session s 1).1) (s := s)
        (by rwa [hkept]) 2
      exact Left.of_unused (htwo.1.trans hone.1) (htwo.2.trans hone.2)
        fun k hk => hserver (h.server k s hk).1

/-! ## The invariant -/

/-- Every type of the configuration is in one of the phases. -/
structure LinksOk (g : State) : Prop where
  sessions : SessionsOk g
  phase : ∀ k ∈ servers, ∃ p : Phase, p.Holds g k

/-- Handlers of client commands do not touch links. -/
theorem LinksOk.enter (h : LinksOk g) (hk : LifeKept g g')
    (hdo : g'.do_connecting = g.do_connecting)
    (hentered : ∀ x, Entered g' x →
      Entered g x ∨ (x < g.created ∧ (g.session x).as_client = 0)) : LinksOk g' where
  sessions := h.sessions.enter hk hentered
  phase k hserved := by
    obtain ⟨p, hp⟩ := h.phase k hserved
    refine ⟨p, hp.same (by rw [hdo]) (by rw [hk.server]) ?_ ?_⟩
    · intro x
      unfold Attempt
      rw [hk.stage]
    · intro x _ hclient hopen
      rw [hk.as_client]
      exact ⟨hclient, hk.live hopen⟩

theorem LinksOk.close (h : LinksOk g) (hs : ∀ k, (g.session s).stage ≠ .connecting k) :
    LinksOk (g.close s).1 where
  sessions := h.sessions.close hs
  phase k hserved := by
    have hleft := h.sessions.close_left s
    have hkept := Kept.close g s
    have hattempt : ∀ x, Attempt (g.close s).1 k x ↔ Attempt g k x := by
      intro x
      unfold Attempt
      rw [hkept.stage]
    obtain ⟨p, hp⟩ := h.phase k hserved
    by_cases hslot : g.sType2Session k = some s
    · -- its own link is gone
      refine ⟨.idle, by rw [hleft.doing, if_pos hslot], by rw [hleft.slot, if_pos hslot], ?_⟩
      intro x hx
      cases p with
      | idle => exact hp.2.2 x ((hattempt x).mp hx)
      | connecting =>
        have hnone := hp.2.1
        rw [hslot] at hnone
        cases hnone
      | connected => exact hp.2.2 x ((hattempt x).mp hx)
    · refine ⟨p, hp.same (by rw [hleft.doing, if_neg hslot]) (by rw [hleft.slot, if_neg hslot])
        hattempt ?_⟩
      intro x hx hclient hopen
      have hne : x ≠ s := by
        rintro rfl
        exact hslot hx
      rw [hkept.as_client]
      refine ⟨hclient, (hkept.stage x).trans hopen.1, ?_⟩
      rw [close_isShotdown, decide_eq_false hne, Bool.false_or]
      exact hopen.2

theorem Attempt.of_create {new : Session} (h : Attempt (g.create new) k x) (hx : x ≠ g.created) :
    Attempt g k x := by
  rwa [Attempt, session_create_of_ne g new hx] at h

/-- A new session that is no attempt for the type. -/
theorem Phase.Holds.create (hp : p.Holds g k) (h : SessionsOk g) {new : Session}
    (hnew : new.stage ≠ .connecting k) : p.Holds (g.create new) k := by
  refine hp.same rfl rfl (fun x => ?_) (fun x _ hclient hopen => ?_)
  · unfold Attempt
    by_cases hx : x = g.created
    · rw [hx, session_create_same, h.absent _ (Nat.le_refl _)]
      simp [hnew]
    · rw [session_create_of_ne g new hx]
  · rw [session_create_of_ne g new (h.ne_created hopen)]
    exact ⟨hclient, hopen⟩

/-- A client that connects. -/
theorem LinksOk.accept (h : LinksOk g) : LinksOk (g.create { stage := .reading }) where
  sessions := h.sessions.create (.inl rfl) (by simp)
  phase k hserved := by
    obtain ⟨p, hp⟩ := h.phase k hserved
    exact ⟨p, hp.create h.sessions (by simp)⟩

/-- The timer starts an attempt for a type that is idle. -/
theorem LinksOk.checkServer (h : LinksOk g) (hstype : stype ∈ servers) :
    LinksOk (g.checkServer stype) where
  sessions := h.sessions.checkServer hstype
  phase k hserved := by
    obtain ⟨p, hp⟩ := h.phase k hserved
    unfold State.checkServer
    split
    · rename_i hidle
      have hsessions : SessionsOk { g with
          do_connecting := Function.update g.do_connecting stype true } :=
        ⟨h.sessions.absent, h.sessions.kind, h.sessions.entered, h.sessions.server,
          h.sessions.one, h.sessions.connecting⟩
      by_cases hk : k = stype
      · subst hk
        refine ⟨.connecting, Function.update_self .., hidle.1, g.created, ?_, ?_⟩
        · exact congrArg Session.stage (session_create_same ..)
        · intro x hx
          -- any other attempt was there before, but the type was idle
          by_contra hne
          have hold : Attempt g k x := Attempt.of_create hx hne
          cases p with
          | idle => exact hp.2.2 x hold
          | connecting =>
            have hdo := hp.1.symm.trans hidle.2
            cases hdo
          | connected => exact hp.2.2 x hold
      · have hother : p.Holds { g with
            do_connecting := Function.update g.do_connecting stype true } k :=
          hp.same (Function.update_of_ne hk ..) rfl (fun _ => Iff.rfl)
            fun _ _ hclient hopen => ⟨hclient, hopen⟩
        exact ⟨p, hother.create hsessions (by simp [Ne.symm hk])⟩
    · exact ⟨p, hp⟩

/-- While there is an attempt, there is no other and no link. -/
theorem LinksOk.attempt (h : LinksOk g) (hs : Attempt g k s) :
    g.sType2Session k = none ∧ ∀ x, Attempt g k x → x = s := by
  obtain ⟨p, hp⟩ := h.phase k (h.sessions.connecting s k hs).2.2
  cases p with
  | idle => exact absurd hs (hp.2.2 s)
  | connecting =>
    obtain ⟨s', -, hone⟩ := hp.2.2
    refine ⟨hp.2.1, fun x hx => ?_⟩
    rw [hone x hx, hone s hs]
  | connected => exact absurd hs (hp.2.2 s)

/-- **The end of an attempt**: the type has none left, and nothing changes
for the others. -/
theorem LinksOk.ended (h : LinksOk g) (g' : State) (hs : (g.session s).stage = .connecting stype)
    {f : Session → Session} (hf : ∀ y k, (f y).stage ≠ .connecting k)
    (hsession : g'.session = (g.modify s f).session)
    (hdo : ∀ k, k ≠ stype → g'.do_connecting k = g.do_connecting k)
    (hslot : ∀ k, k ≠ stype → g'.sType2Session k = g.sType2Session k) :
    (∀ x, ¬ Attempt g' stype x) ∧
      ∀ k ∈ servers, k ≠ stype → ∃ p : Phase, p.Holds g' k := by
  have hold : ∀ x, x ≠ s → g'.session x = g.session x := by
    intro x hx
    rw [hsession]
    exact session_modify_of_ne g f hx
  have hnot : ∀ k, ¬ Attempt g' k s := by
    intro k
    rw [Attempt, hsession, session_modify_same]
    exact hf _ k
  constructor
  · intro x hx
    by_cases hne : x = s
    · rw [hne] at hx
      exact hnot stype hx
    · rw [Attempt, hold x hne] at hx
      exact hne ((h.attempt hs).2 x hx)
  · intro k hserved hk
    obtain ⟨p, hp⟩ := h.phase k hserved
    refine ⟨p, hp.same (hdo k hk) (hslot k hk) ?_ ?_⟩
    · intro x
      by_cases hne : x = s
      · rw [hne]
        refine ⟨fun hx => absurd hx (hnot k), fun hx => ?_⟩
        rw [Attempt, hs, Stage.connecting.injEq] at hx
        exact absurd hx.symm hk
      · rw [Attempt, Attempt, hold x hne]
    · intro x hx hserver hlive
      have hne : x ≠ s := by
        rintro rfl
        exact h.sessions.unused hs k hx
      rw [hold x hne]
      exact ⟨hserver, hlive⟩

theorem LinksOk.opened (h : LinksOk g) (hs : (g.session s).stage = .connecting stype) :
    LinksOk (g.opened stype s) where
  sessions := h.sessions.opened hs
  phase k hserved := by
    obtain ⟨hclient, hopen, -⟩ := h.sessions.connecting s stype hs
    obtain ⟨hnone, hothers⟩ := h.ended (g.opened stype s) hs
      (f := fun x => { x with stage := .reading }) (by simp) rfl
      (fun k hk => Function.update_of_ne hk ..) (fun k hk => Function.update_of_ne hk ..)
    by_cases hk : k = stype
    · subst hk
      have hsession : (g.opened k s).session s = { g.session s with stage := .reading } :=
        Function.update_self ..
      refine ⟨.connected, Function.update_self .., ⟨s, Function.update_self .., ?_⟩, hnone⟩
      rw [hsession]
      exact ⟨hclient, rfl, hopen⟩
    · exact hothers k hserved hk

theorem LinksOk.refused (h : LinksOk g) (hs : (g.session s).stage = .connecting stype) :
    LinksOk (g.refused stype s) where
  sessions := h.sessions.refused hs
  phase k hserved := by
    obtain ⟨hnone, hothers⟩ := h.ended (g.refused stype s) hs
      (f := fun x => { x with stage := .failed }) (by simp) rfl
      (fun k hk => (Function.update_of_ne hk ..).trans (Function.update_of_ne hk ..))
      (fun _ _ => rfl)
    by_cases hk : k = stype
    · subst hk
      exact ⟨.idle, Function.update_self .., (h.attempt hs).1, hnone⟩
    · exact hothers k hserved hk

/-- A closed session is destroyed. -/
theorem LinksOk.destroy (h : LinksOk g) (hshut : (g.session s).isShotdown = true)
    (hstage : (g.session s).stage ≠ .absent) :
    LinksOk (g.modify s fun x => { x with stage := .destroyed }) := by
  have hdead : ¬ Live (g.session s) := by
    rintro ⟨-, hopen⟩
    rw [hshut] at hopen
    cases hopen
  refine ⟨h.sessions.modify hdead hstage _ (fun _ => rfl) (by simp), fun k hserved => ?_⟩
  obtain ⟨p, hp⟩ := h.phase k hserved
  refine ⟨p, hp.same rfl rfl ?_ ?_⟩
  · intro x
    unfold Attempt
    by_cases hx : x = s
    · rw [hx, session_modify_same]
      refine ⟨nofun, fun hs => ?_⟩
      have hopen := (h.sessions.connecting s k hs).2.1
      rw [hshut] at hopen
      cases hopen
    · rw [session_modify_of_ne g _ hx]
  · intro x _ hserver hlive
    have hne : x ≠ s := by
      rintro rfl
      exact hdead hlive
    rw [session_modify_of_ne g _ hne]
    exact ⟨hserver, hlive⟩

/-! ## Commands -/

/-- **A client's command** leaves the life of every session and the links as they are. -/
theorem State.ToServer.life {r : State × List Act} (hr : ToServer g s raw r) :
    LifeKept g r.1 ∧ r.1.do_connecting = g.do_connecting ∧
      ∀ x, Entered r.1 x → Entered g x ∨ x = s := by
  cases hr with
  | ignored => exact ⟨⟨rfl, fun _ => rfl, fun _ => rfl, fun _ => rfl, rfl⟩, rfl, fun _ => .inl⟩
  | first login _ _ _ _ => exact ⟨LifeKept.newTag g login s, rfl, fun _ hx => entered_temp hx⟩
  | again _ _ _ _ _ => exact ⟨LifeKept.oldTag g s, rfl, fun _ hx => entered_temp hx⟩
  | identified _ _ _ _ _ =>
    refine ⟨(SameButIds.identify g s).lifeKept, ?_, fun _ hx => entered_identify hx⟩
    unfold State.identify
    simp only
    split <;> split <;> rfl

theorem LinksOk.toServer (h : LinksOk g) {r : State × List Act} (hr : ToServer g s raw r)
    (hclient : (g.session s).as_client = 0) (hreading : (g.session s).stage = .reading) :
    LinksOk r.1 := by
  obtain ⟨hlife, hdo, hentered⟩ := hr.life
  refine h.enter hlife hdo fun x hx => (hentered x hx).imp_right ?_
  rintro rfl
  exact ⟨h.sessions.lt_created (by simp [hreading]), hclient⟩

theorem LinksOk.taken (h : LinksOk g) (utag : Nat) : LinksOk (g.taken utag) :=
  h.enter (LifeKept.taken g utag) rfl fun _ hx => .inl ((Kept.dropTemp g utag).entered hx)

theorem setTable_doing (g : State) (login : Login) (id : Int) (entry : Option SessId) :
    (login.setTable g id entry).do_connecting = g.do_connecting := by
  cases login <;> rfl

theorem LinksOk.replaced (h : LinksOk g) {login : Login} {ctype : Nat} {id : Int}
    {r : State × List Act} (hr : Replaced g login ctype id s r) :
    LinksOk r.1 ∧ r.1.created = g.created ∧
      (r.1.session s).as_client = (g.session s).as_client := by
  cases hr with
  | nobody _ => exact ⟨h, rfl, rfl⟩
  | other old hold _ =>
    have hclient := (h.sessions.entered old (.inr ⟨login, id, hold⟩)).2
    have hclosed : LinksOk (g.close old).1 := by
      refine h.close fun k hk => ?_
      have hserver := (h.sessions.connecting old k hk).1
      omega
    have hdrop := Kept.dropTable (g.close old).1 login id
    refine ⟨hclosed.enter (SameButIds.setTable _ login id none).lifeKept
      (setTable_doing _ login id none) fun x hx => .inl (hdrop.entered hx), ?_, ?_⟩
    · exact hdrop.created.trans (Kept.close g old).created
    · exact (hdrop.as_client s).trans ((Kept.close g old).as_client s)

/-- **A server's command** closes clients only. -/
theorem LinksOk.toClient (h : LinksOk g) {r : State × List Act} (hr : ToClient pm g raw r) :
    LinksOk r.1 := by
  cases hr with
  | ignored => exact h
  | unsent _ _ => exact h.taken raw.tags
  | passed _ _ _ _ => exact h.taken raw.tags
  | success login client_s body info id r _ hholds _ _ hr =>
    obtain ⟨hlt, hclient⟩ := h.sessions.entered client_s (.inl ⟨_, hholds⟩)
    obtain ⟨hreplaced, hcreated, hkind⟩ := (h.taken raw.tags).replaced hr
    refine hreplaced.enter (LifeKept.loggedIn r.1 login id client_s)
      (setTable_doing r.1 login id _) fun x hx => (entered_loggedIn hx).imp_right ?_
    rintro rfl
    rw [hcreated, hkind]
    exact ⟨hlt, hclient⟩

/-- **Every event** keeps the links. -/
theorem LinksOk.step (h : LinksOk g) {e : Event} {r : State × List Act}
    (hstep : step pm g e = some r) : LinksOk r.1 := by
  cases step_cases hstep with
  | accept => exact h.accept
  | timer =>
    have hauth : LinksOk (g.checkServer Stype.Auth) := h.checkServer (by decide)
    exact hauth.checkServer (by decide)
  | connected s stype hstage => exact h.opened hstage
  | failed s stype hstage =>
    refine (h.refused hstage).close fun k hk => ?_
    rw [session_refused_same] at hk
    cases hk
  | short s cmd => exact h
  | client s cmd raw r hreading _ _ hclient hr => exact h.toServer hr hclient hreading
  | server s cmd raw r _ _ _ hr => exact h.toClient hr
  | unserved s cmd raw hreading _ _ => exact h.close (by simp [hreading])
  | lost s hreading => exact h.close (by simp [hreading])
  | destroy s hshut hstage => exact h.destroy hshut hstage

theorem LinksOk.init : LinksOk State.init where
  sessions :=
    { absent _ _ := rfl
      kind _ := .inl rfl
      entered s h := by
        rcases h with ⟨t, ht⟩ | ⟨login, k, hk⟩
        · cases ht
        · cases login <;> cases hk
      server _ _ h := by cases h
      one _ _ _ h := by cases h
      connecting _ _ h := by cases h }
  phase _ _ := ⟨.idle, rfl, rfl, fun _ h => by cases h⟩

/-- The links of every state that can be reached. -/
theorem LinksOk.reached {events : List Event} {acts : List Act}
    (hrun : run pm events = some (g, acts)) : LinksOk g := by
  refine run_invariant (I := fun c : State × List Act => LinksOk c.1) (P := fun _ _ => True)
    ?_ LinksOk.init (along_true _ _) hrun
  rintro ⟨g, acts⟩ e c' hok - hstep
  obtain ⟨g', out, hone, rfl⟩ := record_eq_some.mp hstep
  have hafter : LinksOk (g', out).1 := hok.step hone
  exact hafter

/-! ## Links that are lost -/

/-- Links that stay, in sessions that stay open. -/
theorem LinkKept.of_open (h : SessionsOk g) (hslot : g'.sType2Session = g.sType2Session)
    (hopen : ∀ x, Live (g.session x) → (g'.session x).isShotdown = false) : LinkKept g g' := by
  intro k x hx
  rw [hslot, hx, hopen x (h.server k x hx).2.1]
  rfl

theorem LinkKept.life (h : SessionsOk g) (hk : LifeKept g g') : LinkKept g g' :=
  LinkKept.of_open h hk.server fun x hx => (hk.isShotdown x).trans hx.2

theorem LinkKept.life_trans {g₁ : State} (h : LinkKept g g₁) (hk : LifeKept g₁ g') :
    LinkKept g g' := by
  intro k x hx
  rw [hk.server, hk.isShotdown]
  exact h k x hx

theorem LinkKept.close (h : SessionsOk g) (s : SessId) : LinkKept g (g.close s).1 := by
  intro k x hx
  rw [(h.close_left s).slot, close_isShotdown, hx]
  by_cases hne : x = s
  · simp [hne]
  · simp [hne, (h.server k x hx).2.1.2]

theorem LinkKept.create (h : SessionsOk g) (new : Session) : LinkKept g (g.create new) := by
  refine LinkKept.of_open h rfl fun x hx => ?_
  rw [session_create_of_ne g new (h.ne_created hx)]
  exact hx.2

theorem LinkKept.checkServer (h : SessionsOk g) (stype : Nat) :
    LinkKept g (g.checkServer stype) := by
  unfold State.checkServer
  split
  · exact LinkKept.create (g := { g with
      do_connecting := Function.update g.do_connecting stype true })
      ⟨h.absent, h.kind, h.entered, h.server, h.one, h.connecting⟩ _
  · exact LinkKept.of_open h rfl fun _ hx => hx.2

theorem LinkKept.toClient (h : SessionsOk g) {r : State × List Act} (hr : ToClient pm g raw r) :
    LinkKept g r.1 := by
  have htaken := LifeKept.taken g raw.tags
  cases hr with
  | ignored => exact LinkKept.of_open h rfl fun _ hx => hx.2
  | unsent _ _ => exact LinkKept.life h htaken
  | passed _ _ _ _ => exact LinkKept.life h htaken
  | success login client_s body info id r _ _ _ _ hr =>
    have hsessions : SessionsOk (g.taken raw.tags) :=
      h.enter htaken fun _ hx => .inl ((Kept.dropTemp g raw.tags).entered hx)
    have hreplaced : LinkKept (g.taken raw.tags) r.1 := by
      cases hr with
      | nobody _ => exact LinkKept.of_open hsessions rfl fun _ hx => hx.2
      | other old _ _ =>
        exact (LinkKept.close hsessions old).life_trans
          (SameButIds.setTable _ login id none).lifeKept
    exact LinkKept.life_trans hreplaced (LifeKept.loggedIn r.1 login id client_s)

/-- **Every event** takes a link away only when it is disconnected. -/
theorem LinkKept.step (h : LinksOk g) {e : Event} {r : State × List Act}
    (hstep : step pm g e = some r) : LinkKept g r.1 := by
  have hsessions := h.sessions
  cases step_cases hstep with
  | accept => exact LinkKept.create hsessions _
  | timer =>
    have hauth : LinksOk (g.checkServer Stype.Auth) := h.checkServer (by decide)
    intro k x hx
    have hslot : (g.checkServer Stype.Auth).sType2Session = g.sType2Session := by
      unfold State.checkServer
      split <;> rfl
    rw [← hslot] at hx
    exact LinkKept.checkServer hauth.sessions Stype.System k x hx
  | connected s stype hstage =>
    intro k x hx
    have hk : k ≠ stype := by
      rintro rfl
      rw [(h.attempt hstage).1] at hx
      cases hx
    have hne : x ≠ s := by
      rintro rfl
      exact hsessions.unused hstage k hx
    have hslot : (g.opened stype s).sType2Session k = g.sType2Session k :=
      Function.update_of_ne hk ..
    rw [hslot, session_opened_of_ne g stype hne, hx, (hsessions.server k x hx).2.1.2]
    rfl
  | failed s stype hstage => exact LinkKept.close (h.refused hstage).sessions s
  | short s cmd => exact LinkKept.of_open hsessions rfl fun _ hx => hx.2
  | client s cmd raw r _ _ _ _ hr => exact LinkKept.life hsessions hr.life.1
  | server s cmd raw r _ _ _ hr => exact LinkKept.toClient hsessions hr
  | unserved s cmd raw _ _ _ => exact LinkKept.close hsessions s
  | lost s _ => exact LinkKept.close hsessions s
  | destroy s hshut _ =>
    refine LinkKept.of_open hsessions rfl fun x hx => ?_
    have hsame := session_modify_field Session.isShotdown g s x
      (fun y => { y with stage := .destroyed }) fun _ => rfl
    exact hsame.trans hx.2

end Links

/-- **Links to servers.** In every run the link for a type of the
configuration is in exactly one phase, and a link that is lost, and no
other, leaves `sType2Session`. -/
theorem backend_links (pm : ProtocolManager LuaBody) (events : List Event) :
    ∀ g acts, run pm events = some (g, acts) →
      (∀ stype ∈ servers, ∃! p : Phase, p.Holds g stype) ∧
        ∀ e g' sent, step pm g e = some (g', sent) → LinkKept g g' := by
  intro g acts hrun
  have hok := LinksOk.reached hrun
  refine ⟨fun stype hserved => ?_, fun e g' sent hstep => LinkKept.step hok hstep⟩
  obtain ⟨p, hp⟩ := hok.phase stype hserved
  exact ⟨p, hp, fun q hq => hq.unique hp⟩

/-- The first server is connected, the second one is not yet, and the link is lost. -/
theorem backend_links_lost : ∃ g acts,
    run sampleProto [.timer, .connected 0 false] = some (g, acts) ∧
    (∀ stype ∈ servers, ∃! p : Phase, p.Holds g stype) ∧
      ∃ g' sent, step sampleProto g (.lost 0) = some (g', sent) ∧ LinkKept g g' := by
  have hsome : ((run sampleProto [.timer, .connected 0 false]).bind fun c =>
      step sampleProto c.1 (.lost 0)).isSome := by decide
  obtain ⟨⟨g', sent⟩, hboth⟩ := Option.isSome_iff_exists.mp hsome
  obtain ⟨⟨g, acts⟩, hrun, hstep⟩ := Option.bind_eq_some_iff.mp hboth
  obtain ⟨hphase, hlinks⟩ := backend_links sampleProto _ g acts hrun
  exact ⟨g, acts, hrun, hphase, g', sent, hstep, hlinks _ g' sent hstep⟩

end LibuvServer.Gateway
