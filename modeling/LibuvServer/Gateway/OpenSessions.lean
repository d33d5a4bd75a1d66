import LibuvServer.Gateway.Tables

/-!
# Open sessions

Whether the tables refer only to sessions that have not been closed. Every
handler enters sessions that are open (`TablesOk`), but `gw_disc_session`
takes a client out of `client_temp` only, and only under its own tag; and a
session that is closed and still being read can be entered again. `Orderly`
says that neither comes to pass.
-/

namespace LibuvServer.Gateway

open LibuvServer.Lib LibuvServer.Netbus LibuvServer.Mylua State

/-! ## What is said of a run -/

/-- No table refers to a session whose `gw_disc_session` callbacks have
completed, after which `close` sets `isShotdown`. -/
def NoDangling (g : State) : Prop :=
  ∀ s, Entered g s ∨ (∃ k, g.sType2Session k = some s) → (g.session s).isShotdown = false

/-- The session an act of a handler is applied to. -/
def Act.target : Act → Option SessId
  | .sendRawData s _ | .sendMessage s _ | .close s => some s
  | _ => none

/-- Before and after the step no table refers to a closed session, and
nothing is sent to or done with a destroyed one. -/
def Sound (pm : ProtocolManager LuaBody) (c : State × List Act) (e : Event) : Prop :=
  NoDangling c.1 ∧ ∀ (g' : State) (sent : List Act), step pm c.1 e = some (g', sent) →
    NoDangling g' ∧ ∀ a ∈ sent, ∀ s, a.target = some s → (c.1.session s).stage ≠ .destroyed

/-- Closing the client session leaves no entry behind: it is in `client_temp`
under its own tag at most, and in no other table but for the slot that is
being replaced. -/
def Leaves (g : State) (s : SessId) (slot : Option (Login × Int)) : Prop :=
  (g.session s).as_client = 0 → (g.session s).isShotdown = false →
    (∀ t, g.client_temp t = some s → t = (g.session s).utag) ∧
    ∀ (login : Login) (k : Int), login.table g k = some s → slot = some (login, k)

/-- `sendToServer` enters the client in a table. -/
def Enters (g : State) (s : SessId) (raw : Gateway2Server) : Prop :=
  (g.sType2Session raw.serverType).isSome ∧ ((∃ login : Login, raw.commandType = login.request) ∨
    (g.session s).uid ≠ 0 ∨ (g.session s).gid ≠ 0)

/-- A successful answer under whose id another session is entered. -/
def Replaces (pm : ProtocolManager LuaBody) (g : State) (raw : Gateway2Server) (login : Login)
    (id : Int) (old : SessId) : Prop :=
  raw.commandType = login.answer ∧ login.table g id = some old ∧
    ∃ client_s body info, g.client_temp raw.tags = some client_s ∧ old ≠ client_s ∧
      Raw.readBody pm raw = some body ∧ Success login body info id

/-- What a command does to the sessions, if it does nothing wrong. -/
def OrderlyCommand (pm : ProtocolManager LuaBody) (g : State) (s : SessId)
    (raw : Gateway2Server) : Prop :=
  (raw.serverType ∉ servers → Leaves g s none) ∧
  (raw.serverType ∈ servers → (g.session s).as_client = 0 → (g.session s).isShotdown = true →
    ¬ Enters g s raw) ∧
  (raw.serverType ∈ servers → (g.session s).as_client ≠ 0 →
    ∀ login id old, Replaces pm g raw login id old → Leaves g old (some (login, id)))

/-- A client is closed only while it is in no table but under its tag, and
not entered again after that. -/
def Orderly (pm : ProtocolManager LuaBody) (c : State × List Act) : Event → Prop
  | .lost s => Leaves c.1 s none
  | .command s cmd => ∀ raw, decodeMsgHead cmd cmd.length = some raw →
      OrderlyCommand pm c.1 s raw
  | _ => True

/-! ## The invariant -/

/-- Client tables refer to open clients, and `sType2Session` to open servers,
each under one type. -/
structure TablesOk (g : State) : Prop where
  absent : ∀ s, g.created ≤ s → (g.session s).stage = .absent
  kind : ∀ s, (g.session s).as_client = 0 ∨ (g.session s).as_client = 1
  client : ∀ s, Entered g s → (g.session s).as_client = 0 ∧ Live (g.session s)
  server : ∀ k s, g.sType2Session k = some s →
    (g.session s).as_client = 1 ∧ Live (g.session s) ∧ k ∈ servers
  one : ∀ k k' s, g.sType2Session k = some s → g.sType2Session k' = some s → k = k'
  connecting : ∀ s k, (g.session s).stage = .connecting k →
    (g.session s).as_client = 1 ∧ (g.session s).isShotdown = false ∧ k ∈ servers

theorem TablesOk.noDangling {g : State} (h : TablesOk g) : NoDangling g := by
  rintro s (hentered | ⟨k, hk⟩)
  · exact (h.client s hentered).2.2
  · exact (h.server k s hk).2.1.2

section Tables

variable {pm : ProtocolManager LuaBody} {g g' g₁ : State} {s x : SessId} {raw : Gateway2Server}

/-- What is always true of sessions is true here. -/
theorem TablesOk.sessions (h : TablesOk g) : SessionsOk g where
  absent := h.absent
  kind := h.kind
  entered s hs := by
    obtain ⟨hclient, hreading, -⟩ := h.client s hs
    refine ⟨?_, hclient⟩
    by_contra hle
    rw [h.absent s (Nat.le_of_not_lt hle)] at hreading
    cases hreading
  server := h.server
  one := h.one
  connecting := h.connecting

/-- What is left to show is that clients are entered while they are open. -/
theorem SessionsOk.tablesOk (h : SessionsOk g)
    (hlive : ∀ s, Entered g s → Live (g.session s)) : TablesOk g where
  absent := h.absent
  kind := h.kind
  client s hs := ⟨(h.entered s hs).2, hlive s hs⟩
  server := h.server
  one := h.one
  connecting := h.connecting

/-- **Entering an open client**, and no one else, keeps the tables. -/
theorem TablesOk.enter (h : TablesOk g) (hk : LifeKept g g')
    (hentered : ∀ x, Entered g' x →
      Entered g x ∨ ((g.session x).as_client = 0 ∧ Live (g.session x))) : TablesOk g' := by
  have hsessions : SessionsOk g' := by
    refine h.sessions.enter hk fun x hx => (hentered x hx).imp_right ?_
    rintro ⟨hclient, hlive⟩
    exact ⟨h.sessions.lt_created (by simp [hlive.1]), hclient⟩
  refine hsessions.tablesOk fun x hx => hk.live ?_
  rcases hentered x hx with hold | ⟨-, hlive⟩
  · exact (h.client x hold).2
  · exact hlive

/-- **Closing a session** keeps the tables once it has left them. -/
theorem TablesOk.closed (h : TablesOk g) (hk : LifeKept (g.close s).1 g')
    (hentered : ∀ x, Entered g' x → Entered (g.close s).1 x)
    (hs : ∀ k, (g.session s).stage ≠ .connecting k)
    (hgone : (g.session s).as_client = 0 → (g.session s).isShotdown = false → ¬ Entered g' s) :
    TablesOk g' := by
  have hsessions := (h.sessions.close hs).enter hk fun x hx => .inl (hentered x hx)
  refine hsessions.tablesOk fun x hx => hk.live ?_
  have hkept := Kept.close g s
  obtain ⟨hclient, hreading, hopen⟩ := h.client x (hkept.entered (hentered x hx))
  have hne : x ≠ s := by
    rintro rfl
    exact hgone hclient hopen hx
  -- who is open and is not the closed session stays open
  refine ⟨(hkept.stage x).trans hreading, ?_⟩
  rw [close_isShotdown, decide_eq_false hne, Bool.false_or]
  exact hopen

/-- Closing a session that leaves no entry behind. -/
theorem TablesOk.close (h : TablesOk g) (hs : ∀ k, (g.session s).stage ≠ .connecting k)
    (hleaves : Leaves g s none) : TablesOk (g.close s).1 := by
  refine h.closed (LifeKept.refl _) (fun _ hx => hx) hs ?_
  intro hclient hopen
  obtain ⟨htag, htable⟩ := hleaves hclient hopen
  rintro (⟨t, ht⟩ | ⟨login, k, hk⟩)
  · exact close_temp hclient hopen htag t ht
  · have hslot := htable login k ((Kept.close g s).table login k s hk)
    cases hslot

/-! ## Changes of one session -/

/-- A new session is in no table. -/
theorem TablesOk.create (h : TablesOk g) {new : Session}
    (hkind : new.as_client = 0 ∨ new.as_client = 1)
    (hconnecting : ∀ k, new.stage = .connecting k →
      new.as_client = 1 ∧ new.isShotdown = false ∧ k ∈ servers) : TablesOk (g.create new) := by
  refine (h.sessions.create hkind hconnecting).tablesOk fun x hx => ?_
  have hne : x ≠ g.created := Nat.ne_of_lt (h.sessions.entered x hx).1
  rw [session_create_of_ne g new hne]
  exact (h.client x hx).2

/-- A session that is not live changes its stage. -/
theorem TablesOk.modify (h : TablesOk g) (hs : ¬ Live (g.session s))
    (hstage : (g.session s).stage ≠ .absent) (f : Session → Session)
    (hclient : ∀ y, (f y).as_client = y.as_client)
    (hnew : ∀ y k, (f y).stage ≠ .connecting k) : TablesOk (g.modify s f) := by
  refine (h.sessions.modify hs hstage f hclient hnew).tablesOk fun x hx => ?_
  have hlive := (h.client x hx).2
  have hne : x ≠ s := by
    rintro rfl
    exact hs hlive
  rw [session_modify_of_ne g f hne]
  exact hlive

/-- A server that is connected. -/
theorem TablesOk.opened (h : TablesOk g) {stype : Nat}
    (hs : (g.session s).stage = .connecting stype) : TablesOk (g.opened stype s) := by
  have hread := h.modify (not_live_of_connecting hs) (by simp [hs])
    (fun x => { x with stage := .reading }) (fun _ => rfl) (fun _ _ => by simp)
  exact (h.sessions.opened hs).tablesOk fun x hx => (hread.client x hx).2

/-- An attempt to connect that has failed. -/
theorem TablesOk.refused (h : TablesOk g) {stype : Nat}
    (hs : (g.session s).stage = .connecting stype) : TablesOk ((g.refused stype s).close s).1 := by
  have hfailed : TablesOk (g.refused stype s) := by
    have hmodify := h.modify (not_live_of_connecting hs) (by simp [hs])
      (fun x => { x with stage := .failed }) (fun _ => rfl) (fun _ _ => by simp)
    exact (h.sessions.refused hs).tablesOk fun x hx => (hmodify.client x hx).2
  refine hfailed.close (by simp [session_refused_same]) fun hclient => ?_
  rw [session_refused_same] at hclient
  have hone := (h.connecting s stype hs).1
  change (g.session s).as_client = 0 at hclient
  omega

theorem TablesOk.checkServer (h : TablesOk g) {stype : Nat} (hserved : stype ∈ servers) :
    TablesOk (g.checkServer stype) := by
  unfold State.checkServer
  split
  · have hdo : TablesOk { g with do_connecting := Function.update g.do_connecting stype true } :=
      ⟨h.absent, h.kind, h.client, h.server, h.one, h.connecting⟩
    refine hdo.create (.inr rfl) fun k hk => ?_
    cases hk
    exact ⟨rfl, rfl, hserved⟩
  · exact h

/-! ## Commands -/

/-- A client's command is sent to the server of its type. -/
theorem State.ToServer.target {r : State × List Act} (hr : ToServer g s raw r) {a : Act}
    (ha : a ∈ r.2) (hx : a.target = some x) : g.sType2Session raw.serverType = some x := by
  cases hr with
  | ignored => cases ha
  | first login server hserver _ _ =>
    simp only [List.mem_cons, List.not_mem_nil, or_false] at ha
    rcases ha with rfl | rfl
    · cases hx
    · cases hx
      exact hserver
  | again login server hserver _ _ | identified server utag hserver _ _ =>
    rw [List.mem_singleton] at ha
    subst ha
    cases hx
    exact hserver

/-- **A client's command** keeps the tables if the client is open or is not
entered, and goes to a server that is connected. -/
theorem TablesOk.toServer (h : TablesOk g) {r : State × List Act} (hr : ToServer g s raw r)
    (hclient : (g.session s).as_client = 0) (hreading : (g.session s).stage = .reading)
    (horderly : (g.session s).isShotdown = true → ¬ Enters g s raw) :
    TablesOk r.1 ∧ ∀ a ∈ r.2, ∀ x, a.target = some x → Live (g.session x) := by
  refine ⟨?_, fun a ha x hx => (h.server _ x (hr.target ha hx)).2.1⟩
  have henter : ∀ {g'}, Enters g s raw → LifeKept g g' →
      (∀ x, Entered g' x → Entered g x ∨ x = s) → TablesOk g' := by
    intro g' henters hk hentered
    refine h.enter hk fun x hx => (hentered x hx).imp_right ?_
    rintro rfl
    refine ⟨hclient, hreading, ?_⟩
    by_contra hshut
    exact horderly (by simpa using hshut) henters
  cases hr with
  | ignored => exact h
  | first login server hserver htype htag =>
    have henters : Enters g s raw := ⟨by rw [hserver]; rfl, .inl ⟨login, htype⟩⟩
    exact henter henters (LifeKept.newTag g login s) fun x hx => entered_temp hx
  | again login server hserver htype htag =>
    have henters : Enters g s raw := ⟨by rw [hserver]; rfl, .inl ⟨login, htype⟩⟩
    exact henter henters (LifeKept.oldTag g s) fun x hx => entered_temp hx
  | identified server utag hserver htype hid =>
    have henters : Enters g s raw := ⟨by rw [hserver]; rfl, .inr (identify_some hid).1⟩
    exact henter henters (SameButIds.identify g s).lifeKept fun x hx => entered_identify hx

/-! ## Answers -/

theorem Leaves.taken {slot : Option (Login × Int)} (h : Leaves g s slot) (t : Nat) :
    Leaves (g.taken t) s slot := by
  intro hclient hopen
  obtain ⟨htag, htable⟩ := h hclient hopen
  exact ⟨fun t' ht => htag t' (update_none_eq_some ht).2,
    fun login k hk => htable login k (by cases login <;> exact hk)⟩

/-- **Replacing a session** leaves no entry of it behind. -/
theorem TablesOk.replaced (h : TablesOk g) {login : Login} {ctype : Nat} {id : Int}
    {r : State × List Act} (hr : Replaced g login ctype id s r)
    (hleaves : ∀ old, login.table g id = some old → old ≠ s → Leaves g old (some (login, id)))
    (hs : Live (g.session s)) :
    TablesOk r.1 ∧ Live (r.1.session s) ∧ (r.1.session s).as_client = (g.session s).as_client ∧
      ∀ a ∈ r.2, ∀ x, a.target = some x → Live (g.session x) := by
  cases hr with
  | nobody _ => exact ⟨h, hs, rfl, by simp⟩
  | other old hold hne =>
    have hentered : Entered g old := .inr ⟨login, id, hold⟩
    obtain ⟨hclient, hopen⟩ := h.client old hentered
    obtain ⟨htag, htable⟩ := hleaves old hold hne hclient hopen.2
    have hdrop := Kept.dropTable (g.close old).1 login id
    have hkept := (Kept.close g old).trans hdrop
    have hlife := (SameButIds.setTable (g.close old).1 login id none).lifeKept
    refine ⟨?_, ⟨(hkept.stage s).trans hs.1, ?_⟩, hkept.as_client s, ?_⟩
    · refine h.closed hlife (fun x => hdrop.entered) (by simp [hopen.1]) ?_
      rintro - - (⟨t, ht⟩ | ⟨login', k, hk⟩)
      · exact close_temp hclient hopen.2 htag t (hdrop.temp t old ht)
      · have hslot := htable login' k (hkept.table login' k old hk)
        rw [Option.some.injEq, Prod.mk.injEq] at hslot
        obtain ⟨rfl, rfl⟩ := hslot
        rw [setTable_self] at hk
        cases hk
    · rw [hlife.isShotdown, close_isShotdown, decide_eq_false hne.symm, Bool.false_or]
      exact hs.2
    · intro a ha x hx
      simp only [List.mem_cons, List.not_mem_nil, or_false] at ha
      rcases ha with rfl | rfl <;> cases hx <;> exact hopen

/-- **A server's command** keeps the tables if a session it replaces leaves
no other entry behind, and goes to open clients. -/
theorem TablesOk.toClient (h : TablesOk g) {r : State × List Act} (hr : ToClient pm g raw r)
    (hleaves : ∀ login id old, Replaces pm g raw login id old → Leaves g old (some (login, id))) :
    TablesOk r.1 ∧ ∀ a ∈ r.2, ∀ x, a.target = some x → Live (g.session x) := by
  have htaken : TablesOk (g.taken raw.tags) :=
    h.enter (LifeKept.taken g raw.tags) fun x hx => .inl ((Kept.dropTemp g raw.tags).entered hx)
  cases hr with
  | ignored => exact ⟨h, by simp⟩
  | unsent _ _ => exact ⟨htaken, by simp⟩
  | passed login client_s _ hholds =>
    refine ⟨htaken, fun a ha x hx => ?_⟩
    rw [List.mem_singleton] at ha
    subst ha
    cases hx
    exact (h.client _ (.inl ⟨_, hholds⟩)).2
  | success login client_s body info id r htype hholds hbody hok hr =>
    obtain ⟨hclient, hopen⟩ := h.client client_s (.inl ⟨_, hholds⟩)
    obtain ⟨hafter, hlive, hkind, htargets⟩ := htaken.replaced hr
      (fun old hold hne => (hleaves login id old ⟨htype, by cases login <;> exact hold, client_s,
        body, info, hholds, hne, hbody, hok⟩).taken raw.tags) hopen
    refine ⟨?_, ?_⟩
    · refine hafter.enter (LifeKept.loggedIn r.1 login id client_s) fun x hx =>
        (entered_loggedIn hx).imp_right ?_
      rintro rfl
      exact ⟨hkind.trans hclient, hlive⟩
    · intro a ha x hx
      rcases List.mem_append.mp ha with hold | hnew
      · exact htargets a hold x hx
      · simp only [List.mem_cons, List.not_mem_nil, or_false] at hnew
        rcases hnew with rfl | rfl
        · cases hx
        · cases hx
          exact hopen

/-! ## Steps -/

/-- **Every orderly event** keeps the tables, and what it sends or closes is open. -/
theorem TablesOk.step (h : TablesOk g) {e : Event} {r : State × List Act} {acts : List Act}
    (horderly : Orderly pm (g, acts) e) (hstep : step pm g e = some r) :
    TablesOk r.1 ∧ ∀ a ∈ r.2, ∀ x, a.target = some x → Live (g.session x) := by
  cases step_cases hstep with
  | accept => exact ⟨h.create (.inl rfl) (by simp), by simp⟩
  | timer =>
    have hauth : TablesOk (g.checkServer Stype.Auth) := h.checkServer (by decide)
    exact ⟨hauth.checkServer (by decide), by simp⟩
  | connected s stype hstage => exact ⟨h.opened hstage, by simp⟩
  | failed s stype hstage => exact ⟨h.refused hstage, by simp⟩
  | short s cmd => exact ⟨h, by simp⟩
  | client s cmd raw r hreading hhead hserved hclient hr =>
    exact h.toServer hr hclient hreading ((horderly raw hhead).2.1 hserved hclient)
  | server s cmd raw r hhead hserved hserver hr =>
    exact h.toClient hr ((horderly raw hhead).2.2 hserved hserver)
  | unserved s cmd raw hreading hhead hserved =>
    exact ⟨h.close (by simp [hreading]) ((horderly raw hhead).1 hserved), by simp⟩
  | lost s hreading => exact ⟨h.close (by simp [hreading]) horderly, by simp⟩
  | destroy s hshut hstage =>
    have hdead : ¬ Live (g.session s) := by
      rintro ⟨-, hopen⟩
      rw [hshut] at hopen
      cases hopen
    exact ⟨h.modify hdead hstage (fun x => { x with stage := .destroyed }) (fun _ => rfl)
      (by simp), by simp⟩

theorem TablesOk.init : TablesOk State.init where
  absent _ _ := rfl
  kind _ := .inl rfl
  client s h := by
    rcases h with ⟨t, ht⟩ | ⟨login, k, hk⟩
    · cases ht
    · cases login <;> cases hk
  server _ _ h := by cases h
  one _ _ _ h := by cases h
  connecting _ _ h := by cases h

theorem TablesOk.sound (h : TablesOk g) {e : Event} {acts : List Act}
    (horderly : Orderly pm (g, acts) e) : Sound pm (g, acts) e := by
  refine ⟨h.noDangling, fun g' sent hstep => ?_⟩
  obtain ⟨hafter, htargets⟩ := h.step horderly hstep
  refine ⟨hafter.noDangling, fun a ha x hx => ?_⟩
  simp only [(htargets a ha x hx).1, ne_eq, reduceCtorEq, not_false_eq_true]

end Tables

/-- **Open sessions.** In every orderly run no table ever refers to a closed
session, and nothing is done with a destroyed one. -/
theorem open_sessions (pm : ProtocolManager LuaBody) (events : List Event)
    (horderly : Along (step pm) (Orderly pm) (State.init, []) events) :
    Along (step pm) (Sound pm) (State.init, []) events := by
  refine Along.of_invariant (I := fun c => TablesOk c.1) ?_ ?_ TablesOk.init horderly
  · rintro ⟨g, acts⟩ e c' hok hp hstep
    obtain ⟨g', out, hone, rfl⟩ := record_eq_some.mp hstep
    exact (hok.step hp hone).1
  · rintro ⟨g, acts⟩ e hok hp
    exact hok.sound hp

/-- The command of an open client to a server that is configured. -/
theorem orderly_client {pm : ProtocolManager LuaBody} {g : State} {acts : List Act} {s : SessId}
    {cmd : Bytes} (hclient : (g.session s).as_client = 0)
    (hopen : (g.session s).isShotdown = false)
    (hserved : ∀ raw ∈ decodeMsgHead cmd cmd.length, raw.serverType ∈ servers) :
    Orderly pm (g, acts) (.command s cmd) := by
  intro raw hhead
  have hmem := hserved raw hhead
  refine ⟨fun hno => absurd hmem hno, fun _ _ hshut => ?_, fun _ hserver => absurd hclient hserver⟩
  rw [hopen] at hshut
  cases hshut

/-- A guest who leaves before the answer. -/
theorem open_sessions_left : Along (step sampleProto) (Sound sampleProto) (State.init, [])
    (twoClients ++ [.command 2 (head 1 1 0), .lost 2, .destroy 2]) := by
  refine open_sessions sampleProto _ ?_
  refine Along.cons trivial rfl (Along.cons trivial rfl (Along.cons trivial rfl ?_))
  refine Along.cons trivial rfl (Along.cons (orderly_client rfl rfl (by decide)) rfl ?_)
  refine Along.cons ?_ rfl (Along.cons trivial rfl trivial)
  -- the guest is in `client_temp` under its tag, and nowhere else
  refine fun _ _ => ⟨fun t ht => ?_, fun login k hk => by cases login <;> cases hk⟩
  by_cases htag : t = 1
  · exact htag
  · change Function.update (fun _ => none) 1 (some 2) t = some 2 at ht
    rw [Function.update_of_ne htag] at ht
    cases ht

/-- A guest who has left before it logs in again from another connection. -/
def returningGuest : List Event := twoClients ++
  [.command 2 (head 1 1 0), .command 0 (head 1 2 1 ++ guestAnswer), .lost 2, .destroy 2,
    .command 3 (head 1 1 0)]

/-- The answer is sent to the destroyed session too. -/
theorem open_sessions_destroyed :
    ¬ ∀ (pm : ProtocolManager LuaBody) (events : List Event),
        Along (step pm) (Sound pm) (State.init, []) events := by
  intro hall
  have hmap : (run sampleProto returningGuest).map (fun r =>
      ((r.1.session 2).stage,
        (step sampleProto r.1 (.command 0 (head 1 2 2 ++ guestAnswer))).map
          fun r => decide (.close 2 ∈ r.2)))
      = some (.destroyed, some true) := by
    decide
  obtain ⟨⟨g, acts⟩, hrun, hobs⟩ := Option.map_eq_some_iff.mp hmap
  simp only [Prod.mk.injEq] at hobs
  obtain ⟨hstage, hclosed⟩ := hobs
  obtain ⟨⟨g', sent⟩, hstep, hmem⟩ := Option.map_eq_some_iff.mp hclosed
  have halong := hall sampleProto (returningGuest ++
    Event.command 0 (head 1 2 2 ++ guestAnswer) :: [])
  obtain ⟨-, hsound⟩ := halong.next hrun
  exact (hsound g' sent hstep).2 (.close 2) (by simpa using hmem) 2 rfl hstage

end LibuvServer.Gateway
