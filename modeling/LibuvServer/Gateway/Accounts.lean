import LibuvServer.Gateway.Identities

/-!
# One session for each account

Whether an id is held by one open client at a time, and the id tables agree
with the sessions. An answer closes the session that is entered under its id,
but tags are put where ids go and can be another client's id, a session that
gets a new id stays entered under the one it had, and one that has left stays
entered until somebody else has its block. `Apart` says that none of these
comes to pass.
-/

namespace LibuvServer.Gateway

open LibuvServer.Lib LibuvServer.Netbus LibuvServer.Mylua State

/-! ## What is said of a run -/

def OpenClient (x : Session) : Prop := x.as_client = 0 ∧ Live x

/-- Open clients have different ids, and whoever is entered under an id has it. -/
structure OneSession (g : State) : Prop where
  distinct : ∀ (login : Login) s s', OpenClient (g.session s) → OpenClient (g.session s') →
    login.current (g.session s) = login.current (g.session s') →
    login.current (g.session s) ≠ 0 → s = s'
  held : ∀ (login : Login) k s, login.table g k = some s → (login.current (g.session s) : Int) = k

/-- No open client but `s` and the one that is evicted has the id that `s`
is about to get, and `s` is entered under no other. -/
def Clear (g : State) (login : Login) (s : SessId) (id : Int) (evicted : Option SessId) : Prop :=
  (∀ x, OpenClient (g.session s) → OpenClient (g.session x) → toUnsigned id ≠ 0 →
    login.current (g.session x) = toUnsigned id → x = s ∨ evicted = some x) ∧
  ∀ k, login.table g k = some s → k = toUnsigned id

/-- A session that gets a tag, or an id from a server, gets one that is clear. -/
def ApartCommand (pm : ProtocolManager LuaBody) (g : State) (s : SessId)
    (raw : Gateway2Server) : Prop :=
  (∀ login : Login, (g.session s).as_client = 0 → raw.commandType = login.request →
    (g.sType2Session raw.serverType).isSome → (g.session s).utag = 0 →
    Clear g login s g.gKey none) ∧
  ∀ (login : Login) client_s body info id, (g.session s).as_client ≠ 0 →
    raw.commandType = login.answer → g.client_temp raw.tags = some client_s →
    Raw.readBody pm raw = some body → Success login body info id →
    (toUnsigned id : Int) = id ∧ Clear g login client_s id (login.table g id)

/-- No id is left under which the session that had the block before is entered. -/
def Forgotten (g : State) (s : SessId) : Prop :=
  ∀ (login : Login) k, login.table g k = some s → k = 0

def Apart (pm : ProtocolManager LuaBody) (c : State × List BlockEntry) : BlockEvent → Prop
  | .accept s => Forgotten c.1 s
  | .timer block => ∀ stype, c.1.sType2Session stype = none → c.1.do_connecting stype = false →
      Forgotten c.1 (block stype)
  | .command s cmd => (c.1.session s).stage = .reading →
      ∀ raw, decodeMsgHead cmd cmd.length = some raw → raw.serverType ∈ servers →
        ApartCommand pm c.1 s raw
  | .connected _ _ | .lost _ | .destroy _ => True

/-! ## What keeps the ids -/

/-- No session gets another id, and none is entered under an id it does not have. -/
structure OpenKept (g g' : State) : Prop where
  opened : ∀ x, OpenClient (g'.session x) → OpenClient (g.session x)
  current : ∀ (login : Login) x, login.current (g'.session x) = login.current (g.session x)
  table : ∀ (login : Login) k x, login.table g' k = some x →
    login.table g k = some x ∨ (login.current (g.session x) : Int) = k

section Accounts

variable {pm : ProtocolManager LuaBody} {g g' : State} {s x : SessId} {raw : Gateway2Server}

theorem State.Kept.openKept (h : Kept g g')
    (hshut : ∀ x, (g'.session x).isShotdown = false → (g.session x).isShotdown = false) :
    OpenKept g g' where
  opened x hx := by
    rw [OpenClient, Live, h.as_client, h.stage] at hx
    exact ⟨hx.1, hx.2.1, hshut x hx.2.2⟩
  current login x := by
    cases login with
    | guest => exact h.gid x
    | user => exact h.uid x
  table login k x hk := .inl (h.table login k x hk)

/-- A closed session was open or closed before. -/
theorem shut_of_close (h : ((g.close s).1.session x).isShotdown = false) :
    (g.session x).isShotdown = false := by
  rw [close_isShotdown, Bool.or_eq_false_iff] at h
  exact h.2

theorem OneSession.kept (h : OneSession g) (hk : OpenKept g g') : OneSession g' where
  distinct login s s' hs hs' heq hne := by
    rw [hk.current, hk.current] at heq
    rw [hk.current] at hne
    exact h.distinct login s s' (hk.opened s hs) (hk.opened s' hs') heq hne
  held login k s hs := by
    rw [hk.current]
    exact (hk.table login k s hs).elim (h.held login k s) fun hown => hown

/-- **A session gets an id.** -/
theorem OneSession.take (h : OneSession g) (s : SessId) (login : Login) (n : Nat)
    (hself : login.current (g'.session s) = n)
    (hother : ∀ (login' : Login) x, x ≠ s ∨ login' ≠ login →
      login'.current (g'.session x) = login'.current (g.session x))
    (hopen : ∀ x, OpenClient (g'.session x) → OpenClient (g.session x))
    (hfree : ∀ x, OpenClient (g'.session s) → OpenClient (g'.session x) → n ≠ 0 →
      login.current (g.session x) = n → x = s)
    (htable : ∀ (login' : Login) k x, login'.table g' k = some x →
      x ≠ s ∨ login' ≠ login → login'.table g k = some x)
    (hkeys : ∀ k, login.table g' k = some s → k = n) : OneSession g' where
  distinct login' x x' hx hx' heq hne := by
    by_cases hlogin : login' = login
    · subst hlogin
      -- either of the two may be the session that has got the id
      by_cases hxs : x = s <;> by_cases hxs' : x' = s
      · rw [hxs, hxs']
      · subst hxs
        rw [hself] at heq hne
        rw [hother login' x' (.inl hxs')] at heq
        exact (hfree x' hx hx' hne heq.symm).symm
      · subst hxs'
        rw [heq, hself] at hne
        rw [hself, hother login' x (.inl hxs)] at heq
        exact hfree x hx' hx hne heq
      · rw [hother login' x (.inl hxs), hother login' x' (.inl hxs')] at heq
        rw [hother login' x (.inl hxs)] at hne
        exact h.distinct login' x x' (hopen x hx) (hopen x' hx') heq hne
    · rw [hother login' x (.inr hlogin), hother login' x' (.inr hlogin)] at heq
      rw [hother login' x (.inr hlogin)] at hne
      exact h.distinct login' x x' (hopen x hx) (hopen x' hx') heq hne
  held login' k x hx := by
    by_cases hsame : x = s ∧ login' = login
    · obtain ⟨rfl, rfl⟩ := hsame
      rw [hself, hkeys k hx]
    · have hne : x ≠ s ∨ login' ≠ login := by
        by_cases hxs : x = s
        · exact .inr fun hlogin => hsame ⟨hxs, hlogin⟩
        · exact .inl hxs
      rw [hother login' x hne]
      exact h.held login' k x (htable login' k x hx hne)

/-- A session that is created has no id, and nothing is left of the one that
had its block. -/
theorem OneSession.create (h : OneSession g) (hforgotten : Forgotten g s) {new : Session}
    (hnew : ∀ login : Login, login.current new = 0) : OneSession (g.createIn s new) := by
  have hone : ∀ (login : Login) x, login.current ((g.createIn s new).session x) ≠ 0 → x ≠ s := by
    rintro login x hx rfl
    rw [session_createIn_same] at hx
    exact hx (hnew login)
  constructor
  · intro login x x' hx hx' heq hne
    have hnes : x ≠ s := hone login x hne
    have hnes' : x' ≠ s := hone login x' (by rwa [← heq])
    rw [session_createIn_of_ne g new hnes] at hx heq hne
    rw [session_createIn_of_ne g new hnes'] at hx' heq
    exact h.distinct login x x' hx hx' heq hne
  · intro login k x hx
    have hentered : login.table g k = some x := by
      cases login <;> exact hx
    by_cases hnes : x = s
    · subst hnes
      rw [session_createIn_same, hnew, hforgotten login k hentered]
      rfl
    · rw [session_createIn_of_ne g new hnes]
      exact h.held login k x hentered

/-! ## Commands -/

theorem current_setId_of_ne {login login' : Login} (h : login' ≠ login) (id : Int) (y : Session) :
    login'.current (login.setId id y) = login'.current y := by
  cases login <;> cases login' <;> first | exact absurd rfl h | rfl

/-- A session that is given a tag. -/
theorem OneSession.newTag (h : OneSession g) {login : Login}
    (hclear : Clear g login s g.gKey none) : OneSession (g.newTag login s) := by
  have hlife := LifeKept.newTag g login s
  have hopen : ∀ x, OpenClient ((g.newTag login s).session x) → OpenClient (g.session x) := by
    intro x hx
    rw [OpenClient, Live, hlife.as_client, hlife.stage, hlife.isShotdown] at hx
    exact hx
  have htable : ∀ (login' : Login), login'.table (g.newTag login s) = login'.table g := by
    intro login'
    cases login' <;> rfl
  refine h.take s login (toUnsigned g.gKey) ?_ ?_ hopen ?_ ?_ ?_
  · rw [newTag_session_same]
    exact Login.current_setId ..
  · rintro login' x hne
    by_cases hx : x = s
    · subst hx
      have hlogin : login' ≠ login := hne.resolve_left fun hx => hx rfl
      rw [newTag_session_same, current_setId_of_ne hlogin]
      cases login' <;> rfl
    · rw [newTag_session_of_ne g login hx]
  · intro x hs hx hne hsame
    exact (hclear.1 x (hopen s hs) (hopen x hx) hne hsame).resolve_right nofun
  · intro login' k x hx _
    rwa [htable] at hx
  · intro k hk
    rw [htable] at hk
    exact hclear.2 k hk

/-- A session is entered under the ids it has. -/
theorem identify_table {login : Login} {k : Int} (hk : login.table (g.identify s).1 k = some x) :
    login.table g k = some x ∨ (login.current (g.session x) : Int) = k := by
  have hset : ∀ (g₁ : State) (login' : Login),
      login.table (login'.setTable g₁ (login'.current (g.session s)) (some s)) k = some x →
      login.table g₁ k = some x ∨ (login.current (g.session x) : Int) = k := by
    intro g₁ login' hset
    rcases setTable_eq_some hset with ⟨rfl, rfl, rfl⟩ | hold
    · exact .inr rfl
    · exact .inl hold
  unfold State.identify at hk
  simp only at hk
  have huser : ∀ {g₁ : State}, g₁ = (if (g.session s).uid ≠ 0 then
      Login.user.setTable g (g.session s).uid (some s) else g) →
      login.table g₁ k = some x → login.table g k = some x ∨
        (login.current (g.session x) : Int) = k := by
    rintro g₁ rfl hold
    split at hold
    · exact hset g .user hold
    · exact .inl hold
  split at hk
  · exact (hset _ .guest hk).elim (huser rfl) .inr
  · exact huser rfl hk

theorem OpenKept.identify (g : State) (s : SessId) : OpenKept g (g.identify s).1 where
  opened x hx := by
    rw [(SameButIds.identify g s).session] at hx
    exact hx
  current login x := by rw [(SameButIds.identify g s).session]
  table _ _ _ hk := identify_table hk

/-- **A client's command** gives out a tag that is clear, or no id at all. -/
theorem OneSession.toServer (h : OneSession g) {r : State × List Act} (hr : ToServer g s raw r)
    (hclient : (g.session s).as_client = 0) (hapart : ApartCommand pm g s raw) :
    OneSession r.1 := by
  cases hr with
  | ignored => exact h
  | first login server hserver htype htag =>
    exact h.newTag (hapart.1 login hclient htype (by rw [hserver]; rfl) htag)
  | again login server _ _ _ =>
    refine h.kept ⟨fun _ hx => hx, fun _ _ => rfl, fun login _ _ hk => .inl ?_⟩
    cases login <;> exact hk
  | identified server utag _ _ _ => exact h.kept (OpenKept.identify g s)

/-! ## Answers -/

/-- **Replacing the session of an account** leaves no other open client with its id. -/
theorem replaced_open {login : Login} {ctype : Nat} {id : Int} {r : State × List Act}
    (hr : Replaced g login ctype id s r) :
    (∀ x, (r.1.session x).isShotdown = false → (g.session x).isShotdown = false) ∧
      ∀ x, login.table g id = some x → OpenClient (r.1.session x) → x = s := by
  cases hr with
  | nobody hsame => exact ⟨fun _ hx => hx, fun x hx _ => hsame x hx⟩
  | other old hold _ =>
    have hsession : (login.setTable (g.close old).1 id none).session = (g.close old).1.session := by
      cases login <;> rfl
    rw [hsession]
    refine ⟨fun x hx => shut_of_close hx, fun x hx hopen => ?_⟩
    rw [hold, Option.some.injEq] at hx
    subst hx
    have hshut := hopen.2.2
    simp [close_isShotdown] at hshut

/-- A session that has logged in under an id that is clear. -/
theorem OneSession.success (h : OneSession g) {login : Login} {ctype : Nat} {id : Int}
    {r : State × List Act} (hr : Replaced g login ctype id s r)
    (hid : (toUnsigned id : Int) = id) (hclear : Clear g login s id (login.table g id)) :
    OneSession ((login.setTable r.1 id (some s)).modify s (login.setId id)) := by
  have hkept := Kept.replaced hr
  obtain ⟨hshut, hevicted⟩ := replaced_open hr
  have hreplaced := hkept.openKept hshut
  have hlife := LifeKept.loggedIn r.1 login id s
  have hopen : ∀ x,
      OpenClient (((login.setTable r.1 id (some s)).modify s (login.setId id)).session x) →
        OpenClient (r.1.session x) := by
    intro x hx
    rw [OpenClient, Live, hlife.as_client, hlife.stage, hlife.isShotdown] at hx
    exact hx
  have hsession : (login.setTable r.1 id (some s)).session = r.1.session := by
    cases login <;> rfl
  have htable : ∀ (login' : Login) k x,
      login'.table ((login.setTable r.1 id (some s)).modify s (login.setId id)) k = some x →
      (login' = login ∧ k = id ∧ x = s) ∨ login'.table r.1 k = some x := by
    intro login' k x hk
    refine setTable_eq_some ?_
    cases login' <;> exact hk
  refine (h.kept hreplaced).take s login (toUnsigned id) ?_ ?_ hopen ?_ ?_ ?_
  · rw [session_modify_same]
    exact Login.current_setId ..
  · rintro login' x hne
    by_cases hx : x = s
    · subst hx
      have hlogin : login' ≠ login := hne.resolve_left fun hx => hx rfl
      rw [session_modify_same, current_setId_of_ne hlogin, hsession]
    · rw [session_modify_of_ne _ _ hx, hsession]
  · intro x hs hx hne hsame
    rw [hreplaced.current] at hsame
    -- whoever else has the id was entered under it, and has just been closed
    have hcases := hclear.1 x (hreplaced.opened s (hopen s hs)) (hreplaced.opened x (hopen x hx))
      hne hsame
    exact hcases.elim (fun hxs => hxs) fun hentry => hevicted x hentry (hopen x hx)
  · intro login' k x hk hne
    rcases htable login' k x hk with ⟨rfl, -, rfl⟩ | hold
    · exact absurd rfl (hne.resolve_left fun hx => hx rfl)
    · exact hold
  · intro k hk
    rcases htable login k s hk with ⟨-, rfl, -⟩ | hold
    · exact hid.symm
    · exact hclear.2 k (hkept.table login k s hold)

/-- **A server's command** gives an id that is clear, or none. -/
theorem OneSession.toClient (h : OneSession g) {r : State × List Act} (hr : ToClient pm g raw r)
    (hserver : (g.session s).as_client ≠ 0) (hapart : ApartCommand pm g s raw) :
    OneSession r.1 := by
  have htaken : OneSession (g.taken raw.tags) :=
    h.kept ((Kept.dropTemp g raw.tags).openKept fun _ hx => hx)
  cases hr with
  | ignored => exact h
  | unsent _ _ => exact htaken
  | passed _ _ _ _ => exact htaken
  | success login client_s body info id r htype hholds hbody hok hr =>
    obtain ⟨hid, hclear⟩ := hapart.2 login client_s body info id hserver htype hholds hbody hok
    refine htaken.success hr hid ?_
    cases login <;> exact hclear

/-! ## Steps -/

theorem OpenKept.connected (hserver : (g.session s).as_client = 1) {stype : Nat} :
    OpenKept g (g.opened stype s) := by
  have hcurrent : ∀ (login : Login) x,
      login.current ((g.opened stype s).session x) = login.current (g.session x) :=
    fun login x => session_modify_field login.current g s x (fun y => { y with stage := .reading })
      fun _ => by cases login <;> rfl
  refine ⟨fun x hx => ?_, hcurrent, fun login _ _ hk => .inl (by cases login <;> exact hk)⟩
  by_cases hne : x = s
  · have hclient := hx.1
    rw [hne, session_opened_same] at hclient
    change (g.session s).as_client = 0 at hclient
    omega
  · rwa [session_opened_of_ne g stype hne] at hx

/-- A session whose stage becomes one in which it is not read. -/
theorem OpenKept.ended (stage : Stage)
    (hsession : g'.session = (g.modify s fun x => { x with stage := stage }).session)
    (hstage : stage ≠ .reading)
    (htable : ∀ login : Login, login.table g' = login.table g) : OpenKept g g' where
  opened x hx := by
    rw [hsession] at hx
    by_cases hne : x = s
    · rw [hne, session_modify_same] at hx
      exact absurd hx.2.1 hstage
    · rwa [session_modify_of_ne g _ hne] at hx
  current login x := by
    rw [hsession]
    refine session_modify_field login.current g s x (fun y => { y with stage := stage }) fun y => ?_
    cases login <;> rfl
  table login k x hk := by
    rw [htable] at hk
    exact .inl hk

theorem OpenKept.close (g : State) (s : SessId) : OpenKept g (g.close s).1 :=
  (Kept.close g s).openKept fun _ hx => shut_of_close hx

/-- The sessions that `tcp_connect` has created are no clients. -/
def ServersOk (g : State) : Prop :=
  ∀ s stype, (g.session s).stage = .connecting stype → (g.session s).as_client = 1

theorem ServersOk.create (h : ServersOk g) (s : SessId) {new : Session}
    (hnew : ∀ stype, new.stage = .connecting stype → new.as_client = 1) :
    ServersOk (g.createIn s new) := by
  intro x stype hx
  by_cases hxs : x = s
  · subst hxs
    rw [session_createIn_same] at hx ⊢
    exact hnew stype hx
  · rw [session_createIn_of_ne g new hxs] at hx ⊢
    exact h x stype hx

/-- A session gets no connection to wait for. -/
theorem ServersOk.kept (h : ServersOk g)
    (hclient : ∀ x, (g'.session x).as_client = (g.session x).as_client)
    (hstage : ∀ x stype, (g'.session x).stage = .connecting stype →
      (g.session x).stage = .connecting stype) : ServersOk g' := by
  intro x stype hx
  rw [hclient]
  exact h x stype (hstage x stype hx)

theorem State.Kept.serversOk (hk : Kept g g') (h : ServersOk g) : ServersOk g' :=
  h.kept hk.as_client fun x stype hx => by rwa [hk.stage] at hx

theorem LifeKept.serversOk (hk : LifeKept g g') (h : ServersOk g) : ServersOk g' :=
  h.kept hk.as_client fun x stype hx => by rwa [hk.stage] at hx

/-- A session whose stage changes to one in which it does not wait. -/
theorem ServersOk.stage (h : ServersOk g) (stage : Stage)
    (hsession : g'.session = (g.modify s fun x => { x with stage := stage }).session)
    (hne : ∀ stype, stage ≠ .connecting stype) : ServersOk g' := by
  intro x stype hx
  rw [hsession] at hx ⊢
  by_cases hxs : x = s
  · subst hxs
    rw [session_modify_same] at hx
    exact absurd hx (hne stype)
  · rw [session_modify_of_ne g _ hxs] at hx ⊢
    exact h x stype hx

theorem reading_of_command {cmd : Bytes} {r : State × List Act}
    (h : step pm g (.command s cmd) = some r) : (g.session s).stage = .reading := by
  simp only [Gateway.step] at h
  split at h
  · assumption
  · cases h

theorem ServersOk.command (h : ServersOk g) {cmd : Bytes} {r : State × List Act}
    (hstep : step pm g (.command s cmd) = some r) : ServersOk r.1 := by
  cases step_cases hstep with
  | short _ _ => exact h
  | client s cmd raw r _ _ _ _ hr =>
    cases hr with
    | ignored => exact h
    | first login server _ _ _ => exact (LifeKept.newTag g login s).serversOk h
    | again login server _ _ _ => exact (LifeKept.oldTag g s).serversOk h
    | identified server utag _ _ _ => exact (SameButIds.identify g s).lifeKept.serversOk h
  | server s cmd raw r _ _ _ hr =>
    have htaken := (LifeKept.taken g raw.tags).serversOk h
    cases hr with
    | ignored => exact h
    | unsent _ _ => exact htaken
    | passed _ _ _ _ => exact htaken
    | success login client_s body info id r _ _ _ _ hr =>
      exact (LifeKept.loggedIn r.1 login id client_s).serversOk
        ((Kept.replaced hr).serversOk htaken)
  | unserved s cmd raw _ _ _ => exact (Kept.close g s).serversOk h

/-- The ids are as they should be, and so are the connections to servers. -/
structure AccountsOk (g : State) : Prop where
  one : OneSession g
  servers : ServersOk g

/-- **What happens to a session** keeps the accounts, when its ids are clear. -/
theorem AccountsOk.session (h : AccountsOk g) {e : BlockEvent} {e' : Event}
    {trace : List BlockEntry} {r : State × List Act} (hapart : Apart pm (g, trace) e)
    (he : e.toSession = some e') (hstep : step pm g e' = some r) : AccountsOk r.1 := by
  cases e with
  | accept _ | timer _ => cases he
  | connected s err =>
    cases he
    cases step_cases hstep with
    | connected _ stype hstage =>
      exact ⟨h.one.kept (OpenKept.connected (h.servers s stype hstage)),
        h.servers.stage .reading rfl (by simp)⟩
    | failed _ stype hstage =>
      have hrefused : OpenKept g (g.refused stype s) :=
        OpenKept.ended .failed rfl (by simp) fun login => by cases login <;> rfl
      exact ⟨(h.one.kept hrefused).kept (OpenKept.close _ s),
        (Kept.close _ s).serversOk (h.servers.stage .failed rfl (by simp))⟩
  | command s cmd =>
    cases he
    refine ⟨?_, h.servers.command hstep⟩
    have hreading := reading_of_command hstep
    cases step_cases hstep with
    | short _ _ => exact h.one
    | client _ _ raw r _ hhead hserved hclient hr =>
      exact h.one.toServer hr hclient (hapart hreading raw hhead hserved)
    | server _ _ raw r hhead hserved hserver hr =>
      exact h.one.toClient hr hserver (hapart hreading raw hhead hserved)
    | unserved _ _ raw _ _ _ => exact h.one.kept (OpenKept.close g s)
  | lost s =>
    cases he
    cases step_cases hstep with
    | lost _ _ => exact ⟨h.one.kept (OpenKept.close g s), (Kept.close g s).serversOk h.servers⟩
  | destroy s =>
    cases he
    cases step_cases hstep with
    | destroy _ _ _ =>
      exact ⟨h.one.kept (OpenKept.ended .destroyed rfl (by simp) fun login => by
        cases login <;> rfl), h.servers.stage .destroyed rfl (by simp)⟩

/-- **Every event** whose ids are clear keeps the accounts. -/
theorem AccountsOk.record {c c' : State × List BlockEntry} {e : BlockEvent} (h : AccountsOk c.1)
    (hapart : Apart pm c e) (hrecord : Lib.record (blockStep pm) c e = some c') :
    AccountsOk c'.1 := by
  refine blockStep_invariant (I := fun c => AccountsOk c.1) ?_ ?_ ?_ h hrecord
  · rintro s rfl
    exact ⟨h.one.create hapart fun login => by cases login <;> rfl,
      h.servers.create s fun stype hstype => by cases hstype⟩
  · rintro block rfl g trace stype hpassing hg hnone hdoing
    have hforgotten : Forgotten g (block stype) := by
      intro login k
      rw [hpassing.table]
      rw [hpassing.server] at hnone
      exact hapart stype hnone (hpassing.doing stype hdoing) login k
    have hdone : OneSession { g with
        do_connecting := Function.update g.do_connecting stype true } := by
      refine hg.one.kept ⟨fun _ hx => hx, fun _ _ => rfl, fun login _ _ hk => .inl ?_⟩
      cases login <;> exact hk
    refine ⟨hdone.create ?_ fun login => by cases login <;> rfl,
      ServersOk.create hg.servers _ fun _ _ => rfl⟩
    intro login k
    cases login with
    | guest => exact hforgotten .guest k
    | user => exact hforgotten .user k
  · exact fun he hstep => h.session hapart he hstep

theorem AccountsOk.init : AccountsOk State.init where
  one :=
    { distinct := fun login _ _ _ _ _ hne => by cases login <;> exact absurd rfl hne
      held := fun login _ _ h => by cases login <;> cases h }
  servers _ _ h := by cases h

end Accounts

/-- **Accounts.** In every run in which sessions get ids that are clear, and
blocks that nothing refers to, no account is held by two open clients, and the
tables agree with the sessions. -/
theorem accounts {pm : ProtocolManager LuaBody} {events : List BlockEvent} {g : State}
    {trace : List BlockEntry} (hapart : Along (blockStep pm) (Apart pm) (State.init, []) events)
    (hrun : blockRun pm events = some (g, trace)) : OneSession g := by
  have hok : AccountsOk g := run_invariant (I := fun c : State × List BlockEntry => AccountsOk c.1)
    (fun _ _ _ h hclear hrecord => h.record hclear hrecord) AccountsOk.init hapart hrun
  exact hok.one

/-- Two guests log in, and one of them is answered. -/
def twoGuests : List BlockEvent :=
  twoBlocks ++ [.command 2 (head 1 1 0), .command 3 (head 1 1 0),
    .command 0 (head 1 2 1 ++ guestAnswer)]

theorem accounts_two :
    ∃ g trace, blockRun sampleProto twoGuests = some (g, trace) ∧ OneSession g := by
  have hsome : (blockRun sampleProto twoGuests).isSome := by decide
  obtain ⟨⟨g, trace⟩, hrun⟩ := Option.isSome_iff_exists.mp hsome
  refine ⟨g, trace, hrun, accounts ?_ hrun⟩
  have hnobody : ∀ {g : State}, g.client_gid = (fun _ => none) → g.client_uid = (fun _ => none) →
      ∀ s, Forgotten g s := by
    intro g hgid huid s login k hk
    cases login with
    | guest =>
      change g.client_gid k = some s at hk
      rw [hgid] at hk
      cases hk
    | user =>
      change g.client_uid k = some s at hk
      rw [huid] at hk
      cases hk
  refine .cons (fun _ _ _ => hnobody rfl rfl _) rfl (.cons trivial rfl ?_)
  refine .cons (hnobody rfl rfl _) rfl (.cons (hnobody rfl rfl _) rfl ?_)
  refine .cons ?_ rfl (.cons ?_ rfl (.cons ?_ rfl trivial))
  · rintro - raw hraw -
    cases hraw
    refine ⟨fun login _ htype _ _ => ?_, fun _ _ _ _ _ hserver => absurd rfl hserver⟩
    refine ⟨fun x _ _ _ hx => ?_, fun k hk => by cases login <;> cases hk⟩
    rcases x with _ | _ | _ | _ | x <;> cases login <;> cases hx
  · rintro - raw hraw -
    cases hraw
    refine ⟨fun login _ htype _ _ => ?_, fun _ _ _ _ _ hserver => absurd rfl hserver⟩
    refine ⟨fun x _ _ _ hx => ?_, fun k hk => by cases login <;> cases hk⟩
    rcases x with _ | _ | _ | _ | x <;> cases login <;> cases hx
  · rintro - raw hraw -
    cases hraw
    refine ⟨fun login hclient => absurd hclient (by decide), ?_⟩
    rintro login client_s body info id - htype hholds hbody ⟨-, hinfo, hid⟩
    cases hholds
    cases hbody
    cases hinfo
    cases login with
    | guest =>
      cases hid
      refine ⟨rfl, fun x _ _ _ hx => ?_, fun k hk => by cases hk⟩
      rcases x with _ | _ | _ | _ | x <;> cases hx
    | user => cases hid

/-- A command that a client sends before its login is answered. -/
def hastyGuest : List BlockEvent :=
  twoBlocks ++ [.command 2 (head 1 1 0), .command 2 (head 1 5 0),
    .command 0 (head 1 2 1 ++ guestAnswer)]

/-- The guest stays entered under its tag. -/
theorem accounts_hasty : ¬ ∀ (pm : ProtocolManager LuaBody) (events : List BlockEvent) (g : State)
    (trace : List BlockEntry), blockRun pm events = some (g, trace) → OneSession g := by
  intro hall
  have hmap : (blockRun sampleProto hastyGuest).map
      (fun r => (r.1.client_gid 1, (r.1.session 2).gid)) = some (some 2, 77) := by
    decide
  obtain ⟨⟨g, trace⟩, hrun, hobs⟩ := Option.map_eq_some_iff.mp hmap
  simp only [Prod.mk.injEq] at hobs
  have hheld := (hall sampleProto hastyGuest g trace hrun).held .guest 1 2 hobs.1
  change ((g.session 2).gid : Int) = 1 at hheld
  rw [hobs.2] at hheld
  cases hheld

end LibuvServer.Gateway
