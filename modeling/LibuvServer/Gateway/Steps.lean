import LibuvServer.Gateway.Gateway

/-!
# What a step can do

One lemma a handler: which sessions it enters where, and what it sends.
Closing a connection only takes entries out (`Kept`) and sends nothing.
-/

namespace LibuvServer.Gateway

open LibuvServer.Lib LibuvServer.Netbus LibuvServer.Mylua

namespace State

variable {g g' g₁ : State} {s x : SessId} {pm : ProtocolManager LuaBody} {raw : Gateway2Server}

@[simp] theorem session_modify_same (g : State) (s : SessId) (f : Session → Session) :
    (g.modify s f).session s = f (g.session s) := Function.update_self ..

theorem session_modify_of_ne (g : State) (f : Session → Session) (h : x ≠ s) :
    (g.modify s f).session x = g.session x := Function.update_of_ne h ..

/-- A field that `f` leaves alone. -/
theorem session_modify_field {α : Type} (p : Session → α) (g : State) (s x : SessId)
    (f : Session → Session) (h : ∀ y, p (f y) = p y) :
    p ((g.modify s f).session x) = p (g.session x) := by
  by_cases hx : x = s
  · subst hx
    rw [session_modify_same, h]
  · rw [session_modify_of_ne g f hx]

@[simp] theorem session_create_same (g : State) (new : Session) :
    (g.create new).session g.created = new := Function.update_self ..

theorem session_create_of_ne (g : State) (new : Session) (h : x ≠ g.created) :
    (g.create new).session x = g.session x := Function.update_of_ne h ..

/-! ## Closing -/

/-- `g'` has the sessions of `g`, some of them without their tag, and no
entry that `g` does not have. -/
structure Kept (g g' : State) : Prop where
  gKey : g'.gKey = g.gKey
  created : g'.created = g.created
  temp : ∀ t x, g'.client_temp t = some x → g.client_temp t = some x
  table : ∀ login k x, Login.table g' login k = some x → Login.table g login k = some x
  server : ∀ k x, g'.sType2Session k = some x → g.sType2Session k = some x
  utag : ∀ x, (g'.session x).utag = (g.session x).utag ∨ (g'.session x).utag = 0
  uid : ∀ x, (g'.session x).uid = (g.session x).uid
  gid : ∀ x, (g'.session x).gid = (g.session x).gid
  as_client : ∀ x, (g'.session x).as_client = (g.session x).as_client
  stage : ∀ x, (g'.session x).stage = (g.session x).stage

theorem Kept.refl (g : State) : Kept g g where
  gKey := rfl
  created := rfl
  temp _ _ h := h
  table _ _ _ h := h
  server _ _ h := h
  utag _ := .inl rfl
  uid _ := rfl
  gid _ := rfl
  as_client _ := rfl
  stage _ := rfl

theorem Kept.trans (h : Kept g g₁) (h' : Kept g₁ g') : Kept g g' where
  gKey := h'.gKey.trans h.gKey
  created := h'.created.trans h.created
  temp t x ht := h.temp t x (h'.temp t x ht)
  table login k x hk := h.table login k x (h'.table login k x hk)
  server k x hk := h.server k x (h'.server k x hk)
  utag x := by
    rcases h'.utag x with heq | hzero
    · rw [heq]
      exact h.utag x
    · exact .inr hzero
  uid x := (h'.uid x).trans (h.uid x)
  gid x := (h'.gid x).trans (h.gid x)
  as_client x := (h'.as_client x).trans (h.as_client x)
  stage x := (h'.stage x).trans (h.stage x)

/-- A change of one session that leaves alone what `Kept` looks at. -/
theorem Kept.modify (g : State) (s : SessId) (f : Session → Session)
    (hutag : ∀ y, (f y).utag = y.utag ∨ (f y).utag = 0) (huid : ∀ y, (f y).uid = y.uid)
    (hgid : ∀ y, (f y).gid = y.gid) (hclient : ∀ y, (f y).as_client = y.as_client)
    (hstage : ∀ y, (f y).stage = y.stage) : Kept g (g.modify s f) where
  gKey := rfl
  created := rfl
  temp _ _ h := h
  table login _ _ h := by
    cases login <;> exact h
  server _ _ h := h
  utag x := by
    by_cases hx : x = s
    · subst hx
      rw [session_modify_same]
      exact hutag _
    · exact .inl (by rw [session_modify_of_ne g f hx])
  uid x := session_modify_field Session.uid g s x f huid
  gid x := session_modify_field Session.gid g s x f hgid
  as_client x := session_modify_field Session.as_client g s x f hclient
  stage x := session_modify_field Session.stage g s x f hstage

/-- An entry taken out of a table. -/
theorem update_none_eq_some {κ : Type} [DecidableEq κ] {t : κ → Option SessId} {k k' : κ}
    (h : Function.update t k none k' = some x) : k' ≠ k ∧ t k' = some x := by
  by_cases hk : k' = k
  · subst hk
    rw [Function.update_self] at h
    cases h
  · rw [Function.update_of_ne hk] at h
    exact ⟨hk, h⟩

theorem Kept.dropTemp (g : State) (t : Nat) :
    Kept g { g with client_temp := Function.update g.client_temp t none } :=
  { Kept.refl g with
    temp := fun _ _ h => (update_none_eq_some h).2
    table := fun login _ _ h => by cases login <;> exact h }

theorem Kept.dropTable (g : State) (login : Login) (id : Int) :
    Kept g (login.setTable g id none) := by
  cases login with
  | guest =>
    exact { Kept.refl g with
      table := fun login _ _ h => by
        cases login with
        | guest => exact (update_none_eq_some h).2
        | user => exact h }
  | user =>
    exact { Kept.refl g with
      table := fun login _ _ h => by
        cases login with
        | guest => exact h
        | user => exact (update_none_eq_some h).2 }

theorem Kept.leaveTemp (g : State) (s : SessId) : Kept g (g.leaveTemp s) := by
  unfold State.leaveTemp
  simp only
  split
  · refine (Kept.dropTemp g _).trans (Kept.modify _ s _ ?_ ?_ ?_ ?_ ?_)
    · exact fun _ => .inr rfl
    all_goals exact fun _ => rfl
  · exact Kept.refl g

theorem Kept.leaveUid (g : State) (s : SessId) : Kept g (g.leaveUid s) := by
  unfold State.leaveUid
  simp only
  split
  · exact Kept.dropTable g .user _
  · exact Kept.refl g

theorem Kept.leaveServer (g : State) (s : SessId) : Kept g (g.leaveServer s) := by
  unfold State.leaveServer
  split
  · exact { Kept.refl g with
      server := fun _ _ h => (update_none_eq_some h).2
      table := fun login _ _ h => by cases login <;> exact h }
  · exact Kept.refl g

theorem Kept.gw_disc_session (g : State) (s : SessId) (stype : Nat) :
    Kept g (g.gw_disc_session s stype).1 := by
  unfold State.gw_disc_session
  split
  · exact Kept.leaveServer g s
  · exact (Kept.leaveTemp g s).trans (Kept.leaveUid _ s)

theorem gw_disc_session_acts (g : State) (s : SessId) (stype : Nat) :
    (g.gw_disc_session s stype).2 = [] := by
  unfold State.gw_disc_session
  split
  · rfl
  · simp only [sendMessage, Option.isSome_none, Bool.false_eq_true, if_false, ite_self]

theorem Kept.discAll (g : State) (s : SessId) (stypes : List Nat) :
    Kept g (g.discAll s stypes).1 := by
  induction stypes generalizing g with
  | nil => exact Kept.refl g
  | cons stype stypes ih => exact (Kept.gw_disc_session g s stype).trans (ih _)

theorem discAll_acts (g : State) (s : SessId) (stypes : List Nat) :
    (g.discAll s stypes).2 = [] := by
  induction stypes generalizing g with
  | nil => rfl
  | cons stype stypes ih =>
    rw [State.discAll, gw_disc_session_acts]
    exact ih _

/-- **Closing a session** takes entries out and enters nothing. -/
theorem Kept.close (g : State) (s : SessId) : Kept g (g.close s).1 := by
  unfold State.close
  split
  · exact Kept.refl g
  · simp only
    refine (Kept.discAll g s _).trans (Kept.modify _ s _ ?_ ?_ ?_ ?_ ?_)
    · exact fun _ => .inl rfl
    all_goals exact fun _ => rfl

/-- It sends nothing either. -/
@[simp] theorem close_acts (g : State) (s : SessId) : (g.close s).2 = [] := by
  unfold State.close
  split
  · rfl
  · exact discAll_acts g s _

/-- `g'` differs from `g` in the id tables and in `do_connecting` only. -/
structure SameButIds (g g' : State) : Prop where
  gKey : g'.gKey = g.gKey
  created : g'.created = g.created
  client_temp : g'.client_temp = g.client_temp
  sType2Session : g'.sType2Session = g.sType2Session
  session : g'.session = g.session

theorem SameButIds.setTable (g : State) (login : Login) (id : Int) (entry : Option SessId) :
    SameButIds g (login.setTable g id entry) := by
  cases login <;> exact ⟨rfl, rfl, rfl, rfl, rfl⟩

theorem SameButIds.identify (g : State) (s : SessId) : SameButIds g (g.identify s).1 := by
  unfold State.identify
  simp only
  split <;> split <;> exact ⟨rfl, rfl, rfl, rfl, rfl⟩

theorem SameButIds.connecting (g : State) (doing : Nat → Bool) :
    SameButIds g { g with do_connecting := doing } := ⟨rfl, rfl, rfl, rfl, rfl⟩

/-! ## Commands of clients -/

/-- A login request that is forwarded with a new tag. -/
def newTag (g : State) (login : Login) (s : SessId) : State :=
  { ({ g with gKey := g.gKey + 1 }.modify s fun x => login.setId g.gKey (x.setTag g.gKey)) with
    client_temp := Function.update g.client_temp g.gKey (some s) }

theorem newTag_session_same (g : State) (login : Login) (s : SessId) :
    (g.newTag login s).session s = login.setId g.gKey ((g.session s).setTag g.gKey) :=
  Function.update_self ..

theorem newTag_session_of_ne (g : State) (login : Login) (h : x ≠ s) :
    (g.newTag login s).session x = g.session x := Function.update_of_ne h ..

/-- A login request that is forwarded with the tag the session has. -/
def oldTag (g : State) (s : SessId) : State :=
  { g with client_temp := Function.update g.client_temp (g.session s).utag (some s) }

/-- The command in the form it is forwarded or passed on. -/
abbrev tagged (raw : Gateway2Server) (utag : Nat) : Bytes := (Raw.setTag raw utag).rawCmd

/-- **What `sendToServer` can do.** -/
inductive ToServer (g : State) (s : SessId) (raw : Gateway2Server) : State × List Act → Prop where
  | ignored : ToServer g s raw (g, [])
  | first (login : Login) (server : SessId) : g.sType2Session raw.serverType = some server →
      raw.commandType = login.request → (g.session s).utag = 0 →
      ToServer g s raw (g.newTag login s,
        [.alloction s g.gKey, .sendRawData server (tagged raw g.gKey)])
  | again (login : Login) (server : SessId) : g.sType2Session raw.serverType = some server →
      raw.commandType = login.request → (g.session s).utag ≠ 0 →
      ToServer g s raw (g.oldTag s, [.sendRawData server (tagged raw (g.session s).utag)])
  | identified (server : SessId) (utag : Nat) : g.sType2Session raw.serverType = some server →
      (∀ login : Login, raw.commandType ≠ login.request) → (g.identify s).2 = some utag →
      ToServer g s raw ((g.identify s).1, [.sendRawData server (tagged raw utag)])

theorem identify_none (h : (g.identify s).2 = none) : (g.identify s).1 = g := by
  unfold State.identify at h ⊢
  simp only [ite_eq_left_iff, reduceCtorEq, imp_false, Decidable.not_not] at h
  simp [h.1, h.2]

theorem identify_some {utag : Nat} (h : (g.identify s).2 = some utag) :
    ((g.session s).uid ≠ 0 ∨ (g.session s).gid ≠ 0) ∧
      utag = if (g.session s).gid ≠ 0 then (g.session s).gid else (g.session s).uid := by
  unfold State.identify at h
  simp only at h
  split at h
  · cases h
  · rename_i hids
    rw [Option.some.injEq] at h
    exact ⟨by omega, h.symm⟩

theorem toServer_loginRequest {server : SessId} (login : Login)
    (hserver : g.sType2Session raw.serverType = some server)
    (htype : raw.commandType = login.request) :
    ToServer g s raw ((g.loginRequest login s).1,
      (g.loginRequest login s).2.2 ++
        [.sendRawData server (tagged raw (g.loginRequest login s).2.1)]) := by
  unfold State.loginRequest
  by_cases htag : (g.session s).utag = 0
  · simp only [htag, if_true]
    exact .first login server hserver htype htag
  · simp only [htag, if_false]
    exact .again login server hserver htype htag

theorem sendToServer_cases (g : State) (s : SessId) (raw : Gateway2Server) :
    ToServer g s raw (g.sendToServer s raw) := by
  unfold State.sendToServer
  split
  · exact .ignored
  · rename_i server hserver
    split
    · exact toServer_loginRequest .guest hserver ‹_›
    · split
      · exact toServer_loginRequest .user hserver ‹_›
      · rename_i hguest huser
        have htype : ∀ login : Login, raw.commandType ≠ login.request := by
          intro login
          cases login with
          | guest => exact hguest
          | user => exact huser
        split
        · rename_i g₁ hid
          have hnone : (g.identify s).2 = none := by rw [hid]
          have hsame := identify_none hnone
          rw [hid] at hsame
          rw [show g₁ = g from hsame]
          exact .ignored
        · rename_i g₁ utag hid
          have h := ToServer.identified server utag hserver htype
            (show (g.identify s).2 = some utag by rw [hid])
          rw [hid] at h
          exact h

/-! ## Answers of servers -/

/-- The state in which a login answer looks at its body. -/
def taken (g : State) (utag : Nat) : State :=
  { g with client_temp := Function.update g.client_temp utag none }

/-- The body is a success that carries `id`. -/
def Success (login : Login) (body : LuaBody) (info : LuaInfo) (id : Int) : Prop :=
  body.guestError = some 1 ∧ body.info = some info ∧ login.id info = some id

/-- The table that tells a client it is logged in. -/
def welcome (login : Login) (raw : Gateway2Server) (body : LuaBody) (info : LuaInfo) : LuaMessage :=
  ⟨raw.serverType, raw.commandType, 0, some { body with info := some (login.hideId info) }⟩

/-- The table that tells a client it is being replaced. -/
def farewell (ctype : Nat) : LuaMessage :=
  ⟨Stype.Auth, ctype, 0, some { guestError := some GameError.eReLogin }⟩

/-- **What `replace` can do.** -/
inductive Replaced (g : State) (login : Login) (ctype : Nat) (id : Int) (client_s : SessId) :
    State × List Act → Prop where
  | nobody : (∀ old, login.table g id = some old → old = client_s) →
      Replaced g login ctype id client_s (g, [])
  | other (old : SessId) : login.table g id = some old → old ≠ client_s →
      Replaced g login ctype id client_s
        (login.setTable (g.close old).1 id none, [.sendMessage old (farewell ctype), .close old])

theorem Kept.replaced {login : Login} {ctype : Nat} {id : Int} {r : State × List Act}
    (h : Replaced g login ctype id s r) : Kept g r.1 := by
  cases h with
  | nobody _ => exact Kept.refl g
  | other old _ _ => exact (Kept.close g old).trans (Kept.dropTable _ login id)

/-- **What `sendToClient` can do.** -/
inductive ToClient (pm : ProtocolManager LuaBody) (g : State) (raw : Gateway2Server) :
    State × List Act → Prop where
  | ignored : ToClient pm g raw (g, [])
  | unsent (login : Login) : raw.commandType = login.answer →
      ToClient pm g raw (g.taken raw.tags, [])
  | passed (login : Login) (client_s : SessId) : raw.commandType = login.answer →
      g.client_temp raw.tags = some client_s →
      ToClient pm g raw (g.taken raw.tags, [.sendRawData client_s (tagged raw 0)])
  | success (login : Login) (client_s : SessId) (body : LuaBody) (info : LuaInfo) (id : Int)
      (r : State × List Act) : raw.commandType = login.answer →
      g.client_temp raw.tags = some client_s → Raw.readBody pm raw = some body →
      Success login body info id →
      Replaced (g.taken raw.tags) login raw.commandType id client_s r →
      ToClient pm g raw ((login.setTable r.1 id (some client_s)).modify client_s (login.setId id),
        r.2 ++ [.loggedIn login client_s id, .sendMessage client_s (welcome login raw body info)])

theorem replace_cases (g : State) (login : Login) (ctype : Nat) (id : Int) (client_s : SessId) :
    Replaced g login ctype id client_s (g.replace login ctype (some id) client_s) := by
  unfold State.replace index
  simp only [Option.bind_some]
  split
  · rename_i old _ hold hid
    cases hid
    by_cases hne : old ≠ client_s
    · rw [if_pos hne, close_acts]
      exact .other old hold hne
    · rw [if_neg hne]
      refine .nobody fun old' hold' => ?_
      rw [hold, Option.some.injEq] at hold'
      rw [← hold']
      exact Decidable.not_not.mp hne
  · rename_i hnone
    refine .nobody fun old hold => ?_
    exact absurd rfl (hnone old id hold)

theorem loginAnswer_cases (pm : ProtocolManager LuaBody) (g : State) {login : Login}
    {raw : Gateway2Server} (htype : raw.commandType = login.answer) :
    ToClient pm g raw (g.loginAnswer login raw (Raw.readBody pm raw)) := by
  unfold State.loginAnswer
  simp only [Raw.readHead]
  split
  · exact .unsent login htype
  · rename_i client_s hclient
    split
    · exact .unsent login htype
    · rename_i body hbody
      split
      · exact .passed login client_s htype hclient
      · rename_i herror
        split
        · exact .unsent login htype
        · rename_i info hinfo
          split
          · rename_i hid
            rw [hid]
            exact .unsent login htype
          · rename_i id hid
            have hok : Success login body info id := ⟨Decidable.not_not.mp herror, hinfo, hid⟩
            rw [hid]
            have h := ToClient.success login client_s body info id _ htype hclient hbody hok
              (replace_cases (g.taken raw.tags) login raw.commandType id client_s)
            rw [List.append_assoc]
            exact h

theorem sendToClient_cases (pm : ProtocolManager LuaBody) (g : State) (raw : Gateway2Server) :
    ToClient pm g raw (g.sendToClient pm raw) := by
  unfold State.sendToClient
  split
  · split
    · exact .ignored
    · exact loginAnswer_cases pm g ‹raw.commandType = Login.guest.answer›
  · split
    · exact loginAnswer_cases pm g ‹raw.commandType = Login.user.answer›
    · exact .ignored

/-! ## Connections to servers -/

/-- A server that is connected. -/
def opened (g : State) (stype : Nat) (s : SessId) : State :=
  { g with
    do_connecting := Function.update g.do_connecting stype true
    sType2Session := Function.update g.sType2Session stype (some s) }.modify s
    fun x => { x with stage := .reading }

/-- An attempt that has failed, before its session is closed. -/
def refused (g : State) (stype : Nat) (s : SessId) : State :=
  { g with
    do_connecting := Function.update (Function.update g.do_connecting stype true) stype false }.modify
    s fun x => { x with stage := .failed }

theorem session_opened_same (g : State) (stype : Nat) (s : SessId) :
    (g.opened stype s).session s = { g.session s with stage := .reading } :=
  Function.update_self ..

theorem session_opened_of_ne (g : State) (stype : Nat) (h : x ≠ s) :
    (g.opened stype s).session x = g.session x := Function.update_of_ne h ..

theorem session_refused_same (g : State) (stype : Nat) (s : SessId) :
    (g.refused stype s).session s = { g.session s with stage := .failed } :=
  Function.update_self ..

/-! ## Commands of any session -/

/-- The gateway is the service of every configured type, and of no other. -/
theorem gwServices_eq (i : Fin MAX_SERVICE_NUM) :
    gwServices i = if i.val ∈ servers then some gwService else none := by
  have hauth : (ServiceManager.registService ServiceManager.init 1 gwService).2 = true := rfl
  have hsystem : (ServiceManager.registService
      (ServiceManager.registService ServiceManager.init 1 gwService).1 2 gwService).2 = true := rfl
  have hset : gwServices i = ServiceManager.firstOf ServiceManager.init
      [((1 : Int), gwService), ((2 : Int), gwService)] i.val := ServiceManager.registerAll_free rfl
  have hmem : i.val ∈ servers ↔ (1 : Int) = i.val ∨ (2 : Int) = i.val := by
    simp only [servers, Stype.Auth, Stype.System, List.mem_cons, List.not_mem_nil, or_false]
    omega
  rw [hset]
  simp only [ServiceManager.firstOf, hauth, hsystem, hmem, and_true]
  by_cases hone : (1 : Int) = i.val
  · simp [hone]
  · simp [hone]

end State

/-! ## Events -/

open State

/-- **What an event can do.** -/
inductive Stepped (pm : ProtocolManager LuaBody) (g : State) : Event → State × List Act → Prop where
  | accept : Stepped pm g .accept (g.create { stage := .reading }, [])
  | timer : Stepped pm g .timer (g.checkConnected, [])
  | connected (s : SessId) (stype : Nat) : (g.session s).stage = .connecting stype →
      Stepped pm g (.connected s false) (g.opened stype s, [])
  | failed (s : SessId) (stype : Nat) : (g.session s).stage = .connecting stype →
      Stepped pm g (.connected s true) (((g.refused stype s).close s).1, [])
  | short (s : SessId) (cmd : Bytes) : Stepped pm g (.command s cmd) (g, [])
  | client (s : SessId) (cmd : Bytes) (raw : Gateway2Server) (r : State × List Act) :
      (g.session s).stage = .reading → decodeMsgHead cmd cmd.length = some raw →
      raw.serverType ∈ servers → (g.session s).as_client = 0 → ToServer g s raw r →
      Stepped pm g (.command s cmd) r
  | server (s : SessId) (cmd : Bytes) (raw : Gateway2Server) (r : State × List Act) :
      decodeMsgHead cmd cmd.length = some raw → raw.serverType ∈ servers →
      (g.session s).as_client ≠ 0 → ToClient pm g raw r → Stepped pm g (.command s cmd) r
  | unserved (s : SessId) (cmd : Bytes) (raw : Gateway2Server) :
      (g.session s).stage = .reading → decodeMsgHead cmd cmd.length = some raw →
      raw.serverType ∉ servers →
      Stepped pm g (.command s cmd) ((g.close s).1, [])
  | lost (s : SessId) : (g.session s).stage = .reading →
      Stepped pm g (.lost s) ((g.close s).1, [])
  | destroy (s : SessId) : (g.session s).isShotdown = true → (g.session s).stage ≠ .absent →
      Stepped pm g (.destroy s) (g.modify s fun x => { x with stage := .destroyed }, [])

section Stepped

variable {pm : ProtocolManager LuaBody} {g : State} {s : SessId} {cmd : Bytes}
  {r : State × List Act}

theorem recv_cases (hreading : (g.session s).stage = .reading) (h : g.recv pm s cmd = some r) :
    Stepped pm g (.command s cmd) r := by
  unfold State.recv RecCommand at h
  cases hhead : decodeMsgHead cmd cmd.length with
  | none =>
    simp only [hhead, handle, Bool.false_eq_true, if_false, Option.some.injEq] at h
    rw [← h]
    exact .short s cmd
  | some raw =>
    simp only [hhead, ServiceManager.recvCmdMsg, ServiceManager.slot] at h
    by_cases hslot : raw.serverType < MAX_SERVICE_NUM
    · simp only [dif_pos hslot, gwServices_eq] at h
      by_cases hserved : raw.serverType ∈ servers
      · simp only [if_pos hserved, gwService, if_true, Bool.not_true, Bool.false_eq_true, if_false,
          handle, List.append_nil, Option.some.injEq] at h
        rw [← h, gw_repeaterSession]
        split
        · rename_i hclient
          exact .client s cmd raw _ hreading hhead hserved hclient (sendToServer_cases g s raw)
        · rename_i hclient
          exact .server s cmd raw _ hhead hserved hclient (sendToClient_cases pm g raw)
      · simp only [if_neg hserved, Bool.not_false, if_true, handle, close_acts, List.append_nil,
          Option.some.injEq] at h
        rw [← h]
        exact .unserved s cmd raw hreading hhead hserved
    · simp only [dif_neg hslot] at h
      cases h

theorem step_cases {e : Event} (h : step pm g e = some r) : Stepped pm g e r := by
  cases e with
  | accept =>
    cases h
    exact .accept
  | timer =>
    cases h
    exact .timer
  | connected s err =>
    simp only [step] at h
    split at h
    · rename_i stype hstage
      cases err with
      | false =>
        cases h
        exact .connected s stype hstage
      | true =>
        cases h
        have hfailed : Stepped pm g (.connected s true) (((g.refused stype s).close s).1, []) :=
          .failed s stype hstage
        rwa [← close_acts (g.refused stype s) s] at hfailed
    · cases h
  | command s cmd =>
    simp only [step] at h
    split at h
    · exact recv_cases ‹_› h
    · cases h
  | lost s =>
    simp only [step] at h
    split at h
    · rename_i hreading
      cases h
      have hlost : Stepped pm g (.lost s) ((g.close s).1, []) := .lost s hreading
      rwa [← close_acts g s] at hlost
    · cases h
  | destroy s =>
    simp only [step] at h
    split at h
    · rename_i hshut
      cases h
      refine .destroy s hshut.1 ?_
      rcases hshut.2 with hstage | hstage <;> simp [hstage]
    · cases h

end Stepped

end LibuvServer.Gateway
