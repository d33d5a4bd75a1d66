import LibuvServer.Deployment.ClientAnswers
import LibuvServer.Deployment.GuestMessages
import Mathlib.Tactic.Common

/-!
# Who a guest is told to be

Every answer the gateway acts on goes back to a guest login that the client
itself has sent, over the bytes of the request, a select at the auth service
and the bytes of the reply. The client is logged in as the guest of the row
that was selected for it and is told the fields of that row, but for the id;
if the row is frozen it is told so and nothing else happens.
-/

namespace LibuvServer.Deployment

open LibuvServer.Lib LibuvServer.Netbus LibuvServer.Mylua LibuvServer.Protobuf
open LibuvServer.Gateway (SessId Assigned TagsOk)
open LibuvServer.Gateway.State (tagged farewell)
open LibuvServer.Auth (GuestRow)
open LibuvServer.Protobuf.MessageType (guestLoginReq guestLoginRes)

/-! ## Where things come from -/

/-- The session has the tag, and has sent a guest login with these bytes. -/
def Sent (past : List Event) (as : List Gateway.Act) (s : SessId) (t : Nat) (data : Bytes) : Prop :=
  Assigned as t s ∧ ∃ cmd, .gateway (.command s cmd) ∈ past ∧
    cmdCommandType cmd = Gateway.Ctype.eGuestLoginReq ∧ cmd.drop COMMAND_HEAD = data

/-- The auth service has read a guest login of the session, and the row came
first in the result of its select. -/
def Selected (past : List Event) (trace : List Entry) (s : SessId) (t : Nat) (row : GuestRow) :
    Prop :=
  ∃ data n a msg rest, Sent past (acts trace) s t data ∧
    .received n a msg true ∈ heard trace ∧ msg.tags = t ∧
    msg.body = (guestLoginReq.ParseFromArray data).map pushedReq ∧
    .result n (.rows (row :: rest)) ∈ heard trace

/-- The command that tells a client its guest is frozen. -/
def frozenAnswer : Bytes :=
  encodeHead Gateway.Stype.Auth Gateway.Ctype.eGuestLoginRes 0 ++
    guestLoginRes.InternalSerialize (some (-3), none, .nil)

/-- The table that welcomes a guest: its id is 0 there. -/
def guestWelcome (i : Auth.GuestInfo) : Gateway.LuaMessage :=
  ⟨Gateway.Stype.Auth, Gateway.Ctype.eGuestLoginRes, 0, some
    { guestError := some 1
      info := some { nick := some i.nick, faceImage := some i.faceImage, vip := some i.vip,
                     status := some i.status, guestId := some 0 } }⟩

/-- What the gateway does for the session when the row was selected for it. -/
inductive Told {Number : Type} (lua : LuaLib Number) (row : GuestRow) (s : SessId) :
    Gateway.Act → Prop where
  | frozen : Auth.isFrozen lua row = true → Told lua row s (.sendRawData s frozenAnswer)
  | loggedIn (i : Auth.GuestInfo) : Auth.isFrozen lua row = false →
      Auth.toGuestInfo lua row = some i → Told lua row s (.loggedIn .guest s i.guestId)
  | welcomed (i : Auth.GuestInfo) : Auth.isFrozen lua row = false →
      Auth.toGuestInfo lua row = some i → Told lua row s (.sendMessage s (guestWelcome i))
  | replaced (i : Auth.GuestInfo) (old : SessId) : Auth.isFrozen lua row = false →
      Auth.toGuestInfo lua row = some i → old ≠ s →
      Told lua row s (.sendMessage old (farewell Gateway.Ctype.eGuestLoginRes))
  | closed (i : Auth.GuestInfo) (old : SessId) : Auth.isFrozen lua row = false →
      Auth.toGuestInfo lua row = some i → old ≠ s → Told lua row s (.close old)

section Later

variable {past more : List Event} {as out : List Gateway.Act} {trace es : List Entry} {s : SessId}
  {t : Nat} {data : Bytes} {row : GuestRow}

theorem Sent.later (h : Sent past as s t data) (more : List Event) (out : List Gateway.Act) :
    Sent (past ++ more) (as ++ out) s t data := by
  obtain ⟨hassigned, cmd, hmem, htype, hdata⟩ := h
  exact ⟨hassigned.append out, cmd, List.mem_append_left _ hmem, htype, hdata⟩

theorem Selected.later (h : Selected past trace s t row) (more : List Event) (es : List Entry) :
    Selected (past ++ more) (trace ++ es) s t row := by
  obtain ⟨data, n, a, msg, rest, hsent, hreceived, htag, hbody, hresult⟩ := h
  refine ⟨data, n, a, msg, rest, ?_, ?_, htag, hbody, ?_⟩
  · rw [acts_append]
    exact hsent.later more _
  · rw [heard_append]
    exact List.mem_append_left _ hreceived
  · rw [heard_append]
    exact List.mem_append_left _ hresult

end Later

/-! ## The gateway -/

section Gateway

open Gateway.State

variable {pm : ProtocolManager LuaBody} {g : Gateway.State}
  {done : Gateway.State × List Gateway.Act} {as : List Gateway.Act} {s server : SessId}
  {cmd cmd' : Bytes} {raw : Gateway2Server}

/-- A command of the login is forwarded as it came, under the tag. -/
theorem tagged_sent (hhead : decodeMsgHead cmd cmd.length = some raw) {utag : Nat}
    (hutag : utag < 2 ^ 32)
    (h : Gateway.Act.sendRawData server cmd' = .sendRawData server (tagged raw utag))
    (htype : cmdCommandType cmd' = Gateway.Ctype.eGuestLoginReq) :
    cmdCommandType cmd = Gateway.Ctype.eGuestLoginReq ∧ cmdTags cmd' = utag ∧
      cmd'.drop COMMAND_HEAD = cmd.drop COMMAND_HEAD := by
  obtain ⟨-, rfl⟩ := Gateway.Act.sendRawData.inj h
  obtain ⟨hcmd, -, -, hraw, -, hlen⟩ := decodeMsgHead_fields hhead
  have hret : Retagged raw.rawCmd utag (tagged raw utag) :=
    setTag_retagged (by rw [hcmd]; exact hlen) utag
  obtain ⟨hctype, htag⟩ := tagged_types hhead utag
  refine ⟨?_, htag.trans (Nat.mod_eq_of_lt hutag), ?_⟩
  · rw [← hraw, ← hctype]
    exact htype
  · rw [← hcmd]
    exact hret.back

/-- **What the gateway forwards as a guest login** is one that the client has
sent, under a tag of the client. -/
theorem step_sent {e : Gateway.Event} (h : TagsOk (g, as)) (hstep : Gateway.step pm g e = some done)
    (hfew : (Gateway.tags (as ++ done.2)).length < 2 ^ 32)
    (houtside : ∀ s cmd, e = .command s cmd → (g.session s).as_client = 0)
    (hmem : .sendRawData server cmd' ∈ done.2)
    (htype : cmdCommandType cmd' = Gateway.Ctype.eGuestLoginReq) :
    ∃ s cmd, e = .command s cmd ∧ cmdCommandType cmd = Gateway.Ctype.eGuestLoginReq ∧
      cmd'.drop COMMAND_HEAD = cmd.drop COMMAND_HEAD ∧
      Assigned (as ++ done.2) (cmdTags cmd') s := by
  have hcount : g.gKey = (Gateway.tags as).length + 1 := h.count
  rw [Gateway.tags_append, List.length_append] at hfew
  cases Gateway.step_cases hstep with
  | client s cmd raw _ _ hhead _ _ hr =>
    cases hr with
    | ignored => cases hmem
    | first login server' _ _ _ =>
      have hnew : Gateway.tags [Gateway.Act.alloction s g.gKey,
          .sendRawData server' (tagged raw g.gKey)] = [g.gKey] := rfl
      rw [hnew, List.length_singleton] at hfew
      rcases List.mem_cons.mp hmem with heq | hmem
      · cases heq
      · obtain rfl := (Gateway.Act.sendRawData.inj (List.mem_singleton.mp hmem)).1
        obtain ⟨hguest, htag, hdata⟩ :=
          tagged_sent hhead (by omega) (List.mem_singleton.mp hmem) htype
        exact ⟨s, cmd, rfl, hguest, hdata, by rw [htag]; exact List.mem_append_right _ (.head _)⟩
    | again login server' _ _ hutag =>
      have hold := h.utag s hutag
      have hbound : (g.session s).utag < g.gKey := (h.bound _ s hold).2
      obtain rfl := (Gateway.Act.sendRawData.inj (List.mem_singleton.mp hmem)).1
      obtain ⟨hguest, htag, hdata⟩ :=
        tagged_sent hhead (by omega) (List.mem_singleton.mp hmem) htype
      exact ⟨s, cmd, rfl, hguest, hdata, by rw [htag]; exact hold.append _⟩
    | identified server' utag _ hother _ =>
      obtain ⟨-, rfl⟩ := Gateway.Act.sendRawData.inj (List.mem_singleton.mp hmem)
      rw [(tagged_types hhead utag).1] at htype
      exact absurd htype (hother .guest)
  | server s cmd _ _ _ _ hserver _ => exact absurd (houtside s cmd rfl) hserver
  | accept => cases hmem
  | timer => cases hmem
  | connected _ _ _ => cases hmem
  | failed _ _ _ => cases hmem
  | short _ _ => cases hmem
  | unserved _ _ _ _ _ _ => cases hmem
  | lost _ _ => cases hmem
  | destroy _ _ _ => cases hmem

/-- A command for a configured type goes to the handler. -/
theorem step_served (hreading : (g.session s).stage = .reading)
    (hhead : decodeMsgHead cmd cmd.length = some raw) (hserved : raw.serverType ∈ Gateway.servers) :
    Gateway.step pm g (.command s cmd) = some (g.gw_repeaterSession pm s raw) := by
  have hslot : raw.serverType < MAX_SERVICE_NUM := by
    have hmax : MAX_SERVICE_NUM = 50 := rfl
    simp only [Gateway.servers, Gateway.Stype.Auth, Gateway.Stype.System, List.mem_cons,
      List.not_mem_nil, or_false] at hserved
    omega
  simp only [Gateway.step, if_pos hreading]
  unfold Gateway.State.recv RecCommand
  simp only [hhead, ServiceManager.recvCmdMsg, ServiceManager.slot, dif_pos hslot, gwServices_eq,
    if_pos hserved, Gateway.gwService, if_true, Bool.not_true, Bool.false_eq_true, if_false,
    Gateway.State.handle, List.append_nil]

/-- A command of a link goes to `sendToClient`. -/
theorem step_link (hlink : (g.session s).as_client = 1)
    (hhead : decodeMsgHead cmd cmd.length = some raw) (hserved : raw.serverType ∈ Gateway.servers)
    (hstep : Gateway.step pm g (.command s cmd) = some done) : done = g.sendToClient pm raw := by
  have hreading : (g.session s).stage = .reading := (Option.ite_none_right_eq_some.mp hstep).1
  rw [step_served hreading hhead hserved, gw_repeaterSession, if_neg (by omega)] at hstep
  exact (Option.some.inj hstep).symm

/-- **What the gateway does with a guest's answer**: it is passed on when it is
no success, else its session is logged in and welcomed, and one that was
logged in under the id before is replaced. -/
theorem guest_acts {body : LuaBody} {info : LuaInfo} {id : Int}
    (htype : raw.commandType = Gateway.Ctype.eGuestLoginRes)
    (hbody : Raw.readBody pm raw = some body) (hinfo : body.info = some info)
    (hid : info.guestId = some id) {a : Gateway.Act} (ha : a ∈ (g.sendToClient pm raw).2) :
    ∃ client_s, g.client_temp raw.tags = some client_s ∧
      (body.guestError ≠ some 1 ∧ a = .sendRawData client_s (tagged raw 0) ∨
        body.guestError = some 1 ∧ (a = .loggedIn .guest client_s id ∨
          a = .sendMessage client_s (Gateway.State.welcome .guest raw body info) ∨
          ∃ old, g.client_gid id = some old ∧ old ≠ client_s ∧
            (a = .sendMessage old (farewell raw.commandType) ∨ a = .close old))) := by
  have hsend : g.sendToClient pm raw = g.loginAnswer .guest raw (some body) := by
    rw [sendToClient, if_pos htype, hbody, Option.bind_some, hinfo]
  rw [hsend, loginAnswer] at ha
  simp only [Raw.readHead] at ha
  cases hclient : g.client_temp raw.tags with
  | none =>
    simp only [hclient] at ha
    cases ha
  | some client_s =>
    refine ⟨client_s, rfl, ?_⟩
    simp only [hclient, hinfo] at ha
    by_cases hok : body.guestError = some 1
    · have hlogin : Gateway.Login.id info .guest = some id := hid
      rw [if_neg (not_not.mpr hok), hlogin] at ha
      refine .inr ⟨hok, ?_⟩
      have hr := replace_cases (g.taken raw.tags) .guest raw.commandType id client_s
      obtain ⟨r, hreplace⟩ : ∃ r, (g.taken raw.tags).replace .guest raw.commandType (some id)
          client_s = r := ⟨_, rfl⟩
      rw [hreplace] at hr
      have ha' : a ∈ ((g.taken raw.tags).replace .guest raw.commandType (some id) client_s).2 ++
          [.loggedIn .guest client_s id] ++
          [.sendMessage client_s (welcome .guest raw body info)] := ha
      rw [hreplace, List.append_assoc, List.singleton_append] at ha'
      rcases List.mem_append.mp ha' with hold | hnew
      · cases hr with
        | nobody _ => cases hold
        | other old hentry hne =>
          simp only [List.mem_cons, List.not_mem_nil, or_false] at hold
          exact .inr (.inr ⟨old, hentry, hne, hold⟩)
      · simp only [List.mem_cons, List.not_mem_nil, or_false] at hnew
        exact hnew.imp_right .inl
    · rw [if_pos hok] at ha
      exact .inl ⟨hok, List.mem_singleton.mp ha⟩

end Gateway

/-! ## Answers -/

section Answers

variable {Number : Type} {lib : Libraries Number} {g : Gateway.State}

/-- The tag of an encoded command is taken out. -/
theorem tagged_encodeHead {serverType commandType tags : Nat} {body : Bytes} {raw : Gateway2Server}
    (h : raw.rawCmd = encodeHead serverType commandType tags ++ body) :
    tagged raw 0 = encodeHead serverType commandType 0 ++ body := by
  have hfit : 4 + (Raw.tagBytes 0).length ≤ raw.rawCmd.length := by
    rw [h, List.length_append, length_encodeHead]
    exact Nat.le_add_right 8 _
  show overwrite raw.rawCmd 4 (Raw.tagBytes 0) = _
  rw [overwrite_eq hfit, h]
  rfl

/-- **An answer of the auth service at the gateway**: if it is about the row,
whoever its tag belongs to is told about the row. -/
theorem answer_told (hwire : OnWire lib) {tags : Nat} (htags : tags < 2 ^ 32) {row : GuestRow}
    {rest : List GuestRow} {body : Auth.GuestLoginRes}
    (hanswer : Auth.answer lib.lua (.rows (row :: rest)) = some body) {cmd : Bytes}
    (hcmd : Reply.bytes lib ⟨Gateway.Stype.Auth, Gateway.Ctype.eGuestLoginRes, tags, body⟩ =
      some cmd) {s : SessId} (hlink : (g.session s).as_client = 1)
    {done : Gateway.State × List Gateway.Act}
    (hstep : Gateway.step lib.gateway g (.command s cmd) = some done) {a : Gateway.Act}
    (ha : a ∈ done.2) : cmdTags cmd = tags ∧
      ∃ client_s, g.client_temp tags = some client_s ∧ Told lib.lua row client_s a := by
  obtain ⟨raw, hhead, hserver, htype, htag, hbody⟩ :=
    hwire.reads htags (answer_holds32 hwire.int32 hanswer) hcmd
  have hfields := decodeMsgHead_fields hhead
  have hserved : raw.serverType ∈ Gateway.servers := by
    rw [hserver]
    exact .head _
  obtain rfl := step_link hlink hhead hserved hstep
  refine ⟨hfields.2.2.2.2.1.symm.trans htag, ?_⟩
  rw [← htag]
  rw [Auth.answer] at hanswer
  split at hanswer
  · rename_i hfrozen
    cases hanswer
    obtain ⟨client_s, hclient, hcase⟩ := guest_acts htype hbody rfl rfl ha
    refine ⟨client_s, hclient, ?_⟩
    rcases hcase with ⟨-, rfl⟩ | ⟨hone, -⟩
    · have hbytes : cmd = encodeHead Gateway.Stype.Auth Gateway.Ctype.eGuestLoginRes tags ++
          guestLoginRes.InternalSerialize (some (-3), none, .nil) := by
        rw [Reply.bytes_eq] at hcmd
        obtain ⟨-, heq⟩ := Option.ite_none_right_eq_some.mp hcmd
        rw [← Option.some.inj heq, hwire.written]
        rfl
      have hanswer : tagged raw 0 = frozenAnswer := tagged_encodeHead (hfields.1.trans hbytes)
      rw [hanswer]
      exact .frozen hfrozen
    · exact absurd (Option.some.inj hone) (by decide)
  · rename_i hfrozen
    obtain ⟨i, hi, rfl⟩ := Option.map_eq_some_iff.mp hanswer
    have hthawed := Bool.eq_false_iff.mpr hfrozen
    obtain ⟨client_s, hclient, hcase⟩ := guest_acts htype hbody rfl rfl ha
    refine ⟨client_s, hclient, ?_⟩
    rcases hcase with ⟨hone, -⟩ | ⟨-, rfl | rfl | ⟨old, -, hne, rfl | rfl⟩⟩
    · exact absurd rfl hone
    · exact .loggedIn i hthawed hi
    · have hwelcome : Gateway.State.welcome .guest raw (pushedRes (toGuestLoginRes ⟨1, some i⟩))
          (pushedInfo (infoMessage i)) = guestWelcome i := by
        rw [Gateway.State.welcome, hserver, htype]
        rfl
      exact hwelcome ▸ .welcomed i hthawed hi
    · rw [htype]
      exact .replaced i old hthawed hi hne
    · exact .closed i old hthawed hi hne

end Answers

/-! ## Whole runs -/

/-- Where requests, reads, replies and what was done about them come from. -/
structure Sourced {Number : Type} (lib : Libraries Number) (past : List Event)
    (c : State × List Entry) : Prop where
  up : ∀ p ∈ c.1.up, cmdCommandType p.2 = Gateway.Ctype.eGuestLoginReq →
    ∃ s, Sent past (acts c.2) s (cmdTags p.2) (p.2.drop COMMAND_HEAD)
  received : ∀ n a msg connected, .received n a msg connected ∈ heard c.2 → Auth.Asks msg →
    ∃ s data, Sent past (acts c.2) s msg.tags data ∧
      msg.body = (guestLoginReq.ParseFromArray data).map pushedReq
  down : ∀ p ∈ c.1.down, ∃ n a msg row rest body, .received n a msg true ∈ heard c.2 ∧
    Auth.Asks msg ∧ .result n (.rows (row :: rest)) ∈ heard c.2 ∧
    Auth.answer lib.lua (.rows (row :: rest)) = some body ∧
    Reply.bytes lib ⟨Gateway.Stype.Auth, Gateway.Ctype.eGuestLoginRes, msg.tags, body⟩ = some p.2
  told : ∀ cmd a, .answer cmd a ∈ c.2 →
    ∃ s row, Selected past c.2 s (cmdTags cmd) row ∧ Told lib.lua row s a

section Sourced

variable {Number : Type} {lib : Libraries Number} {past : List Event} {c c' : State} {e : Event}
  {trace out : List Entry}

/-- What was there before keeps its source, and what is new has one. -/
theorem Sourced.later (h : Sourced lib past (c, trace)) (e : Event)
    (hup : ∀ p ∈ c'.up, p ∉ c.up → cmdCommandType p.2 = Gateway.Ctype.eGuestLoginReq →
      ∃ s, Sent (past ++ [e]) (acts (trace ++ out)) s (cmdTags p.2) (p.2.drop COMMAND_HEAD))
    (hreceived : ∀ n a msg connected, .received n a msg connected ∈ heard out → Auth.Asks msg →
      ∃ s data, Sent (past ++ [e]) (acts (trace ++ out)) s msg.tags data ∧
        msg.body = (guestLoginReq.ParseFromArray data).map pushedReq)
    (hdown : ∀ p ∈ c'.down, p ∉ c.down → ∃ n a msg row rest body,
      .received n a msg true ∈ heard (trace ++ out) ∧ Auth.Asks msg ∧
      .result n (.rows (row :: rest)) ∈ heard (trace ++ out) ∧
      Auth.answer lib.lua (.rows (row :: rest)) = some body ∧
      Reply.bytes lib ⟨Gateway.Stype.Auth, Gateway.Ctype.eGuestLoginRes, msg.tags, body⟩ = some p.2)
    (htold : ∀ cmd a, .answer cmd a ∈ out →
      ∃ s row, Selected (past ++ [e]) (trace ++ out) s (cmdTags cmd) row ∧ Told lib.lua row s a) :
    Sourced lib (past ++ [e]) (c', trace ++ out) where
  up p hp htype := by
    by_cases hold : p ∈ c.up
    · obtain ⟨s, hsent⟩ := h.up p hold htype
      exact ⟨s, by rw [acts_append]; exact hsent.later _ _⟩
    · exact hup p hp hold htype
  received n a msg connected hmem hasks := by
    rw [heard_append] at hmem
    rcases List.mem_append.mp hmem with hold | hnew
    · obtain ⟨s, data, hsent, hbody⟩ := h.received n a msg connected hold hasks
      exact ⟨s, data, by rw [acts_append]; exact hsent.later _ _, hbody⟩
    · exact hreceived n a msg connected hnew hasks
  down p hp := by
    by_cases hold : p ∈ c.down
    · obtain ⟨n, a, msg, row, rest, body, hreceived, hasks, hresult, hanswer⟩ := h.down p hold
      refine ⟨n, a, msg, row, rest, body, ?_, hasks, ?_, hanswer⟩
      · rw [heard_append]
        exact List.mem_append_left _ hreceived
      · rw [heard_append]
        exact List.mem_append_left _ hresult
    · exact hdown p hp hold
  told cmd a hmem := by
    rcases List.mem_append.mp hmem with hold | hnew
    · obtain ⟨s, row, hselected, htold⟩ := h.told cmd a hold
      exact ⟨s, row, hselected.later _ _, htold⟩
    · exact htold cmd a hnew

/-- **The gateway takes a step** of its own. -/
theorem Sourced.gateway (h : Sourced lib past (c, trace)) (htags : TagsOk (c.gateway, acts trace))
    {ge : Gateway.Event} (hevent : e.gateway? = some ge) {done : Gateway.State × List Gateway.Act}
    (hstep : Gateway.step lib.gateway c.gateway ge = some done)
    (houtside : ∀ s cmd, ge = .command s cmd → (c.gateway.session s).as_client = 0)
    (hfew : (Gateway.tags (acts (trace ++ done.2.map .gateway))).length < 2 ^ 32)
    (hup : c'.up = c.up ++ written done.2) (hdown : c'.down = c.down) :
    Sourced lib (past ++ [e]) (c', trace ++ done.2.map .gateway) := by
  rw [acts_append, acts_gateway] at hfew
  refine h.later e (fun p hp hnew htype => ?_) (fun n a msg connected hmem => ?_)
    (fun p hp hnew => ?_) fun cmd a hmem => ?_
  · rw [hup] at hp
    obtain ⟨act, hact, hwritten⟩ :=
      List.mem_filterMap.mp ((List.mem_append.mp hp).resolve_left hnew)
    cases act with
    | sendRawData server cmd' =>
      obtain rfl := Option.some.inj hwritten
      obtain ⟨s, cmd, rfl, hguest, hdata, hassigned⟩ :=
        step_sent htags hstep hfew houtside hact htype
      refine ⟨s, by rwa [acts_append, acts_gateway], cmd, List.mem_append_right _ ?_, hguest,
        hdata.symm⟩
      cases e with
      | gateway ge' =>
        obtain rfl := Option.some.inj hevent
        exact .head _
      | connect s' a => cases hevent
      | _ => cases hevent
    | alloction _ _ => cases hwritten
    | loggedIn _ _ _ => cases hwritten
    | sendMessage _ _ => cases hwritten
    | close _ => cases hwritten
  · rw [heard_gateway] at hmem
    cases hmem
  · exact absurd (hdown ▸ hp) hnew
  · obtain ⟨act, -, hact⟩ := List.mem_map.mp hmem
    cases hact

/-- **A request arrives** at the auth service. -/
theorem Sourced.received_step (h : Sourced lib past (c, trace)) (hwire : OnWire lib) {a s : SessId}
    {cmd : Bytes} {up : List (SessId × Bytes)} {msg : CommandMessage LuaTable} {random : Int × Int}
    {done : Auth.State × List Auth.Entry} (htake : takeFirst s c.up = some (cmd, up))
    (hdec : decodeCmdMsg lib.auth cmd cmd.length = some msg)
    (hstep : Auth.step lib.lua c.auth (.recv a (toLuaMsg msg) random) = some done) (e : Event) :
    Sourced lib (past ++ [e])
      (({ c with up := up } : State).authTurn lib done, trace ++ done.2.map .auth) := by
  obtain ⟨⟨rest, hout, hsent⟩, -⟩ := recv_done hstep
  refine h.later e (fun p hp hnew => ?_) (fun n a' msg' connected hmem hasks => ?_)
    (fun p hp hnew => ?_) fun cmd' act hmem => ?_
  · exact absurd ((takeFirst_sublist htake).subset hp) hnew
  · have hone : msg' = toLuaMsg msg := by
      rw [heard_auth] at hmem
      cases hstep
      rcases List.mem_cons.mp hmem with heq | hact
      · cases heq
        rfl
      · obtain ⟨act, -, hact⟩ := List.mem_map.mp hact
        cases act <;> cases hact
    subst hone
    obtain ⟨-, htype, htags⟩ := decodeCmdMsg_fields hdec
    have hguest : cmdCommandType cmd = Gateway.Ctype.eGuestLoginReq := htype.symm.trans hasks.1
    obtain ⟨s', hsource⟩ := h.up (s, cmd) (takeFirst_mem htake) hguest
    refine ⟨s', cmd.drop COMMAND_HEAD, ?_, hwire.request_body hdec hasks.1 hasks.2⟩
    have htag : (toLuaMsg msg).tags = cmdTags cmd := htags
    rw [htag, acts_append]
    exact hsource.later _ _
  · have hreplies : done.2.filterMap (({ c with up := up } : State).reply lib) = [] := by
      rw [replies_of_sent, hsent]
      rfl
    have hp' : p ∈ c.down ++ done.2.filterMap (({ c with up := up } : State).reply lib) := hp
    rw [hreplies, List.append_nil] at hp'
    exact absurd hp' hnew
  · obtain ⟨_, -, heq⟩ := List.mem_map.mp hmem
    cases heq

/-- **A select ends** at the auth service. -/
theorem Sourced.complete (h : Sourced lib past (c, trace)) (hok : Ok lib (c, trace)) {i : Nat}
    {res : Auth.QueryRes} {random : Int × Int} {done : Auth.State × List Auth.Entry}
    (hstep : Auth.step lib.lua c.auth (.complete i res random) = some done) (e : Event) :
    Sourced lib (past ++ [e]) (c.authTurn lib done, trace ++ done.2.map .auth) := by
  obtain ⟨n, func, s, msg, -, hreceived, hasks, -, -, ⟨rest, hout⟩, hsent⟩ := hok.select_done hstep
  refine h.later e (fun p hp hnew => absurd hp hnew) (fun n' a msg' connected hmem => ?_)
    (fun p hp hnew => ?_) fun cmd act hmem => ?_
  · rw [heard_auth] at hmem
    simp only [Auth.step] at hstep
    split at hstep
    · cases hstep
    · cases hstep
      rcases List.mem_cons.mp hmem with heq | hact
      · cases heq
      · obtain ⟨act, -, hact⟩ := List.mem_map.mp hact
        cases act <;> cases hact
  · have hp' := (List.mem_append.mp hp).resolve_left hnew
    rw [replies_of_sent, hsent] at hp'
    obtain ⟨⟨a, reply⟩, hreply, hbytes⟩ := List.mem_filterMap.mp hp'
    obtain ⟨body, hbody, heq⟩ := List.mem_map.mp hreply
    cases heq
    obtain ⟨-, hbytes⟩ := Option.ite_none_right_eq_some.mp hbytes
    obtain ⟨s', -, hbytes⟩ := Option.bind_eq_some_iff.mp hbytes
    obtain ⟨cmd, hcmd, rfl⟩ := Option.map_eq_some_iff.mp hbytes
    have hanswer := Option.mem_toList.mp hbody
    have hrows : ∃ row more, res = .rows (row :: more) := by
      cases res with
      | err err => cases hanswer
      | success => cases hanswer
      | rows ret =>
        cases ret with
        | nil => cases hanswer
        | cons row more => exact ⟨row, more, rfl⟩
    obtain ⟨row, more, rfl⟩ := hrows
    rw [hasks.1] at hcmd
    refine ⟨n, s, msg, row, more, body, ?_, hasks, ?_, hanswer, hcmd⟩
    · rw [heard_append]
      exact List.mem_append_left _ hreceived
    · rw [heard_append, heard_auth, hout]
      exact List.mem_append_right _ (.head _)
  · obtain ⟨_, -, heq⟩ := List.mem_map.mp hmem
    cases heq

/-- **An answer arrives** at the gateway. -/
theorem Sourced.answered (h : Sourced lib past (c, trace)) (hwire : OnWire lib)
    (hok : Ok lib (c, trace)) (htags : TagsOk (c.gateway, acts trace)) {s : SessId} {cmd : Bytes}
    {down : List (SessId × Bytes)} {done : Gateway.State × List Gateway.Act}
    (htake : takeFirst s c.down = some (cmd, down))
    (hstep : Gateway.step lib.gateway c.gateway (.command s cmd) = some done) (e : Event) :
    Sourced lib (past ++ [e])
      (({ c with down := down } : State).gatewayTurn done, trace ++ done.2.map (.answer cmd)) := by
  obtain ⟨n, a, msg, row, rest, body, hreceived, hasks, hresult, hanswer, hcmd⟩ :=
    h.down _ (takeFirst_mem htake)
  have hlink := hok.down _ (takeFirst_mem htake)
  have hone : ∀ act ∈ done.2, cmdTags cmd = msg.tags ∧
      ∃ client_s, c.gateway.client_temp msg.tags = some client_s ∧ Told lib.lua row client_s act :=
    fun act hact =>
      answer_told hwire (hok.tags n a msg true hreceived) hanswer hcmd hlink.2 hstep hact
  refine h.later e (fun p hp hnew htype => ?_) (fun n' a' msg' connected hmem => ?_)
    (fun p hp hnew => absurd ((takeFirst_sublist htake).subset hp) hnew) fun cmd' act hmem => ?_
  · -- nothing is forwarded
    have hasked := (answer_acts hlink hstep).1
    rw [← written_asked] at hasked
    have hp' := (List.mem_append.mp hp).resolve_left hnew
    have htag : requestTag p.2 = some (cmdTags p.2) := if_pos htype
    have hmem : cmdTags p.2 ∈ (written done.2).filterMap fun p => requestTag p.2 :=
      List.mem_filterMap.mpr ⟨p, hp', htag⟩
    rw [hasked] at hmem
    cases hmem
  · rw [heard_answer] at hmem
    cases hmem
  · obtain ⟨act', hact, heq⟩ := List.mem_map.mp hmem
    cases heq
    obtain ⟨htag, client_s, hclient, htold⟩ := hone act hact
    obtain ⟨s', data, hsent, hbody⟩ := h.received n a msg true hreceived hasks
    -- the tag is one session's only
    have hsame : s' = client_s := htags.unique _ s' client_s hsent.1 (htags.temp _ _ hclient)
    subst hsame
    refine ⟨s', row, ?_, htold⟩
    rw [htag]
    exact Selected.later ⟨data, n, a, msg, rest, hsent, hreceived, rfl, hbody, hresult⟩ _ _

/-- **Every event.** -/
theorem Sourced.moved (h : Sourced lib past (c, trace)) (hwire : OnWire lib)
    (hok : Ok lib (c, trace)) (htags : TagsOk (c.gateway, acts trace))
    (hmoved : Moved lib c e c' out) (hframed : c'.torn = false)
    (hfew : (Gateway.tags (acts (trace ++ out))).length < 2 ^ 32) :
    Sourced lib (past ++ [e]) (c', trace ++ out) := by
  have hquiet : ∀ c' : State, c'.up.Sublist c.up → c'.down.Sublist c.down →
      Sourced lib (past ++ [e]) (c', trace ++ []) := by
    intro c' hup hdown
    refine h.later e (fun p hp hnew => absurd (hup.subset hp) hnew) (fun _ _ _ _ hmem => ?_)
      (fun p hp hnew => absurd (hdown.subset hp) hnew) fun _ _ hmem => ?_
    · cases hmem
    · cases hmem
  cases hmoved with
  | gateway ge done stage peer hevent hstep houtside _ =>
    exact h.gateway htags hevent hstep houtside hfew rfl rfl
  | received a s cmd up msg random done htake hdec hstep =>
    exact h.received_step hwire htake hdec hstep e
  | answered s cmd down done htake hstep => exact h.answered hwire hok htags htake hstep e
  | auth ae done hsession hstep =>
    cases ae with
    | mysqlConnected =>
      cases hstep
      exact hquiet _ (.refl _) (by rw [State.authTurn, List.filterMap_nil, List.append_nil])
    | redisConnected =>
      cases hstep
      exact hquiet _ (.refl _) (by rw [State.authTurn, List.filterMap_nil, List.append_nil])
    | recv a msg random => cases hsession
    | complete i res random => exact h.complete hok hstep e
  | quiet stage peer up down hup hdown _ => exact hquiet _ hup hdown
  | stray c' out _ htorn => cases htorn.symm.trans hframed

theorem Sourced.init : Sourced lib [] (init, []) where
  up _ h := by cases h
  received _ _ _ _ h := by cases h
  down _ h := by cases h
  told _ _ h := by cases h

end Sourced

end LibuvServer.Deployment
