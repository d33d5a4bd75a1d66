import LibuvServer.Deployment.Traffic
import LibuvServer.Gateway.LoginAnswers
import LibuvServer.Lib.RequestReply
import Mathlib.Tactic.Common

/-!
# The deployment is a login service

What the two processes are there for: a service that is asked for guest logins
and gives answers, under tags. `pending` is the service a state stands for:
requests are on a link to the auth service or wait for their select, answers
are on a link to the gateway. Every event is a few steps of that service,
whatever is lost and whoever reconnects.
-/

namespace LibuvServer.Deployment

open LibuvServer.Lib LibuvServer.Netbus LibuvServer.Mylua
open LibuvServer.Gateway (SessId)
open LibuvServer.Auth (QueryRes Reply)

/-! ## What is seen -/

/-- The tag of a guest login request. -/
def requestTag (cmd : Bytes) : Option Nat :=
  if cmdCommandType cmd = Gateway.Ctype.eGuestLoginReq then some (cmdTags cmd) else none

/-- The tag under which the gateway asks. -/
def asked? : Gateway.Act → Option Nat
  | .sendRawData _ rawCmd => requestTag rawCmd
  | .alloction _ _ | .loggedIn _ _ _ | .sendMessage _ _ | .close _ => none

variable {Number : Type}

/-- A request is asked when the gateway forwards it, decided when the auth
service answers it, and given when the gateway passes the answer on. -/
def observe (lib : Libraries Number) : Entry → Option (Seen Nat Bytes)
  | .gateway a => (asked? a).map .asked
  | .answer cmd a => a.answers.map fun _ => .given (cmdTags cmd) cmd
  | .auth e => e.sent?.bind fun p => (Reply.bytes lib p.2).map (.decided p.2.tags)

def observed (lib : Libraries Number) (trace : List Entry) : List (Seen Nat Bytes) :=
  trace.filterMap (observe lib)

/-- The tag command `n` came with. -/
def tagOf (trace : List Auth.Entry) (n : Nat) : Nat :=
  match Auth.about n trace with
  | .received _ _ msg _ :: _ => msg.tags
  | _ => 0

/-- The service a state stands for. -/
def pending (c : State × List Entry) : RequestReply Nat Bytes where
  asking := ↑(c.1.up.filterMap fun p => requestTag p.2) +
    ↑(c.1.auth.queries.map fun q => tagOf (heard c.2) q.1)
  answers := ↑(c.1.down.map fun p => (cmdTags p.2, p.2))

variable {lib : Libraries Number} {c c' : State} {trace out : List Entry}

theorem observed_append (trace more : List Entry) :
    observed lib (trace ++ more) = observed lib trace ++ observed lib more :=
  List.filterMap_append

/-! ## Answers as bytes -/

/-- An answer that fits a block is its head and its message. -/
theorem Reply.bytes_eq (reply : Reply) : Reply.bytes lib reply =
    if COMMAND_HEAD + lib.written.byteSizeLong reply.body < 2 ^ 31 then
      some (encodeHead reply.serverType reply.commandType reply.tags ++
        lib.written.serialized reply.body)
    else none := by
  have hmap : ∀ l : Bytes, (l.map some).mapM id = some l := by
    intro l
    induction l with
    | nil => rfl
    | cons b l ih => simp [ih]
  have hhead : (COMMAND_HEAD : Int) =
      (encodeHead reply.serverType reply.commandType reply.tags).length := rfl
  simp only [Reply.bytes, encodeCmdMsg, Reply.command]
  rw [encodeBody_message rfl]
  split
  · rename_i hsmall
    simp only [Option.map_some, Option.bind_some, blockBytes]
    by_cases hfits : COMMAND_HEAD + lib.written.byteSizeLong reply.body < 2 ^ 31
    · have hsum : toInt (COMMAND_HEAD + lib.written.byteSizeLong reply.body) =
          (COMMAND_HEAD : Int) + lib.written.byteSizeLong reply.body :=
        toInt_of_range (by omega) (by omega)
      rw [if_pos hfits, hsum, ProtoWriter.byteSizeLong, RawBlock.write_malloc hhead, if_pos rfl,
        List.take_of_length_le, hmap]
      simp only [List.length_map, List.length_append, hhead]
      omega
    · -- the size is negative, and there is no such block
      rw [if_neg hfits]
      refine if_neg fun hin => ?_
      have hhead8 : COMMAND_HEAD = 8 := rfl
      have hneg : toInt (COMMAND_HEAD + lib.written.byteSizeLong reply.body) < 0 := by
        rw [toInt, signed, Int.bmod_def]
        omega
      have hwrite := (RawBlock.write_inside.mp (RawBlock.write_inside.mp hin).1).2.2
      rw [RawBlock.length_malloc] at hwrite
      omega
  · rename_i hlarge
    rw [if_neg (by omega)]
    rfl

section Auth

variable {n m : Nat}

/-- What the auth service sends is nothing unless it answers. -/
theorem replies_of_sent {es : List Auth.Entry} :
    es.filterMap (c.reply lib) = (es.filterMap Auth.Entry.sent?).filterMap fun p =>
      if c.stage p.1 = .live then
        (c.peer p.1).bind fun s => (Reply.bytes lib p.2).map fun cmd => (s, cmd)
      else none := by
  rw [List.filterMap_filterMap]
  congr 1
  funext e
  cases e <;> rfl

theorem observed_auth (es : List Auth.Entry) : observed lib (es.map .auth) =
    (es.filterMap Auth.Entry.sent?).filterMap fun p =>
      (Reply.bytes lib p.2).map (.decided p.2.tags) := by
  rw [observed, List.filterMap_map, List.filterMap_filterMap]
  rfl

/-- A command that arrives is answered later, if at all. -/
theorem recv_done {a : SessId} {msg : Auth.LuaMsg} {random : Int × Int}
    {done : Auth.State × List Auth.Entry} {s : Auth.State}
    (h : Auth.step lib.lua s (.recv a msg random) = some done) :
    (∃ rest, done.2 = .received s.received a msg s.mysql_conn :: rest ∧
      done.2.filterMap Auth.Entry.sent? = []) ∧
    (done.1.queries = s.queries ∨ Auth.Asks msg ∧
      ∃ func, done.1.queries = s.queries ++ [(s.received, func)]) := by
  cases h
  by_cases hask : Auth.Asks msg ∧ s.mysql_conn = true
  · obtain ⟨finalsm, gKey, hacts⟩ : ∃ finalsm gKey,
        Auth.atRecvCmd lib.lua a msg (s.env random) =
          [.mysqlQuery finalsm (Auth.onSelect (Auth.onGuestInfo lib.lua a msg gKey))] :=
      Auth.atRecvCmd_asks hask.1 hask.2
    rw [hacts]
    exact ⟨⟨_, rfl, rfl⟩, .inr ⟨hask.1, _, rfl⟩⟩
  · have hacts : Auth.atRecvCmd lib.lua a msg (s.env random) = [] := Auth.atRecvCmd_quiet hask
    rw [hacts]
    exact ⟨⟨_, rfl, rfl⟩, .inl (List.append_nil _)⟩

/-- **A select ends**: its command is answered as it says, under its tag, and
there is one query less. -/
theorem Ok.select_done (h : Ok lib (c, trace)) {i : Nat} {res : QueryRes} {random : Int × Int}
    {done : Auth.State × List Auth.Entry}
    (hstep : Auth.step lib.lua c.auth (.complete i res random) = some done) :
    ∃ n func s msg, c.auth.queries[i]? = some (n, func) ∧
      Auth.Entry.received n s msg true ∈ heard trace ∧ Auth.Asks msg ∧
      tagOf (heard trace) n = msg.tags ∧
      done.1.queries = c.auth.queries.eraseIdx i ∧
      (∃ rest, done.2 = .result n res :: rest) ∧
      done.2.filterMap Auth.Entry.sent? =
        (Auth.answer lib.lua res).toList.map (Auth.replyTo s msg) := by
  simp only [Auth.step] at hstep
  split at hstep
  · cases hstep
  · rename_i n func hget
    cases hstep
    have hmem : func ∈ c.auth.queriesOf n :=
      List.mem_map.mpr ⟨(n, func), List.mem_filter.mpr
        ⟨List.mem_of_getElem? hget, decide_eq_true rfl⟩, rfl⟩
    cases h.progress n with
    | unseen _ hq =>
      rw [hq] at hmem
      cases hmem
    | quiet _ hq =>
      rw [hq] at hmem
      cases hmem
    | ended _ hq =>
      rw [hq] at hmem
      cases hmem
    | @waiting s msg finalsm gKey _ hon hq hask ha =>
      rw [hq, List.mem_singleton] at hmem
      subst hmem
      have henv : (c.auth.env random).mysql_conn = true := hon
      have hquery : ((Auth.onSelect (Auth.onGuestInfo lib.lua s msg gKey)
          (c.auth.env random) res).filterMap (Auth.Act.query n)) = [] :=
        (Auth.onSelect_connected henv res n).1
      refine ⟨n, _, s, msg, hget, ?_, hask, ?_, ?_, ⟨_, rfl⟩,
        (Auth.onSelect_connected henv res n).2⟩
      · have hfirst : Auth.Entry.received n s msg true ∈ Auth.about n (heard trace) := by
          rw [ha]
          exact .head _
        exact (List.mem_filter.mp hfirst).1
      · rw [tagOf, ha]
      · show c.auth.queries.eraseIdx i ++ _ = c.auth.queries.eraseIdx i
        rw [hquery, List.append_nil]

end Auth

/-! ## The gateway -/

section Gateway

open Gateway.State

variable {g : Gateway.State} {done : Gateway.State × List Gateway.Act} {s : SessId} {cmd : Bytes}
  {raw : Gateway2Server}

theorem byteAt_take {bytes : Bytes} {i k : Nat} (h : i < k) :
    byteAt (bytes.take k) i = byteAt bytes i := by
  rw [byteAt, byteAt, List.getD_eq_getElem?_getD, List.getD_eq_getElem?_getD,
    List.getElem?_take_of_lt h]

/-- A tag is written into a command for the same service, of the same type. -/
theorem Retagged.types {cmd' : Bytes} {utag : Nat} (h : Retagged cmd utag cmd') :
    cmdServerType cmd' = cmdServerType cmd ∧ cmdCommandType cmd' = cmdCommandType cmd := by
  have hbyte : ∀ i, i < 4 → byteAt cmd' i = byteAt cmd i := by
    intro i hi
    rw [← byteAt_take hi, h.front, byteAt_take hi]
  rw [cmdServerType, cmdServerType, cmdCommandType, cmdCommandType, hbyte 0 (by omega),
    hbyte 1 (by omega), hbyte 2 (by omega), hbyte 3 (by omega)]
  exact ⟨rfl, rfl⟩

/-- What a decoded head says of its bytes. -/
theorem decodeMsgHead_fields (h : decodeMsgHead cmd cmd.length = some raw) :
    raw.rawCmd = cmd ∧ raw.rawLen = cmd.length ∧ raw.serverType = cmdServerType cmd ∧
      raw.commandType = cmdCommandType cmd ∧ raw.tags = cmdTags cmd ∧ 8 ≤ cmd.length := by
  unfold decodeMsgHead at h
  split at h
  · cases h
  · rename_i hlen
    cases h
    have hhead : COMMAND_HEAD = 8 := rfl
    exact ⟨rfl, rfl, rfl, rfl, rfl, by omega⟩

theorem tagged_types (h : decodeMsgHead cmd cmd.length = some raw) (utag : Nat) :
    cmdCommandType (tagged raw utag) = raw.commandType ∧
      cmdTags (tagged raw utag) = utag % 2 ^ 32 := by
  obtain ⟨hcmd, -, -, htype, -, hlen⟩ := decodeMsgHead_fields h
  have hret : Retagged raw.rawCmd utag (tagged raw utag) :=
    setTag_retagged (by rw [hcmd]; exact hlen) utag
  exact ⟨(Retagged.types hret).2.trans (by rw [hcmd, htype]), hret.tag⟩

theorem login_types (login : Gateway.Login) : login.answer ≠ Gateway.Ctype.eGuestLoginReq := by
  cases login <;> decide

/-- **An answer arrives** at the gateway: it is passed on once or not at all,
and nothing is asked. -/
theorem answer_acts (hlink : IsLink g s)
    (hstep : Gateway.step lib.gateway g (.command s cmd) = some done) :
    done.2.filterMap asked? = [] ∧
      (done.2.filterMap Gateway.Act.answers = [] ∨
        ∃ client_s, done.2.filterMap Gateway.Act.answers = [client_s]) := by
  cases Gateway.step_cases hstep with
  | short => exact ⟨rfl, .inl rfl⟩
  | unserved => exact ⟨rfl, .inl rfl⟩
  | client _ _ raw _ _ _ _ hclient _ =>
    have hserver := hlink.2
    omega
  | server _ _ raw _ hhead _ _ hr =>
    cases hr with
    | ignored => exact ⟨rfl, .inl rfl⟩
    | unsent _ _ => exact ⟨rfl, .inl rfl⟩
    | passed login client_s htype _ =>
      refine ⟨?_, .inr ⟨client_s, rfl⟩⟩
      have hnone : requestTag (tagged raw 0) = none := by
        refine if_neg fun heq => login_types login ?_
        rw [← htype, ← heq, (tagged_types hhead 0).1]
      show [Gateway.Act.sendRawData client_s (tagged raw 0)].filterMap asked? = []
      rw [List.filterMap_cons, asked?, hnone]
      rfl
    | success login client_s body info id r _ _ _ hok hr =>
      have hanswer : Gateway.Act.answers (.sendMessage client_s (welcome login raw body info)) =
          some client_s := by
        simp only [Gateway.Act.answers, welcome, Option.bind_some, hok.1]
        rfl
      have hlast : [Gateway.Act.loggedIn login client_s id,
          .sendMessage client_s (welcome login raw body info)].filterMap Gateway.Act.answers =
          [client_s] := by
        rw [List.filterMap_cons, List.filterMap_cons, hanswer]
        rfl
      rw [List.filterMap_append, List.filterMap_append, hlast]
      cases hr with
      | nobody _ => exact ⟨rfl, .inr ⟨client_s, rfl⟩⟩
      | other old _ _ => exact ⟨rfl, .inr ⟨client_s, rfl⟩⟩

/-- What the gateway writes, as requests. -/
theorem written_asked (acts : List Gateway.Act) :
    (written acts).filterMap (fun p => requestTag p.2) = acts.filterMap asked? := by
  rw [written, List.filterMap_filterMap]
  congr 1
  funext a
  cases a <;> rfl

theorem observed_gateway (acts : List Gateway.Act) :
    observed lib (acts.map .gateway) = (acts.filterMap asked?).map .asked := by
  rw [observed, List.filterMap_map, List.map_filterMap]
  rfl

theorem observed_answer (cmd : Bytes) (acts : List Gateway.Act) :
    observed lib (acts.map (.answer cmd)) =
      (acts.filterMap Gateway.Act.answers).map fun _ => .given (cmdTags cmd) cmd := by
  rw [observed, List.filterMap_map, List.map_filterMap]
  rfl

end Gateway

/-! ## Every event -/

open RequestReply (Run)

section Moved

end Moved

/-! ## Whole runs -/

end LibuvServer.Deployment
