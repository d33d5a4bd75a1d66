import LibuvServer.Gateway.BackendLinks

/-!
# Tags towards clients

Tags are the gateway's own business: a command that goes to a client is
rewritten with the tag 0, and a table is built with it. Sessions in
`sType2Session` are never clients, so nothing a server is sent reaches one.
-/

namespace LibuvServer.Gateway

open LibuvServer.Lib LibuvServer.Netbus LibuvServer.Mylua State

/-- The command `Session.sendMessage` writes for a table. `toProtobuf` is
`luaTableToProtobuf` with `SerializePartialToArray`: no bytes for a table that
is refused, since its head is written all the same, and `none` for a message
that cannot be serialized, when nothing is. In JSON the body is `NULL`, since a
table is no string. -/
def LuaMessage.encode (pm : ProtocolManager LuaBody) (toProtobuf : String → LuaBody → Option Bytes)
    (msg : LuaMessage) : Option Bytes :=
  let commandType := toUnsigned msg.ctype
  let head := encodeHead (toUnsigned msg.stype) commandType (toUnsigned msg.tag)
  match pm.gProtocolType, msg.body with
  | .PROTOCOL_BUF, some body => (toProtobuf (pm.gProtoMap commandType) body).map (head ++ ·)
  | _, _ => some head

/-- What an act writes, and to which session. -/
def Act.written (pm : ProtocolManager LuaBody) (toProtobuf : String → LuaBody → Option Bytes) :
    Act → Option (SessId × Bytes)
  | .sendRawData s rawCmd => some (s, rawCmd)
  | .sendMessage s msg => (msg.encode pm toProtobuf).map fun cmd => (s, cmd)
  | _ => none

/-- Every command the step writes to a client carries the tag 0. -/
def Untagged (pm : ProtocolManager LuaBody) (toProtobuf : String → LuaBody → Option Bytes)
    (c : State × List Act) (e : Event) : Prop :=
  ∀ (g' : State) (sent : List Act), step pm c.1 e = some (g', sent) →
    ∀ a ∈ sent, ∀ s cmd, a.written pm toProtobuf = some (s, cmd) →
      (c.1.session s).as_client = 0 → COMMAND_HEAD ≤ cmd.length ∧ cmdTags cmd = 0

section Tags

variable {pm : ProtocolManager LuaBody} {toProtobuf : String → LuaBody → Option Bytes} {g : State}
  {s : SessId} {raw : Gateway2Server} {cmd : Bytes}

/-- A table is sent with the tag it holds. -/
theorem LuaMessage.encode_tag {msg : LuaMessage} (h : msg.encode pm toProtobuf = some cmd) :
    COMMAND_HEAD ≤ cmd.length ∧ cmdTags cmd = toUnsigned msg.tag % 2 ^ 32 := by
  have htag : ∀ body : Bytes,
      let cmd :=
        encodeHead (toUnsigned msg.stype) (toUnsigned msg.ctype) (toUnsigned msg.tag) ++ body
      COMMAND_HEAD ≤ cmd.length ∧ cmdTags cmd = toUnsigned msg.tag % 2 ^ 32 := by
    intro body
    refine ⟨?_, cmdTags_encodeHead _ _ _ body⟩
    rw [List.length_append, length_encodeHead]
    exact Nat.le_add_right ..
  unfold LuaMessage.encode at h
  simp only at h
  split at h
  · obtain ⟨body, -, rfl⟩ := Option.map_eq_some_iff.mp h
    exact htag body
  · cases h
    have hhead := htag []
    rwa [List.append_nil] at hhead

/-- A table with the tag 0. -/
theorem written_sendMessage {msg : LuaMessage} {x : SessId} (hzero : msg.tag = 0)
    (h : (Act.sendMessage x msg).written pm toProtobuf = some (s, cmd)) :
    COMMAND_HEAD ≤ cmd.length ∧ cmdTags cmd = 0 := by
  obtain ⟨cmd', hencode, heq⟩ := Option.map_eq_some_iff.mp h
  rw [Prod.mk.injEq] at heq
  obtain ⟨-, rfl⟩ := heq
  have htag := LuaMessage.encode_tag hencode
  rw [hzero] at htag
  exact htag

/-- A command that `sendToClient` passes on. -/
theorem written_tagged (hhead : decodeMsgHead cmd cmd.length = some raw) :
    COMMAND_HEAD ≤ (tagged raw 0).length ∧ cmdTags (tagged raw 0) = 0 := by
  obtain ⟨hlen, rfl⟩ := decodeMsgHead_rawCmd hhead
  have htag := setTag_retagged hlen 0
  exact ⟨by rw [htag.length]; exact hlen, htag.tag⟩

/-- What `sendToServer` writes goes to servers. -/
theorem LinksOk.toServer_written (h : LinksOk g) {r : State × List Act} {client_s : SessId}
    (hr : ToServer g client_s raw r) {a : Act} (ha : a ∈ r.2)
    (hwritten : a.written pm toProtobuf = some (s, cmd)) : (g.session s).as_client = 1 := by
  have hserver : ∀ {server rawCmd}, g.sType2Session raw.serverType = some server →
      (Act.sendRawData server rawCmd).written pm toProtobuf = some (s, cmd) →
      (g.session s).as_client = 1 := by
    intro server rawCmd hslot hsent
    rw [Act.written, Option.some.injEq, Prod.mk.injEq] at hsent
    rw [← hsent.1]
    exact (h.sessions.server _ _ hslot).1
  cases hr with
  | ignored => cases ha
  | first login server hslot _ _ =>
    simp only [List.mem_cons, List.not_mem_nil, or_false] at ha
    rcases ha with rfl | rfl
    · cases hwritten
    · exact hserver hslot hwritten
  | again login server hslot _ _ =>
    rw [List.mem_singleton] at ha
    subst ha
    exact hserver hslot hwritten
  | identified server utag hslot _ _ =>
    rw [List.mem_singleton] at ha
    subst ha
    exact hserver hslot hwritten

/-- **What `sendToClient` writes** carries the tag 0. -/
theorem toClient_written {r : State × List Act} {cmd' : Bytes} (hr : ToClient pm g raw r)
    (hhead : decodeMsgHead cmd' cmd'.length = some raw) {a : Act} (ha : a ∈ r.2)
    (hwritten : a.written pm toProtobuf = some (s, cmd)) :
    COMMAND_HEAD ≤ cmd.length ∧ cmdTags cmd = 0 := by
  cases hr with
  | ignored => cases ha
  | unsent _ _ => cases ha
  | passed _ client_s _ _ =>
    rw [List.mem_singleton] at ha
    subst ha
    rw [Act.written, Option.some.injEq, Prod.mk.injEq] at hwritten
    rw [← hwritten.2]
    exact written_tagged hhead
  | success login client_s body info id r _ _ _ _ hr =>
    rcases List.mem_append.mp ha with hreplaced | hanswer
    · cases hr with
      | nobody _ => cases hreplaced
      | other old _ _ =>
        simp only [List.mem_cons, List.not_mem_nil, or_false] at hreplaced
        rcases hreplaced with rfl | rfl
        · exact written_sendMessage rfl hwritten
        · cases hwritten
    · simp only [List.mem_cons, List.not_mem_nil, or_false] at hanswer
      rcases hanswer with rfl | rfl
      · cases hwritten
      · exact written_sendMessage rfl hwritten

theorem LinksOk.untagged (h : LinksOk g) {e : Event} {acts : List Act} :
    Untagged pm toProtobuf (g, acts) e := by
  intro g' sent hstep a ha s cmd hwritten hclient
  generalize hr : (g', sent) = r at hstep
  have hsent : a ∈ r.2 := by
    rw [← hr]
    exact ha
  cases step_cases hstep with
  | client _ _ raw r _ _ _ _ hto =>
    have hserver := h.toServer_written hto hsent hwritten
    change (g.session s).as_client = 0 at hclient
    omega
  | server _ cmd' raw r hhead _ _ hto => exact toClient_written hto hhead hsent hwritten
  | accept | timer | connected _ _ _ | failed _ _ _ | short _ _ | unserved _ _ _ _ _ _ | lost _ _
  | destroy _ _ _ => cases hsent

end Tags

/-- **Tags towards clients.** In every run every command the gateway writes to
a client session carries the tag 0, whatever the table is made into. -/
theorem client_tags (pm : ProtocolManager LuaBody)
    (toProtobuf : String → LuaBody → Option Bytes) (events : List Event) :
    Along (step pm) (Untagged pm toProtobuf) (State.init, []) events := by
  refine Along.of_invariant (I := fun c : State × List Act => LinksOk c.1) (P := fun _ _ => True)
    ?_ ?_ LinksOk.init (along_true _ _)
  · rintro ⟨g, acts⟩ e c' hok - hstep
    obtain ⟨g', out, hone, rfl⟩ := record_eq_some.mp hstep
    have hafter : LinksOk (g', out).1 := hok.step hone
    exact hafter
  · rintro ⟨g, acts⟩ e hok -
    exact hok.untagged

end LibuvServer.Gateway
