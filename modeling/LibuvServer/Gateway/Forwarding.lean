import LibuvServer.Mylua.LuaService
import LibuvServer.Netbus.TcpReassembly
import LibuvServer.Netbus.WebReassembly
import Mathlib.Tactic.Common

/-!
# Forwarding

Commands of TCP and WebSocket clients meet on one link to a backend: each
is handed on by its session's parser, gets its tag from `Raw.setTag` and goes
out through `Session.sendRawData` in a TCP frame. Which command is forwarded
and which tag it gets is decided elsewhere; here every command that arrives
is forwarded, with any tag.
-/

namespace LibuvServer.Gateway

open LibuvServer.Lib LibuvServer.Netbus LibuvServer.Mylua WebProtocol

/-! ## Clients -/

/-- One masked frame of any length, in the shortest form of the length field. -/
structure WebFrame where
  opcode : UInt8
  mask : Bytes
  payload : Bytes
  opcode_data : opcode = 0x81 ∨ opcode = 0x82
  mask_size : mask.length = 4
  payload_size : payload.length < 2 ^ 63

/-- A number as eight bytes, high byte first. -/
def bigEndian (n : Nat) : Bytes := (List.range 8).map fun i => UInt8.ofNat (n >>> (8 * (7 - i)))

/-- The bytes of the frame. From 65536 bytes on the length takes eight bytes. -/
def WebFrame.encode (f : WebFrame) : Bytes :=
  if h : f.payload.length ≤ 65535 then
    ClientFrame.encode ⟨f.opcode, f.mask, f.payload, f.opcode_data, f.mask_size, h⟩
  else
    f.opcode :: 0xff :: bigEndian f.payload.length ++ f.mask ++ parserRecvData f.payload f.mask

/-- A client and the commands it sends: over TCP, where a frame carries at
most 65533 bytes, or over a WebSocket whose handshake is done. -/
inductive Client (lib : HttpLib) where
  | tcp (commands : List Bytes) (size : ∀ cmd ∈ commands, cmd.length ≤ 65533)
  | web (session : SessionUv) (shaken : Handshaken lib session) (frames : List WebFrame)

namespace Client

variable {lib : HttpLib}

/-- The gateway's session for the client. -/
def session : Client lib → SessionUv
  | .tcp _ _ => .create .TCP_SOCKET
  | .web session _ _ => session

/-- What the client puts on its connection. -/
def stream : Client lib → Bytes
  | .tcp commands _ => (commands.map TcpProtocol.parserRecvData).flatten
  | .web _ _ frames => (frames.map WebFrame.encode).flatten

def commands : Client lib → List Bytes
  | .tcp commands _ => commands
  | .web _ _ frames => frames.map WebFrame.payload

end Client

/-! ## The gateway -/

/-- The command in a call of `RecCommand`, if it has a head. -/
def arrival : Call → Option Gateway2Server
  | .recCommand cmd len => decodeMsgHead cmd len
  | _ => none

/-- The commands that arrive, with the clients they come from. -/
def arrivals {ι : Type} (calls : List (ι × Call)) : List (ι × Gateway2Server) :=
  calls.filterMap fun e => (arrival e.2).map fun raw => (e.1, raw)

/-- The commands with the tags the gateway sets, the `i`-th with `tag i`. -/
def forwarded (tag : Nat → Nat) (raws : List Gateway2Server) : List Bytes :=
  raws.mapIdx fun i raw => (Raw.setTag raw (tag i)).rawCmd

/-- What `Session.sendRawData` puts on the link, one frame after another. -/
def link (tag : Nat → Nat) (raws : List Gateway2Server) : Bytes :=
  ((forwarded tag raws).map TcpProtocol.parserRecvData).flatten

/-- The backend can read the link, and however it does, it gets the commands
with their tags and nothing else. -/
def Recovers (lib : HttpLib) (tag : Nat → Nat) (raws : List Gateway2Server) : Prop :=
  (∃ reads, reads.flatten = link tag raws ∧ Fits lib (.create .TCP_SOCKET) reads) ∧
  ∀ reads, reads.flatten = link tag raws → Fits lib (.create .TCP_SOCKET) reads →
    ∃ (s : SessionUv) (cmds : List Bytes),
      receive lib (.create .TCP_SOCKET) reads = .ended s (cmds.map handOn) ∧
      cmds.length = raws.length ∧
      ∀ i raw cmd, raws[i]? = some raw → cmds[i]? = some cmd → Retagged raw.rawCmd (tag i) cmd

/-- All streams are read to their ends, in reads of any sizes and in any order. -/
def Complete (lib : HttpLib) {n : Nat} (clients : Fin n → Client lib)
    (events : List (Fin n × Bytes)) : Prop :=
  ∀ c, (partOf c events).flatten = (clients c).stream ∧
    Fits lib (clients c).session (partOf c events)

/-- **Forwarding is transparent**: every client's commands arrive, each once
and in the client's order, and the backend recovers what arrived. -/
def Transparent (lib : HttpLib) {n : Nat} (clients : Fin n → Client lib) : Prop :=
  (∃ events, Complete lib clients events) ∧
  ∀ events, Complete lib clients events →
    ∃ sessions calls,
      interleave (deliver lib) (fun c => (clients c).session) events = .ended sessions calls ∧
      (∀ c, (partOf c (arrivals calls)).map (·.rawCmd) = (clients c).commands) ∧
      ∀ tag, Recovers lib tag ((arrivals calls).map (·.2))

/-! ## One client -/

section Clients

variable {lib : HttpLib}

/-- Commands short enough for a TCP frame are sent in the short forms. -/
theorem WebFrame.encode_short (frames : List WebFrame)
    (h : ∀ f ∈ frames, f.payload.length ≤ 65533) :
    ∃ fs : List ClientFrame, frames.map WebFrame.encode = fs.map ClientFrame.encode ∧
      frames.map WebFrame.payload = fs.map ClientFrame.payload := by
  induction frames with
  | nil => exact ⟨[], rfl, rfl⟩
  | cons f frames ih =>
    obtain ⟨fs, henc, hpay⟩ := ih fun g hg => h g (by simp [hg])
    have hf : f.payload.length ≤ 65535 := Nat.le_trans (h f (by simp)) (by decide)
    refine ⟨⟨f.opcode, f.mask, f.payload, f.opcode_data, f.mask_size, hf⟩ :: fs, ?_, ?_⟩
    · rw [List.map_cons, List.map_cons, henc, WebFrame.encode, dif_pos hf]
    · rw [List.map_cons, List.map_cons, hpay]

/-- A client whose commands are short enough is read to its end, and every
command is handed on. -/
theorem Client.receive (c : Client lib) (hmin : ∀ cmd ∈ c.commands, 8 ≤ cmd.length)
    (hmax : ∀ cmd ∈ c.commands, cmd.length ≤ 65533) {reads : List Bytes}
    (hreads : reads.flatten = c.stream) (hfit : Fits lib c.session reads) :
    ∃ s, receive lib c.session reads = .ended s (c.commands.map handOn) := by
  cases c with
  | tcp commands size =>
    have hp : ∀ p ∈ commands, Sendable p := fun p hp =>
      ⟨Nat.le_trans (by decide) (hmin p hp), hmax p hp⟩
    obtain ⟨s, hrun, -, -⟩ := receive_packages lib hp (hreads ▸ List.prefix_rfl) hfit
    rw [arrived_all (Nat.le_of_eq (congrArg List.length hreads).symm)] at hrun
    exact ⟨s, hrun⟩
  | web session shaken frames =>
    obtain ⟨fs, henc, hpay⟩ := WebFrame.encode_short frames
      fun f hf => hmax _ (List.mem_map_of_mem hf)
    have hstream : reads.flatten = (fs.map ClientFrame.encode).flatten := by
      rw [hreads, Client.stream, henc]
    obtain ⟨hk, hready, hnil⟩ := shaken.fresh
    obtain ⟨s, hrun, -, -⟩ := receive_frames lib hready hk hnil fs (hstream ▸ List.prefix_rfl) hfit
    rw [arrived_all (Nat.le_of_eq (congrArg List.length hstream).symm)] at hrun
    refine ⟨s, ?_⟩
    rw [Client.commands, hpay, List.map_map]
    exact hrun

/-- Such a client can be read. -/
theorem Client.fits (c : Client lib) (hmin : ∀ cmd ∈ c.commands, 8 ≤ cmd.length)
    (hmax : ∀ cmd ∈ c.commands, cmd.length ≤ 65533) :
    ∃ reads : List Bytes, reads.flatten = c.stream ∧ Fits lib c.session reads := by
  cases c with
  | tcp commands size =>
    have hp : ∀ p ∈ commands, Sendable p := fun p hp =>
      ⟨Nat.le_trans (by decide) (hmin p hp), hmax p hp⟩
    exact ⟨_, List.flatMap_singleton' _, fits_packages lib hp⟩
  | web session shaken frames =>
    obtain ⟨fs, henc, -⟩ := WebFrame.encode_short frames
      fun f hf => hmax _ (List.mem_map_of_mem hf)
    obtain ⟨hk, hready, hnil⟩ := shaken.fresh
    refine ⟨_, ?_, fits_frames lib hready hk hnil fs⟩
    rw [Client.stream, henc]
    exact List.flatMap_singleton' _

end Clients

/-! ## The link -/

section Link

variable {lib : HttpLib} {tag : Nat → Nat} {raws : List Gateway2Server}

/-- A command with a head arrives as it was sent. -/
theorem arrival_handOn {cmd : Bytes} (h : 8 ≤ cmd.length) :
    ∃ raw, arrival (handOn cmd) = some raw ∧ raw.rawCmd = cmd := by
  have hlen : ¬ ((cmd.length : Int) < COMMAND_HEAD) := by
    rw [COMMAND_HEAD]
    omega
  exact ⟨_, by rw [handOn, arrival, decodeMsgHead, if_neg hlen], rfl⟩

theorem filterMap_arrival {cmds : List Bytes} (h : ∀ cmd ∈ cmds, 8 ≤ cmd.length) :
    ((cmds.map handOn).filterMap arrival).map (·.rawCmd) = cmds := by
  induction cmds with
  | nil => rfl
  | cons cmd cmds ih =>
    obtain ⟨raw, harr, hraw⟩ := arrival_handOn (h cmd (by simp))
    rw [List.map_cons, List.filterMap_cons_some harr, List.map_cons, hraw,
      ih fun c hc => h c (by simp [hc])]

theorem partOf_arrivals {ι : Type} [DecidableEq ι] (i : ι) (calls : List (ι × Call)) :
    partOf i (arrivals calls) = (partOf i calls).filterMap arrival := by
  induction calls with
  | nil => rfl
  | cons e calls ih =>
    obtain ⟨j, call⟩ := e
    by_cases hij : j = i
    · subst hij
      rw [partOf_cons_self]
      cases harr : arrival call with
      | none =>
        rw [List.filterMap_cons_none harr, ← ih, arrivals,
          List.filterMap_cons_none (by simp [harr])]
        rfl
      | some raw =>
        have hhead : arrivals ((j, call) :: calls) = (j, raw) :: arrivals calls := by
          rw [arrivals, List.filterMap_cons_some (b := (j, raw)) (by simp [harr])]
          rfl
        rw [List.filterMap_cons_some harr, hhead, partOf_cons_self, ih]
    · rw [partOf_cons_ne hij, ← ih]
      cases harr : arrival call with
      | none =>
        rw [arrivals, List.filterMap_cons_none (by simp [harr])]
        rfl
      | some raw =>
        have hhead : arrivals ((j, call) :: calls) = (j, raw) :: arrivals calls := by
          rw [arrivals, List.filterMap_cons_some (b := (j, raw)) (by simp [harr])]
          rfl
        rw [hhead, partOf_cons_ne hij]

theorem forwarded_getElem? (i : Nat) :
    (forwarded tag raws)[i]? = raws[i]?.map fun raw => (Raw.setTag raw (tag i)).rawCmd := by
  rw [forwarded, List.getElem?_mapIdx]

theorem forwarded_length : (forwarded tag raws).length = raws.length := List.length_mapIdx

/-- Forwarding keeps the length of every command. -/
theorem forwarded_sendable (h : ∀ raw ∈ raws, 8 ≤ raw.rawCmd.length ∧ raw.rawCmd.length ≤ 65533) :
    ∀ cmd ∈ forwarded tag raws, Sendable cmd := by
  intro cmd hcmd
  obtain ⟨i, hi⟩ := List.mem_iff_getElem?.mp hcmd
  rw [forwarded_getElem?, Option.map_eq_some_iff] at hi
  obtain ⟨raw, hraw, rfl⟩ := hi
  obtain ⟨hmin, hmax⟩ := h raw (List.mem_of_getElem? hraw)
  have hlen := (setTag_retagged hmin (tag i)).length
  exact ⟨by omega, by omega⟩

/-- **Short commands are recovered** from the link, whoever sent them. -/
theorem recovers (h : ∀ raw ∈ raws, 8 ≤ raw.rawCmd.length ∧ raw.rawCmd.length ≤ 65533) :
    Recovers lib tag raws := by
  have hp : ∀ p ∈ forwarded tag raws, Sendable p := forwarded_sendable h
  refine ⟨⟨_, List.flatMap_singleton' _, fits_packages lib hp⟩, fun reads hreads hfit => ?_⟩
  obtain ⟨s, hrun, -, -⟩ := receive_packages lib hp (hreads ▸ List.prefix_rfl) hfit
  rw [hreads, link, arrived_all (Nat.le_refl _)] at hrun
  refine ⟨s, _, hrun, forwarded_length, fun i raw cmd hraw hcmd => ?_⟩
  rw [forwarded_getElem?, hraw] at hcmd
  cases hcmd
  exact setTag_retagged (h raw (List.mem_of_getElem? hraw)).1 (tag i)

/-- **A long command is not recovered**, whatever else is on the link. -/
theorem Recovers.length_le (h : Recovers lib tag raws) {raw : Gateway2Server} (hraw : raw ∈ raws) :
    raw.rawCmd.length ≤ 65533 := by
  obtain ⟨⟨reads, hreads, hfit⟩, hall⟩ := h
  obtain ⟨s, cmds, hrun, hlen, hcmds⟩ := hall reads hreads hfit
  obtain ⟨i, hi⟩ := List.mem_iff_getElem?.mp hraw
  have hlt : i < cmds.length := by
    rw [hlen]
    exact (List.getElem?_eq_some_iff.mp hi).1
  have htag := hcmds i raw cmds[i] hi (List.getElem?_eq_getElem hlt)
  have hann := receive_announced rfl hrun (handOn cmds[i])
    (List.mem_map_of_mem (List.getElem_mem hlt)) _ _ rfl
  have hsame := htag.length
  omega

end Link

/-! ## All clients -/

section Gateway

variable {lib : HttpLib} {n : Nat} {clients : Fin n → Client lib}

theorem mem_arrivals {raw : Gateway2Server} {calls : List (Fin n × Call)}
    (h : raw ∈ (arrivals calls).map (·.2)) : ∃ c, raw ∈ partOf c (arrivals calls) := by
  obtain ⟨⟨c, r⟩, hmem, rfl⟩ := List.mem_map.mp h
  refine ⟨c, List.mem_map.mpr ⟨(c, r), ?_, rfl⟩⟩
  rw [List.mem_filter]
  exact ⟨hmem, by simp⟩

theorem partOf_mem {raw : Gateway2Server} {c : Fin n} {calls : List (Fin n × Call)}
    (h : raw ∈ partOf c (arrivals calls)) : raw ∈ (arrivals calls).map (·.2) := by
  obtain ⟨e, hmem, rfl⟩ := List.mem_map.mp h
  exact List.mem_map_of_mem (List.mem_of_mem_filter hmem)

/-- **Forwarding is transparent** for exactly the clients whose commands fit
a TCP frame. -/
theorem forwarding_iff (lib : HttpLib) {n : Nat} (clients : Fin n → Client lib)
    (hmin : ∀ c, ∀ cmd ∈ (clients c).commands, 8 ≤ cmd.length) :
    Transparent lib clients ↔ ∀ c, ∀ cmd ∈ (clients c).commands, cmd.length ≤ 65533 := by
  constructor
  · rintro ⟨⟨events, hcomplete⟩, hall⟩ c cmd hcmd
    obtain ⟨sessions, calls, -, harrive, hrecover⟩ := hall events hcomplete
    rw [← harrive c] at hcmd
    obtain ⟨raw, hraw, rfl⟩ := List.mem_map.mp hcmd
    exact (hrecover fun _ => 0).length_le (partOf_mem hraw)
  · intro hmax
    constructor
    · choose reads hreads using fun c => (clients c).fits (hmin c) (hmax c)
      refine ⟨inTurn reads (List.finRange n), fun c => ?_⟩
      rw [partOf_inTurn (List.nodup_finRange n) (List.mem_finRange c)]
      exact hreads c
    · intro events hcomplete
      have heach : ∀ c, ∃ s, receive lib (clients c).session (partOf c events) =
          .ended s ((clients c).commands.map handOn) := fun c =>
        (clients c).receive (hmin c) (hmax c) (hcomplete c).1 (hcomplete c).2
      have hfeed : ∀ c, ∃ s out, feed (deliver lib) (clients c).session (partOf c events) =
          .ended s out := by
        intro c
        obtain ⟨s, hs⟩ := heach c
        exact ⟨s, _, hs⟩
      obtain ⟨sessions, calls, hrun, hpart⟩ := interleave_ended hfeed
      have harrive : ∀ c, (partOf c (arrivals calls)).map (·.rawCmd) = (clients c).commands := by
        intro c
        obtain ⟨s, hs⟩ := heach c
        have hcalls : partOf c calls = (clients c).commands.map handOn := by
          have hc := hpart c
          rw [← receive, hs] at hc
          exact (Outcome.ended.inj hc).2.symm
        rw [partOf_arrivals, hcalls, filterMap_arrival (hmin c)]
      refine ⟨sessions, calls, hrun, harrive, fun tag => recovers fun raw hraw => ?_⟩
      obtain ⟨c, hc⟩ := mem_arrivals hraw
      have hcmd : raw.rawCmd ∈ (clients c).commands := by
        rw [← harrive c]
        exact List.mem_map_of_mem hc
      exact ⟨hmin c _ hcmd, hmax c _ hcmd⟩

/-- A TCP client and a web client with one command each. -/
def mixedClients : Fin 2 → Client sampleLib
  | 0 => .tcp [[1, 0, 5, 0, 0, 0, 0, 0]] (by decide)
  | 1 => .web sampleSession handshaken_sample
      [⟨0x82, [4, 3, 2, 1], [1, 0, 5, 0, 0, 0, 0, 0, 9], opcode_binary, rfl, by decide⟩]

theorem forwarding_iff_two : Transparent sampleLib mixedClients := by
  have hlen : ∀ c, ∀ cmd ∈ (mixedClients c).commands, 8 ≤ cmd.length ∧ cmd.length ≤ 65533 := by
    intro c
    match c with
    | 0 => decide
    | 1 => decide
  exact (forwarding_iff sampleLib mixedClients fun c cmd h => (hlen c cmd h).1).mpr
    fun c cmd h => (hlen c cmd h).2

/-- A web client whose one command is a byte longer than a TCP frame carries. -/
def longClient : Fin 1 → Client sampleLib := fun _ =>
  .web sampleSession handshaken_sample
    [⟨0x82, [0, 0, 0, 0], List.replicate 65534 0, opcode_binary, rfl, by
      rw [List.length_replicate]; decide⟩]

/-- The header of its frame on the link is zero. -/
theorem forwarding_long : ¬ Transparent sampleLib longClient := by
  rintro ⟨⟨events, hcomplete⟩, hall⟩
  obtain ⟨sessions, calls, -, harrive, hrecover⟩ := hall events hcomplete
  have hcmd : List.replicate 65534 (0 : UInt8) ∈ (longClient 0).commands :=
    List.mem_singleton_self _
  rw [← harrive 0] at hcmd
  obtain ⟨raw, hraw, hlong⟩ := List.mem_map.mp hcmd
  have hle := (hrecover fun _ => 0).length_le (partOf_mem hraw)
  rw [hlong, List.length_replicate] at hle
  omega

end Gateway

end LibuvServer.Gateway
