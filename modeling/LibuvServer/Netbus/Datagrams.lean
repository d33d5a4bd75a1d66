import LibuvServer.Netbus.ServiceManager
import Mathlib.Tactic.Common

/-!
# Datagrams

`uv_startUdpEvent` of `netbus.cc`. The session of a datagram lives on the
stack and was never created: what `isShotdown` says is whatever was there
before, and its `tcpHandler` is no handle. It is dispatched like any other,
and closed when the command is rejected.
-/

namespace LibuvServer.Netbus.Datagrams

open LibuvServer.Netbus

variable {Addr Message : Type}

/-- What libuv calls with: a datagram, which may be empty, with its sender;
that there is nothing more to read; or an error. -/
inductive UdpEvent (Addr : Type) where
  | datagram (addr : Addr) (data : Bytes)
  | nothing
  | error (code : Nat)

namespace UdpEvent

def addr : UdpEvent Addr → Option Addr
  | datagram addr _ => some addr
  | nothing | error _ => none

def base : UdpEvent Addr → Bytes
  | datagram _ data => data
  | nothing | error _ => []

def nread : UdpEvent Addr → Int
  | datagram _ data => data.length
  | nothing => 0
  | error code => -(code + 1 : Nat)

end UdpEvent

/-- What is read of the session on the stack. -/
structure UdpSession (Addr : Type) where
  udpAdddr : Addr
  isShotdown : Bool

inductive UdpAction where
  | readAddr
  | disconnectService (stype : Nat)
  | uvShutdown
  | uvClose
  | destroy
  deriving DecidableEq

/-- `Session_uv::close`, with the callbacks that follow: `uv_close` comes at
once when the shutdown is refused, and else from its callback, and the
callback of `uv_close` destroys the session. -/
def close (set : ServiceSet (UdpSession Addr) Message) (s : UdpSession Addr) :
    UdpSession Addr × List UdpAction :=
  if s.isShotdown then (s, [])
  else
    ({ s with isShotdown := true },
      (ServiceManager.sessionDisconnect set).map (fun told => .disconnectService told.2) ++
        [.uvShutdown, .uvClose, .destroy])

/-- The closes of a command that is dispatched: by the handler it is handed to,
when `closing` says so, and when it is rejected. -/
def closes (set : ServiceSet (UdpSession Addr) Message)
    (closing : Handed (UdpSession Addr) Message → Bool) (s : UdpSession Addr) :
    List (Handed (UdpSession Addr) Message) × Bool → List UdpAction
  | (handed, rejected) =>
    let closed := if handed.any closing then close set s else (s, [])
    closed.2 ++ if rejected then (close set closed.1).2 else []

/-- `uv_startUdpEvent`, for what was on the stack in the place of
`isShotdown`. Reading an address through NULL has no outcome. -/
def uv_startUdpEvent (pm : ProtocolManager Message) (set : ServiceSet (UdpSession Addr) Message)
    (closing : Handed (UdpSession Addr) Message → Bool) (isShotdown : Bool)
    (event : UdpEvent Addr) : Option (List UdpAction) :=
  match event.addr with
  | none => none
  | some addr =>
    let udpServer : UdpSession Addr := { udpAdddr := addr, isShotdown := isShotdown }
    (RecCommand pm set udpServer event.base event.nread).map fun result =>
      .readAddr :: closes set closing udpServer result

/-- Whatever was on the stack, the event is handled, and nothing is done to a
handle that is none. -/
def Intact (pm : ProtocolManager Message) (set : ServiceSet (UdpSession Addr) Message)
    (closing : Handed (UdpSession Addr) Message → Bool) (event : UdpEvent Addr) : Prop :=
  ∀ isShotdown, ∃ trace, uv_startUdpEvent pm set closing isShotdown event = some trace ∧
    .uvShutdown ∉ trace ∧ .uvClose ∉ trace ∧ .destroy ∉ trace

/-- The service takes the command, and leaves the session open. -/
def Takes (pm : ProtocolManager Message) (service : Service (UdpSession Addr) Message)
    (closing : Handed (UdpSession Addr) Message → Bool) (s : UdpSession Addr) (cmd : Bytes) :
    Prop :=
  if service.using_raw then
    ∃ msg, decodeMsgHead cmd cmd.length = some msg ∧ service.recvServiceRawHead s msg = true ∧
      closing (.raw service s msg) = false
  else
    ∃ msg, decodeCmdMsg pm cmd cmd.length = some msg ∧ service.recvServiceCmd s msg = true ∧
      closing (.cmd service s msg) = false

/-- A datagram that is too short for a command, or one that a registered
service takes. -/
def Welcome (pm : ProtocolManager Message) (set : ServiceSet (UdpSession Addr) Message)
    (closing : Handed (UdpSession Addr) Message → Bool) : UdpEvent Addr → Prop
  | .datagram addr data =>
    data.length < COMMAND_HEAD ∨
      ∃ service, ServiceManager.slot set (cmdServerType data) = some (some service) ∧
        Takes pm service closing ⟨addr, false⟩ data
  | .nothing => False
  | .error _ => False

/-! ## Closing -/

section Closing

variable {set : ServiceSet (UdpSession Addr) Message} {s : UdpSession Addr}

theorem close_shotdown (h : s.isShotdown = true) : close set s = (s, []) := by
  rw [close, if_pos h]

theorem uvShutdown_mem_close (h : s.isShotdown = false) : .uvShutdown ∈ (close set s).2 := by
  rw [close, if_neg (by rw [h]; exact Bool.false_ne_true)]
  exact List.mem_append_right _ (.head _)

end Closing

/-! ## Dispatch of a datagram -/

section Dispatch

variable {pm : ProtocolManager Message} {set : ServiceSet (UdpSession Addr) Message}
  {closing : Handed (UdpSession Addr) Message → Bool} {s : UdpSession Addr} {data : Bytes}

/-- What dispatch hands on closes nothing, and the command is not rejected. -/
def Calm (closing : Handed (UdpSession Addr) Message → Bool) :
    List (Handed (UdpSession Addr) Message) × Bool → Prop
  | (handed, rejected) => handed.any closing = false ∧ rejected = false

theorem RecCommand_short (h : data.length < COMMAND_HEAD) :
    RecCommand pm set s data data.length = some ([], false) := by
  rw [RecCommand, decodeMsgHead, if_pos (by omega)]

/-- What is dispatched when the slot is there. -/
def dispatched (pm : ProtocolManager Message) (s : UdpSession Addr) (data : Bytes)
    (msg : Gateway2Server) : Option (Service (UdpSession Addr) Message) →
    List (Handed (UdpSession Addr) Message) × Bool
  | none => ([], true)
  | some service =>
    if service.using_raw then ([.raw service s msg], !service.recvServiceRawHead s msg)
    else
      match decodeCmdMsg pm data data.length with
      | some cmd => ([.cmd service s cmd], !service.recvServiceCmd s cmd)
      | none => ([], true)

theorem RecCommand_slot (pm : ProtocolManager Message)
    (set : ServiceSet (UdpSession Addr) Message) (s : UdpSession Addr)
    (h : ¬ data.length < COMMAND_HEAD) :
    ∃ msg, decodeMsgHead data data.length = some msg ∧
      RecCommand pm set s data data.length =
        (ServiceManager.slot set (cmdServerType data)).map (dispatched pm s data msg) := by
  have hhead : decodeMsgHead data data.length =
      some ⟨cmdServerType data, cmdCommandType data, cmdTags data, data, data.length⟩ := by
    rw [decodeMsgHead, if_neg (by omega)]
  refine ⟨_, hhead, ?_⟩
  rw [RecCommand, hhead]
  simp only [ServiceManager.recvCmdMsg]
  cases ServiceManager.slot set (cmdServerType data) with
  | none => rfl
  | some slot =>
    cases slot with
    | none => rfl
    | some service =>
      rw [Option.map_some, dispatched]
      cases hraw : service.using_raw with
      | true => simp [hraw]
      | false => cases decodeCmdMsg pm data data.length <;> simp [hraw]

/-- A service is calm about what it takes. -/
theorem dispatched_calm {msg : Gateway2Server} (hmsg : decodeMsgHead data data.length = some msg)
    (service : Service (UdpSession Addr) Message) :
    Calm closing (dispatched pm s data msg (some service)) ↔ Takes pm service closing s data := by
  rw [dispatched, Takes]
  cases hraw : service.using_raw with
  | true => simp [Calm, hmsg, and_comm]
  | false => cases hdecode : decodeCmdMsg pm data data.length <;> simp [Calm, and_comm]

/-- A command is taken calmly by the service that it is for. -/
theorem calm_iff (h : ¬ data.length < COMMAND_HEAD) :
    (∃ result, RecCommand pm set s data data.length = some result ∧ Calm closing result) ↔
      ∃ service, ServiceManager.slot set (cmdServerType data) = some (some service) ∧
        Takes pm service closing s data := by
  obtain ⟨msg, hmsg, hrec⟩ := RecCommand_slot pm set s h
  rw [hrec]
  cases ServiceManager.slot set (cmdServerType data) with
  | none => simp
  | some slot =>
    cases slot with
    | none => simp [Calm, dispatched]
    | some service => simp [dispatched_calm hmsg]

/-- Whether anything is dispatched does not depend on the session. -/
theorem RecCommand_isSome (s' : UdpSession Addr)
    (h : RecCommand pm set s data data.length ≠ none) :
    RecCommand pm set s' data data.length ≠ none := by
  by_cases hlen : data.length < COMMAND_HEAD
  · rw [RecCommand_short hlen]
    exact Option.some_ne_none _
  · obtain ⟨msg, -, hrec⟩ := RecCommand_slot pm set s hlen
    obtain ⟨msg', -, hrec'⟩ := RecCommand_slot pm set s' hlen
    rw [hrec, ne_eq, Option.map_eq_none_iff] at h
    rw [hrec', ne_eq, Option.map_eq_none_iff]
    exact h

end Dispatch

/-! ## Events -/

section Events

variable {pm : ProtocolManager Message} {set : ServiceSet (UdpSession Addr) Message}
  {closing : Handed (UdpSession Addr) Message → Bool} {addr : Addr} {data : Bytes}

theorem closes_shotdown {s : UdpSession Addr} (h : s.isShotdown = true)
    (result : List (Handed (UdpSession Addr) Message) × Bool) :
    closes set closing s result = [] := by
  have hclosed : (if result.1.any closing then close set s else (s, [])) = (s, []) := by
    rw [close_shotdown h, ite_self]
  show (if result.1.any closing then close set s else (s, [])).2 ++ _ = _
  rw [hclosed, close_shotdown h, ite_self]
  rfl

theorem closes_calm {s : UdpSession Addr} {result : List (Handed (UdpSession Addr) Message) × Bool}
    (h : Calm closing result) : closes set closing s result = [] := by
  obtain ⟨handed, rejected⟩ := result
  obtain ⟨hhanded, rfl⟩ := h
  rw [closes, hhanded]
  rfl

theorem uvShutdown_mem_closes {s : UdpSession Addr} (hopen : s.isShotdown = false)
    {result : List (Handed (UdpSession Addr) Message) × Bool} (h : ¬ Calm closing result) :
    .uvShutdown ∈ closes set closing s result := by
  obtain ⟨handed, rejected⟩ := result
  rw [closes]
  cases hhanded : handed.any closing with
  | true => exact List.mem_append_left _ (uvShutdown_mem_close hopen)
  | false =>
    cases rejected with
    | true => exact List.mem_append_right _ (uvShutdown_mem_close hopen)
    | false => exact absurd ⟨hhanded, rfl⟩ h

/-- The session that is on the stack when it says that it is open decides. -/
theorem intact_datagram :
    Intact pm set closing (.datagram addr data) ↔
      ∃ result, RecCommand pm set ⟨addr, false⟩ data data.length = some result ∧
        Calm closing result := by
  have hevent : ∀ isShotdown, uv_startUdpEvent pm set closing isShotdown (.datagram addr data) =
      (RecCommand pm set ⟨addr, isShotdown⟩ data data.length).map fun result =>
        .readAddr :: closes set closing ⟨addr, isShotdown⟩ result := fun _ => rfl
  constructor
  · intro h
    obtain ⟨trace, htrace, hshutdown, -⟩ := h false
    rw [hevent, Option.map_eq_some_iff] at htrace
    obtain ⟨result, hrec, rfl⟩ := htrace
    refine ⟨result, hrec, ?_⟩
    by_contra hcalm
    exact hshutdown (List.mem_cons_of_mem _ (uvShutdown_mem_closes rfl hcalm))
  · rintro ⟨result, hrec, hcalm⟩ isShotdown
    rw [hevent]
    cases isShotdown with
    | false =>
      rw [hrec, Option.map_some, closes_calm hcalm]
      exact ⟨_, rfl, by decide⟩
    | true =>
      have hsome := RecCommand_isSome ⟨addr, true⟩ (ne_of_eq_of_ne hrec (Option.some_ne_none _))
      obtain ⟨result', hrec'⟩ := Option.ne_none_iff_exists'.mp hsome
      rw [hrec', Option.map_some, closes_shotdown rfl]
      exact ⟨_, rfl, by decide⟩

/-- **A datagram event leaves the process intact** exactly when there is a
sender and the datagram is too short for a command or a service takes it. -/
theorem datagram_intact_iff (pm : ProtocolManager Message)
    (set : ServiceSet (UdpSession Addr) Message)
    (closing : Handed (UdpSession Addr) Message → Bool) (event : UdpEvent Addr) :
    Intact pm set closing event ↔ Welcome pm set closing event := by
  cases event with
  | datagram addr data =>
    rw [intact_datagram, Welcome]
    by_cases hlen : data.length < COMMAND_HEAD
    · rw [RecCommand_short hlen]
      exact iff_of_true ⟨_, rfl, rfl, rfl⟩ (.inl hlen)
    · rw [calm_iff hlen, or_iff_right hlen]
  | nothing =>
    refine iff_of_false (fun h => ?_) id
    obtain ⟨trace, htrace, -⟩ := h false
    cases htrace
  | error code =>
    refine iff_of_false (fun h => ?_) id
    obtain ⟨trace, htrace, -⟩ := h false
    cases htrace

/-- After the last datagram libuv says that there is nothing more, without an
address; and a command for a service that nobody registered is rejected. -/
theorem datagram_intact_not :
    ¬ Intact jsonCommands (fun _ => none) (fun _ => false) (.nothing : UdpEvent Unit) ∧
    ¬ Intact jsonCommands (fun _ => none) (fun _ => false)
      (.datagram () [7, 0, 1, 0, 0, 0, 0, 0]) := by
  constructor
  · intro h
    obtain ⟨trace, htrace, -⟩ := h false
    cases htrace
  · intro h
    obtain ⟨trace, htrace, hshutdown, -⟩ := h false
    have hrun : uv_startUdpEvent jsonCommands (fun _ => none) (fun _ => false) false
        (.datagram () [7, 0, 1, 0, 0, 0, 0, 0]) =
          some [.readAddr, .uvShutdown, .uvClose, .destroy] := by decide +kernel
    rw [hrun] at htrace
    cases htrace
    exact hshutdown (by decide)

end Events

end LibuvServer.Netbus.Datagrams
