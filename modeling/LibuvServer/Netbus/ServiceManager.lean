import LibuvServer.Netbus.ProtocolManager
import Mathlib.Data.List.Basic
import Mathlib.Tactic.Common

/-!
# Services

`netbus/servicemanager.cc`: the table of fifty services, how it is filled and
how a command finds its service. A read outside the table is `none`.
-/

namespace LibuvServer.Netbus

def MAX_SERVICE_NUM : Nat := 50

/-- A service as the manager sees it: how it wants its commands, and what it
answers to one. -/
structure Service (Session Message : Type) where
  using_raw : Bool
  recvServiceCmd : Session → CommandMessage Message → Bool
  recvServiceRawHead : Session → Gateway2Server → Bool

/-- `gServiceSet`: one slot for every number below `MAX_SERVICE_NUM`. -/
abbrev ServiceSet (Session Message : Type) :=
  Fin MAX_SERVICE_NUM → Option (Service Session Message)

/-- A command handed to a service. -/
inductive Handed (Session Message : Type) where
  | raw (service : Service Session Message) (session : Session) (msg : Gateway2Server)
  | cmd (service : Service Session Message) (session : Session) (cmd : CommandMessage Message)

def Handed.service {Session Message : Type} : Handed Session Message → Service Session Message
  | .raw service _ _ => service
  | .cmd service _ _ => service

namespace ServiceManager

variable {Session Message : Type}

/-- `ServiceManager::init`. -/
def init : ServiceSet Session Message := fun _ => none

/-- `ServiceManager::registService`. -/
def registService (set : ServiceSet Session Message) (type : Int)
    (service : Service Session Message) : ServiceSet Session Message × Bool :=
  if h : 0 ≤ type ∧ type < MAX_SERVICE_NUM then
    let slot : Fin MAX_SERVICE_NUM := ⟨type.toNat, by omega⟩
    -- the slot is taken
    if (set slot).isSome then (set, false)
    else (fun i => if i = slot then some service else set i, true)
  else (set, false)

/-- `gServiceSet[i]`, if that is a slot. -/
def slot (set : ServiceSet Session Message) (i : Nat) :
    Option (Option (Service Session Message)) :=
  if h : i < MAX_SERVICE_NUM then some (set ⟨i, h⟩) else none

/-- `ServiceManager::recvCmdMsg`: its answer and what was handed on. -/
def recvCmdMsg (pm : ProtocolManager Message) (set : ServiceSet Session Message)
    (session : Session) (msg : Gateway2Server) : Option (Bool × List (Handed Session Message)) :=
  match slot set msg.serverType with
  -- the number is not checked: the array is read past its end
  | none => none
  | some none => some (false, [])
  | some (some service) =>
    if service.using_raw then
      some (service.recvServiceRawHead session msg, [.raw service session msg])
    else
      match decodeCmdMsg pm msg.rawCmd msg.rawLen with
      | some cmd => some (service.recvServiceCmd session cmd, [.cmd service session cmd])
      | none => some (false, [])

/-- `ServiceManager::sessionDisconnect`: the services told, with the number
each is told under. -/
def sessionDisconnect (set : ServiceSet Session Message) :
    List (Service Session Message × Nat) :=
  (List.finRange MAX_SERVICE_NUM).filterMap fun i => (set i).map fun service => (service, i.val)

end ServiceManager

/-- `RecCommand`: what was handed on, and whether the session was closed. -/
def RecCommand {Session Message : Type} (pm : ProtocolManager Message)
    (set : ServiceSet Session Message) (session : Session) (cmd : Bytes) (len : Int) :
    Option (List (Handed Session Message) × Bool) :=
  match decodeMsgHead cmd len with
  | none => some ([], false)
  | some msg =>
    match ServiceManager.recvCmdMsg pm set session msg with
    | none => none
    | some (ret, handed) => some (handed, !ret)

/-! ## Registrations -/

namespace ServiceManager

variable {Session Message : Type} {set : ServiceSet Session Message}
  {regs : List (Int × Service Session Message)} {service : Service Session Message} {type : Int}

/-- A sequence of registrations. -/
def registerAll (set : ServiceSet Session Message) :
    List (Int × Service Session Message) → ServiceSet Session Message
  | [] => set
  | (type, service) :: regs => registerAll (registService set type service).1 regs

/-- The first service whose registration under `n` succeeds. -/
def firstOf (set : ServiceSet Session Message) :
    List (Int × Service Session Message) → Nat → Option (Service Session Message)
  | [], _ => none
  | (type, service) :: regs, n =>
    if type = n ∧ (registService set type service).2 then some service
    else firstOf (registService set type service).1 regs n

/-- The table after the registrations `regs`. -/
def registered (regs : List (Int × Service Session Message)) : ServiceSet Session Message :=
  registerAll init regs

theorem registService_of_eq (set : ServiceSet Session Message) (i : Fin MAX_SERVICE_NUM)
    (service : Service Session Message) :
    registService set i.val service =
      if (set i).isSome then (set, false)
      else (fun j => if j = i then some service else set j, true) := by
  have hi := i.isLt
  have hslot : (⟨(i.val : Int).toNat, by omega⟩ : Fin MAX_SERVICE_NUM) = i := by
    apply Fin.ext
    simp
  rw [registService, dif_pos (by omega)]
  simp only [hslot]

theorem registService_of_ne (set : ServiceSet Session Message) {i : Fin MAX_SERVICE_NUM}
    (service : Service Session Message) (h : type ≠ i.val) :
    (registService set type service).1 i = set i := by
  unfold registService
  split
  · simp only
    split
    · rfl
    · rename_i hrange _
      refine if_neg fun hi => ?_
      have hval := congrArg Fin.val hi
      simp only at hval
      omega
  · rfl

theorem registerAll_append (set : ServiceSet Session Message)
    (regs more : List (Int × Service Session Message)) :
    registerAll set (regs ++ more) = registerAll (registerAll set regs) more := by
  induction regs generalizing set with
  | nil => rfl
  | cons p regs ih => exact ih _

/-- A slot that is taken stays as it is. -/
theorem registerAll_taken {i : Fin MAX_SERVICE_NUM} {old : Service Session Message}
    (h : set i = some old) : registerAll set regs i = some old := by
  induction regs generalizing set with
  | nil => exact h
  | cons p regs ih =>
    obtain ⟨type, service⟩ := p
    have hkeep : (registService set type service).1 i = some old := by
      by_cases htype : type = i.val
      · subst htype
        rw [registService_of_eq, h]
        exact h
      · rw [registService_of_ne set service htype, h]
    rw [registerAll]
    exact ih hkeep

/-- **A free slot goes to the first service registered under its number.** -/
theorem registerAll_free {i : Fin MAX_SERVICE_NUM} (h : set i = none) :
    registerAll set regs i = firstOf set regs i.val := by
  induction regs generalizing set with
  | nil => exact h
  | cons p regs ih =>
    obtain ⟨type, service⟩ := p
    rw [registerAll, firstOf]
    by_cases htype : type = i.val
    · subst htype
      have hset : (registService set i.val service).1 i = some service := by
        rw [registService_of_eq, h]
        simp
      have hok : (registService set i.val service).2 = true := by
        rw [registService_of_eq, h]
        simp
      rw [registerAll_taken hset, if_pos ⟨rfl, hok⟩]
    · have hset : (registService set type service).1 i = none := by
        rw [registService_of_ne set service htype, h]
      rw [ih hset, if_neg fun hc => htype hc.1]

end ServiceManager

/-! ## Dispatch -/

section Dispatch

open ServiceManager

variable {Session Message : Type} {pm : ProtocolManager Message}
  {regs : List (Int × Service Session Message)} {session : Session} {cmd : Bytes}

/-- The first service registered under the number in the command's head. -/
def firstRegistered (regs : List (Int × Service Session Message)) (cmd : Bytes) :
    Option (Service Session Message) :=
  firstOf init regs (cmdServerType cmd)

/-- The service answers `false` to the command. -/
def Service.Refuses (pm : ProtocolManager Message) (service : Service Session Message)
    (session : Session) (cmd : Bytes) : Prop :=
  if service.using_raw then
    ∃ msg, decodeMsgHead cmd cmd.length = some msg ∧ service.recvServiceRawHead session msg = false
  else
    ∃ msg, decodeCmdMsg pm cmd cmd.length = some msg ∧ service.recvServiceCmd session msg = false

/-- What dispatch owes a command after the registrations `regs`. -/
structure Dispatched (pm : ProtocolManager Message) (regs : List (Int × Service Session Message))
    (session : Session) (cmd : Bytes) (handed : List (Handed Session Message)) (closed : Bool) :
    Prop where
  first : ∀ h ∈ handed, firstRegistered regs cmd = some h.service
  raw : ∀ service msg, firstRegistered regs cmd = some service → service.using_raw = true →
    decodeMsgHead cmd cmd.length = some msg → handed = [.raw service session msg]
  decoded : ∀ service msg, firstRegistered regs cmd = some service → service.using_raw = false →
    decodeCmdMsg pm cmd cmd.length = some msg → handed = [.cmd service session msg]
  closes : closed = true ↔ firstRegistered regs cmd = none ∨
    ∃ service, firstRegistered regs cmd = some service ∧
      ((service.using_raw = false ∧ decodeCmdMsg pm cmd cmd.length = none) ∨
        service.Refuses pm session cmd)

/-- A service keeps its slot whatever is registered later. -/
def Kept (regs : List (Int × Service Session Message)) : Prop :=
  ∀ pre, pre <+: regs → ∀ i service,
    registered pre i = some service → registered regs i = some service

theorem kept (regs : List (Int × Service Session Message)) : Kept regs := by
  rintro pre ⟨more, rfl⟩ i service h
  rw [registered, registerAll_append]
  exact registerAll_taken h

theorem slot_registered (regs : List (Int × Service Session Message))
    (h : cmdServerType cmd < MAX_SERVICE_NUM) :
    slot (registered regs) (cmdServerType cmd) = some (firstRegistered regs cmd) := by
  rw [slot, dif_pos h, registered, registerAll_free rfl, firstRegistered]

theorem RecCommand_outside (h : MAX_SERVICE_NUM ≤ cmdServerType cmd)
    (hlen : COMMAND_HEAD ≤ cmd.length) :
    RecCommand pm (registered regs) session cmd cmd.length = none := by
  rw [RecCommand, decodeMsgHead, if_neg (by omega)]
  simp only [recvCmdMsg, slot]
  rw [dif_neg (by omega)]

/-- No service is registered under the number. -/
theorem Dispatched.nobody (hfirst : firstRegistered regs cmd = none) :
    Dispatched pm regs session cmd [] true where
  first := by simp
  raw service m hs := by
    rw [hfirst] at hs
    cases hs
  decoded service m hs := by
    rw [hfirst] at hs
    cases hs
  closes := by simp [hfirst]

/-- The service takes commands as they came. -/
theorem Dispatched.asRaw {service : Service Session Message} {msg : Gateway2Server}
    (hfirst : firstRegistered regs cmd = some service) (huse : service.using_raw = true)
    (hmsg : decodeMsgHead cmd cmd.length = some msg) :
    Dispatched pm regs session cmd [.raw service session msg]
      (!service.recvServiceRawHead session msg) where
  first := by simp [hfirst, Handed.service]
  raw service' m hs _ hm := by
    rw [hfirst] at hs
    rw [hmsg] at hm
    cases hs
    cases hm
    rfl
  decoded service' m hs hfalse := by
    rw [hfirst] at hs
    cases hs
    rw [huse] at hfalse
    cases hfalse
  closes := by simp [hfirst, huse, Service.Refuses, hmsg]

/-- The service takes decoded commands, and the command can be decoded. -/
theorem Dispatched.asCmd {service : Service Session Message} {msg : CommandMessage Message}
    (hfirst : firstRegistered regs cmd = some service) (huse : service.using_raw = false)
    (hbody : decodeCmdMsg pm cmd cmd.length = some msg) :
    Dispatched pm regs session cmd [.cmd service session msg]
      (!service.recvServiceCmd session msg) where
  first := by simp [hfirst, Handed.service]
  raw service' m hs htrue := by
    rw [hfirst] at hs
    cases hs
    rw [huse] at htrue
    cases htrue
  decoded service' m hs _ hm := by
    rw [hfirst] at hs
    rw [hbody] at hm
    cases hs
    cases hm
    rfl
  closes := by simp [hfirst, huse, Service.Refuses, hbody]

/-- And here it cannot. -/
theorem Dispatched.undecoded {service : Service Session Message}
    (hfirst : firstRegistered regs cmd = some service) (huse : service.using_raw = false)
    (hbody : decodeCmdMsg pm cmd cmd.length = none) : Dispatched pm regs session cmd [] true where
  first := by simp
  raw service' m hs htrue := by
    rw [hfirst] at hs
    cases hs
    rw [huse] at htrue
    cases htrue
  decoded service' m _ _ hm := by
    rw [hbody] at hm
    cases hm
  closes := by simp [hfirst, huse, hbody]

/-- **A number inside the table** finds the service registered first. -/
theorem RecCommand_inside (pm : ProtocolManager Message)
    (regs : List (Int × Service Session Message)) (session : Session)
    (h : cmdServerType cmd < MAX_SERVICE_NUM) (hlen : COMMAND_HEAD ≤ cmd.length) :
    ∃ handed closed, RecCommand pm (registered regs) session cmd cmd.length =
      some (handed, closed) ∧ Dispatched pm regs session cmd handed closed := by
  have hslot := slot_registered regs h
  obtain ⟨msg, hmsg, htype, hraw, hrawLen⟩ : ∃ msg, decodeMsgHead cmd cmd.length = some msg ∧
      msg.serverType = cmdServerType cmd ∧ msg.rawCmd = cmd ∧ msg.rawLen = cmd.length := by
    rw [decodeMsgHead, if_neg (by omega)]
    exact ⟨_, rfl, rfl, rfl, rfl⟩
  simp only [RecCommand, hmsg, recvCmdMsg, htype, hslot, hraw, hrawLen]
  cases hfirst : firstRegistered regs cmd with
  | none => exact ⟨_, _, rfl, Dispatched.nobody hfirst⟩
  | some service =>
    cases huse : service.using_raw with
    | true => exact ⟨_, _, by simp [huse], Dispatched.asRaw hfirst huse hmsg⟩
    | false =>
      cases hbody : decodeCmdMsg pm cmd cmd.length with
      | some c => exact ⟨_, _, by simp [huse], Dispatched.asCmd hfirst huse hbody⟩
      | none => exact ⟨[], true, by simp [huse], Dispatched.undecoded hfirst huse hbody⟩

/-- **Dispatch is safe and faithful** for exactly the numbers the table has. -/
theorem dispatch_iff (pm : ProtocolManager Message)
    (regs : List (Int × Service Session Message)) (session : Session) (cmd : Bytes)
    (hlen : COMMAND_HEAD ≤ cmd.length) :
    (Kept regs ∧ ∃ handed closed,
      RecCommand pm (registered regs) session cmd cmd.length = some (handed, closed) ∧
        Dispatched pm regs session cmd handed closed) ↔
      cmdServerType cmd < MAX_SERVICE_NUM := by
  constructor
  · rintro ⟨-, handed, closed, hrun, -⟩
    by_contra hout
    rw [RecCommand_outside (by omega) hlen] at hrun
    cases hrun
  · exact fun h => ⟨kept regs, RecCommand_inside pm regs session h hlen⟩

/-- JSON commands, for services that need no sessions. -/
def jsonCommands : ProtocolManager Unit :=
  ⟨.PROTOCOL_JSON, fun _ => "", ⟨fun _ => none, fun _ _ => none⟩⟩

/-- A raw service and a later one under the same number. -/
def twoServices : List (Int × Service Unit Unit) :=
  [(1, ⟨true, fun _ _ => false, fun _ _ => true⟩), (1, ⟨false, fun _ _ => false, fun _ _ => false⟩)]

theorem dispatch_iff_two :
    Kept twoServices ∧ ∃ handed closed,
      RecCommand jsonCommands (registered twoServices) () [1, 0, 5, 0, 0, 0, 0, 0] 8 =
        some (handed, closed) ∧
        Dispatched jsonCommands twoServices () [1, 0, 5, 0, 0, 0, 0, 0] handed closed :=
  (dispatch_iff jsonCommands twoServices () [1, 0, 5, 0, 0, 0, 0, 0] (by decide)).mpr (by decide)

/-- The number 50 is read past the end of the table. -/
theorem dispatch_fifty :
    ¬ (Kept twoServices ∧ ∃ handed closed,
      RecCommand jsonCommands (registered twoServices) () [50, 0, 5, 0, 0, 0, 0, 0] 8 =
        some (handed, closed) ∧
        Dispatched jsonCommands twoServices () [50, 0, 5, 0, 0, 0, 0, 0] handed closed) := by
  rintro ⟨-, handed, closed, hrun, -⟩
  have hout : RecCommand jsonCommands (registered twoServices) () [50, 0, 5, 0, 0, 0, 0, 0] 8 =
      none := RecCommand_outside (by decide) (by decide)
  rw [hout] at hrun
  cases hrun

end Dispatch

end LibuvServer.Netbus
