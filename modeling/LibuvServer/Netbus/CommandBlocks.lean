import LibuvServer.Lib.Heap
import LibuvServer.Netbus.ServiceManager
import Mathlib.Tactic.Common

/-!
# Blocks of a command

`decodeCmdMsg`, `freeDecodeCmdMsg` and their two callers, over the blocks they
obtain: a `commandMessage` and a text from `malloc`, a `Message` from `new`.
What goes back to the wrong one of the two has no outcome.
-/

namespace LibuvServer.Netbus

open LibuvServer.Lib

inductive CommandBlock where
  | commandMessage
  | jsonStr
  | message
  deriving DecidableEq

namespace CommandBlock

def malloced : CommandBlock → Bool
  | .commandMessage | .jsonStr => true
  | .message => false

/-- `free`. -/
def free (id : Nat) : Heap.Prog CommandBlock Unit := Heap.release malloced id

/-- `delete` of a `Message*`. -/
def delete (id : Nat) : Heap.Prog CommandBlock Unit := Heap.release (fun kind => !malloced kind) id

end CommandBlock

/-- A pointer to a `commandMessage`: its block, what is in it, and the block of
the body. -/
structure CommandPtr (Message : Type) where
  block : Nat
  msg : CommandMessage Message
  body : Option Nat

namespace CommandBlocks

open CommandBlock

variable {Session Message : Type}

/-- `protocolManager::decodeCmdMsg`: what it returns and `*outMessage`. -/
def decodeCmdMsg (pm : ProtocolManager Message) (cmd : Bytes) (cmdLen : Int) :
    Heap.Prog CommandBlock (Bool × Option (CommandPtr Message)) :=
  if cmdLen < COMMAND_HEAD then pure (false, none)
  else do
    let block ← Heap.alloc .commandMessage
    let msg : CommandMessage Message :=
      { serverType := cmdServerType cmd
        commandType := cmdCommandType cmd
        tags := cmdTags cmd
        body := none }
    if cmdLen = COMMAND_HEAD then pure (true, some ⟨block, msg, none⟩)
    else
      match pm.gProtocolType with
      | .PROTOCOL_JSON => do
        let jsonStr ← Heap.alloc .jsonStr
        pure (true, some ⟨block, { msg with body := some (.json (cmd.drop COMMAND_HEAD)) },
          some jsonStr⟩)
      | .PROTOCOL_BUF =>
        match pm.proto.createMessage (pm.gProtoMap msg.commandType) with
        | none => do
          free block
          pure (false, none)
        | some pM => do
          let message ← Heap.alloc .message
          match pm.proto.parseFromArray pM (cmd.drop COMMAND_HEAD) with
          | none => do
            free block
            delete message
            pure (false, none)
          | some pM =>
            pure (true, some ⟨block, { msg with body := some (.message pM) }, some message⟩)

/-- How a body is released depends on the protocol. -/
def freeBody (pm : ProtocolManager Message) (body : Nat) : Heap.Prog CommandBlock Unit :=
  match pm.gProtocolType with
  | .PROTOCOL_JSON => free body
  | .PROTOCOL_BUF => delete body

/-- `protocolManager::freeDecodeCmdMsg`. -/
def freeDecodeCmdMsg (pm : ProtocolManager Message) (cmdmsg : CommandPtr Message) :
    Heap.Prog CommandBlock Unit :=
  match cmdmsg.body with
  | none => free cmdmsg.block
  | some body => do
    freeBody pm body
    free cmdmsg.block

/-- `gServiceSet[i]`. What is read past the table may be any pointer. -/
def gServiceSet (set : ServiceSet Session Message)
    (past : Nat → Option (Service Session Message)) (i : Nat) : Option (Service Session Message) :=
  (ServiceManager.slot set i).getD (past i)

/-- `ServiceManager::recvCmdMsg`. A command that is not there is not read. -/
def recvCmdMsg (pm : ProtocolManager Message) (set : ServiceSet Session Message)
    (past : Nat → Option (Service Session Message)) (session : Session) (msg : Gateway2Server) :
    Heap.Prog CommandBlock Bool :=
  match gServiceSet set past msg.serverType with
  | none => pure false
  | some service =>
    if service.using_raw then pure (service.recvServiceRawHead session msg)
    else do
      match ← decodeCmdMsg pm msg.rawCmd msg.rawLen with
      | (false, _) => pure false
      | (true, none) => failure
      | (true, some cmd) => do
        let ret := service.recvServiceCmd session cmd.msg
        freeDecodeCmdMsg pm cmd
        pure ret

/-- `Raw.readBody`: the value it returns, if any. -/
def readBody (pm : ProtocolManager Message) (rawData : Gateway2Server) :
    Heap.Prog CommandBlock (Option (Option (Body Message))) := do
  match ← decodeCmdMsg pm rawData.rawCmd rawData.rawLen with
  | (false, _) => pure none
  | (true, none) => failure
  | (true, some msg) => do
    let value := msg.msg.body
    freeDecodeCmdMsg pm msg
    pure (some value)

/-! ## What each of them does to the blocks -/

section Spec

variable {pm : ProtocolManager Message} {live : Nat → Option CommandBlock}

/-- How the protocol's bodies are obtained. -/
def bodyBlock (pm : ProtocolManager Message) : CommandBlock :=
  match pm.gProtocolType with
  | .PROTOCOL_JSON => .jsonStr
  | .PROTOCOL_BUF => .message

/-- What is live is `live` and the blocks of the command. -/
inductive Holds (pm : ProtocolManager Message) (live : Nat → Option CommandBlock)
    (cmdmsg : CommandPtr Message) (heap : Heap CommandBlock) : Prop
  | head (hbody : cmdmsg.body = none) (hfree : live cmdmsg.block = none)
      (hlive : Heap.Live (Function.update live cmdmsg.block (some .commandMessage)) heap)
  | body {body : Nat} (hbody : cmdmsg.body = some body) (hfree : live cmdmsg.block = none)
      (hfree' : Function.update live cmdmsg.block (some .commandMessage) body = none)
      (hlive : Heap.Live (Function.update
        (Function.update live cmdmsg.block (some .commandMessage)) body
        (some (bodyBlock pm))) heap)

/-- What `decodeCmdMsg` leaves: a command with its blocks, or nothing. -/
def Decoded (pm : ProtocolManager Message) (live : Nat → Option CommandBlock)
    (cmd : Bytes) (cmdLen : Int) : Bool × Option (CommandPtr Message) → Heap CommandBlock → Prop
  | (ret, none), heap =>
    ret = false ∧ Netbus.decodeCmdMsg pm cmd cmdLen = none ∧ Heap.Live live heap
  | (ret, some cmdmsg), heap =>
    ret = true ∧ Netbus.decodeCmdMsg pm cmd cmdLen = some cmdmsg.msg ∧ Holds pm live cmdmsg heap

theorem decodeCmdMsg_ends (cmd : Bytes) (cmdLen : Int) :
    Heap.Ends (Heap.Live live) (decodeCmdMsg pm cmd cmdLen) (Decoded pm live cmd cmdLen) := by
  unfold decodeCmdMsg
  split
  · rename_i hlen
    exact Heap.ends_pure fun heap h => ⟨rfl, by rw [Netbus.decodeCmdMsg, if_pos hlen], h⟩
  rename_i hlen
  refine (Heap.alloc_ends CommandBlock.commandMessage).bind fun block =>
    Heap.ends_and fun hblock => ?_
  simp only
  split
  · rename_i heq
    refine Heap.ends_pure fun heap h => ⟨rfl, ?_, .head rfl hblock h⟩
    rw [Netbus.decodeCmdMsg, if_neg hlen, if_pos heq]
  rename_i hne
  -- what the decoder without blocks gives in the rest
  have hdecode := Netbus.decodeCmdMsg.eq_def pm cmd cmdLen
  simp only [if_neg hlen, if_neg hne] at hdecode
  cases hmode : pm.gProtocolType with
  | PROTOCOL_JSON =>
    rw [hmode] at hdecode
    refine (Heap.alloc_ends CommandBlock.jsonStr).bind fun jsonStr =>
      Heap.ends_and fun hjson => Heap.ends_pure fun heap h => ?_
    refine ⟨rfl, hdecode, .body rfl hblock hjson ?_⟩
    rw [bodyBlock, hmode]
    exact h
  | PROTOCOL_BUF =>
    rw [hmode] at hdecode
    simp only
    cases hcreate : pm.proto.createMessage (pm.gProtoMap (cmdCommandType cmd)) with
    | none =>
      simp only [hcreate] at hdecode ⊢
      refine (Heap.release_ends _ (Function.update_self _ _ _) rfl).bind fun _ =>
        Heap.ends_pure fun heap h => ⟨rfl, hdecode, ?_⟩
      rw [Heap.update_none hblock] at h
      exact h
    | some pM =>
      simp only [hcreate] at hdecode ⊢
      refine (Heap.alloc_ends CommandBlock.message).bind fun message =>
        Heap.ends_and fun hmessage => ?_
      have hne := Heap.ne_of_update hmessage
      cases hparse : pm.proto.parseFromArray pM (cmd.drop COMMAND_HEAD) with
      | none =>
        simp only [hparse] at hdecode ⊢
        -- the command goes first, and then the message
        have hcommand : Function.update (Function.update live block (some .commandMessage)) message
            (some .message) block = some CommandBlock.commandMessage := by
          rw [Function.update_of_ne hne.symm, Function.update_self]
        refine (Heap.release_ends _ hcommand rfl).bind fun _ => ?_
        rw [Heap.update_none_first hblock hne]
        refine (Heap.release_ends _ (Function.update_self _ _ _) rfl).bind fun _ =>
          Heap.ends_pure fun heap h => ⟨rfl, hdecode, ?_⟩
        rw [Function.update_of_ne hne] at hmessage
        rw [Heap.update_none hmessage] at h
        exact h
      | some pM =>
        simp only [hparse] at hdecode ⊢
        refine Heap.ends_pure fun heap h => ⟨rfl, hdecode, .body rfl hblock hmessage ?_⟩
        rw [bodyBlock, hmode]
        exact h

theorem freeBody_ends {body : Nat} (h : live body = some (bodyBlock pm)) :
    Heap.Ends (Heap.Live live) (freeBody pm body) fun _ heap =>
      Heap.Live (Function.update live body none) heap := by
  unfold freeBody
  unfold bodyBlock at h
  cases hmode : pm.gProtocolType with
  | PROTOCOL_JSON =>
    rw [hmode] at h
    exact Heap.release_ends _ h rfl
  | PROTOCOL_BUF =>
    rw [hmode] at h
    exact Heap.release_ends _ h rfl

/-- Releasing a command leaves what was there before it. -/
theorem freeDecodeCmdMsg_ends (cmdmsg : CommandPtr Message) :
    Heap.Ends (Holds pm live cmdmsg) (freeDecodeCmdMsg pm cmdmsg) fun _ heap =>
      Heap.Live live heap := by
  unfold freeDecodeCmdMsg
  intro heap hholds
  cases hholds with
  | head hbody hfree hlive =>
    rw [hbody]
    have hend := Heap.release_ends malloced
      (Function.update_self cmdmsg.block (some CommandBlock.commandMessage) live) rfl
    rw [Heap.update_none hfree] at hend
    exact hend heap hlive
  | @body body hbody hfree hfree' hlive =>
    rw [hbody]
    refine (freeBody_ends (Function.update_self body _ _)).bind (fun _ => ?_) heap hlive
    rw [Heap.update_none hfree']
    have hend := Heap.release_ends malloced
      (Function.update_self cmdmsg.block (some CommandBlock.commandMessage) live) rfl
    rw [Heap.update_none hfree] at hend
    exact hend

end Spec

/-! ## The callers -/

variable {pm : ProtocolManager Message} {set : ServiceSet Session Message}
  {past : Nat → Option (Service Session Message)} {session : Session} {msg : Gateway2Server}

/-- A command is decoded, and something is done with what comes of it. -/
theorem decoded_then {α : Type} {live : Nat → Option CommandBlock} {cmd : Bytes} {cmdLen : Int}
    {f : Bool × Option (CommandPtr Message) → Heap.Prog CommandBlock α}
    {Q : α → Heap CommandBlock → Prop}
    (hnone : Netbus.decodeCmdMsg pm cmd cmdLen = none →
      ∀ out, Heap.Ends (Heap.Live live) (f (false, out)) Q)
    (hsome : ∀ cmdmsg, Netbus.decodeCmdMsg pm cmd cmdLen = some cmdmsg.msg →
      Heap.Ends (Holds pm live cmdmsg) (f (true, some cmdmsg)) Q) :
    Heap.Ends (Heap.Live live) (decodeCmdMsg pm cmd cmdLen >>= f) Q := by
  refine (decodeCmdMsg_ends cmd cmdLen).bind ?_
  rintro ⟨ret, _ | cmdmsg⟩ heap
  · rintro ⟨rfl, hdecode, hlive⟩
    exact hnone hdecode none heap hlive
  · rintro ⟨rfl, hdecode, hholds⟩
    exact hsome cmdmsg hdecode heap hholds

/-- The answer without the blocks. -/
def answer (pm : ProtocolManager Message) (service : Option (Service Session Message))
    (session : Session) (msg : Gateway2Server) : Bool :=
  match service with
  | none => false
  | some service =>
    if service.using_raw then service.recvServiceRawHead session msg
    else
      match Netbus.decodeCmdMsg pm msg.rawCmd msg.rawLen with
      | none => false
      | some cmd => service.recvServiceCmd session cmd

/-- Inside the table it is the answer of `ServiceManager.recvCmdMsg`. -/
theorem answer_eq {ret : Bool} {handed : List (Handed Session Message)}
    (h : ServiceManager.recvCmdMsg pm set session msg = some (ret, handed)) :
    answer pm (gServiceSet set past msg.serverType) session msg = ret := by
  unfold ServiceManager.recvCmdMsg at h
  unfold gServiceSet answer
  cases hslot : ServiceManager.slot set msg.serverType with
  | none =>
    rw [hslot] at h
    cases h
  | some slot =>
    rw [hslot] at h
    rw [Option.getD_some]
    cases slot with
    | none =>
      cases h
      rfl
    | some service =>
      simp only at h ⊢
      split at h
      · rename_i hraw
        cases h
        rw [if_pos hraw]
      · rename_i hraw
        rw [if_neg hraw]
        split at h
        · rename_i cmd hdecode
          cases h
          rw [hdecode]
        · rename_i hdecode
          cases h
          rw [hdecode]

/-- The answer is the same over the blocks, and they are as they were. -/
theorem recvCmdMsg_ends (live : Nat → Option CommandBlock) :
    Heap.Ends (Heap.Live live) (recvCmdMsg pm set past session msg) fun ret heap =>
      ret = answer pm (gServiceSet set past msg.serverType) session msg ∧ Heap.Live live heap := by
  unfold recvCmdMsg answer
  cases gServiceSet set past msg.serverType with
  | none => exact Heap.ends_pure fun heap h => ⟨rfl, h⟩
  | some service =>
    simp only
    split
    · exact Heap.ends_pure fun heap h => ⟨rfl, h⟩
    · refine decoded_then (fun hdecode out => ?_) fun cmdmsg hdecode => ?_
      · rw [hdecode]
        exact Heap.ends_pure fun heap h => ⟨rfl, h⟩
      · rw [hdecode]
        exact (freeDecodeCmdMsg_ends cmdmsg).bind fun _ => Heap.ends_pure fun heap h => ⟨rfl, h⟩

/-- **Over the blocks** a command gets the answer it gets without them. -/
theorem recvCmdMsg_refines {ret : Bool} {handed : List (Handed Session Message)}
    (h : ServiceManager.recvCmdMsg pm set session msg = some (ret, handed))
    (heap : Heap CommandBlock) :
    ∃ heap', recvCmdMsg pm set past session msg heap = some (ret, heap') ∧
      heap'.live = heap.live := by
  obtain ⟨ret', heap', hrun, hret, hlive⟩ :
      ∃ ret' heap', recvCmdMsg pm set past session msg heap = some (ret', heap') ∧ _ :=
    recvCmdMsg_ends heap.live heap rfl
  rw [answer_eq h] at hret
  rw [hret] at hrun
  exact ⟨heap', hrun, hlive⟩

/-- The value is the body that is decoded, and the blocks are as they were. -/
theorem readBody_ends (live : Nat → Option CommandBlock) :
    Heap.Ends (Heap.Live live) (readBody pm msg) fun value heap =>
      value = (Netbus.decodeCmdMsg pm msg.rawCmd msg.rawLen).map CommandMessage.body ∧
        Heap.Live live heap := by
  refine decoded_then (fun hdecode out => ?_) fun cmdmsg hdecode => ?_
  · rw [hdecode]
    exact Heap.ends_pure fun heap h => ⟨rfl, h⟩
  · rw [hdecode]
    exact (freeDecodeCmdMsg_ends cmdmsg).bind fun _ => Heap.ends_pure fun heap h => ⟨rfl, h⟩

/-- **Dispatch leaves no command behind**: whatever the bytes, the services and
the protocol, what was obtained for a command is released just once, and only
a command that is decoded is pointed to. -/
theorem commands_released (pm : ProtocolManager Message) (set : ServiceSet Session Message)
    (past : Nat → Option (Service Session Message)) (session : Session) (msg : Gateway2Server) :
    Heap.Balanced (recvCmdMsg pm set past session msg) ∧ Heap.Balanced (readBody pm msg) ∧
      ∀ heap ret outMessage heap',
        decodeCmdMsg pm msg.rawCmd msg.rawLen heap = some ((ret, outMessage), heap') →
        (outMessage = none ↔ ret = false) := by
  refine ⟨fun live => (recvCmdMsg_ends live).post fun _ _ h => h.2,
    fun live => (readBody_ends live).post fun _ _ h => h.2,
    fun heap ret outMessage heap' hrun => ?_⟩
  obtain ⟨a, heap₁, hrun', hdecoded⟩ := decodeCmdMsg_ends msg.rawCmd msg.rawLen heap rfl
  rw [hrun, Option.some.injEq, Prod.mk.injEq] at hrun'
  obtain ⟨rfl, rfl⟩ := hrun'
  cases outMessage with
  | none => exact iff_of_true rfl hdecoded.1
  | some cmdmsg =>
    rw [hdecoded.1]
    exact iff_of_false (fun h => by cases h) (fun h => by cases h)

end CommandBlocks

end LibuvServer.Netbus
