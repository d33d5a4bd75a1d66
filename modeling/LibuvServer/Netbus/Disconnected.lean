import LibuvServer.Netbus.Closing
import LibuvServer.Netbus.HandedOn

/-!
# Reading a session that is closed

`Session_uv::close` tells the services, and reading goes on until the handle
is closed. The parsers do not look at `isShotdown` and, but for the web close
frame, do not leave their loops when the session is closed under them: what
is in the buffer behind the frame that closed it, and what is read later, is
still handed on. `Silent` says that there is no such command.
-/

namespace LibuvServer.Netbus.Disconnected

open LibuvServer.Lib
open LibuvServer.Netbus.Closing (toldTypes mem_toldTypes)
open LibuvServer.Netbus.TcpProtocol (tcpFraming)

/-- What the services see of a session. -/
inductive Notice (Session Message : Type) where
  | command (handed : Handed Session Message)
  | disconnect (stype : Nat)

variable {Session Message : Type}

def Notice.isCommand : Notice Session Message → Bool
  | .command _ => true
  | .disconnect _ => false

/-- No service gets a command after one has been told of the disconnect. -/
def NoLateCommand (notices : List (Notice Session Message)) : Prop :=
  notices.Pairwise fun earlier later => earlier.isCommand = false → later.isCommand = false

/-- A session while it is read. -/
structure Peer where
  uv : SessionUv
  isShotdown : Bool

/-- What happens next: bytes are read, and the handler of the n-th call the
read makes closes the session or not; the peer is gone; or something else
closes the session. -/
inductive Event where
  | read (data : Bytes) (closing : Nat → Bool)
  | eof
  | close

section Peer

variable (lib : HttpLib) (pm : ProtocolManager Message) (set : ServiceSet Session Message)
  (session : Session)

/-- `Session_uv::close`, as the services see it. -/
def close (isShotdown : Bool) : Bool × List (Notice Session Message) :=
  if isShotdown then (true, []) else (true, (toldTypes set).map .disconnect)

/-- One call of the reading side. The handler of a command may close the session. -/
def serveCall (closing : Bool) (isShotdown : Bool) :
    Call → Option (Bool × List (Notice Session Message))
  | .sendData _ => some (isShotdown, [])
  | .close => some (close set isShotdown)
  | .recCommand cmd len =>
    match RecCommand pm set session cmd len with
    | none => none
    | some (handed, refused) =>
      let handled :=
        if !handed.isEmpty && closing then close set isShotdown else (isShotdown, [])
      let ended := if refused then close set handled.1 else (handled.1, [])
      some (ended.1, handed.map .command ++ handled.2 ++ ended.2)

/-- The calls of one read. -/
def serve (closing : Nat → Bool) (isShotdown : Bool) :
    List Call → Option (Bool × List (Notice Session Message))
  | [] => some (isShotdown, [])
  | call :: calls =>
    match serveCall pm set session (closing 0) isShotdown call with
    | none => none
    | some (isShotdown, notices) =>
      (serve (fun n => closing (n + 1)) isShotdown calls).map fun r => (r.1, notices ++ r.2)

/-- One event, if it can happen now. -/
def step (c : Peer) : Event → Option (Peer × List (Notice Session Message))
  | .read data closing =>
    if (data.length : Int) ≤ offered c.uv then
      match deliver lib c.uv data with
      | .ended uv calls =>
        (serve pm set session closing c.isShotdown calls).map fun r => (⟨uv, r.1⟩, r.2)
      | .faulted => none
      | .unfinished => none
    else none
  | .eof =>
    match uvReadData lib c.uv (-1) with
    | .ended uv calls =>
      (serve pm set session (fun _ => false) c.isShotdown calls).map fun r => (⟨uv, r.1⟩, r.2)
    | .faulted => none
    | .unfinished => none
  | .close =>
    let closed := close set c.isShotdown
    some ({ c with isShotdown := closed.1 }, closed.2)

/-- A session that has just been created. -/
def init (socketType : SocketType) : Peer := ⟨SessionUv.create socketType, false⟩

/-! ## What is said of a run -/

/-- A service takes the call's command. -/
def Served : Call → Prop
  | .recCommand cmd len => ∃ h handed refused,
      RecCommand pm set session cmd len = some (h :: handed, refused)
  | _ => False

/-- The call closes the session. -/
def Closes (closing : Bool) : Call → Prop
  | .sendData _ => False
  | .close => True
  | .recCommand cmd len => ∃ handed refused,
      RecCommand pm set session cmd len = some (handed, refused) ∧
        (refused = true ∨ handed ≠ [] ∧ closing = true)

/-- No service takes a command that comes after the session is closed. -/
def Quiet (closing : Nat → Bool) (closed : Prop) : List Call → Prop
  | [] => True
  | call :: calls => (closed → ¬ Served pm set session call) ∧
      Quiet (fun n => closing (n + 1)) (closed ∨ Closes pm set session (closing 0) call) calls

/-- The frames that a read completes hold no command for a service once the
session is closed, be it before the read or by an earlier one of them. -/
def Silent (c : Peer × List (Notice Session Message)) : Event → Prop
  | .read data closing =>
    Quiet pm set session closing (c.1.isShotdown = true) (frameCalls c.1.uv data)
  | _ => True

end Peer

section Serving

variable {lib : HttpLib} {pm : ProtocolManager Message} {set : ServiceSet Session Message}
  {session : Session} {notices out : List (Notice Session Message)} {call : Call}
  {shut shut' : Bool}

/-- What has been told of a session: a disconnect when it is closed, and no sooner. -/
structure Told (set : ServiceSet Session Message) (shut : Bool)
    (notices : List (Notice Session Message)) : Prop where
  closed : ∀ a ∈ notices, a.isCommand = false → shut = true
  told : shut = true → toldTypes set ≠ [] → ∃ a ∈ notices, a.isCommand = false

/-- A command is taken by a service that is told of disconnects. -/
theorem told_of_handed {cmd : Bytes} {len : Int} {handed : List (Handed Session Message)}
    {refused : Bool} (h : RecCommand pm set session cmd len = some (handed, refused))
    (hne : handed ≠ []) : toldTypes set ≠ [] := by
  unfold RecCommand ServiceManager.recvCmdMsg ServiceManager.slot at h
  split at h
  · rw [Option.some.injEq, Prod.mk.injEq] at h
    exact absurd h.1.symm hne
  · rename_i msg _
    by_cases hslot : msg.serverType < MAX_SERVICE_NUM
    · simp only [dif_pos hslot] at h
      cases hservice : set ⟨msg.serverType, hslot⟩ with
      | none =>
        simp only [hservice, Option.some.injEq, Prod.mk.injEq] at h
        exact absurd h.1.symm hne
      | some service => exact List.ne_nil_of_mem (mem_toldTypes hservice)
    · simp only [dif_neg hslot] at h
      cases h

/-- Commands, in front of which there is no disconnect unless there are none. -/
theorem Told.commands (h : Told set shut notices) (handed : List (Handed Session Message))
    (htypes : handed ≠ [] → toldTypes set ≠ []) :
    Told set shut (notices ++ handed.map .command) ∧
      (NoLateCommand (notices ++ handed.map .command) ↔
        NoLateCommand notices ∧ (shut = true → handed = [])) := by
  have hcommand : ∀ a ∈ (handed.map .command : List (Notice Session Message)),
      a.isCommand = true := by
    intro a ha
    obtain ⟨_, _, rfl⟩ := List.mem_map.mp ha
    rfl
  have hdisconnect : ∀ a ∈ notices ++ handed.map .command, a.isCommand = false → a ∈ notices := by
    intro a ha hfalse
    refine (List.mem_append.mp ha).resolve_right fun hnew => ?_
    rw [hcommand a hnew] at hfalse
    cases hfalse
  refine ⟨⟨fun a ha hfalse => h.closed a (hdisconnect a ha hfalse) hfalse, fun hshut hne => ?_⟩, ?_⟩
  · obtain ⟨a, ha, hfalse⟩ := h.told hshut hne
    exact ⟨a, List.mem_append_left _ ha, hfalse⟩
  · unfold NoLateCommand
    rw [List.pairwise_append]
    constructor
    · rintro ⟨hold, -, hlate⟩
      refine ⟨hold, fun hshut => ?_⟩
      by_contra hne
      -- a command would come after the disconnect that shut the session
      obtain ⟨a, ha, hfalse⟩ := h.told hshut (htypes hne)
      obtain ⟨x, hx⟩ := List.exists_mem_of_ne_nil handed hne
      have hx' : Notice.command x ∈ handed.map .command := List.mem_map_of_mem hx
      cases hlate a ha _ hx' hfalse
    · rintro ⟨hold, hnone⟩
      refine ⟨hold, ?_, fun a ha b hb hfalse => ?_⟩
      · refine List.pairwise_of_forall_mem_list fun a ha b _ hfalse => ?_
        rw [hcommand a ha] at hfalse
        cases hfalse
      · rw [hnone (h.closed a ha hfalse)] at hb
        cases hb

/-- `close`, if it is called. -/
theorem Told.closeIf (h : Told set shut notices) (b : Bool) :
    let r := if b then close set shut else (shut, [])
    Told set r.1 (notices ++ r.2) ∧ (r.1 = true ↔ shut = true ∨ b = true) ∧
      (NoLateCommand (notices ++ r.2) ↔ NoLateCommand notices) := by
  cases b with
  | false => simpa using h
  | true =>
    cases shut with
    | true => simpa [close] using h
    | false =>
      have hdisconnect : ∀ a ∈ ((toldTypes set).map .disconnect : List (Notice Session Message)),
          a.isCommand = false := by
        intro a ha
        obtain ⟨_, _, rfl⟩ := List.mem_map.mp ha
        rfl
      simp only [close, if_true, Bool.false_eq_true, if_false, or_true, true_and]
      refine ⟨⟨fun _ _ _ => rfl, fun _ hne => ?_⟩, ?_⟩
      · obtain ⟨stype, hstype⟩ := List.exists_mem_of_ne_nil _ hne
        exact ⟨_, List.mem_append_right _ (List.mem_map_of_mem hstype), rfl⟩
      · unfold NoLateCommand
        rw [List.pairwise_append]
        constructor
        · exact fun hall => hall.1
        · refine fun hold => ⟨hold, ?_, fun _ _ b hb _ => hdisconnect b hb⟩
          exact List.pairwise_of_forall_mem_list fun _ _ b hb _ => hdisconnect b hb

/-- **What one call does**: it tells of a disconnect if it closes the session,
and hands on a late command only if there is one. -/
theorem serveCall_told (h : Told set shut notices) {closing : Bool}
    (hserve : serveCall pm set session closing shut call = some (shut', out)) :
    Told set shut' (notices ++ out) ∧
      (shut' = true ↔ shut = true ∨ Closes pm set session closing call) ∧
      (NoLateCommand (notices ++ out) ↔
        NoLateCommand notices ∧ (shut = true → ¬ Served pm set session call)) := by
  cases call with
  | sendData body =>
    simp only [serveCall, Option.some.injEq, Prod.mk.injEq] at hserve
    obtain ⟨rfl, rfl⟩ := hserve
    simpa [Closes, Served] using h
  | close =>
    simp only [serveCall, Option.some.injEq] at hserve
    have hclose := h.closeIf true
    rw [if_pos rfl, hserve] at hclose
    simpa [Closes, Served] using hclose
  | recCommand cmd len =>
    simp only [serveCall] at hserve
    split at hserve
    · cases hserve
    · rename_i handed refused hrec
      obtain ⟨hcommands, hlate⟩ := h.commands handed (told_of_handed hrec)
      obtain ⟨hhandled, hshut, hsame⟩ := hcommands.closeIf (!handed.isEmpty && closing)
      generalize hr : (if (!handed.isEmpty && closing) = true then close set shut
        else (shut, [])) = handled at *
      obtain ⟨hended, hshut', hsame'⟩ := hhandled.closeIf refused
      generalize hr' : (if refused = true then close set handled.1
        else (handled.1, [])) = ended at *
      simp only [Option.some.injEq, Prod.mk.injEq] at hserve
      obtain ⟨rfl, rfl⟩ := hserve
      rw [← List.append_assoc, ← List.append_assoc]
      have hcloses : Closes pm set session closing (.recCommand cmd len) ↔
          refused = true ∨ handed ≠ [] ∧ closing = true := by
        refine ⟨fun ⟨handed', refused', heq, hor⟩ => ?_, fun hor => ⟨handed, refused, hrec, hor⟩⟩
        rw [hrec, Option.some.injEq, Prod.mk.injEq] at heq
        rwa [heq.1, heq.2]
      have htaken : Served pm set session (.recCommand cmd len) ↔ handed ≠ [] := by
        refine ⟨fun ⟨x, rest, refused', heq⟩ => ?_, fun hne => ?_⟩
        · rw [hrec, Option.some.injEq, Prod.mk.injEq] at heq
          rw [heq.1]
          exact List.cons_ne_nil x rest
        · obtain ⟨x, rest, rfl⟩ := List.exists_cons_of_ne_nil hne
          exact ⟨x, rest, refused, hrec⟩
      refine ⟨hended, ?_, ?_⟩
      · rw [hshut', hshut, hcloses]
        simp only [Bool.and_eq_true, Bool.not_eq_true', List.isEmpty_eq_false_iff]
        rw [or_assoc, or_comm (b := refused = true)]
      · rw [hsame', hsame, hlate, htaken]
        simp only [ne_eq, Decidable.not_not]

theorem serve_told (h : Told set shut notices) {closing : Nat → Bool} {calls : List Call}
    (hserve : serve pm set session closing shut calls = some (shut', out)) :
    Told set shut' (notices ++ out) ∧
      (NoLateCommand (notices ++ out) ↔
        NoLateCommand notices ∧ Quiet pm set session closing (shut = true) calls) := by
  -- on the calls, with what has been noticed so far and whether the session is shut
  induction calls generalizing shut notices closing out with
  | nil =>
    simp only [serve, Option.some.injEq, Prod.mk.injEq] at hserve
    obtain ⟨rfl, rfl⟩ := hserve
    simpa [Quiet] using h
  | cons call calls ih =>
    simp only [serve] at hserve
    split at hserve
    · cases hserve
    · rename_i shut₁ first hcall
      obtain ⟨⟨shut₂, rest⟩, hrest, heq⟩ := Option.map_eq_some_iff.mp hserve
      simp only [Prod.mk.injEq] at heq
      obtain ⟨rfl, rfl⟩ := heq
      obtain ⟨hfirst, hshut, hlate⟩ := serveCall_told h hcall
      obtain ⟨htold, hall⟩ := ih hfirst hrest
      rw [← List.append_assoc, Quiet, ← hshut]
      refine ⟨htold, ?_⟩
      rw [hall, hlate, and_assoc]

/-! ## Runs -/

theorem step_read {c : Peer} {data : Bytes} {closing : Nat → Bool} {uv : SessionUv}
    {calls : List Call} (hlen : (data.length : Int) ≤ offered c.uv)
    (hdeliver : deliver lib c.uv data = .ended uv calls)
    (hserve : serve pm set session closing c.isShotdown calls = some (shut', out)) :
    step lib pm set session c (.read data closing) = some (⟨uv, shut'⟩, out) := by
  simp only [step]
  rw [if_pos hlen, hdeliver]
  simp only [hserve, Option.map_some]

/-- What the reply to a request adds to the calls is nobody's business. -/
theorem quiet_frameCalls {c : Peer} {data : Bytes} {closing : Nat → Bool} {calls : List Call}
    {closed : Prop} (hcalls : calls = frameCalls c.uv data ∨
      frameCalls c.uv data = [] ∧ ∃ reply, calls = [.sendData reply]) :
    Quiet pm set session closing closed calls ↔
      Quiet pm set session closing closed (frameCalls c.uv data) := by
  rcases hcalls with rfl | ⟨hnone, reply, rfl⟩
  · exact Iff.rfl
  · rw [hnone]
    exact iff_of_true ⟨fun _ hserved => hserved, trivial⟩ trivial

/-- **One event** makes a late command exactly when it is not silent. -/
theorem step_told {c c' : Peer} {e : Event} (hbetween : Between lib c.uv)
    (h : Told set c.isShotdown notices)
    (hstep : step lib pm set session c e = some (c', out)) :
    (Between lib c'.uv ∧ Told set c'.isShotdown (notices ++ out)) ∧
      (NoLateCommand (notices ++ out) ↔
        NoLateCommand notices ∧ Silent pm set session (c, notices) e) := by
  cases e with
  | read data closing =>
    simp only [step] at hstep
    split at hstep
    · rename_i hlen
      split at hstep
      · rename_i uv calls hdeliver
        obtain ⟨⟨shut', out'⟩, hserve, heq⟩ := Option.map_eq_some_iff.mp hstep
        simp only [Prod.mk.injEq] at heq
        obtain ⟨rfl, rfl⟩ := heq
        obtain ⟨hbetween', hcalls⟩ := deliver_ended hbetween hlen hdeliver
        obtain ⟨htold, hlate⟩ := serve_told h hserve
        exact ⟨⟨hbetween', htold⟩,
          hlate.trans (and_congr_right fun _ => quiet_frameCalls hcalls)⟩
      · cases hstep
      · cases hstep
    · cases hstep
  | eof =>
    simp only [step, uvReadData] at hstep
    obtain ⟨⟨shut', out'⟩, hserve, heq⟩ := Option.map_eq_some_iff.mp hstep
    simp only [Prod.mk.injEq] at heq
    obtain ⟨rfl, rfl⟩ := heq
    obtain ⟨htold, hlate⟩ := serve_told h hserve
    refine ⟨⟨hbetween, htold⟩, hlate.trans (and_congr_right fun _ => ?_)⟩
    simp [Quiet, Served, Silent]
  | close =>
    simp only [step, Option.some.injEq, Prod.mk.injEq] at hstep
    obtain ⟨rfl, rfl⟩ := hstep
    have hclose := h.closeIf true
    rw [if_pos rfl] at hclose
    exact ⟨⟨hbetween, hclose.1⟩, hclose.2.2.trans (and_iff_left trivial).symm⟩

end Serving

/-- **After the disconnect** no service gets a command exactly when every read
is silent. -/
theorem nothing_after_close (lib : HttpLib) (pm : ProtocolManager Message)
    (set : ServiceSet Session Message) (session : Session) (socketType : SocketType)
    {events : List Event} {c : Peer} {notices : List (Notice Session Message)}
    (hrun : run (step lib pm set session) (init socketType, []) events = some (c, notices)) :
    NoLateCommand notices ↔
      Along (step lib pm set session) (Silent pm set session) (init socketType, []) events := by
  have hiff := run_iff_along
    (R := fun c : Peer × List (Notice Session Message) => NoLateCommand c.2)
    (P := Silent pm set session)
    (I := fun c : Peer × List (Notice Session Message) =>
      Between lib c.1.uv ∧ Told set c.1.isShotdown c.2) ?_ ?_ hrun
  · exact hiff.trans (and_iff_right List.Pairwise.nil)
  · rintro ⟨c, notices⟩ e c' ⟨hbetween, htold⟩ hrecord
    obtain ⟨c', out, hstep, rfl⟩ := record_eq_some.mp hrecord
    exact step_told hbetween htold hstep
  · exact ⟨between_create lib socketType, ⟨nofun, nofun⟩⟩

/-! ## A small setting -/

/-- The frames of the first read of a TCP session. -/
theorem frameCalls_frames {frames : List Bytes} (hframes : ∀ f ∈ frames, tcpFraming.IsFrame f) :
    frameCalls (.create .TCP_SOCKET) frames.flatten = frames.flatMap tcpCalls := by
  rw [frameCalls, SessionUv.create_view, List.nil_append, tcpFraming.drain_whole hframes]
  rfl

/-- That read ends. -/
theorem read_frames (lib : HttpLib) {frames : List Bytes}
    (hframes : ∀ f ∈ frames, tcpFraming.IsFrame f)
    (hlen : (frames.flatten.length : Int) ≤ offered (.create .TCP_SOCKET)) :
    ∃ uv, deliver lib (.create .TCP_SOCKET) frames.flatten
      = .ended uv (frames.flatMap tcpCalls) := by
  have hdrain := tcpFraming.drain_whole hframes
  have hempty : HeaderNonzero [] := fun htwo => absurd htwo (by decide)
  obtain ⟨uv, hrun, -⟩ := deliver_tcp lib (.create .TCP_SOCKET) frames.flatten
    (ready_create _ _) rfl hlen hempty (fun _ _ => trivial) (by
      rw [SessionUv.create_view, List.nil_append, hdrain]
      exact hempty)
  rw [SessionUv.create_view, List.nil_append, hdrain] at hrun
  exact ⟨uv, hrun⟩

/-- A command for service 1, as it is framed. -/
def commandFrame : Bytes := [10, 0, 1, 0, 5, 0, 0, 0, 0, 0]

/-- A frame that is no longer than its own header. -/
def shortFrame : Bytes := [2, 0]

theorem isFrame_samples : ∀ f ∈ [shortFrame, commandFrame], tcpFraming.IsFrame f := by
  intro f hf
  simp only [List.mem_cons, List.not_mem_nil, or_false] at hf
  rcases hf with rfl | rfl <;> rfl

def noLib : HttpLib := ⟨fun _ => [], id, id⟩

theorem run_frames (frames : List Bytes) {shut : Bool} {commands : List Bool}
    (hframes : ∀ f ∈ frames, tcpFraming.IsFrame f)
    (hlen : (frames.flatten.length : Int) ≤ offered (.create .TCP_SOCKET))
    (hserve : (serve jsonCommands Closing.oneService () (fun _ => false) false
        (frames.flatMap tcpCalls)).map (fun r => (r.1, r.2.map Notice.isCommand))
      = some (shut, commands)) :
    ∃ uv notices, run (step noLib jsonCommands Closing.oneService ()) (init .TCP_SOCKET, [])
        [.read frames.flatten fun _ => false] = some (⟨uv, shut⟩, notices) ∧
      notices.map Notice.isCommand = commands := by
  obtain ⟨uv, hdeliver⟩ := read_frames noLib hframes hlen
  obtain ⟨⟨shut', notices⟩, hcalls, heq⟩ := Option.map_eq_some_iff.mp hserve
  simp only [Prod.mk.injEq] at heq
  obtain ⟨rfl, rfl⟩ := heq
  refine ⟨uv, notices, ?_, rfl⟩
  have hstep := step_read (c := init .TCP_SOCKET) hlen hdeliver hcalls
  rw [run, record, hstep]
  rfl

/-- A command, and a frame behind it that closes the session. -/
theorem nothing_after_close_command : ∃ c notices,
    run (step noLib jsonCommands Closing.oneService ()) (init .TCP_SOCKET, [])
      [.read [commandFrame, shortFrame].flatten fun _ => false] = some (c, notices) ∧
      c.isShotdown = true ∧ notices.map Notice.isCommand = [true, false] ∧
      NoLateCommand notices := by
  have hframes : ∀ f ∈ [commandFrame, shortFrame], tcpFraming.IsFrame f :=
    fun f hf => isFrame_samples f ((List.Perm.swap _ _ _).mem_iff.mp hf)
  obtain ⟨uv, notices, hrun, hcommands⟩ := run_frames [commandFrame, shortFrame] hframes
    (by decide) (by rfl)
  refine ⟨_, notices, hrun, rfl, hcommands, (nothing_after_close _ _ _ _ _ hrun).mpr ?_⟩
  have hcalls := frameCalls_frames hframes
  refine ⟨?_, fun _ _ => trivial⟩
  simp only [Silent, init]
  rw [hcalls]
  -- the frame that closes the session carries no command
  refine ⟨nofun, fun _ => id, fun _ ⟨x, handed, refused, hrec⟩ => ?_, trivial⟩
  cases hrec

/-- A frame that is no longer than its own header closes the session, and the
command behind it is handed on. -/
theorem nothing_after_close_behind : ¬ ∀ (lib : HttpLib) (pm : ProtocolManager Unit)
    (set : ServiceSet Unit Unit) (session : Unit) (socketType : SocketType)
    (events : List Event) (c : Peer) (notices : List (Notice Unit Unit)),
    run (step lib pm set session) (init socketType, []) events = some (c, notices) →
      NoLateCommand notices := by
  intro hall
  obtain ⟨uv, notices, hrun, hcommands⟩ := run_frames [shortFrame, commandFrame]
    isFrame_samples (by decide) (by rfl)
  have hlate := hall _ _ _ _ _ _ _ notices hrun
  have hpair : (notices.map Notice.isCommand).Pairwise
      fun earlier later => earlier = false → later = false := List.pairwise_map.mpr hlate
  rw [hcommands] at hpair
  exact absurd hpair (by decide)

end LibuvServer.Netbus.Disconnected
