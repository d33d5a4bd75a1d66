import LibuvServer.Auth.GuestKeys
import Mathlib.Tactic.Common

/-!
# Replies on destroyed sessions

The auth service together with the life of its sessions. The function of a
query keeps the pointer of the session its request came on; `at_disc_session`
is empty, and `Session_uv::destroy` asks nobody before it returns the block
to the pool, where the next session takes it.
-/

namespace LibuvServer.Auth

open LibuvServer.Lib LibuvServer.Netbus LibuvServer.Mylua
open LibuvServer.Gateway (SessId)

/-- Where the block of a session is. A closed session is read from until
`uv_closeClient` destroys it. -/
inductive LinkStage where
  | pooled
  | live
  | closed
  deriving DecidableEq

structure Server where
  auth : State
  stage : SessId → LinkStage

inductive ServerEvent where
  | accept (s : SessId)
  | close (s : SessId)
  | destroy (s : SessId)
  | auth (e : Event)

/-- What is seen: the service, and the blocks that go back to the pool. -/
inductive ServerEntry where
  | destroyed (s : SessId)
  | auth (e : Entry)
  deriving DecidableEq

def Server.setStage (c : Server) (s : SessId) (stage : LinkStage) : Server :=
  { c with stage := fun t => if t = s then stage else c.stage t }

/-- The session an event of the service needs. -/
def Event.session? : Event → Option SessId
  | .recv s _ _ => some s
  | .mysqlConnected | .redisConnected | .complete _ _ _ => none

/-- One event, if it can happen now. -/
def Server.step {Number : Type} (lib : LuaLib Number) (c : Server) :
    ServerEvent → Option (Server × List ServerEntry)
  | .accept s => if c.stage s = .pooled then some (c.setStage s .live, []) else none
  | .close s => if c.stage s = .live then some (c.setStage s .closed, []) else none
  | .destroy s =>
    if c.stage s = .closed then some (c.setStage s .pooled, [.destroyed s]) else none
  | .auth e =>
    if e.session?.all fun s => c.stage s ≠ .pooled then
      (Auth.step lib c.auth e).map fun r => ({ c with auth := r.1 }, r.2.map .auth)
    else none

def serverInit : Server := ⟨init, fun _ => .pooled⟩

def serverRun {Number : Type} (lib : LuaLib Number) (events : List ServerEvent) :
    Option (Server × List ServerEntry) :=
  Lib.run (Server.step lib) (serverInit, []) events

/-- The session that command `n` came on has been destroyed since. -/
def Orphaned (n : Nat) (trace : List ServerEntry) : Prop :=
  ∃ pre s post msg connected, trace = pre ++ .destroyed s :: post ∧
    .auth (.received n s msg connected) ∈ pre

/-- The command `Session.sendMessage` is called for, also where it raises. -/
def Entry.called? : Entry → Option Nat
  | .sent n _ _ | .raised n _ => some n
  | .received _ _ _ _ | .queried _ _ | .result _ _ | .redis _ _ => none

/-- `Session.sendMessage` is not called for a command whose session has been
destroyed. -/
def NoLateReply (trace : List ServerEntry) : Prop :=
  Justified (fun pre e => ∀ n entry, e = .auth entry → entry.called? = some n →
    ¬ Orphaned n pre) trace

/-- No select ends with a row once the session of its request has been
destroyed. -/
def InTime (c : Server × List ServerEntry) : ServerEvent → Prop
  | .auth (.complete i res _) =>
    ∀ n func info rest, c.1.auth.queries[i]? = some (n, func) → res = .rows (info :: rest) →
      ¬ Orphaned n c.2
  | .auth (.recv _ _ _) | .auth .mysqlConnected | .auth .redisConnected | .accept _ | .close _ |
    .destroy _ => True

/-! ## Traces -/

variable {Number : Type} {lib : LuaLib Number}

theorem orphaned_append {n : Nat} {trace more : List ServerEntry}
    (h : ∀ s, .destroyed s ∉ more) : Orphaned n (trace ++ more) ↔ Orphaned n trace := by
  constructor
  · rintro ⟨pre, s, post, msg, connected, heq, hmem⟩
    rcases List.append_eq_append_iff.mp heq with ⟨mid, rfl, hmore⟩ | ⟨mid, rfl, hpost⟩
    · exact absurd (by rw [hmore]; simp) (h s)
    · cases mid with
      | nil =>
        rw [List.nil_append] at hpost
        exact absurd (by rw [← hpost]; simp) (h s)
      | cons e mid =>
        obtain ⟨rfl, -⟩ := List.cons.inj hpost
        exact ⟨pre, s, mid, msg, connected, rfl, hmem⟩
  · rintro ⟨pre, s, post, msg, connected, rfl, hmem⟩
    exact ⟨pre, s, post ++ more, msg, connected, by simp, hmem⟩

/-- What an event of the service adds to a trace without late replies. -/
theorem noLateReply_append {trace more : List ServerEntry} (h : ∀ s, .destroyed s ∉ more) :
    NoLateReply (trace ++ more) ↔ NoLateReply trace ∧
      ∀ n entry, .auth entry ∈ more → entry.called? = some n → ¬ Orphaned n trace := by
  have hjust : NoLateReply (trace ++ more) ↔ NoLateReply trace ∧
      ∀ e ∈ more, ∀ n entry, e = .auth entry → entry.called? = some n → ¬ Orphaned n trace := by
    refine justified_append fun pre e post heq => ?_
    simp only [orphaned_append fun s (hs : .destroyed s ∈ pre) => h s (by simp [heq, hs])]
  rw [hjust]
  refine and_congr_right fun _ => ⟨fun hall n entry hmem => hall _ hmem n entry rfl, ?_⟩
  rintro hall e hmem n entry rfl
  exact hall n entry hmem

/-- A session that goes back to the pool sends nothing. -/
theorem noLateReply_destroyed {trace : List ServerEntry} {s : SessId} :
    NoLateReply (trace ++ [.destroyed s]) ↔ NoLateReply trace := by
  have hjust : NoLateReply (trace ++ [.destroyed s]) ↔
      NoLateReply trace ∧ ∀ e ∈ [ServerEntry.destroyed s], True := by
    refine justified_append fun pre e post heq => iff_of_true ?_ trivial
    have hmem : e ∈ [ServerEntry.destroyed s] := by
      rw [heq]
      simp
    rw [List.mem_singleton] at hmem
    rw [hmem]
    intro n entry hsent
    cases hsent
  rw [hjust]
  exact and_iff_left fun _ _ => trivial

/-! ## Events -/

def ServerEntry.auth? : ServerEntry → Option Entry
  | .auth e => some e
  | .destroyed _ => none

/-- What is seen of the service alone. -/
def seen (trace : List ServerEntry) : List Entry := trace.filterMap ServerEntry.auth?

theorem seen_append (trace more : List ServerEntry) :
    seen (trace ++ more) = seen trace ++ seen more := List.filterMap_append

theorem seen_auth (out : List Entry) : seen (out.map .auth) = out := by
  rw [seen, List.filterMap_map]
  exact List.filterMap_some

theorem not_destroyed_auth (out : List Entry) (s : SessId) :
    .destroyed s ∉ out.map ServerEntry.auth := by
  simp

/-- A script that makes a query calls nothing yet, and so does one without. -/
theorem recv_silent {s : SessId} {msg : LuaMsg} {env : Env} {n m : Nat} {entry : Entry}
    (hmem : entry ∈ (atRecvCmd lib s msg env).map (Act.entry n)) : entry.called? ≠ some m := by
  by_cases hask : Asks msg ∧ env.mysql_conn = true
  · obtain ⟨finalsm, gKey, hacts⟩ : ∃ finalsm gKey, atRecvCmd lib s msg env =
        [.mysqlQuery finalsm (onSelect (onGuestInfo lib s msg gKey))] :=
      atRecvCmd_asks hask.1 hask.2
    rw [hacts, List.map_singleton, List.mem_singleton] at hmem
    rw [hmem]
    exact Option.some_ne_none m |>.symm
  · rw [atRecvCmd_quiet hask] at hmem
    cases hmem

/-- A select that ends with a row is a call, and any other is none. -/
theorem onSelect_called {s : SessId} {msg : LuaMsg} {gKey : LuaValue} {env : Env}
    (h : env.mysql_conn = true) (res : QueryRes) (m n : Nat) :
    (∃ entry ∈ (onSelect (onGuestInfo lib s msg gKey) env res).map (Act.entry m),
      entry.called? = some n) ↔ n = m ∧ ∃ info rest, res = .rows (info :: rest) := by
  cases res with
  | err err => simp [onSelect, onGuestInfo]
  | success => simp [onSelect]
  | rows ret =>
    cases ret with
    | nil => simp [onSelect, onGuestInfo, registGuest_connected h]
    | cons info rest =>
      constructor
      · rintro ⟨entry, hmem, hcalled⟩
        obtain ⟨act, -, rfl⟩ := List.mem_map.mp hmem
        refine ⟨?_, info, rest, rfl⟩
        cases act <;> cases hcalled <;> rfl
      · rintro ⟨rfl, -⟩
        simp only [onSelect, onGuestInfo]
        split
        · exact ⟨_, List.mem_singleton.mpr rfl, rfl⟩
        · simp only [List.map_append, List.mem_append]
          split
          · exact ⟨.raised n s, .inr (List.mem_singleton.mpr rfl), rfl⟩
          · exact ⟨_, .inr (List.mem_singleton.mpr rfl), rfl⟩

theorem complete_calls {c : State × List Entry} (h : ∀ n, Progress lib n c) {i m : Nat}
    {func : Env → QueryRes → List Act} (hget : c.1.queries[i]? = some (m, func))
    (res : QueryRes) (random : Int × Int) (n : Nat) :
    (∃ entry ∈ (func (c.1.env random) res).map (Act.entry m), entry.called? = some n) ↔
      n = m ∧ ∃ info rest, res = .rows (info :: rest) := by
  obtain ⟨hon, s, msg, gKey, rfl⟩ := outstanding_select h hget
  exact onSelect_called hon res m n

/-- Where every command is, with the service's part of what is seen. -/
def Known (lib : LuaLib Number) (c : Server × List ServerEntry) : Prop :=
  ∀ n, Progress lib n (c.1.auth, seen c.2)

variable {c c' : Server × List ServerEntry}

/-- What happens to a session's block shows nothing of the service. -/
theorem Known.stage (h : Known lib c) {stage : SessId → LinkStage} {out : List ServerEntry}
    (hout : seen out = []) : Known lib ({ c.1 with stage := stage }, c.2 ++ out) := by
  intro n
  rw [seen_append, hout, List.append_nil]
  exact h n

/-- The service calls too late just when a select ends too late. -/
theorem auth_inTime (h : Known lib c) {e : Event} {auth : State} {out : List Entry}
    (hstep : Auth.step lib c.1.auth e = some (auth, out)) :
    (∀ n entry, .auth entry ∈ out.map ServerEntry.auth → entry.called? = some n →
      ¬ Orphaned n c.2) ↔ InTime c (.auth e) := by
  simp only [List.mem_map, ServerEntry.auth.injEq, exists_eq_right]
  cases e with
  | mysqlConnected =>
    cases hstep
    simp [InTime]
  | redisConnected =>
    cases hstep
    simp [InTime]
  | recv s msg random =>
    cases hstep
    refine iff_of_true (fun n entry hmem hcalled => ?_) trivial
    rcases List.mem_cons.mp hmem with rfl | hmem
    · cases hcalled
    · exact absurd hcalled (recv_silent hmem)
  | complete i res random =>
    simp only [Auth.step] at hstep
    split at hstep
    · cases hstep
    · rename_i m func hget
      cases hstep
      have hcalls := complete_calls (c := (c.1.auth, seen c.2)) h hget res random
      constructor
      · intro hlate n func' info rest hget' hres
        rw [hget] at hget'
        cases hget'
        obtain ⟨entry, hmem, hcalled⟩ := (hcalls m).mpr ⟨rfl, info, rest, hres⟩
        exact hlate m entry (List.mem_cons_of_mem _ hmem) hcalled
      · intro htime n entry hmem hcalled
        rcases List.mem_cons.mp hmem with rfl | hmem
        · cases hcalled
        · obtain ⟨rfl, info, rest, hres⟩ := (hcalls n).mp ⟨entry, hmem, hcalled⟩
          exact htime n func info rest hget hres

/-- **Every event** keeps track of the commands, and spoils the trace just
when it is a select that ends too late. -/
theorem Known.record (h : Known lib c) {e : ServerEvent}
    (hrecord : Lib.record (Server.step lib) c e = some c') :
    Known lib c' ∧ (NoLateReply c'.2 ↔ NoLateReply c.2 ∧ InTime c e) := by
  obtain ⟨s', out, hstep, rfl⟩ := record_eq_some.mp hrecord
  cases e with
  | accept s =>
    obtain ⟨-, heq⟩ := Option.ite_none_right_eq_some.mp hstep
    cases heq
    exact ⟨h.stage rfl, by simp [InTime]⟩
  | close s =>
    obtain ⟨-, heq⟩ := Option.ite_none_right_eq_some.mp hstep
    cases heq
    exact ⟨h.stage rfl, by simp [InTime]⟩
  | destroy s =>
    obtain ⟨-, heq⟩ := Option.ite_none_right_eq_some.mp hstep
    cases heq
    exact ⟨h.stage rfl, by rw [noLateReply_destroyed]; simp [InTime]⟩
  | auth e =>
    obtain ⟨-, heq⟩ := Option.ite_none_right_eq_some.mp hstep
    obtain ⟨⟨auth, entries⟩, hauth, heq⟩ := Option.map_eq_some_iff.mp heq
    cases heq
    constructor
    · intro n
      refine (h n).record (e := e) (record_eq_some.mpr ⟨auth, entries, hauth, ?_⟩)
      rw [seen_append, seen_auth]
    · rw [noLateReply_append (not_destroyed_auth entries), auth_inTime h hauth]

/-- **Late replies.** `Session.sendMessage` is called on no session that has
been destroyed since the request came, just when no select ends too late with
a row. -/
theorem late_replies {events : List ServerEvent} (hrun : serverRun lib events = some c) :
    NoLateReply c.2 ↔ Along (Server.step lib) InTime (serverInit, []) events := by
  have hinit : Known lib (serverInit, []) := fun n => .unseen (Nat.zero_le n) rfl rfl
  have hnone : NoLateReply (serverInit, ([] : List ServerEntry)).2 := justified_nil
  rw [run_iff_along (fun _ _ _ h hrecord => h.record hrecord) hinit hrun]
  exact and_iff_right hnone

/-- The select of a guest login ends before its session is destroyed. -/
def earlySelect : List ServerEvent :=
  [.auth .mysqlConnected, .accept 5, .auth (.recv 5 sampleLogin (100000, 1)), .close 5,
    .auth (.complete 0 (.rows [sampleGuest]) (100000, 1)), .destroy 5]

/-- And after it, when the pool has given the block to another peer. -/
def lateSelect : List ServerEvent :=
  [.auth .mysqlConnected, .accept 5, .auth (.recv 5 sampleLogin (100000, 1)), .close 5,
    .destroy 5, .accept 5, .auth (.complete 0 (.rows [sampleGuest]) (100000, 1))]

theorem late_replies_early :
    ∃ c, serverRun decimalLib earlySelect = some c ∧ NoLateReply c.2 := by
  have hsome : (serverRun decimalLib earlySelect).isSome = true := by decide +kernel
  obtain ⟨c, hrun⟩ := Option.isSome_iff_exists.mp hsome
  refine ⟨c, hrun, (late_replies hrun).mpr ?_⟩
  refine .cons trivial rfl (.cons trivial rfl (.cons trivial rfl (.cons trivial rfl ⟨?_, ?_⟩)))
  · -- no session has been destroyed yet
    rintro n func info rest - - ⟨pre, s, post, msg, connected, heq, -⟩
    have hmem : .destroyed s ∈ pre ++ ServerEntry.destroyed s :: post := by simp
    rw [← heq] at hmem
    simp at hmem
  · exact fun c' _ => ⟨trivial, fun _ _ => trivial⟩

/-- What is seen of it once the select has been queued. -/
def lateTrace : List ServerEntry :=
  [.destroyed 5, .auth (.result 0 (.rows [sampleGuest])),
    .auth (.sent 0 5 (sampleReply sampleLogin))]

/-- The guest's answer goes to the peer that got the block. -/
theorem late_replies_destroyed :
    ¬ ∀ (events : List ServerEvent) (c : Server × List ServerEntry),
      serverRun decimalLib events = some c → NoLateReply c.2 := by
  intro hall
  have hsum : (serverRun decimalLib lateSelect).map (fun c =>
      decide (.auth (.received 0 5 sampleLogin true) ∈ c.2.take 2 ∧ c.2.drop 2 = lateTrace)) =
        some true := by decide +kernel
  obtain ⟨c, hrun, hc⟩ := Option.map_eq_some_iff.mp hsum
  obtain ⟨hrec, hrest⟩ := of_decide_eq_true hc
  have htrace : c.2 = c.2.take 2 ++ lateTrace := by rw [← hrest, List.take_append_drop]
  refine hall lateSelect c hrun (c.2.take 2 ++ lateTrace.take 2)
    (.auth (.sent 0 5 (sampleReply sampleLogin))) [] ?_ 0 _ rfl rfl ?_
  · rw [List.append_assoc]
    exact htrace
  · exact ⟨c.2.take 2, 5, [.auth (.result 0 (.rows [sampleGuest]))], sampleLogin, true, rfl, hrec⟩

end LibuvServer.Auth
