import LibuvServer.Deployment.Deployment
import LibuvServer.Gateway.BackendLinks
import Mathlib.Data.List.Sublists
import Mathlib.Tactic.Common

/-!
# What an event can do to the two processes

`step_cases` sorts the events: the gateway or the auth service takes a step by
itself, a command arrives at the one or the other, or nothing is seen. `Ok` is
what holds in every state: the links are sessions the gateway connected, and
the auth service has every command somewhere on its way.
-/

namespace LibuvServer.Deployment

open LibuvServer.Lib LibuvServer.Netbus LibuvServer.Mylua
open LibuvServer.Gateway (SessId)

/-! ## Links -/

section Links

variable {s : SessId} {cmd : Bytes} {link rest : List (SessId × Bytes)}

/-- What arrives was first on its link. -/
theorem takeFirst_split (h : takeFirst s link = some (cmd, rest)) :
    ∃ before after, link = before ++ (s, cmd) :: after ∧ rest = before ++ after ∧
      ∀ p ∈ before, p.1 ≠ s := by
  induction link generalizing rest with
  | nil => cases h
  | cons p link ih =>
    rw [takeFirst] at h
    split at h
    · rename_i hs
      cases h
      exact ⟨[], link, by rw [← hs]; rfl, rfl, nofun⟩
    · rename_i hne
      obtain ⟨⟨cmd', rest'⟩, hrest, heq⟩ := Option.map_eq_some_iff.mp h
      cases heq
      obtain ⟨before, after, rfl, rfl, hbefore⟩ := ih hrest
      refine ⟨p :: before, after, rfl, rfl, fun q hq => ?_⟩
      rcases List.mem_cons.mp hq with rfl | hq
      · exact hne
      · exact hbefore q hq

theorem takeFirst_perm (h : takeFirst s link = some (cmd, rest)) :
    link.Perm ((s, cmd) :: rest) := by
  obtain ⟨before, after, rfl, rfl, -⟩ := takeFirst_split h
  exact List.perm_middle

theorem takeFirst_mem (h : takeFirst s link = some (cmd, rest)) : (s, cmd) ∈ link :=
  (takeFirst_perm h).mem_iff.mpr (.head _)

theorem takeFirst_sublist (h : takeFirst s link = some (cmd, rest)) : rest.Sublist link := by
  obtain ⟨before, after, rfl, rfl, -⟩ := takeFirst_split h
  exact (List.Sublist.refl before).append (List.sublist_cons_self _ after)

end Links

/-! ## Commands at the auth service -/

section Handed

variable {Number : Type} {lib : Libraries Number} {a : SessId} {cmd : Bytes}
  {handed : List (Handed SessId LuaTable)} {closed : Bool}

theorem atServices_eq (i : Fin MAX_SERVICE_NUM) :
    atServices i = if i.val = Gateway.Stype.Auth then some atService else none := by
  rw [atServices, ServiceManager.registered, ServiceManager.registerAll_free rfl]
  have hinit : (ServiceManager.registService ServiceManager.init (Gateway.Stype.Auth : Int)
      atService).2 = true := rfl
  simp only [ServiceManager.firstOf, hinit, and_true]
  by_cases hi : i.val = Gateway.Stype.Auth
  · rw [if_pos hi, if_pos (by rw [hi])]
  · rw [if_neg hi, if_neg (by omega)]

/-- A command that decodes is handed on, and no other. -/
theorem RecCommand_handed
    (h : RecCommand lib.auth atServices a cmd cmd.length = some (handed, closed)) :
    handed = [] ∨ closed = false ∧ ∃ msg, decodeCmdMsg lib.auth cmd cmd.length = some msg ∧
      handed = [.cmd atService a msg] := by
  unfold RecCommand at h
  cases hhead : decodeMsgHead cmd cmd.length with
  | none =>
    simp only [hhead, Option.some.injEq, Prod.mk.injEq] at h
    exact .inl h.1.symm
  | some raw =>
    simp only [hhead, ServiceManager.recvCmdMsg, ServiceManager.slot] at h
    obtain ⟨-, hcmd⟩ := decodeMsgHead_rawCmd hhead
    have hlen : raw.rawLen = cmd.length := by
      unfold decodeMsgHead at hhead
      split at hhead
      · cases hhead
      · cases hhead
        rfl
    split at h
    · cases h
    · rename_i ret handed' hslot
      cases h
      split at hslot
      · cases hslot
      · cases hslot
        exact .inl rfl
      · rename_i service hservice
        have hat : service = atService := by
          split at hservice
          · rw [Option.some.injEq, atServices_eq] at hservice
            split at hservice
            · exact (Option.some.inj hservice).symm
            · cases hservice
          · cases hservice
        subst hat
        rw [if_neg (by exact Bool.false_ne_true), hcmd, hlen] at hslot
        cases hdec : decodeCmdMsg lib.auth cmd cmd.length with
        | none =>
          rw [hdec] at hslot
          cases hslot
          exact .inl rfl
        | some msg =>
          rw [hdec] at hslot
          cases hslot
          exact .inr ⟨rfl, msg, rfl, rfl⟩

end Handed

/-! ## Events -/

/-- What the gateway learns by itself. -/
def Event.gateway? : Event → Option Gateway.Event
  | .gateway e => some e
  | .connect s _ => some (.connected s false)
  | .request _ _ | .answer _ | .stray _ _ _ | .strayAnswer _ _ | .mysqlConnected
  | .redisConnected | .complete _ _ _ | .cut _ | .close _ | .destroy _ => none

variable {Number : Type} {lib : Libraries Number} {c c' : State} {e : Event} {out : List Entry}

/-- **What an event can do.** -/
inductive Moved (lib : Libraries Number) (c : State) (ev : Event) : State → List Entry → Prop where
  | gateway (e : Gateway.Event) (done : Gateway.State × List Gateway.Act)
      (stage : SessId → Auth.LinkStage) (peer : SessId → Option SessId) :
      ev.gateway? = some e → Gateway.step lib.gateway c.gateway e = some done →
      (∀ s cmd, e = .command s cmd → (c.gateway.session s).as_client = 0) →
      (∀ a s, peer a = some s → c.peer a = some s ∨
        ∃ stype, (c.gateway.session s).stage = .connecting stype) →
      Moved lib c ev { c.gatewayTurn done with stage := stage, peer := peer } (done.2.map .gateway)
  | received (a s : SessId) (cmd : Bytes) (up : List (SessId × Bytes))
      (msg : CommandMessage LuaTable) (random : Int × Int) (done : Auth.State × List Auth.Entry) :
      takeFirst s c.up = some (cmd, up) → decodeCmdMsg lib.auth cmd cmd.length = some msg →
      Auth.step lib.lua c.auth (.recv a (toLuaMsg msg) random) = some done →
      Moved lib c ev (({ c with up := up } : State).authTurn lib done) (done.2.map .auth)
  | answered (s : SessId) (cmd : Bytes) (down : List (SessId × Bytes))
      (done : Gateway.State × List Gateway.Act) : takeFirst s c.down = some (cmd, down) →
      Gateway.step lib.gateway c.gateway (.command s cmd) = some done →
      Moved lib c ev (({ c with down := down } : State).gatewayTurn done) (done.2.map (.answer cmd))
  | auth (e : Auth.Event) (done : Auth.State × List Auth.Entry) : e.session? = none →
      Auth.step lib.lua c.auth e = some done →
      Moved lib c ev (c.authTurn lib done) (done.2.map .auth)
  | quiet (stage : SessId → Auth.LinkStage) (peer : SessId → Option SessId)
      (up down : List (SessId × Bytes)) : up.Sublist c.up → down.Sublist c.down →
      (∀ a s, peer a = some s → c.peer a = some s) →
      Moved lib c ev { c with stage := stage, peer := peer, up := up, down := down } []
  -- what comes out of a link that is out of step
  | stray (c' : State) (out : List Entry) : c.torn = true → c'.torn = true → Moved lib c ev c' out

/-- Only what is lost is different when a link is gone. -/
theorem cut_cases (c : State) (a : SessId) : ∃ peer up down,
    c.cut a = { c with peer := peer, up := up, down := down } ∧ up.Sublist c.up ∧
      down.Sublist c.down ∧ ∀ a' s, peer a' = some s → c.peer a' = some s := by
  unfold State.cut
  split
  · exact ⟨c.peer, c.up, c.down, rfl, .refl _, .refl _, fun _ _ h => h⟩
  · refine ⟨_, _, _, rfl, List.filter_sublist, List.filter_sublist, fun a' s h => ?_⟩
    exact (Gateway.State.update_none_eq_some h).2

/-- A request is forgotten, or it is a step of the auth service. -/
theorem request_cases {a : SessId} {cmd : Bytes} {random : Int × Int}
    (h : c.request lib a cmd random = some (c', out)) :
    (∃ stage, c' = { c with stage := stage } ∧ out = []) ∨
      ∃ msg done, decodeCmdMsg lib.auth cmd cmd.length = some msg ∧
        Auth.step lib.lua c.auth (.recv a (toLuaMsg msg) random) = some done ∧
        c' = c.authTurn lib done ∧ out = done.2.map .auth := by
  obtain ⟨⟨handed, closed⟩, hrec, hdone⟩ := Option.bind_eq_some_iff.mp h
  obtain ⟨⟨c₁, out₁⟩, hhandle, heq⟩ := Option.map_eq_some_iff.mp hdone
  rcases RecCommand_handed hrec with rfl | ⟨rfl, msg, hdec, rfl⟩
  · cases hhandle
    split at heq
    · cases heq
      exact .inl ⟨_, rfl, rfl⟩
    · cases heq
      exact .inl ⟨c.stage, rfl, rfl⟩
  · obtain ⟨done, hauth, hrest⟩ := Option.bind_eq_some_iff.mp hhandle
    cases hrest
    cases heq
    exact .inr ⟨msg, done, hdec, hauth, rfl, List.append_nil _⟩

theorem gatewayStep_step {g : Gateway.State} {ge : Gateway.Event}
    {done : Gateway.State × List Gateway.Act} (h : gatewayStep lib g ge = some done) :
    Gateway.step lib.gateway g ge = some done := (Option.filter_eq_some_iff.mp h).1

theorem step_cases (h : step lib c e = some (c', out)) : Moved lib c e c' out := by
  have hauth : ∀ e' : Auth.Event, e'.session? = none →
      (Auth.step lib.lua c.auth e').map (fun done => (c.authTurn lib done, done.2.map Entry.auth)) =
        some (c', out) → Moved lib c e c' out := by
    intro e' hsession hstep
    obtain ⟨done, hdone, heq⟩ := Option.map_eq_some_iff.mp hstep
    cases heq
    exact .auth e' done hsession hdone
  cases e with
  | gateway e =>
    obtain ⟨hout, hmap⟩ := Option.ite_none_right_eq_some.mp h
    obtain ⟨done, hstep, heq⟩ := Option.map_eq_some_iff.mp hmap
    cases heq
    refine .gateway e done c.stage c.peer rfl (gatewayStep_step hstep) ?_ fun _ _ hp => .inl hp
    rintro s cmd rfl
    exact hout
  | connect s a =>
    obtain ⟨⟨hstage, -⟩, hmap⟩ := Option.ite_none_right_eq_some.mp h
    obtain ⟨done, hstep, heq⟩ := Option.map_eq_some_iff.mp hmap
    cases heq
    refine .gateway (.connected s false) done _ _ rfl (gatewayStep_step hstep) nofun
      fun a' s' hp => ?_
    rcases Gateway.update_some_eq_some hp with hold | hnew
    · exact .inl hold
    · exact .inr ⟨_, by rw [hnew]; exact hstage⟩
  | request a random =>
    simp only [step] at h
    split at h
    · cases h
    · obtain ⟨s, -, hbind⟩ := Option.bind_eq_some_iff.mp h
      obtain ⟨⟨cmd, up⟩, htake, hrequest⟩ := Option.bind_eq_some_iff.mp hbind
      rcases request_cases hrequest with ⟨stage, rfl, rfl⟩ | ⟨msg, done, hdec, hrecv, rfl, rfl⟩
      · exact .quiet stage c.peer up c.down (takeFirst_sublist htake) (.refl _) fun _ _ hp => hp
      · exact .received a s cmd up msg random done htake hdec hrecv
  | answer s =>
    obtain ⟨⟨cmd, down⟩, htake, hmap⟩ := Option.bind_eq_some_iff.mp h
    obtain ⟨done, hstep, heq⟩ := Option.map_eq_some_iff.mp hmap
    cases heq
    exact .answered s cmd down done htake (gatewayStep_step hstep)
  | stray a cmd random =>
    obtain ⟨⟨htorn, -⟩, hbind⟩ := Option.ite_none_right_eq_some.mp h
    obtain ⟨s, -, hrequest⟩ := Option.bind_eq_some_iff.mp hbind
    refine .stray c' out htorn ?_
    rcases request_cases hrequest with ⟨stage, rfl, -⟩ | ⟨msg, done, -, -, rfl, -⟩
    · exact htorn
    · exact Bool.or_eq_true_iff.mpr (.inl htorn)
  | strayAnswer s cmd =>
    obtain ⟨⟨htorn, -⟩, hmap⟩ := Option.ite_none_right_eq_some.mp h
    obtain ⟨done, -, heq⟩ := Option.map_eq_some_iff.mp hmap
    cases heq
    exact .stray _ _ htorn (Bool.or_eq_true_iff.mpr (.inl htorn))
  | mysqlConnected => exact hauth .mysqlConnected rfl h
  | redisConnected => exact hauth .redisConnected rfl h
  | complete i res random => exact hauth (.complete i res random) rfl h
  | cut a =>
    cases h
    obtain ⟨peer, up, down, heq, hup, hdown, hpeer⟩ := cut_cases c a
    rw [heq]
    exact .quiet c.stage peer up down hup hdown hpeer
  | close a =>
    obtain ⟨-, heq⟩ := Option.ite_none_right_eq_some.mp h
    cases heq
    exact .quiet _ c.peer c.up c.down (.refl _) (.refl _) fun _ _ hp => hp
  | destroy a =>
    obtain ⟨-, heq⟩ := Option.ite_none_right_eq_some.mp h
    obtain ⟨peer, up, down, hcut, hup, hdown, hpeer⟩ := cut_cases c a
    rw [hcut] at heq
    cases heq
    exact .quiet _ peer up down hup hdown hpeer

/-- A link that is out of step stays so. -/
theorem Moved.torn (h : Moved lib c e c' out) (hafter : c'.torn = false) : c.torn = false := by
  cases h with
  | gateway _ done stage peer _ _ _ _ => exact (Bool.or_eq_false_iff.mp hafter).1
  | received a s cmd up msg random done _ _ _ => exact (Bool.or_eq_false_iff.mp hafter).1
  | answered s cmd down done _ _ => exact (Bool.or_eq_false_iff.mp hafter).1
  | auth _ done _ _ => exact (Bool.or_eq_false_iff.mp hafter).1
  | quiet stage peer up down _ _ _ => exact hafter
  | stray c' out _ htorn => cases htorn.symm.trans hafter

/-! ## Sessions stay what they are -/

/-- `g'` has the sessions of `g`, clients and servers as they were. -/
structure Grown (g g' : Gateway.State) : Prop where
  created : g.created ≤ g'.created
  as_client : ∀ s, s < g.created → (g'.session s).as_client = (g.session s).as_client

section Grown

open Gateway.State

variable {g g' g₁ : Gateway.State} {s : SessId} {pm : ProtocolManager LuaBody}

theorem Grown.trans (h : Grown g g₁) (h' : Grown g₁ g') : Grown g g' where
  created := Nat.le_trans h.created h'.created
  as_client s hs :=
    (h'.as_client s (Nat.lt_of_lt_of_le hs h.created)).trans (h.as_client s hs)

theorem Grown.kept (h : Kept g g') : Grown g g' :=
  ⟨Nat.le_of_eq h.created.symm, fun s _ => h.as_client s⟩

theorem Grown.life (h : Gateway.LifeKept g g') : Grown g g' :=
  ⟨Nat.le_of_eq h.created.symm, fun s _ => h.as_client s⟩

theorem Grown.create (g : Gateway.State) (new : Session) : Grown g (g.create new) where
  created := Nat.le_succ _
  as_client s hs := by rw [session_create_of_ne g new (Nat.ne_of_lt hs)]

theorem Grown.modify (g : Gateway.State) (s : SessId) (f : Session → Session)
    (hf : ∀ y, (f y).as_client = y.as_client) : Grown g (g.modify s f) :=
  ⟨Nat.le_refl _, fun x _ => session_modify_field Session.as_client g s x f hf⟩

theorem Grown.checkServer (g : Gateway.State) (stype : Nat) : Grown g (g.checkServer stype) := by
  unfold Gateway.State.checkServer
  split
  · exact (Grown.life (SameButIds.connecting g _).lifeKept).trans (Grown.create _ _)
  · exact Grown.kept (Kept.refl g)

theorem Grown.toClient {raw : Gateway2Server} {r : Gateway.State × List Gateway.Act}
    (h : ToClient pm g raw r) : Grown g r.1 := by
  have htaken : Grown g (g.taken raw.tags) := .life (Gateway.LifeKept.taken g raw.tags)
  cases h with
  | ignored => exact .kept (Kept.refl g)
  | unsent _ _ => exact htaken
  | passed _ _ _ _ => exact htaken
  | success login client_s body info id r _ _ _ _ hr =>
    have hlogin := Gateway.LifeKept.loggedIn r.1 login id client_s
    exact (htaken.trans (.kept (Kept.replaced hr))).trans (.life hlogin)

theorem Grown.opened (g : Gateway.State) (stype : Nat) (s : SessId) : Grown g (g.opened stype s) :=
  ⟨Nat.le_refl _, fun x _ => session_modify_field Session.as_client _ s x _ fun _ => rfl⟩

theorem Grown.refused (g : Gateway.State) (stype : Nat) (s : SessId) :
    Grown g (g.refused stype s) :=
  ⟨Nat.le_refl _, fun x _ => session_modify_field Session.as_client _ s x _ fun _ => rfl⟩

/-- **Every event** of the gateway leaves the sessions what they are. -/
theorem Grown.step {e : Gateway.Event} {r : Gateway.State × List Gateway.Act}
    (hstep : Gateway.step pm g e = some r) : Grown g r.1 := by
  cases Gateway.step_cases hstep with
  | accept => exact .create g _
  | timer => exact (Grown.checkServer g _).trans (Grown.checkServer _ _)
  | connected s stype _ => exact .opened g stype s
  | failed s stype _ => exact (Grown.refused g stype s).trans (.kept (Kept.close _ s))
  | short s cmd => exact .kept (Kept.refl g)
  | client s cmd raw r _ _ _ _ hr => exact .life hr.life.1
  | server s cmd raw r _ _ _ hr => exact .toClient hr
  | unserved s cmd raw _ _ _ => exact .kept (Kept.close g s)
  | lost s _ => exact .kept (Kept.close g s)
  | destroy s _ _ => exact .modify g s (fun x => { x with stage := .destroyed }) fun _ => rfl

/-- A session the gateway has opened to a server. -/
def IsLink (g : Gateway.State) (s : SessId) : Prop := s < g.created ∧ (g.session s).as_client = 1

theorem IsLink.grown (h : IsLink g s) (hg : Grown g g') : IsLink g' s :=
  ⟨Nat.lt_of_lt_of_le h.1 hg.created, (hg.as_client s h.1).trans h.2⟩

end Grown

/-! ## What always holds -/

/-- The auth service's part of what is seen. -/
def heard (trace : List Entry) : List Auth.Entry :=
  trace.filterMap fun
    | .auth e => some e
    | .gateway _ | .answer _ _ => none

theorem heard_append (trace more : List Entry) :
    heard (trace ++ more) = heard trace ++ heard more :=
  List.filterMap_append

theorem heard_auth (es : List Auth.Entry) : heard (es.map .auth) = es := by
  rw [heard, List.filterMap_map]
  exact List.filterMap_some

theorem heard_gateway (acts : List Gateway.Act) : heard (acts.map .gateway) = [] := by
  rw [heard, List.filterMap_map]
  exact List.filterMap_eq_nil_iff.mpr fun _ _ => rfl

theorem heard_answer (cmd : Bytes) (acts : List Gateway.Act) :
    heard (acts.map (.answer cmd)) = [] := by
  rw [heard, List.filterMap_map]
  exact List.filterMap_eq_nil_iff.mpr fun _ _ => rfl

/-- What holds in every state. -/
structure Ok (lib : Libraries Number) (c : State × List Entry) : Prop where
  links : Gateway.LinksOk c.1.gateway
  peer : ∀ a s, c.1.peer a = some s → IsLink c.1.gateway s
  down : ∀ p ∈ c.1.down, IsLink c.1.gateway p.1
  progress : ∀ n, Auth.Progress lib.lua n (c.1.auth, heard c.2)
  tags : ∀ n s msg connected, .received n s msg connected ∈ heard c.2 → msg.tags < 2 ^ 32

theorem cmdTags_lt (cmd : Bytes) : cmdTags cmd < 2 ^ 32 := by
  have h4 := byteAt_lt cmd 4
  have h5 := byteAt_lt cmd 5
  have h6 := byteAt_lt cmd 6
  have h7 := byteAt_lt cmd 7
  rw [cmdTags_eq]
  omega

/-- What decodes has the head of its bytes. -/
theorem decodeCmdMsg_fields {pm : ProtocolManager LuaTable} {cmd : Bytes}
    {msg : CommandMessage LuaTable} (h : decodeCmdMsg pm cmd cmd.length = some msg) :
    msg.serverType = cmdServerType cmd ∧ msg.commandType = cmdCommandType cmd ∧
      msg.tags = cmdTags cmd := by
  have hlen : ¬ (cmd.length : Int) < COMMAND_HEAD := by
    intro hlt
    rw [decodeCmdMsg, if_pos hlt] at h
    cases h
  exact decodeCmdMsg_head h (by rw [decodeMsgHead, if_neg hlen])

section Ok

variable {trace : List Entry}

/-- What the auth service sends goes to links. -/
theorem Ok.reply (h : Ok lib (c, trace)) {p : SessId × Bytes} {e : Auth.Entry}
    (hp : c.reply lib e = some p) : IsLink c.gateway p.1 := by
  cases e with
  | sent n a reply =>
    obtain ⟨-, hsome⟩ := Option.ite_none_right_eq_some.mp hp
    obtain ⟨s, hpeer, hmap⟩ := Option.bind_eq_some_iff.mp hsome
    obtain ⟨cmd, -, rfl⟩ := Option.map_eq_some_iff.mp hmap
    exact h.peer a s hpeer
  | received _ _ _ _ => cases hp
  | queried _ _ => cases hp
  | raised _ _ => cases hp
  | result _ _ => cases hp
  | redis _ _ => cases hp

/-- **The gateway takes a step.** -/
theorem Ok.gatewayTurn (h : Ok lib (c, trace)) {e : Gateway.Event}
    {done : Gateway.State × List Gateway.Act} {stage : SessId → Auth.LinkStage}
    {peer : SessId → Option SessId} {down : List (SessId × Bytes)} {out : List Entry}
    (hstep : Gateway.step lib.gateway c.gateway e = some done)
    (hpeer : ∀ a s, peer a = some s → c.peer a = some s ∨
      ∃ stype, (c.gateway.session s).stage = .connecting stype)
    (hdown : down.Sublist c.down) (hout : heard out = []) :
    Ok lib ({ c.gatewayTurn done with stage := stage, peer := peer, down := down },
      trace ++ out) where
  links := h.links.step hstep
  peer a s hs := by
    refine IsLink.grown ?_ (Grown.step hstep)
    rcases hpeer a s hs with hold | ⟨stype, hconn⟩
    · exact h.peer a s hold
    · exact ⟨h.links.sessions.lt_created (by simp [hconn]),
        (h.links.sessions.connecting s stype hconn).1⟩
  down p hp := (h.down p (hdown.subset hp)).grown (Grown.step hstep)
  progress n := by
    rw [heard_append, hout, List.append_nil]
    exact h.progress n
  tags n s msg connected hmem := by
    rw [heard_append, hout, List.append_nil] at hmem
    exact h.tags n s msg connected hmem

/-- **The auth service takes a step.** -/
theorem Ok.authTurn (h : Ok lib (c, trace)) {e : Auth.Event} {up : List (SessId × Bytes)}
    {done : Auth.State × List Auth.Entry} (hstep : Auth.step lib.lua c.auth e = some done)
    (htags : ∀ a msg random, e = .recv a msg random → msg.tags < 2 ^ 32) :
    Ok lib (({ c with up := up } : State).authTurn lib done, trace ++ done.2.map .auth) where
  links := h.links
  peer := h.peer
  down p hp := by
    rcases List.mem_append.mp hp with hold | hnew
    · exact h.down p hold
    · obtain ⟨e, -, hsent⟩ := List.mem_filterMap.mp hnew
      exact h.reply hsent
  progress n := by
    rw [heard_append, heard_auth]
    exact (h.progress n).record (record_eq_some.mpr ⟨done.1, done.2, hstep, rfl⟩)
  tags n s msg connected hmem := by
    rw [heard_append, heard_auth] at hmem
    rcases List.mem_append.mp hmem with hold | hnew
    · exact h.tags n s msg connected hold
    · cases e with
      | mysqlConnected =>
        cases hstep
        cases hnew
      | redisConnected =>
        cases hstep
        cases hnew
      | recv a msg' random =>
        cases hstep
        rcases List.mem_cons.mp hnew with heq | hact
        · cases heq
          exact htags _ _ _ rfl
        · obtain ⟨act, -, hact⟩ := List.mem_map.mp hact
          cases act <;> cases hact
      | complete i res random =>
        simp only [Auth.step] at hstep
        split at hstep
        · cases hstep
        · cases hstep
          rcases List.mem_cons.mp hnew with heq | hact
          · cases heq
          · obtain ⟨act, -, hact⟩ := List.mem_map.mp hact
            cases act <;> cases hact

/-- **Every event** keeps what holds. -/
theorem Ok.moved (h : Ok lib (c, trace)) (hmoved : Moved lib c e c' out)
    (hframed : c'.torn = false) : Ok lib (c', trace ++ out) := by
  cases hmoved with
  | gateway e done stage peer _ hstep _ hpeer =>
    exact h.gatewayTurn hstep hpeer (.refl _) (heard_gateway done.2)
  | received a s cmd up msg random done _ hdec hstep =>
    refine h.authTurn hstep fun a' msg' random' heq => ?_
    cases heq
    show msg.tags < 2 ^ 32
    rw [(decodeCmdMsg_fields hdec).2.2]
    exact cmdTags_lt cmd
  | answered s cmd down done htake hstep =>
    exact h.gatewayTurn hstep (fun _ _ hp => .inl hp) (takeFirst_sublist htake)
      (heard_answer cmd done.2)
  | auth e done hsession hstep =>
    refine h.authTurn hstep fun a msg random heq => ?_
    rw [heq] at hsession
    cases hsession
  | quiet stage peer up down _ hdown hpeer =>
    rw [List.append_nil]
    exact ⟨h.links, fun a s hs => h.peer a s (hpeer a s hs),
      fun p hp => h.down p (hdown.subset hp), h.progress, h.tags⟩
  | stray c' out _ htorn => cases htorn.symm.trans hframed

theorem Ok.init : Ok lib (init, []) where
  links := Gateway.LinksOk.init
  peer _ _ h := by cases h
  down _ h := by cases h
  progress n := .unseen (Nat.zero_le n) rfl rfl
  tags _ _ _ _ h := by cases h

end Ok

end LibuvServer.Deployment
