import LibuvServer.Gateway.BackendLinks
import LibuvServer.Gateway.Identities

/-!
# Logouts

What the servers are told when a client that has logged in disconnects.
`gw_disc_session` makes an `eUserLoseConn` table for clients with a `uid`, but
addresses it to the session that leaves, and its body is `nil`, so that
`Session.sendMessage` drops it: no server is ever told.
-/

namespace LibuvServer.Gateway

open LibuvServer.Lib LibuvServer.Netbus LibuvServer.Mylua State

/-- The tag of an `eUserLoseConn` command that the session is sent. -/
def Act.lostNotice (server : SessId) : Act → Option Nat
  | .sendMessage s msg =>
    if s = server ∧ msg.ctype = GameError.eUserLoseConn then some (toUnsigned msg.tag) else none
  | .sendRawData s rawCmd =>
    if s = server ∧ cmdCommandType rawCmd = toUnsigned GameError.eUserLoseConn % 2 ^ 16 then
      some (cmdTags rawCmd)
    else none
  | _ => none

/-- Every server is sent one `eUserLoseConn`, with the account's id as its tag. -/
def Announced (g : State) (id : Nat) (sent : List Act) : Prop :=
  ∀ stype server, g.sType2Session stype = some server →
    sent.filterMap (Act.lostNotice server) = [id]

/-- A step in which a client disconnects whose login a server has answered
with success. -/
structure Logout (pm : ProtocolManager LuaBody) (g g' : State) (acts sent : List Act)
    (login : Login) (s : SessId) : Prop where
  reached : ∃ events, run pm events = some (g, acts)
  client : (g.session s).as_client = 0
  success : ∃ id, .loggedIn login s id ∈ acts
  step : ∃ e, step pm g e = some (g', sent)
  opened : (g.session s).isShotdown = false
  closed : (g'.session s).isShotdown = true

section Logout

variable {pm : ProtocolManager LuaBody} {g g' : State} {s server : SessId} {raw : Gateway2Server}

/-- What a server's command sends to a client is no notice. -/
theorem lostNotice_answer (login : Login) (msg : LuaMessage) (hctype : msg.ctype = login.answer)
    (x server : SessId) : (Act.sendMessage x msg).lostNotice server = none := by
  refine if_neg ?_
  rintro ⟨-, hlost⟩
  rw [hctype] at hlost
  cases login <;> exact absurd hlost (by decide)

/-- **A step that closes a session** sends no notice. -/
theorem closing_lostNotice (server : SessId) {e : Event} {r : State × List Act}
    (hstep : step pm g e = some r)
    (hopen : (g.session s).isShotdown = false) (hshut : (r.1.session s).isShotdown = true) :
    ∀ a ∈ r.2, a.lostNotice server = none := by
  intro a ha
  have hkept : LifeKept g r.1 → False := by
    intro hk
    rw [hk.isShotdown, hopen] at hshut
    cases hshut
  cases step_cases hstep with
  | client _ _ _ r _ _ _ _ hr => exact (hkept hr.life.1).elim
  | server _ _ raw r _ _ _ hr =>
    cases hr with
    | ignored => cases ha
    | unsent _ _ => cases ha
    | passed _ _ _ _ => exact (hkept (LifeKept.taken g raw.tags)).elim
    | success login client_s body info id r htype _ _ _ hr =>
      have hctype : ((raw.commandType : Nat) : Int) = login.answer := by rw [htype]
      rcases List.mem_append.mp ha with hreplaced | hanswer
      · cases hr with
        | nobody _ => cases hreplaced
        | other old _ _ =>
          simp only [List.mem_cons, List.not_mem_nil, or_false] at hreplaced
          rcases hreplaced with rfl | rfl
          · exact lostNotice_answer login _ hctype old server
          · rfl
      · simp only [List.mem_cons, List.not_mem_nil, or_false] at hanswer
        rcases hanswer with rfl | rfl
        · rfl
        · exact lostNotice_answer login _ hctype client_s server
  | accept | timer | connected _ _ _ | failed _ _ _ | short _ _ | unserved _ _ _ _ _ _ | lost _ _
  | destroy _ _ _ => cases ha

end Logout

/-- **Logouts.** The servers are told of the logout exactly when there is no
server to be told. -/
theorem logouts {pm : ProtocolManager LuaBody} {g g' : State} {acts sent : List Act}
    {login : Login} {s : SessId} (h : Logout pm g g' acts sent login s) :
    Announced g (login.current (g.session s)) sent ↔ ∀ stype, g.sType2Session stype = none := by
  constructor
  · intro hannounced stype
    cases hslot : g.sType2Session stype with
    | none => rfl
    | some server =>
      obtain ⟨e, hstep⟩ := h.step
      have hnone := closing_lostNotice server hstep h.opened h.closed
      have hone := hannounced stype server hslot
      rw [List.filterMap_eq_nil_iff.mpr hnone] at hone
      cases hone
  · intro hnone stype server hslot
    rw [hnone stype] at hslot
    cases hslot

/-- A guest logs in. -/
def loggedInGuest : List Event :=
  twoClients ++ [.command 2 (head 1 1 0), .command 0 (head 1 2 1 ++ guestAnswer)]

theorem logout_of_run {pm : ProtocolManager LuaBody} {events : List Event} {e : Event}
    {login : Login} {s : SessId} {id : Int}
    (h : ((run pm events).bind fun c => (step pm c.1 e).map fun r =>
        ((c.1.session s).as_client, decide (.loggedIn login s id ∈ c.2),
          (c.1.session s).isShotdown, (r.1.session s).isShotdown)) = some (0, true, false, true)) :
    ∃ g acts g' sent, run pm events = some (g, acts) ∧ Logout pm g g' acts sent login s := by
  obtain ⟨⟨g, acts⟩, hrun, hmap⟩ := Option.bind_eq_some_iff.mp h
  obtain ⟨⟨g', sent⟩, hstep, hobs⟩ := Option.map_eq_some_iff.mp hmap
  simp only [Prod.mk.injEq, decide_eq_true_eq] at hobs
  obtain ⟨hclient, hsuccess, hopen, hshut⟩ := hobs
  exact ⟨g, acts, g', sent, hrun, ⟨events, hrun⟩, hclient, ⟨id, hsuccess⟩, ⟨e, hstep⟩, hopen, hshut⟩

/-- The guest leaves after the server has. -/
theorem logouts_alone : ∃ g acts g' sent, Logout sampleProto g g' acts sent .guest 2 ∧
    Announced g (Login.guest.current (g.session 2)) sent := by
  have hmap : ((run sampleProto (loggedInGuest ++ [.lost 0])).bind fun c =>
      (step sampleProto c.1 (.lost 2)).map fun r =>
        ((c.1.session 2).as_client, decide (.loggedIn .guest 2 77 ∈ c.2),
          (c.1.session 2).isShotdown, (r.1.session 2).isShotdown)) =
      some (0, true, false, true) := by
    decide
  obtain ⟨g, acts, g', sent, hrun, hlogout⟩ := logout_of_run hmap
  refine ⟨g, acts, g', sent, hlogout, (logouts hlogout).mpr fun stype => ?_⟩
  have hslots : (run sampleProto (loggedInGuest ++ [.lost 0])).map
      (fun c => servers.map c.1.sType2Session) = some [none, none] := by
    decide
  rw [hrun, Option.map_some, Option.some.injEq] at hslots
  cases hslot : g.sType2Session stype with
  | none => rfl
  | some server =>
    have hserved := ((LinksOk.reached hrun).sessions.server stype server hslot).2.2
    simp only [servers, List.map_cons, List.map_nil, List.cons.injEq, and_true] at hslots
    simp only [servers, List.mem_cons, List.not_mem_nil, or_false] at hserved
    rcases hserved with rfl | rfl
    · rw [hslots.1] at hslot
      cases hslot
    · rw [hslots.2] at hslot
      cases hslot

/-- The guest leaves and the server is there. -/
theorem logouts_unannounced : ¬ ∀ (pm : ProtocolManager LuaBody) (g g' : State)
    (acts sent : List Act) (login : Login) (s : SessId), Logout pm g g' acts sent login s →
      Announced g (login.current (g.session s)) sent := by
  intro hall
  have hmap : ((run sampleProto loggedInGuest).bind fun c =>
      (step sampleProto c.1 (.lost 2)).map fun r =>
        ((c.1.session 2).as_client, decide (.loggedIn .guest 2 77 ∈ c.2),
          (c.1.session 2).isShotdown, (r.1.session 2).isShotdown)) =
      some (0, true, false, true) := by
    decide
  obtain ⟨g, acts, g', sent, hrun, hlogout⟩ := logout_of_run hmap
  obtain ⟨e, hstep⟩ := hlogout.step
  have hslot : (run sampleProto loggedInGuest).map (fun c => c.1.sType2Session Stype.Auth)
      = some (some 0) := by
    decide
  rw [hrun, Option.map_some, Option.some.injEq] at hslot
  have hone := hall _ g g' acts sent _ _ hlogout Stype.Auth 0 hslot
  have hnone := closing_lostNotice 0 hstep hlogout.opened hlogout.closed
  rw [List.filterMap_eq_nil_iff.mpr hnone] at hone
  cases hone

end LibuvServer.Gateway
