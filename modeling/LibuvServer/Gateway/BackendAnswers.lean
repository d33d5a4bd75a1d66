import LibuvServer.Gateway.Steps

/-!
# Answers to registered clients

Whether a server's message other than a login answer reaches the client
whose id is its tag. `sendToClient` looks the client up under `tag`, a
global that nothing sets, where `readHead` has put the tag into `utag`; so
such a message goes nowhere.
-/

namespace LibuvServer.Gateway

open LibuvServer.Lib LibuvServer.Netbus LibuvServer.Mylua State

/-- An open client session that is entered under the id. -/
structure Addressed (g : State) (id : Nat) (s : SessId) : Prop where
  client : (g.session s).as_client = 0
  unclosed : (g.session s).isShotdown = false
  reading : (g.session s).stage = .reading
  entered : ∃ login : Login, login.table g id = some s

/-- What goes out over a session. -/
def Act.sends : Act → Bool
  | .sendRawData _ _ | .sendMessage _ _ => true
  | _ => false

/-- The command is sent to `s` with tag 0, once, and nothing else is sent. -/
def Delivered (cmd : Bytes) (s : SessId) (sent : List Act) : Prop :=
  ∃ cmd', sent.filter Act.sends = [.sendRawData s cmd'] ∧ Retagged cmd 0 cmd'

variable {pm : ProtocolManager LuaBody} {g g' : State} {server s : SessId} {cmd : Bytes}
  {raw : Gateway2Server} {sent : List Act}

/-- A server's message that answers no login sends nothing. -/
theorem backend_silent (hserver : (g.session server).as_client = 1)
    (hhead : decodeMsgHead cmd cmd.length = some raw)
    (htype : ∀ login : Login, raw.commandType ≠ login.answer)
    (hstep : step pm g (.command server cmd) = some (g', sent)) : sent = [] := by
  generalize hr : (g', sent) = r at hstep
  cases step_cases hstep with
  | short =>
    cases hr
    rfl
  | unserved =>
    cases hr
    rfl
  | client _ _ raw' _ _ _ _ hclient _ => omega
  | server _ _ raw' _ hhead' _ _ hto =>
    subst hr
    rw [hhead, Option.some.injEq] at hhead'
    subst hhead'
    generalize hr : (g', sent) = r at hto
    cases hto with
    | ignored =>
      cases hr
      rfl
    | unsent login hlogin => exact absurd hlogin (htype login)
    | passed login _ hlogin _ => exact absurd hlogin (htype login)
    | success login _ _ _ _ _ hlogin _ _ _ _ => exact absurd hlogin (htype login)

/-- **Answers to registered clients.** In no state does such a message reach
the client it is addressed to. -/
theorem backend_answers (hserver : (g.session server).as_client = 1)
    (hhead : decodeMsgHead cmd cmd.length = some raw)
    (htype : ∀ login : Login, raw.commandType ≠ login.answer)
    (_ : Addressed g raw.tags s)
    (hstep : step pm g (.command server cmd) = some (g', sent)) : ¬ Delivered cmd s sent := by
  rintro ⟨cmd', hsent, -⟩
  rw [backend_silent hserver hhead htype hstep] at hsent
  cases hsent

/-- Session 2 logs in as guest 77 and is entered under this id. -/
def guestEntered : List Event :=
  twoClients ++ [.command 2 (head 1 1 0), .command 0 (head 1 2 1 ++ guestAnswer),
    .command 2 (head 1 5 0)]

/-- What can be seen of the state after it, and of a message to the guest. -/
theorem guestEntered_run : ∃ g acts g',
    run sampleProto guestEntered = some (g, acts) ∧ (g.session 0).as_client = 1 ∧
      Addressed g 77 2 ∧ step sampleProto g (.command 0 (head 1 6 77)) = some (g', []) := by
  have hmap : (run sampleProto guestEntered).map (fun r =>
      ((r.1.session 0).as_client, r.1.session 2, r.1.client_gid 77,
        (step sampleProto r.1 (.command 0 (head 1 6 77))).map (·.2)))
      = some (1, { utag := 1, gid := 77, stage := .reading }, some 2, some []) := by
    decide
  obtain ⟨⟨g, acts⟩, hrun, hobs⟩ := Option.map_eq_some_iff.mp hmap
  simp only [Prod.mk.injEq] at hobs
  obtain ⟨hserver, hsession, hgid, hsent⟩ := hobs
  obtain ⟨⟨g', sent⟩, hstep, hnil⟩ := Option.map_eq_some_iff.mp hsent
  change sent = [] at hnil
  subst hnil
  refine ⟨g, acts, g', hrun, hserver, ⟨?_, ?_, ?_, .guest, hgid⟩, hstep⟩
  all_goals rw [hsession]

/-- A message to guest 77 in a state that is reached. -/
theorem backend_answers_guest : ∃ g acts g' sent,
    run sampleProto guestEntered = some (g, acts) ∧ Addressed g 77 2 ∧
      step sampleProto g (.command 0 (head 1 6 77)) = some (g', sent) ∧
      ¬ Delivered (head 1 6 77) 2 sent := by
  obtain ⟨g, acts, g', hrun, hserver, haddr, hstep⟩ := guestEntered_run
  have htype : ∀ login : Login, 6 ≠ login.answer := by
    rintro (_ | _) <;> decide
  exact ⟨g, acts, g', [], hrun, haddr, hstep, backend_answers hserver rfl htype haddr hstep⟩

theorem backend_answers_lost :
    ¬ ∀ (pm : ProtocolManager LuaBody) (events : List Event) (g : State) (acts : List Act)
        (server : SessId) (cmd : Bytes) (raw : Gateway2Server) (s : SessId) (g' : State)
        (sent : List Act), run pm events = some (g, acts) → (g.session server).as_client = 1 →
      decodeMsgHead cmd cmd.length = some raw →
      (∀ login : Login, raw.commandType ≠ login.answer) → Addressed g raw.tags s →
      step pm g (.command server cmd) = some (g', sent) → Delivered cmd s sent := by
  intro hall
  obtain ⟨g, acts, g', hrun, hserver, haddr, hstep⟩ := guestEntered_run
  obtain ⟨cmd', hsent, -⟩ := hall sampleProto guestEntered g acts 0 (head 1 6 77) _ 2 g' [] hrun
    hserver rfl (by rintro (_ | _) <;> decide) haddr hstep
  cases hsent

end LibuvServer.Gateway
