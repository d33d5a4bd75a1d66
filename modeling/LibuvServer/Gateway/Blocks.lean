import LibuvServer.Gateway.BackendLinks

/-!
# The blocks of the sessions

`Session_uv::create` takes a block of `session_allocer` and sets its fields,
`Session_uv::destroy` gives the block back, and what Lua has of a session is
the address of its block. Here a session is its block, which can be taken again
once the session has been destroyed, with entries in the tables that are left
from the one before. Which free block is taken is the pool's choice. A run
that numbers its sessions is one that takes a new block each time.
-/

namespace LibuvServer.Gateway

open LibuvServer.Lib LibuvServer.Netbus LibuvServer.Mylua State

/-! ## Events -/

/-- The block is in the pool. The fields stay in a block that has been given back. -/
def Free (x : Session) : Prop := x.stage = .absent ∨ x.stage = .destroyed

instance (x : Session) : Decidable (Free x) := inferInstanceAs (Decidable (_ ∨ _))

/-- What happens next, with the blocks that new sessions get. -/
inductive BlockEvent where
  | accept (s : SessId)
  | timer (block : Nat → SessId)
  | connected (s : SessId) (err : Bool)
  | command (s : SessId) (cmd : Bytes)
  | lost (s : SessId)
  | destroy (s : SessId)

/-- What is seen: a session is created in a block, or the gateway does
something because of a command with this tag in its head. -/
inductive BlockEntry where
  | created (s : SessId)
  | did (utag : Nat) (a : Act)
  deriving DecidableEq

/-- `Session_uv::create` in this block. -/
def State.createIn (g : State) (s : SessId) (new : Session) : State :=
  { g with session := Function.update g.session s new, created := g.created + 1 }

/-- One pass of `checkConnected`, where the pool gives the block. -/
def checkServerIn (block : Nat → SessId) (g : State) (stype : Nat) :
    Option (State × List BlockEntry) :=
  if g.sType2Session stype = none ∧ g.do_connecting stype = false then
    if Free (g.session (block stype)) then
      some ({ g with do_connecting := Function.update g.do_connecting stype true }.createIn
        (block stype) { as_client := 1, stage := .connecting stype }, [.created (block stype)])
    else none
  else some (g, [])

/-- What happens to a session that has its block. -/
def BlockEvent.toSession : BlockEvent → Option Event
  | .accept _ | .timer _ => none
  | .connected s err => some (.connected s err)
  | .command s cmd => some (.command s cmd)
  | .lost s => some (.lost s)
  | .destroy s => some (.destroy s)

/-- The tag in the head of the command that has come. -/
def Event.utag : Event → Nat
  | .command _ cmd => cmdTags cmd
  | .accept | .timer | .connected _ _ | .lost _ | .destroy _ => 0

/-- One event, if it can happen now. -/
def blockStep (pm : ProtocolManager LuaBody) (g : State) (e : BlockEvent) :
    Option (State × List BlockEntry) :=
  match e with
  | .accept s =>
    if Free (g.session s) then some (g.createIn s { stage := .reading }, [.created s]) else none
  | .timer block => Lib.run (checkServerIn block) (g, []) servers
  | .connected _ _ | .command _ _ | .lost _ | .destroy _ =>
    e.toSession.bind fun e => (step pm g e).map fun done => (done.1, done.2.map (.did e.utag))

/-- A run of the gateway from its start. -/
def blockRun (pm : ProtocolManager LuaBody) (events : List BlockEvent) :
    Option (State × List BlockEntry) :=
  Lib.run (blockStep pm) (State.init, []) events

section Blocks

variable {pm : ProtocolManager LuaBody} {g g' : State} {s x : SessId} {e : BlockEvent}

@[simp] theorem session_createIn_same (g : State) (s : SessId) (new : Session) :
    (g.createIn s new).session s = new := Function.update_self ..

theorem session_createIn_of_ne (g : State) (new : Session) (h : x ≠ s) :
    (g.createIn s new).session x = g.session x := Function.update_of_ne h ..

/-- **What an event can do.** A session is created in a free block, or what
happens is said of sessions that have theirs. -/
theorem blockStep_cases {r : State × List BlockEntry} (h : blockStep pm g e = some r) :
    (∃ s, e = .accept s ∧ Free (g.session s) ∧
      r = (g.createIn s { stage := .reading }, [.created s])) ∨
    (∃ block, e = .timer block ∧ Lib.run (checkServerIn block) (g, []) servers = some r) ∨
    ∃ e' done, e.toSession = some e' ∧ step pm g e' = some done ∧
      r = (done.1, done.2.map (.did e'.utag)) := by
  have hsession : ∀ {e' : Event}, e.toSession = some e' → blockStep pm g e =
      (step pm g e').map (fun done => (done.1, done.2.map (.did e'.utag))) →
      ∃ e' done, e.toSession = some e' ∧ step pm g e' = some done ∧
        r = (done.1, done.2.map (.did e'.utag)) := by
    intro e' he heq
    rw [heq] at h
    obtain ⟨done, hstep, hr⟩ := Option.map_eq_some_iff.mp h
    exact ⟨e', done, he, hstep, hr.symm⟩
  cases e with
  | accept s =>
    obtain ⟨hfree, hr⟩ := Option.ite_none_right_eq_some.mp h
    exact .inl ⟨s, rfl, hfree, (Option.some.inj hr).symm⟩
  | timer block => exact .inr (.inl ⟨block, rfl, h⟩)
  | connected s err => exact .inr (.inr (hsession rfl rfl))
  | command s cmd => exact .inr (.inr (hsession rfl rfl))
  | lost s => exact .inr (.inr (hsession rfl rfl))
  | destroy s => exact .inr (.inr (hsession rfl rfl))

/-- No session is created by what happens to one. -/
theorem toSession_ne (h : e.toSession = some .accept ∨ e.toSession = some .timer) : False := by
  cases e <;> rcases h with h | h <;> cases h

/-- **What a pass of `checkConnected` can do.** -/
theorem checkServerIn_cases {block : Nat → SessId} {stype : Nat} {r : State × List BlockEntry}
    (h : checkServerIn block g stype = some r) :
    r = (g, []) ∨ g.sType2Session stype = none ∧ g.do_connecting stype = false ∧
      r = ({ g with do_connecting := Function.update g.do_connecting stype true }.createIn
        (block stype) { as_client := 1, stage := .connecting stype },
        [.created (block stype)]) := by
  unfold checkServerIn at h
  split at h
  · rename_i htry
    obtain ⟨-, hr⟩ := Option.ite_none_right_eq_some.mp h
    exact .inr ⟨htry.1, htry.2, (Option.some.inj hr).symm⟩
  · exact .inl (Option.some.inj h).symm

/-- In a pass of `checkConnected` the tables stay, and what is tried has not
been tried before. -/
structure Passing (g g' : State) : Prop where
  client_temp : g'.client_temp = g.client_temp
  table : ∀ login : Login, login.table g' = login.table g
  server : g'.sType2Session = g.sType2Session
  doing : ∀ k, g'.do_connecting k = false → g.do_connecting k = false

theorem Passing.refl (g : State) : Passing g g := ⟨rfl, fun _ => rfl, rfl, fun _ h => h⟩

theorem Passing.tried {g₁ : State} (h : Passing g g₁) (s : SessId) (stype : Nat) (new : Session) :
    Passing g ({ g₁ with
      do_connecting := Function.update g₁.do_connecting stype true }.createIn s new) where
  client_temp := h.client_temp
  table login := by
    rw [← h.table login]
    cases login <;> rfl
  server := h.server
  doing k hk := by
    change Function.update g₁.do_connecting stype true k = false at hk
    by_cases hne : k = stype
    · rw [hne, Function.update_self] at hk
      cases hk
    · rw [Function.update_of_ne hne] at hk
      exact h.doing k hk

/-- **An event keeps** what the sessions it creates keep and the steps of
those that have been created. -/
theorem blockStep_invariant {I : State × List BlockEntry → Prop} {c c' : State × List BlockEntry}
    (haccept : ∀ {s}, e = .accept s → I (c.1.createIn s { stage := .reading }, c.2 ++ [.created s]))
    (htimer : ∀ {block}, e = .timer block → ∀ {g trace stype}, Passing c.1 g → I (g, trace) →
      g.sType2Session stype = none → g.do_connecting stype = false →
      I ({ g with do_connecting := Function.update g.do_connecting stype true }.createIn
        (block stype) { as_client := 1, stage := .connecting stype },
        trace ++ [.created (block stype)]))
    (hsession : ∀ {e' done}, e.toSession = some e' → step pm c.1 e' = some done →
      I (done.1, c.2 ++ done.2.map (.did e'.utag)))
    (hc : I c) (h : Lib.record (blockStep pm) c e = some c') : I c' := by
  obtain ⟨g', out, hstep, rfl⟩ := record_eq_some.mp h
  rcases blockStep_cases hstep with ⟨s, he, -, hr⟩ | ⟨block, he, hrun⟩ | ⟨e', done, he, hdone, hr⟩
  · cases hr
    exact haccept he
  · have hpass :
        Lib.run (checkServerIn block) (c.1, c.2 ++ []) servers = some (g', c.2 ++ out) := by
      rw [run_append, hrun]
      rfl
    rw [List.append_nil] at hpass
    refine (run_invariant (P := fun _ _ => True) (I := fun d => Passing c.1 d.1 ∧ I d) ?_
      ⟨Passing.refl c.1, hc⟩ (along_true _ _) hpass).2
    rintro ⟨g, trace⟩ stype d ⟨hpassing, hg⟩ - hrecord
    obtain ⟨g₁, out₁, hone, rfl⟩ := record_eq_some.mp hrecord
    rcases checkServerIn_cases hone with hr | ⟨hnone, hdoing, hr⟩
    · cases hr
      rw [List.append_nil]
      exact ⟨hpassing, hg⟩
    · cases hr
      exact ⟨hpassing.tried _ _ _, htimer he hpassing hg hnone hdoing⟩
  · cases hr
    exact hsession he hdone

/-! ## Numbered sessions -/

/-- What the gateway does, of what is seen. -/
def BlockEntry.act : BlockEntry → Option Act
  | .created _ => none
  | .did _ a => some a

theorem filterMap_did (utag : Nat) (acts : List Act) :
    (acts.map (BlockEntry.did utag)).filterMap BlockEntry.act = acts := by
  rw [List.filterMap_map]
  exact List.filterMap_some

/-- A pass of `checkConnected` where the block is the next one. -/
theorem checkServerIn_checkServer (block : Nat → SessId) {stype : Nat}
    (hnew : (g.session g.created).stage = .absent) (hblock : block stype = g.created) :
    ∃ out, checkServerIn block g stype = some (g.checkServer stype, out) ∧
      out.filterMap BlockEntry.act = [] := by
  unfold checkServerIn State.checkServer
  by_cases htry : g.sType2Session stype = none ∧ g.do_connecting stype = false
  · rw [if_pos htry, if_pos htry, hblock, if_pos (.inl hnew)]
    exact ⟨_, rfl, rfl⟩
  · rw [if_neg htry, if_neg htry]
    exact ⟨[], rfl, rfl⟩

/-- The blocks of a pass that numbers its sessions. -/
def nextBlocks (g : State) (stype : Nat) : SessId :=
  if stype = Stype.Auth then g.created else (g.checkServer Stype.Auth).created

/-- A step that numbers its sessions takes blocks that were never taken. -/
theorem blockStep_of_step (h : LinksOk g) {e : Event} {acts : List Act}
    (hstep : step pm g e = some (g', acts)) :
    ∃ e out, blockStep pm g e = some (g', out) ∧ out.filterMap BlockEntry.act = acts := by
  have hsession : ∀ e' : BlockEvent, e'.toSession = some e → blockStep pm g e' =
      (step pm g e).map (fun done => (done.1, done.2.map (.did e.utag))) →
      ∃ e out, blockStep pm g e = some (g', out) ∧ out.filterMap BlockEntry.act = acts := by
    intro e' _ heq
    exact ⟨e', acts.map (.did e.utag), by rw [heq, hstep]; rfl, filterMap_did _ acts⟩
  cases e with
  | accept =>
    cases hstep
    refine ⟨.accept g.created, [.created g.created], if_pos (.inl ?_), rfl⟩
    exact h.sessions.absent _ (Nat.le_refl _)
  | timer =>
    cases hstep
    have hauth : LinksOk (g.checkServer Stype.Auth) := h.checkServer (by decide)
    obtain ⟨out, hone, hnone⟩ := checkServerIn_checkServer (nextBlocks g)
      (h.sessions.absent _ (Nat.le_refl _)) (if_pos rfl)
    have hsystem : nextBlocks g Stype.System = (g.checkServer Stype.Auth).created :=
      if_neg (by decide)
    obtain ⟨out', htwo, hnone'⟩ := checkServerIn_checkServer (nextBlocks g)
      (hauth.sessions.absent _ (Nat.le_refl _)) hsystem
    refine ⟨.timer (nextBlocks g), out ++ out', ?_, ?_⟩
    · change Lib.run (checkServerIn (nextBlocks g)) (g, []) [Stype.Auth, Stype.System] = _
      rw [run_cons hone, run_cons htwo, List.nil_append]
      rfl
    · rw [List.filterMap_append, hnone, hnone', List.nil_append]
  | connected s err => exact hsession (.connected s err) rfl rfl
  | command s cmd => exact hsession (.command s cmd) rfl rfl
  | lost s => exact hsession (.lost s) rfl rfl
  | destroy s => exact hsession (.destroy s) rfl rfl

/-- **A run that numbers its sessions** is one over blocks. -/
theorem blockRun_of_run {events : List Event} {acts : List Act}
    (hrun : run pm events = some (g, acts)) :
    ∃ blockEvents trace, blockRun pm blockEvents = some (g, trace) ∧
      trace.filterMap BlockEntry.act = acts := by
  have hall : LinksOk g ∧ ∃ blockEvents trace, blockRun pm blockEvents = some (g, trace) ∧
      trace.filterMap BlockEntry.act = acts := by
    refine run_invariant (P := fun _ _ => True) (I := fun c : State × List Act =>
      LinksOk c.1 ∧ ∃ blockEvents trace, blockRun pm blockEvents = some (c.1, trace) ∧
        trace.filterMap BlockEntry.act = c.2) ?_ ⟨LinksOk.init, [], [], rfl, rfl⟩
      (along_true _ _) hrun
    rintro ⟨g, acts⟩ e c' ⟨hlinks, blockEvents, trace, hblocks, hacts⟩ - hrecord
    obtain ⟨g', out, hstep, rfl⟩ := record_eq_some.mp hrecord
    have hlinks' : LinksOk (g', out).1 := hlinks.step hstep
    obtain ⟨e', out', hone, hout⟩ := blockStep_of_step hlinks hstep
    refine ⟨hlinks', blockEvents ++ [e'], trace ++ out', ?_, ?_⟩
    · unfold blockRun at hblocks ⊢
      rw [run_concat hblocks, run_cons hone]
      rfl
    · rw [List.filterMap_append, hout]
      exact congrArg (· ++ out) hacts
  exact hall.2

end Blocks

end LibuvServer.Gateway
