import LibuvServer.Gateway.Blocks
import Mathlib.Data.List.Induction

/-!
# Identities

Under which id the commands of a client are forwarded. `sendToServer` makes a
new tag the session's id at once, and the answer puts the real id in its
place; a command that comes in between is forwarded under the tag. A login that
is sent after the session was closed leaves an entry in `client_temp`, and its
answer can come to the session that has the block by then. What is needed is
that the last identity a session was given is a server's (`Authenticated`), and
that answers come back to the session that asked (`Returns`); then the id in
`gid` or `uid` is its own (`IdentityOk`).
-/

namespace LibuvServer.Gateway

open LibuvServer.Lib LibuvServer.Netbus LibuvServer.Mylua State

/-! ## What is said of a run -/

/-- An identity a session is given: a tag at a request, or an id by an answer. -/
inductive Identity where
  | assigned (utag : Nat)
  | answered (login : Login) (id : Int)
  deriving DecidableEq

/-- The identity of the session in this block, which starts without one. -/
def BlockEntry.identity (s : SessId) (last : Option Identity) : BlockEntry → Option Identity
  | .created x => if x = s then none else last
  | .did _ (.alloction x utag) => if x = s then some (.assigned utag) else last
  | .did _ (.loggedIn login x id) => if x = s then some (.answered login id) else last
  | .did _ (.sendRawData _ _) | .did _ (.sendMessage _ _) | .did _ (.close _) => last

def lastIdentity (trace : List BlockEntry) (s : SessId) : Option Identity :=
  trace.foldl (BlockEntry.identity s) none

/-- The session has been given this tag since it was created. -/
def HasTag (s : SessId) (trace : List BlockEntry) (utag : Nat) : Prop :=
  ∃ (before : List BlockEntry) (t gKey : Nat) (after : List BlockEntry),
    trace = before ++ .did t (.alloction s gKey) :: after ∧ .created s ∉ after ∧
      toUnsigned gKey = utag

/-- A session is created in the block, or a success comes to it. -/
def BlockEntry.Begins (s : SessId) : BlockEntry → Prop
  | .created x => x = s
  | .did _ (.loggedIn _ x _) => x = s
  | .did _ (.alloction _ _) | .did _ (.sendRawData _ _) | .did _ (.sendMessage _ _)
  | .did _ (.close _) => False

/-- The latest successful answer since the session was created is to a login
of its own, under a tag it had been given, and carried this id. -/
def Answered (s : SessId) (trace : List BlockEntry) (id : Int) : Prop :=
  ∃ before utag login after, trace = before ++ .did utag (.loggedIn login s id) :: after ∧
    (∀ e ∈ after, ¬ e.Begins s) ∧ HasTag s before utag

/-- The last identity the session was given is an id other than 0 that a
server answered, and nothing hides it. -/
def Authenticated (c : State × List BlockEntry) (s : SessId) : Prop :=
  match lastIdentity c.2 s with
  | some (.answered login id) =>
    toUnsigned id ≠ 0 ∧ (login = .user → (c.1.session s).gid = 0)
  | _ => False

/-- `sendToServer` forwards the command of the client, and it is no login request. -/
def Forwarded (g : State) (s : SessId) (raw : Gateway2Server) : Prop :=
  (g.session s).as_client = 0 ∧ raw.commandType ≠ Ctype.eGuestLoginReq ∧
    raw.commandType ≠ Ctype.eLoginReq ∧ (g.sType2Session raw.serverType).isSome ∧
    ((g.session s).uid ≠ 0 ∨ (g.session s).gid ≠ 0)

/-- A successful answer comes to the session that has its tag, and not too late. -/
def Returns (pm : ProtocolManager LuaBody) (g : State) (s : SessId) (raw : Gateway2Server) :
    Prop :=
  ∀ (login : Login) client_s body info id, (g.session s).as_client ≠ 0 →
    raw.commandType = login.answer → g.client_temp raw.tags = some client_s →
    Raw.readBody pm raw = some body → Success login body info id →
    (g.session client_s).stage ≠ .destroyed ∧ (g.session client_s).utag = raw.tags

/-- Clients wait for a successful answer before they send other commands, and
it comes while they are there. -/
def Patient (pm : ProtocolManager LuaBody) (c : State × List BlockEntry) : BlockEvent → Prop
  | .command s cmd => ∀ raw, decodeMsgHead cmd cmd.length = some raw → raw.serverType ∈ servers →
      (Forwarded c.1 s raw → Authenticated c s) ∧ Returns pm c.1 s raw
  | .accept _ | .timer _ | .connected _ _ | .lost _ | .destroy _ => True

/-- Whatever is forwarded carries the id of the last successful answer. -/
def Genuine (pm : ProtocolManager LuaBody) (c : State × List BlockEntry) : BlockEvent → Prop
  | .command s cmd => ∀ (raw : Gateway2Server) (g' : State) (sent : List BlockEntry),
      decodeMsgHead cmd cmd.length = some raw → (c.1.session s).as_client = 0 →
      raw.commandType ≠ Ctype.eGuestLoginReq → raw.commandType ≠ Ctype.eLoginReq →
      blockStep pm c.1 (.command s cmd) = some (g', sent) →
      ∀ (utag : Nat) (server : SessId) (cmd' : Bytes), .did utag (.sendRawData server cmd') ∈ sent →
        ∃ id, Answered s c.2 id ∧ Retagged cmd (toUnsigned id) cmd'
  | .accept _ | .timer _ | .connected _ _ | .lost _ | .destroy _ => True

/-! ## Looking back -/

section History

variable {trace out : List BlockEntry} {s x : SessId} {utag : Nat} {id : Int}

theorem lastIdentity_append (trace out : List BlockEntry) (s : SessId) :
    lastIdentity (trace ++ out) s = out.foldl (BlockEntry.identity s) (lastIdentity trace s) :=
  List.foldl_append

theorem HasTag.append (h : HasTag s trace utag) (hout : .created s ∉ out) :
    HasTag s (trace ++ out) utag := by
  obtain ⟨before, t, gKey, after, rfl, hafter, hutag⟩ := h
  refine ⟨before, t, gKey, after ++ out, by simp, ?_, hutag⟩
  rw [List.mem_append, not_or]
  exact ⟨hafter, hout⟩

theorem Answered.append (h : Answered s trace id) (hout : ∀ e ∈ out, ¬ e.Begins s) :
    Answered s (trace ++ out) id := by
  obtain ⟨before, utag, login, after, rfl, hafter, htag⟩ := h
  refine ⟨before, utag, login, after ++ out, by simp, fun e he => ?_, htag⟩
  exact (List.mem_append.mp he).elim (hafter e) (hout e)

/-- An act that gives nobody an identity. -/
def Act.Plain : Act → Prop
  | .alloction _ _ | .loggedIn _ _ _ => False
  | .sendRawData _ _ | .sendMessage _ _ | .close _ => True

/-- What the gateway does creates no session. -/
theorem not_created_did {utag : Nat} {acts : List Act} :
    .created s ∉ acts.map (BlockEntry.did utag) := by
  simp

theorem Act.Plain.not_begins {a : Act} (ha : a.Plain) (utag : Nat) (s : SessId) :
    ¬ (BlockEntry.did utag a).Begins s := by
  cases a <;> first | exact False.elim ha | exact id

theorem lastIdentity_plain {acts : List Act} (hplain : ∀ a ∈ acts, a.Plain)
    (trace : List BlockEntry) (utag : Nat) (s : SessId) :
    lastIdentity (trace ++ acts.map (.did utag)) s = lastIdentity trace s := by
  induction acts generalizing trace with
  | nil => rw [List.map_nil, List.append_nil]
  | cons a acts ih =>
    have hrest := ih (fun b hb => hplain b (List.mem_cons_of_mem a hb)) (trace ++ [.did utag a])
    rw [List.append_assoc] at hrest
    rw [List.map_cons]
    refine hrest.trans ?_
    rw [lastIdentity_append]
    cases a <;> first | exact False.elim (hplain _ List.mem_cons_self) | rfl

end History

/-! ## Ids -/

/-- The id a login writes. -/
def Login.current : Login → Session → Nat
  | .guest, s => s.gid
  | .user, s => s.uid

theorem Login.current_setId (login : Login) (id : Int) (s : Session) :
    login.current (login.setId id s) = toUnsigned id := by
  cases login <;> rfl

theorem Login.utag_setId (login : Login) (id : Int) (s : Session) :
    (login.setId id s).utag = s.utag := by
  cases login <;> rfl

/-- An id that a server gave to a session is in it and is its own, and a
session has no other tag than one it was given. -/
structure IdentityOk (c : State × List BlockEntry) : Prop where
  held : ∀ s login id, lastIdentity c.2 s = some (.answered login id) →
    login.current (c.1.session s) = toUnsigned id ∧ Answered s c.2 id
  tag : ∀ s, (c.1.session s).utag ≠ 0 → HasTag s c.2 (c.1.session s).utag
  gKey : c.1.gKey ≠ 0
  temp : c.1.client_temp 0 = none

/-- `g'` has the sessions of `g` with the same ids, and no tag that is new. -/
structure IdsKept (g g' : State) : Prop where
  gKey : g'.gKey = g.gKey
  temp : ∀ t s, g'.client_temp t = some s → g.client_temp t = some s
  current : ∀ (login : Login) s, login.current (g'.session s) = login.current (g.session s)
  utag : ∀ s, (g'.session s).utag = (g.session s).utag ∨ (g'.session s).utag = 0

section Ids

variable {pm : ProtocolManager LuaBody} {g g' g₁ : State} {s : SessId} {trace : List BlockEntry}
  {raw : Gateway2Server} {acts : List Act} {t : Nat}

theorem IdsKept.trans (h : IdsKept g g₁) (h' : IdsKept g₁ g') : IdsKept g g' where
  gKey := h'.gKey.trans h.gKey
  temp t s ht := h.temp t s (h'.temp t s ht)
  current login s := (h'.current login s).trans (h.current login s)
  utag s := by
    rcases h'.utag s with heq | hzero
    · rw [heq]
      exact h.utag s
    · exact .inr hzero

theorem State.Kept.idsKept (h : Kept g g') : IdsKept g g' where
  gKey := h.gKey
  temp := h.temp
  current login s := by
    cases login with
    | guest => exact h.gid s
    | user => exact h.uid s
  utag := h.utag

theorem State.SameButIds.idsKept (h : SameButIds g g') : IdsKept g g' where
  gKey := h.gKey
  temp t s ht := by rwa [h.client_temp] at ht
  current login s := by rw [h.session]
  utag s := .inl (by rw [h.session])

/-- A session changes, but not in its ids. -/
theorem IdsKept.modify (g : State) (s : SessId) (f : Session → Session)
    (hf : ∀ (login : Login) y, login.current (f y) = login.current y)
    (hutag : ∀ y, (f y).utag = y.utag) : IdsKept g (g.modify s f) where
  gKey := rfl
  temp _ _ h := h
  current login x := session_modify_field login.current g s x f (hf login)
  utag x := .inl (session_modify_field Session.utag g s x f hutag)

theorem IdsKept.opened {stype : Nat} : IdsKept g (g.opened stype s) := by
  have hlinked : IdsKept g { g with
      do_connecting := Function.update g.do_connecting stype true
      sType2Session := Function.update g.sType2Session stype (some s) } :=
    ⟨rfl, fun _ _ h => h, fun _ _ => rfl, fun _ => .inl rfl⟩
  exact hlinked.trans (IdsKept.modify _ s _ (fun login _ => by cases login <;> rfl) fun _ => rfl)

theorem IdsKept.refused {stype : Nat} : IdsKept g (g.refused stype s) :=
  (SameButIds.connecting g _).idsKept.trans
    (IdsKept.modify _ s _ (fun login _ => by cases login <;> rfl) fun _ => rfl)

theorem IdsKept.replaced {login : Login} {ctype : Nat} {id : Int} {r : State × List Act}
    (h : Replaced g login ctype id s r) : IdsKept g r.1 ∧ ∀ a ∈ r.2, a.Plain := by
  cases h with
  | nobody _ => exact ⟨(Kept.refl g).idsKept, by simp⟩
  | other old _ _ =>
    refine ⟨(Kept.close g old).idsKept.trans (SameButIds.setTable _ login id none).idsKept, ?_⟩
    simp [Act.Plain]

theorem IdentityOk.kept (h : IdentityOk (g, trace)) (hk : IdsKept g g')
    (hplain : ∀ a ∈ acts, a.Plain) (t : Nat) :
    IdentityOk (g', trace ++ acts.map (.did t)) where
  held s login id hlast := by
    rw [lastIdentity_plain hplain] at hlast
    obtain ⟨hcurrent, hanswered⟩ := h.held s login id hlast
    refine ⟨(hk.current login s).trans hcurrent, hanswered.append fun e he => ?_⟩
    obtain ⟨a, ha, rfl⟩ := List.mem_map.mp he
    exact (hplain a ha).not_begins t s
  tag s hs := by
    rcases hk.utag s with heq | hzero
    · rw [heq] at hs ⊢
      exact (h.tag s hs).append not_created_did
    · exact absurd hzero hs
  gKey := by
    rw [hk.gKey]
    exact h.gKey
  temp := by
    rw [Option.eq_none_iff_forall_ne_some]
    intro s hs
    have hold := hk.temp 0 s hs
    rw [h.temp] at hold
    cases hold

theorem IdentityOk.same (h : IdentityOk (g, trace)) (hk : IdsKept g g') :
    IdentityOk (g', trace) := by
  have hkept : IdentityOk (g', trace ++ ([] : List Act).map (.did 0)) :=
    h.kept hk (fun _ ha => by cases ha) 0
  rwa [List.map_nil, List.append_nil] at hkept

/-- A session that is created has neither an id nor a tag, whoever had the block. -/
theorem IdentityOk.create (h : IdentityOk (g, trace)) (s : SessId) {new : Session}
    (hnew : new.utag = 0) : IdentityOk (g.createIn s new, trace ++ [.created s]) where
  held x login id hlast := by
    rw [lastIdentity_append] at hlast
    by_cases hx : x = s
    · subst hx
      simp [BlockEntry.identity] at hlast
    · simp only [List.foldl_cons, List.foldl_nil, BlockEntry.identity, if_neg (Ne.symm hx)] at hlast
      obtain ⟨hcurrent, hanswered⟩ := h.held x login id hlast
      rw [session_createIn_of_ne g new hx]
      refine ⟨hcurrent, hanswered.append fun e he => ?_⟩
      rw [List.mem_singleton.mp he]
      exact Ne.symm hx
  tag x hutag := by
    by_cases hx : x = s
    · rw [hx, session_createIn_same] at hutag
      exact absurd hnew hutag
    · rw [session_createIn_of_ne g new hx] at hutag ⊢
      refine (h.tag x hutag).append ?_
      simp [hx]
  gKey := h.gKey
  temp := h.temp

/-- A session that gets a tag has no identity of a server. -/
theorem IdentityOk.newTag (h : IdentityOk (g, trace)) (login : Login) (s : SessId)
    {server : SessId} {cmd' : Bytes} : IdentityOk (g.newTag login s,
      trace ++ [Act.alloction s g.gKey, .sendRawData server cmd'].map (.did t)) where
  held x login' id hlast := by
    rw [lastIdentity_append] at hlast
    by_cases hx : x = s
    · subst hx
      simp [BlockEntry.identity] at hlast
    · simp only [List.map_cons, List.map_nil, List.foldl_cons, List.foldl_nil,
        BlockEntry.identity, if_neg (Ne.symm hx)] at hlast
      obtain ⟨hcurrent, hanswered⟩ := h.held x login' id hlast
      rw [newTag_session_of_ne g login hx]
      exact ⟨hcurrent, hanswered.append (by simp [BlockEntry.Begins])⟩
  tag x hutag := by
    by_cases hx : x = s
    · subst hx
      refine ⟨trace, t, g.gKey, [.did t (.sendRawData server cmd')], rfl, by simp, ?_⟩
      rw [newTag_session_same, Login.utag_setId]
      rfl
    · rw [newTag_session_of_ne g login hx] at hutag ⊢
      exact (h.tag x hutag).append not_created_did
  gKey := Nat.succ_ne_zero _
  temp := by
    change Function.update g.client_temp g.gKey (some s) 0 = none
    rw [Function.update_of_ne (Ne.symm h.gKey)]
    exact h.temp

theorem IdentityOk.oldTag (h : IdentityOk (g, trace)) (hs : (g.session s).utag ≠ 0) :
    IdentityOk (g.oldTag s, trace) where
  held := h.held
  tag := h.tag
  gKey := h.gKey
  temp := by
    change Function.update g.client_temp (g.session s).utag (some s) 0 = none
    rw [Function.update_of_ne (Ne.symm hs)]
    exact h.temp

/-- A session that is logged in under a tag of its own has the id of the answer. -/
theorem IdentityOk.loggedIn (h : IdentityOk (g, trace)) (login : Login) (id : Int)
    (htag : HasTag s trace t) (msg : LuaMessage) : IdentityOk (g.modify s (login.setId id),
      trace ++ [Act.loggedIn login s id, .sendMessage s msg].map (.did t)) where
  held x login' id' hlast := by
    rw [lastIdentity_append] at hlast
    by_cases hx : x = s
    · subst hx
      simp only [List.map_cons, List.map_nil, List.foldl_cons, List.foldl_nil,
        BlockEntry.identity, if_true, Option.some.injEq, Identity.answered.injEq] at hlast
      obtain ⟨rfl, rfl⟩ := hlast
      rw [session_modify_same]
      refine ⟨Login.current_setId .., trace, t, login, _, rfl, ?_, htag⟩
      simp [BlockEntry.Begins]
    · simp only [List.map_cons, List.map_nil, List.foldl_cons, List.foldl_nil,
        BlockEntry.identity, if_neg (Ne.symm hx)] at hlast
      obtain ⟨hcurrent, hanswered⟩ := h.held x login' id' hlast
      rw [session_modify_of_ne g _ hx]
      exact ⟨hcurrent, hanswered.append (by simp [BlockEntry.Begins, Ne.symm hx])⟩
  tag x hutag := by
    rw [session_modify_field Session.utag g s x _ (Login.utag_setId login id)] at hutag ⊢
    exact (h.tag x hutag).append not_created_did
  gKey := h.gKey
  temp := h.temp

theorem IdentityOk.toClient {r : State × List Act} (h : IdentityOk (g, trace))
    (hr : ToClient pm g raw r) (hserver : (g.session s).as_client ≠ 0)
    (hreturns : Returns pm g s raw) :
    IdentityOk (r.1, trace ++ r.2.map (.did raw.tags)) := by
  have htaken : IdsKept g (g.taken raw.tags) := (Kept.dropTemp g _).idsKept
  cases hr with
  | ignored => exact h.kept (Kept.refl g).idsKept (by simp) _
  | unsent _ _ => exact h.kept htaken (by simp) _
  | passed _ _ _ _ => exact h.kept htaken (by simp [Act.Plain]) _
  | success login client_s body info id r htype hclient hbody hok hr =>
    obtain ⟨hkept, hplain⟩ := IdsKept.replaced hr
    obtain ⟨-, hutag⟩ := hreturns login client_s body info id hserver htype hclient hbody hok
    -- the tag of the answer is one that the session was given
    have htag : HasTag client_s trace raw.tags := by
      have hne : (g.session client_s).utag ≠ 0 := by
        intro hzero
        rw [← hutag, hzero, h.temp] at hclient
        cases hclient
      rw [← hutag]
      exact h.tag client_s hne
    have hentered := (SameButIds.setTable r.1 login id (some client_s)).idsKept
    have hreplaced := (h.kept (htaken.trans hkept) hplain raw.tags).same hentered
    have hlogged := hreplaced.loggedIn login id (htag.append not_created_did)
      (welcome login raw body info)
    rwa [List.append_assoc, ← List.map_append] at hlogged

/-- **What happens to a session** keeps the ids, when answers come back. -/
theorem IdentityOk.session (h : IdentityOk (g, trace)) {e : BlockEvent} {e' : Event}
    {r : State × List Act} (hpatient : Patient pm (g, trace) e) (he : e.toSession = some e')
    (hstep : step pm g e' = some r) : IdentityOk (r.1, trace ++ r.2.map (.did e'.utag)) := by
  cases step_cases hstep with
  | accept => exact (toSession_ne (.inl he)).elim
  | timer => exact (toSession_ne (.inr he)).elim
  | connected s stype hstage => exact h.kept IdsKept.opened (by simp) _
  | failed s stype hstage =>
    exact h.kept (IdsKept.refused.trans (Kept.close _ s).idsKept) (by simp) _
  | short s cmd => exact h.kept (Kept.refl g).idsKept (by simp) _
  | client s cmd raw r hreading hhead hserved hclient hr =>
    cases hr with
    | ignored => exact h.kept (Kept.refl g).idsKept (by simp) _
    | first login server hserver htype htag => exact h.newTag login s
    | again login server hserver htype htag =>
      exact (h.oldTag htag).kept (Kept.refl _).idsKept (by simp [Act.Plain]) _
    | identified server utag hserver htype hid =>
      exact h.kept (SameButIds.identify g s).idsKept (by simp [Act.Plain]) _
  | server s cmd raw r hhead hserved hserver hr =>
    have hcommand : e = .command s cmd := by
      cases e <;> cases he
      rfl
    subst hcommand
    have htags : cmdTags cmd = raw.tags := (decodeMsgHead_tags hhead).symm
    have hkept := h.toClient hr hserver (hpatient raw hhead hserved).2
    rw [← htags] at hkept
    exact hkept
  | unserved s cmd raw hreading hhead hserved => exact h.kept (Kept.close g s).idsKept (by simp) _
  | lost s hreading => exact h.kept (Kept.close g s).idsKept (by simp) _
  | destroy s hshut hstage =>
    have hkept := IdsKept.modify g s (fun x => { x with stage := .destroyed })
      (fun login _ => by cases login <;> rfl) fun _ => rfl
    exact h.kept hkept (by simp) _

/-- **Every event keeps the ids.** -/
theorem IdentityOk.record {c c' : State × List BlockEntry} {e : BlockEvent} (h : IdentityOk c)
    (hpatient : Patient pm c e) (hrecord : Lib.record (blockStep pm) c e = some c') :
    IdentityOk c' := by
  refine blockStep_invariant ?_ ?_ ?_ h hrecord
  · exact fun {s} _ => h.create s rfl
  · intro block _ g trace stype _ hg _ _
    exact (hg.same (SameButIds.connecting g _).idsKept).create _ rfl
  · exact fun {e' done} he hdone => h.session hpatient he hdone

theorem IdentityOk.init : IdentityOk (State.init, []) where
  held _ _ _ h := by cases h
  tag _ h := absurd rfl h
  gKey := by decide
  temp := rfl

/-! ## Whole runs -/

/-- The tag of a session with a server's identity. -/
theorem IdentityOk.forwarded (h : IdentityOk (g, trace)) (hauth : Authenticated (g, trace) s)
    {utag : Nat} (hid : (g.identify s).2 = some utag) :
    ∃ id, Answered s trace id ∧ utag = toUnsigned id := by
  obtain ⟨-, htag⟩ := identify_some hid
  unfold Authenticated at hauth
  split at hauth
  · rename_i login id hlast
    obtain ⟨hcurrent, hanswered⟩ := h.held s login id hlast
    refine ⟨id, hanswered, ?_⟩
    cases login with
    | guest =>
      change (g.session s).gid = toUnsigned id at hcurrent
      rw [htag, hcurrent, if_pos hauth.1]
    | user =>
      change (g.session s).uid = toUnsigned id at hcurrent
      have hgid : (g.session s).gid = 0 := hauth.2 rfl
      rw [htag, if_neg (by simp [hgid]), hcurrent]
  · cases hauth

theorem IdentityOk.genuine (h : IdentityOk (g, trace)) {e : BlockEvent}
    (hpatient : Patient pm (g, trace) e) : Genuine pm (g, trace) e := by
  cases e with
  | command s cmd =>
    intro raw g' sent hhead hclient hguest huser hstep utag server cmd' hsent
    obtain ⟨done, hdone, heq⟩ := Option.map_eq_some_iff.mp hstep
    cases heq
    obtain ⟨a, ha, heq⟩ := List.mem_map.mp hsent
    cases heq
    obtain ⟨g', acts⟩ := done
    generalize hr : (g', acts) = r at hdone
    cases step_cases hdone with
    | short =>
      cases hr
      cases ha
    | unserved =>
      cases hr
      cases ha
    | server _ _ _ _ _ _ hserver _ => exact absurd hclient hserver
    | client _ _ raw' r _ hhead' hserved _ hto =>
      rw [hhead, Option.some.injEq] at hhead'
      subst hhead' hr
      generalize hr : (g', acts) = r at hto
      cases hto with
      | ignored =>
        cases hr
        cases ha
      | first login _ _ htype _ => cases login <;> contradiction
      | again login _ _ htype _ => cases login <;> contradiction
      | identified link utag hserver _ hid =>
        cases hr
        rw [List.mem_singleton, Act.sendRawData.injEq] at ha
        have hforward : Forwarded g s raw :=
          ⟨hclient, hguest, huser, by rw [hserver]; rfl, (identify_some hid).1⟩
        obtain ⟨id, hanswered, rfl⟩ := h.forwarded ((hpatient raw hhead hserved).1 hforward) hid
        obtain ⟨hlen, hraw⟩ := decodeMsgHead_rawCmd hhead
        rw [← hraw] at hlen
        refine ⟨id, hanswered, ?_⟩
        rw [ha.2, ← hraw]
        exact setTag_retagged hlen (toUnsigned id)
  | accept _ | timer _ | connected _ _ | lost _ | destroy _ => trivial

end Ids

/-- **Identities.** In every run in which clients wait for a successful
answer, and no answer comes too late, what is forwarded carries the id of the
last one that the session was given. -/
theorem identities (pm : ProtocolManager LuaBody) (events : List BlockEvent)
    (hpatient : Along (blockStep pm) (Patient pm) (State.init, []) events) :
    Along (blockStep pm) (Genuine pm) (State.init, []) events := by
  refine Along.of_invariant (I := IdentityOk) ?_ ?_ IdentityOk.init hpatient
  · exact fun c e c' hok hp hrecord => hok.record hp hrecord
  · rintro ⟨g, trace⟩ e hok hp
    exact hok.genuine hp

/-- Block 0 is the server for type 1, and two clients connect, in 2 and 3. -/
def twoBlocks : List BlockEvent :=
  [.timer fun stype => stype - 1, .connected 0 false, .accept 2, .accept 3]

/-- A guest who waits for the answer is forwarded under its id. -/
theorem identities_guest : Along (blockStep sampleProto) (Genuine sampleProto) (State.init, [])
    (twoBlocks ++ [.command 2 (head 1 1 0), .command 0 (head 1 2 1 ++ guestAnswer),
      .command 2 (head 1 5 0)]) := by
  refine identities sampleProto _ ?_
  refine .cons trivial rfl (.cons trivial rfl (.cons trivial rfl (.cons trivial rfl ?_)))
  refine .cons ?_ rfl (.cons ?_ rfl (.cons ?_ rfl trivial))
  · rintro raw hraw -
    cases hraw
    exact ⟨fun hforward => absurd rfl hforward.2.1, fun _ _ _ _ _ hserver => absurd rfl hserver⟩
  · rintro raw hraw -
    cases hraw
    refine ⟨fun hforward => absurd hforward.1 (by decide), ?_⟩
    rintro login client_s body info id - - hholds - -
    cases hholds
    exact ⟨by decide, rfl⟩
  · rintro raw hraw -
    cases hraw
    refine ⟨fun _ => ?_, fun _ _ _ _ _ hserver => absurd rfl hserver⟩
    exact (⟨by decide, fun h => by cases h⟩ : toUnsigned 77 ≠ 0 ∧ (Login.guest = .user → _))

/-- A guest who does not is forwarded under the tag of the request. -/
theorem identities_early :
    ¬ ∀ (pm : ProtocolManager LuaBody) (events : List BlockEvent),
        Along (blockStep pm) (Genuine pm) (State.init, []) events := by
  intro hall
  have hmap : (blockRun sampleProto (twoBlocks ++ [.command 2 (head 1 1 0)])).map (fun r =>
      ((r.1.session 2).as_client, r.2,
        (blockStep sampleProto r.1 (.command 2 (head 1 5 0))).map (·.2)))
      = some (0, [.created 0, .created 1, .created 2, .created 3, .did 0 (.alloction 2 1),
          .did 0 (.sendRawData 0 (head 1 1 1))],
        some [.did 0 (.sendRawData 0 (head 1 5 1))]) := by
    decide
  obtain ⟨⟨g, trace⟩, hrun, hobs⟩ := Option.map_eq_some_iff.mp hmap
  simp only [Prod.mk.injEq] at hobs
  obtain ⟨hclient, htrace, hsent⟩ := hobs
  obtain ⟨⟨g', sent⟩, hstep, heq⟩ := Option.map_eq_some_iff.mp hsent
  change sent = [.did 0 (.sendRawData 0 (head 1 5 1))] at heq
  subst heq
  have halong := hall sampleProto ((twoBlocks ++ [BlockEvent.command 2 (head 1 1 0)]) ++
    BlockEvent.command 2 (head 1 5 0) :: [])
  obtain ⟨id, hanswered, -⟩ := halong.next hrun _ g' _ rfl hclient (by decide) (by decide) hstep
    0 0 _ List.mem_cons_self
  -- no login has been answered
  obtain ⟨before, utag, login, after, heq, -⟩ := hanswered
  have hmem :
      .did utag (.loggedIn login 2 id) ∈ before ++ .did utag (.loggedIn login 2 id) :: after :=
    List.mem_append_right _ List.mem_cons_self
  rw [← heq, htrace] at hmem
  simp at hmem

/-- A guest logs in after its session has been closed, and the answer comes
when another client has the block. -/
def lateLogin : List BlockEvent :=
  [.timer fun stype => stype - 1, .connected 0 false, .accept 2, .lost 2, .command 2 (head 1 1 0),
    .destroy 2, .accept 2, .command 0 (head 1 2 1 ++ guestAnswer), .command 2 (head 1 5 0)]

example : (blockRun sampleProto lateLogin).map (fun r => r.2.getLast?) =
    some (some (.did 0 (.sendRawData 0 (head 1 5 77)))) := by decide

end LibuvServer.Gateway
