import LibuvServer.Deployment.LoginService
import Mathlib.Data.Multiset.Filter
import Mathlib.Tactic.Common

/-!
# Answers to clients

Tags tie both ends together. The gateway asks for a client under a tag it
assigned to that client only, the auth service answers under the same tag, and
the gateway passes an answer on to the client its tag was assigned to. So a
client is given no more answers than it sent guest logins.
-/

namespace LibuvServer.Deployment

open LibuvServer.Lib LibuvServer.Netbus LibuvServer.Mylua
open LibuvServer.Gateway (SessId Assigned TagsOk tags)
open LibuvServer.Gateway.State (tagged)

/-! ## What is counted -/

/-- What the gateway does, all in order. -/
def acts (trace : List Entry) : List Gateway.Act :=
  trace.filterMap fun
    | .gateway a | .answer _ a => some a
    | .auth _ => none

/-- The sessions answers are passed on to. -/
def answered (trace : List Entry) : List SessId :=
  trace.filterMap fun
    | .answer _ a => a.answers
    | .gateway _ | .auth _ => none

/-- The session sends a guest login. -/
def asksGuest (s : SessId) : Event → Bool
  | .gateway (.command s' cmd) => s' = s && cmdCommandType cmd = Gateway.Ctype.eGuestLoginReq
  | _ => false

instance (acts : List Gateway.Act) (t : Nat) (s : SessId) : Decidable (Assigned acts t s) :=
  inferInstanceAs (Decidable (_ ∈ _))

variable {Number : Type} {lib : Libraries Number} {c c' : State} {e : Event}
  {trace more out : List Entry}

theorem acts_append (trace more : List Entry) : acts (trace ++ more) = acts trace ++ acts more :=
  List.filterMap_append

theorem acts_gateway (as : List Gateway.Act) : acts (as.map .gateway) = as := by
  rw [acts, List.filterMap_map]
  exact List.filterMap_some

theorem acts_answer (cmd : Bytes) (as : List Gateway.Act) : acts (as.map (.answer cmd)) = as := by
  rw [acts, List.filterMap_map]
  exact List.filterMap_some

theorem acts_auth (es : List Auth.Entry) : acts (es.map .auth) = [] := by
  rw [acts, List.filterMap_map]
  exact List.filterMap_eq_nil_iff.mpr fun _ _ => rfl

theorem asks_auth (es : List Auth.Entry) : asks (observed lib (es.map .auth)) = 0 := by
  rw [observed_auth, asks, Multiset.coe_eq_zero, List.filterMap_filterMap]
  refine List.filterMap_eq_nil_iff.mpr fun p _ => ?_
  cases Reply.bytes lib p.2 <;> rfl

theorem asks_gateway (as : List Gateway.Act) :
    asks (observed lib (as.map .gateway)) = ↑(as.filterMap asked?) := by
  rw [observed_gateway, asks, List.filterMap_map]
  exact congrArg _ List.filterMap_some

theorem asks_answer (cmd : Bytes) (as : List Gateway.Act) :
    asks (observed lib (as.map (.answer cmd))) = 0 := by
  rw [observed_answer, asks, List.filterMap_map, Multiset.coe_eq_zero]
  exact List.filterMap_eq_nil_iff.mpr fun _ _ => rfl

/-! ## Requests -/

section Requests

variable {g : Gateway.State} {done : Gateway.State × List Gateway.Act} {as : List Gateway.Act}

theorem tagged_asked {cmd : Bytes} {raw : Gateway2Server}
    (hhead : decodeMsgHead cmd cmd.length = some raw) {utag : Nat} (hutag : utag < 2 ^ 32)
    (login : Gateway.Login) (htype : raw.commandType = login.request) (server : SessId) :
    [Gateway.Act.sendRawData server (tagged raw utag)].filterMap asked? = [] ∨
      cmdCommandType cmd = Gateway.Ctype.eGuestLoginReq ∧
        [Gateway.Act.sendRawData server (tagged raw utag)].filterMap asked? = [utag] := by
  obtain ⟨hcmd, htag⟩ := tagged_types hhead utag
  rw [Nat.mod_eq_of_lt hutag] at htag
  have hfields := decodeMsgHead_fields hhead
  rw [List.filterMap_cons, asked?, requestTag, hcmd, htag, htype]
  cases login with
  | guest => exact .inr ⟨hfields.2.2.2.1.symm.trans htype, rfl⟩
  | user => exact .inl rfl

/-- **What the gateway asks** of the auth service: once for a guest login of a
client, under a tag of the client. -/
theorem step_asked {pm : ProtocolManager LuaBody} {e : Gateway.Event} (h : TagsOk (g, as))
    (hstep : Gateway.step pm g e = some done) (hfew : (tags (as ++ done.2)).length < 2 ^ 32)
    (houtside : ∀ s cmd, e = .command s cmd → (g.session s).as_client = 0) :
    done.2.filterMap asked? = [] ∨ ∃ s cmd t, e = .command s cmd ∧
      cmdCommandType cmd = Gateway.Ctype.eGuestLoginReq ∧ done.2.filterMap asked? = [t] ∧
      Assigned (as ++ done.2) t s := by
  have hgKey : g.gKey < 2 ^ 32 ∨ tags done.2 = [] := by
    have hcount : g.gKey = (tags as).length + 1 := h.count
    rw [Gateway.tags_append, List.length_append] at hfew
    cases hnew : tags done.2 with
    | nil => exact .inr rfl
    | cons t ts =>
      rw [hnew, List.length_cons] at hfew
      exact .inl (by omega)
  cases Gateway.step_cases hstep with
  | client s cmd raw _ _ hhead _ _ hr =>
    cases hr with
    | ignored => exact .inl rfl
    | first login server _ htype _ =>
      have hlt : g.gKey < 2 ^ 32 := hgKey.resolve_right (List.cons_ne_nil _ _)
      rcases tagged_asked hhead hlt login htype server with hnone | ⟨hguest, hone⟩
      · exact .inl hnone
      · exact .inr ⟨s, cmd, g.gKey, rfl, hguest, hone, List.mem_append_right _ (.head _)⟩
    | again login server _ htype hutag =>
      have hold := h.utag s hutag
      have hlt : (g.session s).utag < 2 ^ 32 := by
        have hbound : (g.session s).utag < g.gKey := (h.bound _ s hold).2
        have hcount : g.gKey = (tags as).length + 1 := h.count
        rw [Gateway.tags_append, List.length_append] at hfew
        omega
      rcases tagged_asked hhead hlt login htype server with hnone | ⟨hguest, hone⟩
      · exact .inl hnone
      · exact .inr ⟨s, cmd, _, rfl, hguest, hone, hold.append _⟩
    | identified server utag _ hother _ =>
      refine .inl ?_
      have htype := (tagged_types hhead utag).1
      have hno : raw.commandType ≠ Gateway.Ctype.eGuestLoginReq := hother .guest
      show [Gateway.Act.sendRawData server (tagged raw utag)].filterMap asked? = []
      rw [List.filterMap_cons, asked?, requestTag, htype, if_neg hno]
      rfl
  | server s cmd _ _ _ _ hserver _ => exact absurd (houtside s cmd rfl) hserver
  | accept => exact .inl rfl
  | timer => exact .inl rfl
  | connected _ _ _ => exact .inl rfl
  | failed _ _ _ => exact .inl rfl
  | short _ _ => exact .inl rfl
  | unserved _ _ _ _ _ _ => exact .inl rfl
  | lost _ _ => exact .inl rfl
  | destroy _ _ _ => exact .inl rfl

end Requests

/-! ## Whole runs -/

/-- Where the tags of requests and answers come from. -/
structure Counted (lib : Libraries Number) (past : List Event) (c : State × List Entry) : Prop where
  tags : TagsOk (c.1.gateway, acts c.2)
  asked : ∀ t ∈ asks (observed lib c.2), ∃ s, Assigned (acts c.2) t s
  requests : ∀ s, (asks (observed lib c.2)).countP (Assigned (acts c.2) · s) ≤
    past.countP (asksGuest s)
  given : ∀ cmd a s, .answer cmd a ∈ c.2 → a.answers = some s →
    Assigned (acts c.2) (cmdTags cmd) s

section Counted

variable {past : List Event} {done : Gateway.State × List Gateway.Act}

/-- Tags that are assigned already are assigned to nobody else. -/
theorem countP_assigned {as more : List Gateway.Act} {ts : Multiset Nat}
    (hunique : ∀ t s s', Assigned (as ++ more) t s → Assigned (as ++ more) t s' → s = s')
    (hassigned : ∀ t ∈ ts, ∃ s, Assigned as t s) (s : SessId) :
    ts.countP (Assigned (as ++ more) · s) = ts.countP (Assigned as · s) := by
  refine Multiset.countP_congr rfl fun t ht => ?_
  obtain ⟨s', hs'⟩ := hassigned t ht
  refine propext ⟨fun h => ?_, fun h => h.append more⟩
  rwa [hunique t s s' h (hs'.append more)]

/-- Nothing is asked, and the gateway has taken its step. -/
theorem Counted.unasked (h : Counted lib past (c, trace)) (e : Event)
    (htags : TagsOk (c'.gateway, acts (trace ++ out))) (hasks : asks (observed lib out) = 0)
    (hgiven : ∀ cmd a s, .answer cmd a ∈ out → a.answers = some s →
      Assigned (acts (trace ++ out)) (cmdTags cmd) s) :
    Counted lib (past ++ [e]) (c', trace ++ out) := by
  have hall : asks (observed lib (trace ++ out)) = asks (observed lib trace) := by
    rw [observed_append, asks_append, hasks, Multiset.add_zero]
  refine ⟨htags, fun t ht => ?_, fun s => ?_, fun cmd a s hmem hs => ?_⟩
  · rw [hall] at ht
    obtain ⟨s, hs⟩ := h.asked t ht
    exact ⟨s, by rw [acts_append]; exact hs.append _⟩
  · simp only [hall, acts_append] at htags ⊢
    rw [countP_assigned htags.unique h.asked, List.countP_append]
    exact Nat.le_trans (h.requests s) (Nat.le_add_right _ _)
  · rcases List.mem_append.mp hmem with hold | hnew
    · rw [acts_append]
      exact (h.given cmd a s hold hs).append _
    · exact hgiven cmd a s hnew hs

/-- **The gateway takes a step** of its own. -/
theorem Counted.gateway (h : Counted lib past (c, trace)) {ge : Gateway.Event}
    (hevent : e.gateway? = some ge) (hstep : Gateway.step lib.gateway c.gateway ge = some done)
    (houtside : ∀ s cmd, ge = .command s cmd → (c.gateway.session s).as_client = 0)
    (hfew : (Gateway.tags (acts (trace ++ done.2.map .gateway))).length < 2 ^ 32)
    (hc' : c'.gateway = done.1) : Counted lib (past ++ [e]) (c', trace ++ done.2.map .gateway) := by
  rw [acts_append, acts_gateway] at hfew
  have htags : TagsOk (c'.gateway, acts (trace ++ done.2.map .gateway)) := by
    rw [acts_append, acts_gateway, hc']
    exact h.tags.step hstep hfew
  have hgiven : ∀ cmd a s, .answer cmd a ∈ done.2.map Entry.gateway → a.answers = some s →
      Assigned (acts (trace ++ done.2.map .gateway)) (cmdTags cmd) s := by
    intro cmd a s hmem _
    obtain ⟨a', -, ha'⟩ := List.mem_map.mp hmem
    cases ha'
  rcases step_asked h.tags hstep hfew houtside with
    hnone | ⟨s, cmd, t, rfl, hguest, hone, hassigned⟩
  · exact h.unasked e htags (by rw [asks_gateway, hnone]; rfl) hgiven
  · have hasks : asks (observed lib (trace ++ done.2.map .gateway)) =
        asks (observed lib trace) + {t} := by
      rw [observed_append, asks_append, asks_gateway, hone]
      rfl
    have hevent' : ∀ s', asksGuest s' e = decide (s = s') := by
      intro s'
      cases e with
      | gateway ge =>
        cases hevent
        rw [asksGuest, hguest, decide_eq_true rfl, Bool.and_true]
      | connect => cases hevent
      | request => cases hevent
      | answer => cases hevent
      | stray => cases hevent
      | strayAnswer => cases hevent
      | mysqlConnected => cases hevent
      | redisConnected => cases hevent
      | complete => cases hevent
      | cut => cases hevent
      | close => cases hevent
      | destroy => cases hevent
    refine ⟨htags, fun t' ht' => ?_, fun s' => ?_, fun cmd a s hmem hs => ?_⟩
    · rw [hasks] at ht'
      simp only [acts_append, acts_gateway]
      rcases Multiset.mem_add.mp ht' with hold | hnew
      · obtain ⟨s', hs'⟩ := h.asked t' hold
        exact ⟨s', hs'.append _⟩
      · rw [Multiset.mem_singleton.mp hnew]
        exact ⟨s, hassigned⟩
    · simp only [hasks, acts_append, acts_gateway] at htags ⊢
      rw [Multiset.countP_add, countP_assigned htags.unique h.asked, List.countP_append]
      refine Nat.add_le_add (h.requests s') ?_
      rw [List.countP_singleton, hevent']
      -- the tag is the asking session's
      by_cases hs' : s = s'
      · rw [decide_eq_true hs']
        exact Multiset.countP_le_card _ _
      · have hnone : Multiset.countP (Assigned (acts trace ++ done.2) · s') {t} = 0 := by
          refine Multiset.countP_eq_zero.mpr fun t' ht' hassigned' => hs' ?_
          rw [Multiset.mem_singleton.mp ht'] at hassigned'
          exact htags.unique t s s' hassigned hassigned'
        rw [hnone]
        exact Nat.zero_le _
    · rcases List.mem_append.mp hmem with hold | hnew
      · rw [acts_append]
        exact (h.given cmd a s hold hs).append _
      · exact hgiven cmd a s hnew hs

/-- **An answer arrives** at the gateway: it goes to the session of its tag. -/
theorem Counted.answered (h : Counted lib past (c, trace)) {s : SessId} {cmd : Bytes}
    (hlink : IsLink c.gateway s)
    (hstep : Gateway.step lib.gateway c.gateway (.command s cmd) = some done)
    (hfew : (Gateway.tags (acts (trace ++ done.2.map (.answer cmd)))).length < 2 ^ 32)
    (hc' : c'.gateway = done.1) (e : Event) :
    Counted lib (past ++ [e]) (c', trace ++ done.2.map (.answer cmd)) := by
  rw [acts_append, acts_answer] at hfew
  refine h.unasked e ?_ (asks_answer cmd done.2) fun cmd' a client_s hmem hs => ?_
  · rw [acts_append, acts_answer, hc']
    exact h.tags.step hstep hfew
  · obtain ⟨a', ha, heq⟩ := List.mem_map.mp hmem
    cases heq
    rw [acts_append]
    refine Assigned.append ?_ _
    cases Gateway.step_cases hstep with
    | short => cases ha
    | unserved => cases ha
    | client _ _ raw _ _ _ _ hclient _ =>
      have hserver := hlink.2
      omega
    | server _ _ raw _ hhead _ _ hr =>
      rw [← (decodeMsgHead_fields hhead).2.2.2.2.1]
      exact h.tags.temp _ client_s (Gateway.answers_temp hr ha hs)

/-- **Every event.** -/
theorem Counted.moved (h : Counted lib past (c, trace)) (hok : Ok lib (c, trace))
    (hmoved : Moved lib c e c' out) (hframed : c'.torn = false)
    (hfew : (Gateway.tags (acts (trace ++ out))).length < 2 ^ 32) :
    Counted lib (past ++ [e]) (c', trace ++ out) := by
  have hauth : ∀ es : List Auth.Entry, out = es.map .auth → c'.gateway = c.gateway →
      Counted lib (past ++ [e]) (c', trace ++ out) := by
    intro es hout hgateway
    refine h.unasked e ?_ (by rw [hout]; exact asks_auth es) fun cmd a s hmem _ => ?_
    · rw [acts_append, hout, acts_auth, List.append_nil, hgateway]
      exact h.tags
    · rw [hout] at hmem
      obtain ⟨e', -, he'⟩ := List.mem_map.mp hmem
      cases he'
  cases hmoved with
  | gateway ge done stage peer hevent hstep houtside _ =>
    exact h.gateway hevent hstep houtside hfew rfl
  | received a s cmd up msg random done _ _ _ => exact hauth done.2 rfl rfl
  | answered s cmd down done htake hstep =>
    exact h.answered (hok.down _ (takeFirst_mem htake)) hstep hfew rfl e
  | auth ae done _ _ => exact hauth done.2 rfl rfl
  | quiet stage peer up down _ _ _ => exact hauth [] rfl rfl
  | stray c' out _ htorn => cases htorn.symm.trans hframed

theorem Counted.init : Counted lib [] (init, []) where
  tags := TagsOk.init
  asked _ h := by cases h
  requests _ := Nat.le_refl 0
  given _ _ _ h := by cases h

end Counted

end LibuvServer.Deployment
