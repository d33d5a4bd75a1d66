import LibuvServer.Gateway.Steps

/-!
# Login answers

Who gets the answer to a login. Tags are handed out one after another
(`tags`), a session keeps its tag until it is closed, and `client_temp` holds
a session only under a tag that was handed out to it (`TagsOk`); an answer
goes to the session its tag finds there.
-/

namespace LibuvServer.Gateway

open LibuvServer.Lib LibuvServer.Netbus LibuvServer.Mylua State

/-! ## What is said of a run -/

/-- The tags handed out, in order. -/
def tags (acts : List Act) : List Nat :=
  acts.filterMap fun
    | .alloction _ utag => some utag
    | _ => none

/-- `gKey` has assigned the tag to the session. -/
def Assigned (acts : List Act) (utag : Nat) (s : SessId) : Prop := .alloction s utag ∈ acts

/-- The session a login answer is sent to; the notice to a session that is
replaced is no answer. -/
def Act.answers : Act → Option SessId
  | .sendRawData s _ => some s
  | .sendMessage s msg =>
    if msg.body.bind (·.guestError) = some GameError.eReLogin then none else some s
  | _ => none

theorem tags_append (acts out : List Act) : tags (acts ++ out) = tags acts ++ tags out :=
  List.filterMap_append ..

theorem Assigned.append {acts : List Act} {utag : Nat} {s : SessId} (h : Assigned acts utag s)
    (out : List Act) : Assigned (acts ++ out) utag s := List.mem_append_left out h

theorem mem_tags {acts : List Act} {utag : Nat} {s : SessId} (h : Assigned acts utag s) :
    utag ∈ tags acts := List.mem_filterMap.mpr ⟨.alloction s utag, h, rfl⟩

/-- Output without new tags assigns nothing. -/
theorem assigned_append_iff {acts out : List Act} (hout : tags out = []) {utag : Nat} {s : SessId} :
    Assigned (acts ++ out) utag s ↔ Assigned acts utag s := by
  constructor
  · intro h
    rcases List.mem_append.mp h with hold | hnew
    · exact hold
    · have hmem := mem_tags hnew
      rw [hout] at hmem
      cases hmem
  · intro h
    exact h.append out

/-! ## Tags -/

/-- Tags are handed out once and held by the sessions they were given to. -/
structure TagsOk (c : State × List Act) : Prop where
  count : c.1.gKey = (tags c.2).length + 1
  bound : ∀ t s, Assigned c.2 t s → 0 < t ∧ t < c.1.gKey
  unique : ∀ t s s', Assigned c.2 t s → Assigned c.2 t s' → s = s'
  temp : ∀ t s, c.1.client_temp t = some s → Assigned c.2 t s
  utag : ∀ s, (c.1.session s).utag ≠ 0 → Assigned c.2 (c.1.session s).utag s

/-- `g'` knows no tag that `g` does not know. -/
structure TagsKept (g g' : State) : Prop where
  gKey : g'.gKey = g.gKey
  temp : ∀ t s, g'.client_temp t = some s → g.client_temp t = some s
  utag : ∀ s, (g'.session s).utag = (g.session s).utag ∨ (g'.session s).utag = 0

variable {g g' g₁ : State} {s : SessId} {acts out : List Act} {raw : Gateway2Server}
  {pm : ProtocolManager LuaBody}

theorem TagsKept.trans (h : TagsKept g g₁) (h' : TagsKept g₁ g') : TagsKept g g' where
  gKey := h'.gKey.trans h.gKey
  temp t s ht := h.temp t s (h'.temp t s ht)
  utag s := by
    rcases h'.utag s with heq | hzero
    · rw [heq]
      exact h.utag s
    · exact .inr hzero

theorem State.Kept.tagsKept (h : Kept g g') : TagsKept g g' := ⟨h.gKey, h.temp, h.utag⟩

theorem State.SameButIds.tagsKept (h : SameButIds g g') : TagsKept g g' where
  gKey := h.gKey
  temp t s ht := by rwa [h.client_temp] at ht
  utag s := .inl (by rw [h.session])

theorem TagsOk.kept (h : TagsOk (g, acts)) (hk : TagsKept g g') (hout : tags out = []) :
    TagsOk (g', acts ++ out) where
  count := by
    rw [tags_append, hout, List.append_nil]
    exact hk.gKey.trans h.count
  bound t s ht := by
    have hbound := h.bound t s ((assigned_append_iff hout).mp ht)
    rw [← hk.gKey] at hbound
    exact hbound
  unique t s s' ht ht' :=
    h.unique t s s' ((assigned_append_iff hout).mp ht) ((assigned_append_iff hout).mp ht')
  temp t s ht := (h.temp t s (hk.temp t s ht)).append out
  utag s hs := by
    rcases hk.utag s with heq | hzero
    · change (g'.session s).utag ≠ 0 at hs
      change Assigned (acts ++ out) (g'.session s).utag s
      rw [heq] at hs ⊢
      exact (h.utag s hs).append out
    · exact absurd hzero hs

/-! ## Changes that hand out no tag -/

theorem TagsKept.modify (g : State) (s : SessId) (f : Session → Session)
    (hf : ∀ y, (f y).utag = y.utag) : TagsKept g (g.modify s f) :=
  ⟨rfl, fun _ _ h => h, fun x => .inl (session_modify_field Session.utag g s x f hf)⟩

theorem TagsKept.create (g : State) {new : Session} (hnew : new.utag = 0) :
    TagsKept g (g.create new) := by
  refine ⟨rfl, fun _ _ h => h, fun x => ?_⟩
  by_cases hx : x = g.created
  · right
    rw [hx, session_create_same]
    exact hnew
  · left
    rw [session_create_of_ne g new hx]

theorem setId_utag (login : Login) (id : Int) (y : Session) :
    (login.setId id y).utag = y.utag := by
  cases login <;> rfl

theorem TagsKept.replaced {login : Login} {ctype : Nat} {id : Int} {r : State × List Act}
    (h : Replaced g login ctype id s r) : TagsKept g r.1 ∧ tags r.2 = [] := by
  cases h with
  | nobody _ => exact ⟨(Kept.refl g).tagsKept, rfl⟩
  | other old _ _ =>
    exact ⟨(Kept.close g old).tagsKept.trans (SameButIds.setTable _ login id none).tagsKept, rfl⟩

theorem TagsKept.toClient {r : State × List Act} (h : ToClient pm g raw r) :
    TagsKept g r.1 ∧ tags r.2 = [] := by
  have htaken : TagsKept g (g.taken raw.tags) := (Kept.dropTemp g _).tagsKept
  cases h with
  | ignored => exact ⟨(Kept.refl g).tagsKept, rfl⟩
  | unsent _ _ => exact ⟨htaken, rfl⟩
  | passed _ _ _ _ => exact ⟨htaken, rfl⟩
  | success login client_s body info id r _ _ _ _ hr =>
    obtain ⟨hkept, hout⟩ := TagsKept.replaced hr
    refine ⟨?_, ?_⟩
    · have hentered := (SameButIds.setTable r.1 login id (some client_s)).tagsKept
      exact ((htaken.trans hkept).trans hentered).trans
        (TagsKept.modify _ client_s _ (setId_utag login id))
    · rw [tags_append, hout]
      rfl

theorem TagsKept.checkConnected (g : State) : TagsKept g g.checkConnected := by
  have hone : ∀ (g : State) (stype : Nat), TagsKept g (g.checkServer stype) := by
    intro g stype
    unfold State.checkServer
    split
    · exact (SameButIds.connecting g _).tagsKept.trans (TagsKept.create _ rfl)
    · exact (Kept.refl g).tagsKept
  exact (hone g Stype.Auth).trans (hone _ Stype.System)

theorem TagsKept.opened (g : State) (stype : Nat) (s : SessId) :
    TagsKept g (g.opened stype s) :=
  ⟨rfl, fun _ _ h => h, fun x => .inl (session_modify_field Session.utag _ s x _ fun _ => rfl)⟩

theorem TagsKept.refused (g : State) (stype : Nat) (s : SessId) :
    TagsKept g (g.refused stype s) :=
  ⟨rfl, fun _ _ h => h, fun x => .inl (session_modify_field Session.utag _ s x _ fun _ => rfl)⟩

/-! ## Login requests -/

/-- A session that is forwarded under the tag it has. -/
theorem TagsOk.oldTag (h : TagsOk (g, acts)) (htag : (g.session s).utag ≠ 0)
    (hout : tags out = []) : TagsOk (g.oldTag s, acts ++ out) where
  count := by
    rw [tags_append, hout, List.append_nil]
    exact h.count
  bound t x ht := h.bound t x ((assigned_append_iff hout).mp ht)
  unique t x x' ht ht' :=
    h.unique t x x' ((assigned_append_iff hout).mp ht) ((assigned_append_iff hout).mp ht')
  temp t x ht := by
    change Function.update g.client_temp (g.session s).utag (some s) t = some x at ht
    by_cases hx : t = (g.session s).utag
    · subst hx
      rw [Function.update_self, Option.some.injEq] at ht
      subst ht
      exact (h.utag s htag).append out
    · rw [Function.update_of_ne hx] at ht
      exact (h.temp t x ht).append out
  utag x hx := (h.utag x hx).append out

/-- A session that gets the next tag. -/
theorem TagsOk.newTag (h : TagsOk (g, acts)) (login : Login) (hfew : g.gKey < 2 ^ 32)
    {out : List Act} (hout : tags out = []) :
    TagsOk (g.newTag login s, acts ++ .alloction s g.gKey :: out) := by
  have hassigned : ∀ {t x}, Assigned (acts ++ .alloction s g.gKey :: out) t x ↔
      Assigned acts t x ∨ (t = g.gKey ∧ x = s) := by
    intro t x
    unfold Assigned
    rw [List.mem_append, List.mem_cons, Act.alloction.injEq]
    constructor
    · rintro (hold | ⟨hx, ht⟩ | hnew)
      · exact .inl hold
      · exact .inr ⟨ht, hx⟩
      · have hmem := mem_tags hnew
        rw [hout] at hmem
        cases hmem
    · rintro (hold | ⟨ht, hx⟩)
      · exact .inl hold
      · exact .inr (.inl ⟨hx, ht⟩)
  have hpos : 0 < g.gKey := by
    have hcount : g.gKey = (tags acts).length + 1 := h.count
    omega
  refine ⟨?_, ?_, ?_, ?_, ?_⟩
  · have hnew : tags (.alloction s g.gKey :: out) = g.gKey :: tags out := rfl
    rw [tags_append, hnew, hout, List.length_append]
    exact congrArg (· + 1) h.count
  · intro t x ht
    change 0 < t ∧ t < g.gKey + 1
    rcases hassigned.mp ht with hold | ⟨rfl, rfl⟩
    · have hbound := h.bound t x hold
      exact ⟨hbound.1, Nat.lt_succ_of_lt hbound.2⟩
    · exact ⟨hpos, Nat.lt_succ_self _⟩
  · intro t x x' ht ht'
    -- the new tag is larger than every earlier one
    rcases hassigned.mp ht with hold | ⟨rfl, rfl⟩ <;>
      rcases hassigned.mp ht' with hold' | ⟨hgKey, rfl⟩
    · exact h.unique t x x' hold hold'
    · subst hgKey
      exact absurd (h.bound _ x hold).2 (Nat.lt_irrefl _)
    · exact absurd (h.bound _ x' hold').2 (Nat.lt_irrefl _)
    · rfl
  · intro t x ht
    change Function.update g.client_temp g.gKey (some s) t = some x at ht
    by_cases hx : t = g.gKey
    · subst hx
      rw [Function.update_self, Option.some.injEq] at ht
      exact hassigned.mpr (.inr ⟨rfl, ht.symm⟩)
    · rw [Function.update_of_ne hx] at ht
      exact hassigned.mpr (.inl (h.temp t x ht))
  · intro x hx
    by_cases hs : x = s
    · subst hs
      have hutag : ((g.newTag login x).session x).utag = g.gKey := by
        rw [newTag_session_same, setId_utag]
        exact toUnsigned_ofNat hfew
      simp only [hutag]
      exact hassigned.mpr (.inr ⟨rfl, rfl⟩)
    · simp only [newTag_session_of_ne g login hs] at hx ⊢
      exact hassigned.mpr (.inl (h.utag x hx))

/-! ## Whole runs -/

/-- **Every event keeps the tags**, as long as they do not run out. -/
theorem TagsOk.step {e : Event} (h : TagsOk (g, acts)) (hstep : step pm g e = some (g', out))
    (hfew : (tags (acts ++ out)).length < 2 ^ 32) : TagsOk (g', acts ++ out) := by
  have hkept : TagsKept g g' ∧ tags out = [] → TagsOk (g', acts ++ out) :=
    fun hk => h.kept hk.1 hk.2
  cases step_cases hstep with
  | accept => exact hkept ⟨TagsKept.create g rfl, rfl⟩
  | timer => exact hkept ⟨TagsKept.checkConnected g, rfl⟩
  | connected s stype hstage => exact hkept ⟨TagsKept.opened g stype s, rfl⟩
  | failed s stype hstage =>
    exact hkept ⟨(TagsKept.refused g stype s).trans (Kept.close _ s).tagsKept, rfl⟩
  | short s cmd => exact hkept ⟨(Kept.refl g).tagsKept, rfl⟩
  | client s cmd raw r hreading hhead hserved hclient hr =>
    cases hr with
    | ignored => exact hkept ⟨(Kept.refl g).tagsKept, rfl⟩
    | first login server hserver htype htag =>
      have hgKey : g.gKey = (tags acts).length + 1 := h.count
      rw [tags_append, List.length_append] at hfew
      exact h.newTag login (by change _ + 1 < _ at hfew; omega) rfl
    | again login server hserver htype htag => exact h.oldTag htag rfl
    | identified server utag hserver htype hid =>
      exact hkept ⟨(SameButIds.identify g s).tagsKept, rfl⟩
  | server s cmd raw r hhead hserved hserver hr => exact hkept (TagsKept.toClient hr)
  | unserved s cmd raw hreading hhead hserved => exact hkept ⟨(Kept.close g s).tagsKept, rfl⟩
  | lost s hreading => exact hkept ⟨(Kept.close g s).tagsKept, rfl⟩
  | destroy s hshut hstage => exact hkept ⟨TagsKept.modify g s _ fun _ => rfl, rfl⟩

theorem TagsOk.init : TagsOk (State.init, []) where
  count := rfl
  bound _ _ h := by cases h
  unique _ _ _ h := by cases h
  temp _ _ h := by cases h
  utag s hs := absurd rfl hs

theorem run_tagsOk {events : List Event} (hrun : run pm events = some (g, acts))
    (hfew : (tags acts).length < 2 ^ 32) : TagsOk (g, acts) := by
  have hkeep := run_invariant (P := fun _ _ => True)
    (I := fun c : State × List Act => (tags c.2).length < 2 ^ 32 → TagsOk c)
    ?_ (fun _ => TagsOk.init) (along_true _ events) hrun
  · exact hkeep hfew
  · rintro ⟨g, acts⟩ e c' hok - hstep hfew
    obtain ⟨g', out, hone, rfl⟩ := record_eq_some.mp hstep
    refine (hok ?_).step hone hfew
    simp only [tags_append, List.length_append] at hfew ⊢
    omega

/-- A session is sent an answer only when it holds the answer's tag. -/
theorem answers_temp {r : State × List Act} (h : ToClient pm g raw r) {a : Act} (ha : a ∈ r.2)
    (hs : a.answers = some s) : g.client_temp raw.tags = some s := by
  cases h with
  | ignored => cases ha
  | unsent _ _ => cases ha
  | passed _ client_s _ hclient =>
    rw [List.mem_singleton] at ha
    subst ha
    cases hs
    exact hclient
  | success login client_s body info id r _ hclient _ hok hr =>
    rcases List.mem_append.mp ha with hold | hnew
    · -- the notice and the close of the session that is replaced
      cases hr with
      | nobody _ => cases hold
      | other old _ _ =>
        simp only [List.mem_cons, List.not_mem_nil, or_false] at hold
        rcases hold with rfl | rfl
        · cases hs
        · cases hs
    · simp only [List.mem_cons, List.not_mem_nil, or_false] at hnew
      rcases hnew with rfl | rfl
      · cases hs
      · have hanswer : Act.answers (.sendMessage client_s (welcome login raw body info))
            = some client_s := by
          simp only [Act.answers, welcome, Option.bind_some, hok.1]
          rfl
        rw [hanswer] at hs
        cases hs
        exact hclient

/-- **Login answers.** In every run that hands out fewer than 2^32 tags, no
two sessions are assigned the same tag, and whatever a server answers next to
a login with tag `t` is sent to the session `gKey` assigned `t` to. -/
theorem login_answers (pm : ProtocolManager LuaBody) {events : List Event} {g : State}
    {acts : List Act} (hrun : run pm events = some (g, acts))
    (hfew : (tags acts).length < 2 ^ 32) :
    (∀ t s s', Assigned acts t s → Assigned acts t s' → s = s') ∧
    ∀ (login : Login) (server : SessId) (cmd : Bytes) (raw : Gateway2Server) (g' : State)
      (sent : List Act), (g.session server).as_client = 1 →
      decodeMsgHead cmd cmd.length = some raw → raw.commandType = login.answer →
      step pm g (.command server cmd) = some (g', sent) →
      ∀ a ∈ sent, ∀ s, a.answers = some s → Assigned acts raw.tags s := by
  have hok := run_tagsOk hrun hfew
  refine ⟨hok.unique, ?_⟩
  intro _ server cmd raw g' sent hserver hhead _ hstep a ha s hs
  generalize hr : (g', sent) = r at hstep
  cases step_cases hstep with
  | short => cases hr; cases ha
  | unserved => cases hr; cases ha
  | client _ _ raw' _ _ _ _ hclient _ => omega
  | server _ _ raw' _ hhead' _ _ hto =>
    subst hr
    rw [hhead, Option.some.injEq] at hhead'
    subst hhead'
    exact hok.temp _ s (answers_temp hto ha hs)

/-- Both clients log in, and the answer with tag 2 is for session 3. -/
theorem login_answers_two :
    ∃ g acts g' sent,
      run sampleProto (twoClients ++ [.command 2 (head 1 1 0), .command 3 (head 1 1 0)])
        = some (g, acts) ∧
      step sampleProto g (.command 0 (head 1 2 2 ++ guestAnswer)) = some (g', sent) ∧
      sent.filterMap Act.answers = [3] ∧ Assigned acts 2 3 ∧
      ∀ t s s', Assigned acts t s → Assigned acts t s' → s = s' := by
  have hmap : (run sampleProto
      (twoClients ++ [.command 2 (head 1 1 0), .command 3 (head 1 1 0)])).map (fun r =>
        (decide ((tags r.2).length < 2 ^ 32), decide ((r.1.session 0).as_client = 1),
          (step sampleProto r.1 (.command 0 (head 1 2 2 ++ guestAnswer))).map
            fun r' => r'.2.filterMap Act.answers))
      = some (true, true, some [3]) := by
    decide
  obtain ⟨⟨g, acts⟩, hrun, hobs⟩ := Option.map_eq_some_iff.mp hmap
  simp only [Prod.mk.injEq, decide_eq_true_eq] at hobs
  obtain ⟨hfew, hserver, hsent⟩ := hobs
  obtain ⟨⟨g', sent⟩, hstep, hanswers⟩ := Option.map_eq_some_iff.mp hsent
  have hall := login_answers sampleProto hrun hfew
  have hmem : (3 : SessId) ∈ sent.filterMap Act.answers := by
    rw [show sent.filterMap Act.answers = [3] from hanswers]
    simp
  obtain ⟨a, ha, hs⟩ := List.mem_filterMap.mp hmem
  exact ⟨g, acts, g', sent, hrun, hstep, hanswers,
    hall.2 .guest 0 _ _ g' sent hserver rfl rfl hstep a ha 3 hs, hall.1⟩

end LibuvServer.Gateway
