import LibuvServer.Gateway.Steps

/-!
# The tables of the gateway

Who is entered in them, and how a closed session leaves them.
-/

namespace LibuvServer.Gateway

open LibuvServer.Lib LibuvServer.Netbus LibuvServer.Mylua State

/-- A client table has an entry for the session. -/
def Entered (g : State) (s : SessId) : Prop :=
  (∃ t, g.client_temp t = some s) ∨ ∃ (login : Login) (k : Int), login.table g k = some s

/-- A session whose connection is open and being read. -/
def Live (x : Session) : Prop := x.stage = .reading ∧ x.isShotdown = false

/-- The life of every session is the same in `g` and `g'`. -/
structure LifeKept (g g' : State) : Prop where
  created : g'.created = g.created
  as_client : ∀ x, (g'.session x).as_client = (g.session x).as_client
  stage : ∀ x, (g'.session x).stage = (g.session x).stage
  isShotdown : ∀ x, (g'.session x).isShotdown = (g.session x).isShotdown
  server : g'.sType2Session = g.sType2Session

section Entries

variable {g g' g₁ : State} {s x : SessId}

theorem State.Kept.entered (h : Kept g g') (hx : Entered g' x) : Entered g x := by
  rcases hx with ⟨t, ht⟩ | ⟨login, k, hk⟩
  · exact .inl ⟨t, h.temp t x ht⟩
  · exact .inr ⟨login, k, h.table login k x hk⟩

/-- An entry written into a table. -/
theorem update_some_eq_some {κ : Type} [DecidableEq κ] {t : κ → Option SessId} {k k' : κ}
    (h : Function.update t k (some s) k' = some x) : t k' = some x ∨ x = s := by
  by_cases hk : k' = k
  · subst hk
    rw [Function.update_self, Option.some.injEq] at h
    exact .inr h.symm
  · rw [Function.update_of_ne hk] at h
    exact .inl h

theorem entered_temp {t : Nat}
    (hx : Entered { g with client_temp := Function.update g.client_temp t (some s) } x) :
    Entered g x ∨ x = s := by
  rcases hx with ⟨t', ht⟩ | ⟨login, k, hk⟩
  · exact (update_some_eq_some ht).imp_left fun hold => .inl ⟨t', hold⟩
  · exact .inl (.inr ⟨login, k, by cases login <;> exact hk⟩)

theorem setTable_eq_some {login login' : Login} {id k : Int}
    (h : login'.table (login.setTable g id (some s)) k = some x) :
    (login' = login ∧ k = id ∧ x = s) ∨ login'.table g k = some x := by
  have hentry : ∀ {t : Int → Option SessId}, Function.update t id (some s) k = some x →
      (k = id ∧ x = s) ∨ t k = some x := by
    intro t ht
    by_cases hk : k = id
    · rw [hk, Function.update_self, Option.some.injEq] at ht
      exact .inl ⟨hk, ht.symm⟩
    · rw [Function.update_of_ne hk] at ht
      exact .inr ht
  cases login <;> cases login'
  · exact (hentry h).imp_left fun heq => ⟨rfl, heq⟩
  · exact .inr h
  · exact .inr h
  · exact (hentry h).imp_left fun heq => ⟨rfl, heq⟩

theorem entered_setTable (login : Login) {id : Int}
    (hx : Entered (login.setTable g id (some s)) x) : Entered g x ∨ x = s := by
  rcases hx with ⟨t, ht⟩ | ⟨login', k, hk⟩
  · exact .inl (.inl ⟨t, by cases login <;> exact ht⟩)
  · rcases setTable_eq_some hk with ⟨-, -, hs⟩ | hold
    · exact .inr hs
    · exact .inl (.inr ⟨login', k, hold⟩)

/-- A session that has logged in. -/
theorem entered_loggedIn {login : Login} {id : Int}
    (hx : Entered ((login.setTable g id (some s)).modify s (login.setId id)) x) :
    Entered g x ∨ x = s := by
  have hset : Entered (login.setTable g id (some s)) x := by
    rcases hx with ⟨t, ht⟩ | ⟨login', k, hk⟩
    · exact .inl ⟨t, ht⟩
    · exact .inr ⟨login', k, by cases login' <;> exact hk⟩
  exact entered_setTable login hset

theorem entered_identify (hx : Entered (g.identify s).1 x) : Entered g x ∨ x = s := by
  unfold State.identify at hx
  simp only at hx
  split at hx
  · rcases entered_setTable .guest hx with hold | hs
    · split at hold
      · exact entered_setTable .user hold
      · exact .inl hold
    · exact .inr hs
  · split at hx
    · exact entered_setTable .user hx
    · exact .inl hx

theorem setTable_self (g : State) (login : Login) (id : Int) (entry : Option SessId) :
    login.table (login.setTable g id entry) id = entry := by
  cases login <;> exact Function.update_self ..

theorem LifeKept.live (h : LifeKept g g') (hlive : Live (g.session x)) : Live (g'.session x) :=
  ⟨(h.stage x).trans hlive.1, (h.isShotdown x).trans hlive.2⟩

theorem LifeKept.modify (g : State) (s : SessId) (f : Session → Session)
    (hclient : ∀ y, (f y).as_client = y.as_client) (hstage : ∀ y, (f y).stage = y.stage)
    (hshut : ∀ y, (f y).isShotdown = y.isShotdown) : LifeKept g (g.modify s f) where
  created := rfl
  as_client x := session_modify_field Session.as_client g s x f hclient
  stage x := session_modify_field Session.stage g s x f hstage
  isShotdown x := session_modify_field Session.isShotdown g s x f hshut
  server := rfl

theorem State.SameButIds.lifeKept (h : SameButIds g g') : LifeKept g g' where
  created := h.created
  as_client x := by rw [h.session]
  stage x := by rw [h.session]
  isShotdown x := by rw [h.session]
  server := h.sType2Session

theorem LifeKept.refl (g : State) : LifeKept g g :=
  ⟨rfl, fun _ => rfl, fun _ => rfl, fun _ => rfl, rfl⟩

theorem LifeKept.oldTag (g : State) (s : SessId) : LifeKept g (g.oldTag s) :=
  ⟨rfl, fun _ => rfl, fun _ => rfl, fun _ => rfl, rfl⟩

theorem LifeKept.taken (g : State) (utag : Nat) : LifeKept g (g.taken utag) :=
  ⟨rfl, fun _ => rfl, fun _ => rfl, fun _ => rfl, rfl⟩

theorem LifeKept.trans (h : LifeKept g g₁) (h' : LifeKept g₁ g') : LifeKept g g' where
  created := h'.created.trans h.created
  as_client x := (h'.as_client x).trans (h.as_client x)
  stage x := (h'.stage x).trans (h.stage x)
  isShotdown x := (h'.isShotdown x).trans (h.isShotdown x)
  server := h'.server.trans h.server

theorem LifeKept.loggedIn (g : State) (login : Login) (id : Int) (s : SessId) :
    LifeKept g ((login.setTable g id (some s)).modify s (login.setId id)) := by
  refine (SameButIds.setTable g login id (some s)).lifeKept.trans (LifeKept.modify _ s _ ?_ ?_ ?_)
  all_goals exact fun _ => by cases login <;> rfl

theorem LifeKept.newTag (g : State) (login : Login) (s : SessId) :
    LifeKept g (g.newTag login s) := by
  have hmodify := LifeKept.modify ({ g with gKey := g.gKey + 1 } : State) s
    (fun x => login.setId g.gKey (x.setTag g.gKey)) (fun _ => by cases login <;> rfl)
    (fun _ => by cases login <;> rfl) (fun _ => by cases login <;> rfl)
  exact ⟨rfl, hmodify.as_client, hmodify.stage, hmodify.isShotdown, rfl⟩

theorem not_live_of_connecting {k : Nat} (hs : (g.session s).stage = .connecting k) :
    ¬ Live (g.session s) := by
  rintro ⟨hreading, -⟩
  rw [hs] at hreading
  cases hreading

end Entries

/-! ## Closing -/

section Closing

variable {g g' : State} {s x : SessId}

theorem leaveTemp_isShotdown (g : State) (s x : SessId) :
    ((g.leaveTemp s).session x).isShotdown = (g.session x).isShotdown := by
  unfold State.leaveTemp
  simp only
  split
  · exact session_modify_field Session.isShotdown _ s x _ fun _ => rfl
  · rfl

theorem gw_disc_session_isShotdown (g : State) (s : SessId) (stype : Nat) (x : SessId) :
    ((g.gw_disc_session s stype).1.session x).isShotdown = (g.session x).isShotdown := by
  unfold State.gw_disc_session
  split
  · unfold State.leaveServer
    split <;> rfl
  · rw [← leaveTemp_isShotdown g s x]
    simp only [State.leaveUid]
    split <;> rfl

theorem discAll_isShotdown (g : State) (s : SessId) (stypes : List Nat) (x : SessId) :
    ((g.discAll s stypes).1.session x).isShotdown = (g.session x).isShotdown := by
  induction stypes generalizing g with
  | nil => rfl
  | cons stype stypes ih => exact (ih _).trans (gw_disc_session_isShotdown g s stype x)

/-- **Closing marks the session** and no other. -/
theorem close_isShotdown (g : State) (s x : SessId) :
    ((g.close s).1.session x).isShotdown = (decide (x = s) || (g.session x).isShotdown) := by
  unfold State.close
  by_cases hshut : (g.session s).isShotdown = true
  · rw [if_pos hshut]
    by_cases hx : x = s
    · subst hx
      simp [hshut]
    · simp [hx]
  · rw [if_neg hshut]
    by_cases hx : x = s
    · subst hx
      simp
    · simp only [session_modify_of_ne _ _ hx, discAll_isShotdown, decide_eq_false hx,
        Bool.false_or]

/-- The types the gateway is told a closed session under. -/
theorem sessionDisconnect_types :
    (ServiceManager.sessionDisconnect gwServices).map (·.2) = [1, 2] := by
  rfl

/-- What the first callback takes out stays out. -/
theorem close_kept (hshut : (g.session s).isShotdown = false) :
    Kept (g.gw_disc_session s 1).1 (g.close s).1 := by
  unfold State.close
  rw [sessionDisconnect_types, if_neg (by simp [hshut])]
  simp only
  refine (Kept.discAll (g.gw_disc_session s 1).1 s [2]).trans (Kept.modify _ s _ ?_ ?_ ?_ ?_ ?_)
  · exact fun _ => .inl rfl
  all_goals exact fun _ => rfl

/-- **A closed client** leaves `client_temp` if it was there under its tag. -/
theorem close_temp (hclient : (g.session s).as_client = 0)
    (hshut : (g.session s).isShotdown = false)
    (htag : ∀ t, g.client_temp t = some s → t = (g.session s).utag) (t : Nat) :
    (g.close s).1.client_temp t ≠ some s := by
  intro hclosed
  have hfirst := (close_kept hshut).temp t s hclosed
  rw [State.gw_disc_session, if_neg (by omega)] at hfirst
  have hleft : (g.leaveTemp s).client_temp t = some s := (Kept.leaveUid _ s).temp t s hfirst
  unfold State.leaveTemp at hleft
  simp only at hleft
  split at hleft
  · obtain ⟨hne, hold⟩ := update_none_eq_some hleft
    exact hne (htag t hold)
  · rename_i hno
    rw [htag t hleft] at hleft
    exact hno hleft

/-- **A closed server** leaves `sType2Session`. -/
theorem close_server (hclient : (g.session s).as_client = 1)
    (hshut : (g.session s).isShotdown = false)
    (hserved : ∀ k, g.sType2Session k = some s → k ∈ servers)
    (hone : ∀ k k', g.sType2Session k = some s → g.sType2Session k' = some s → k = k') (k : Nat) :
    (g.close s).1.sType2Session k ≠ some s := by
  intro hclosed
  have hfirst := (close_kept hshut).server k s hclosed
  have hold := (Kept.gw_disc_session g s 1).server k s hfirst
  rw [State.gw_disc_session, if_pos hclient, State.leaveServer] at hfirst
  split at hfirst
  · rename_i k' hfind
    have hk' : g.sType2Session k' = some s := by
      have hsome := List.find?_some hfind
      simpa using hsome
    exact (update_none_eq_some hfirst).1 (hone k k' hold hk')
  · rename_i hnone
    have hall := List.find?_eq_none.mp hnone k (hserved k hold)
    simp only [hold, decide_true, not_true_eq_false] at hall

end Closing

/-! ## What is always true of sessions -/

/-- Sessions are created once; clients are entered in client tables and open
servers in `sType2Session`, each under one type. -/
structure SessionsOk (g : State) : Prop where
  absent : ∀ s, g.created ≤ s → (g.session s).stage = .absent
  kind : ∀ s, (g.session s).as_client = 0 ∨ (g.session s).as_client = 1
  entered : ∀ s, Entered g s → s < g.created ∧ (g.session s).as_client = 0
  server : ∀ k s, g.sType2Session k = some s →
    (g.session s).as_client = 1 ∧ Live (g.session s) ∧ k ∈ servers
  one : ∀ k k' s, g.sType2Session k = some s → g.sType2Session k' = some s → k = k'
  connecting : ∀ s k, (g.session s).stage = .connecting k →
    (g.session s).as_client = 1 ∧ (g.session s).isShotdown = false ∧ k ∈ servers

section Sessions

variable {g g' : State} {s x : SessId}

theorem SessionsOk.lt_created (h : SessionsOk g) (hs : (g.session s).stage ≠ .absent) :
    s < g.created := by
  by_contra hle
  exact hs (h.absent s (Nat.le_of_not_lt hle))

theorem SessionsOk.ne_created (h : SessionsOk g) (hx : Live (g.session x)) : x ≠ g.created :=
  Nat.ne_of_lt (h.lt_created (by simp [hx.1]))

/-- **Entering a client** keeps the sessions. -/
theorem SessionsOk.enter (h : SessionsOk g) (hk : LifeKept g g')
    (hentered : ∀ x, Entered g' x →
      Entered g x ∨ (x < g.created ∧ (g.session x).as_client = 0)) : SessionsOk g' where
  absent x hx := by
    rw [hk.created] at hx
    exact (hk.stage x).trans (h.absent x hx)
  kind x := by
    rw [hk.as_client]
    exact h.kind x
  entered x hx := by
    rw [hk.created, hk.as_client]
    exact (hentered x hx).elim (h.entered x) fun hnew => hnew
  server k x hx := by
    rw [hk.server] at hx
    rw [hk.as_client]
    obtain ⟨hclient, hlive, hserved⟩ := h.server k x hx
    exact ⟨hclient, hk.live hlive, hserved⟩
  one k k' x hx hx' := by
    rw [hk.server] at hx hx'
    exact h.one k k' x hx hx'
  connecting x k hx := by
    rw [hk.stage] at hx
    rw [hk.as_client, hk.isShotdown]
    exact h.connecting x k hx

/-- **Closing a session** keeps the sessions. -/
theorem SessionsOk.close (h : SessionsOk g) (hs : ∀ k, (g.session s).stage ≠ .connecting k) :
    SessionsOk (g.close s).1 := by
  have hkept := Kept.close g s
  have hshut : ∀ x, x ≠ s →
      ((g.close s).1.session x).isShotdown = (g.session x).isShotdown := by
    intro x hx
    rw [close_isShotdown, decide_eq_false hx, Bool.false_or]
  refine ⟨?_, ?_, ?_, ?_, ?_, ?_⟩
  · intro x hx
    rw [hkept.created] at hx
    exact (hkept.stage x).trans (h.absent x hx)
  · intro x
    rw [hkept.as_client]
    exact h.kind x
  · intro x hx
    rw [hkept.created, hkept.as_client]
    exact h.entered x (hkept.entered hx)
  · intro k x hx
    obtain ⟨hclient, hlive, hserved⟩ := h.server k x (hkept.server k x hx)
    have hne : x ≠ s := by
      rintro rfl
      exact close_server hclient hlive.2 (fun k hk => (h.server k x hk).2.2)
        (fun k k' => h.one k k' x) k hx
    rw [hkept.as_client]
    exact ⟨hclient, ⟨(hkept.stage x).trans hlive.1, (hshut x hne).trans hlive.2⟩, hserved⟩
  · intro k k' x hx hx'
    exact h.one k k' x (hkept.server k x hx) (hkept.server k' x hx')
  · intro x k hx
    rw [hkept.stage] at hx
    have hne : x ≠ s := by
      rintro rfl
      exact hs k hx
    rw [hkept.as_client, hshut x hne]
    exact h.connecting x k hx

/-- A new session is in no table. -/
theorem SessionsOk.create (h : SessionsOk g) {new : Session}
    (hkind : new.as_client = 0 ∨ new.as_client = 1)
    (hconnecting : ∀ k, new.stage = .connecting k →
      new.as_client = 1 ∧ new.isShotdown = false ∧ k ∈ servers) : SessionsOk (g.create new) := by
  refine ⟨?_, ?_, ?_, ?_, h.one, ?_⟩
  · intro x hx
    have hlt : g.created < x := hx
    rw [session_create_of_ne g new (Nat.ne_of_gt hlt)]
    exact h.absent x (Nat.le_of_lt hlt)
  · intro x
    by_cases hx : x = g.created
    · rw [hx, session_create_same]
      exact hkind
    · rw [session_create_of_ne g new hx]
      exact h.kind x
  · intro x hx
    obtain ⟨hlt, hclient⟩ := h.entered x hx
    rw [session_create_of_ne g new (Nat.ne_of_lt hlt)]
    exact ⟨Nat.lt_succ_of_lt hlt, hclient⟩
  · intro k x hx
    have hserver := h.server k x hx
    rw [session_create_of_ne g new (h.ne_created hserver.2.1)]
    exact hserver
  · intro x k hx
    by_cases hcreated : x = g.created
    · rw [hcreated, session_create_same] at hx ⊢
      exact hconnecting k hx
    · rw [session_create_of_ne g new hcreated] at hx ⊢
      exact h.connecting x k hx

/-- A session that is not live changes its stage. -/
theorem SessionsOk.modify (h : SessionsOk g) (hs : ¬ Live (g.session s))
    (hstage : (g.session s).stage ≠ .absent) (f : Session → Session)
    (hclient : ∀ y, (f y).as_client = y.as_client)
    (hnew : ∀ y k, (f y).stage ≠ .connecting k) : SessionsOk (g.modify s f) := by
  refine ⟨?_, ?_, ?_, ?_, h.one, ?_⟩
  · intro x hx
    have hne : x ≠ s := by
      rintro rfl
      exact hstage (h.absent x hx)
    rw [session_modify_of_ne g f hne]
    exact h.absent x hx
  · intro x
    rw [session_modify_field Session.as_client g s x f hclient]
    exact h.kind x
  · intro x hx
    rw [session_modify_field Session.as_client g s x f hclient]
    exact h.entered x hx
  · intro k x hx
    have hold := h.server k x hx
    have hne : x ≠ s := by
      rintro rfl
      exact hs hold.2.1
    rw [session_modify_of_ne g f hne]
    exact hold
  · intro x k hx
    by_cases hne : x = s
    · rw [hne, session_modify_same] at hx
      exact absurd hx (hnew _ k)
    · rw [session_modify_of_ne g f hne] at hx ⊢
      exact h.connecting x k hx

/-- A session that is being connected is in no table yet. -/
theorem SessionsOk.unused (h : SessionsOk g) {k : Nat} (hs : (g.session s).stage = .connecting k)
    (k' : Nat) : g.sType2Session k' ≠ some s :=
  fun hk' => not_live_of_connecting hs (h.server k' s hk').2.1

/-- A server that is connected. -/
theorem SessionsOk.opened (h : SessionsOk g) {stype : Nat}
    (hs : (g.session s).stage = .connecting stype) : SessionsOk (g.opened stype s) := by
  obtain ⟨hclient, hopen, hserved⟩ := h.connecting s stype hs
  have hread := h.modify (not_live_of_connecting hs) (by simp [hs])
    (fun x => { x with stage := .reading }) (fun _ => rfl) (fun _ _ => by simp)
  have hcases : ∀ k x, (g.opened stype s).sType2Session k = some x →
      (k = stype ∧ x = s) ∨ g.sType2Session k = some x := by
    intro k x hx
    change Function.update g.sType2Session stype (some s) k = some x at hx
    by_cases hk : k = stype
    · subst hk
      rw [Function.update_self, Option.some.injEq] at hx
      exact .inl ⟨rfl, hx.symm⟩
    · rw [Function.update_of_ne hk] at hx
      exact .inr hx
  refine ⟨hread.absent, hread.kind, hread.entered, ?_, ?_, hread.connecting⟩
  · intro k x hx
    rcases hcases k x hx with ⟨rfl, rfl⟩ | hold
    · rw [session_opened_same]
      exact ⟨hclient, ⟨rfl, hopen⟩, hserved⟩
    · exact hread.server k x hold
  · intro k k' x hx hx'
    rcases hcases k x hx with ⟨rfl, rfl⟩ | hold <;>
      rcases hcases k' x hx' with ⟨rfl, hsame⟩ | hold'
    · rfl
    · exact absurd hold' (h.unused hs k')
    · subst hsame
      exact absurd hold (h.unused hs k)
    · exact h.one k k' x hold hold'

/-- An attempt to connect that has failed. -/
theorem SessionsOk.refused (h : SessionsOk g) {stype : Nat}
    (hs : (g.session s).stage = .connecting stype) : SessionsOk (g.refused stype s) := by
  have hmodify := h.modify (not_live_of_connecting hs) (by simp [hs])
    (fun x => { x with stage := .failed }) (fun _ => rfl) (fun _ _ => by simp)
  exact ⟨hmodify.absent, hmodify.kind, hmodify.entered, hmodify.server, hmodify.one,
    hmodify.connecting⟩

theorem SessionsOk.checkServer (h : SessionsOk g) {stype : Nat} (hserved : stype ∈ servers) :
    SessionsOk (g.checkServer stype) := by
  unfold State.checkServer
  split
  · have hdo : SessionsOk { g with do_connecting := Function.update g.do_connecting stype true } :=
      ⟨h.absent, h.kind, h.entered, h.server, h.one, h.connecting⟩
    refine hdo.create (.inr rfl) fun k hk => ?_
    cases hk
    exact ⟨rfl, rfl, hserved⟩
  · exact h

end Sessions

end LibuvServer.Gateway
