import LibuvServer.Auth.Auth
import Mathlib.Tactic.Common

/-!
# Guest logins

What is seen of one command, whatever else the process does meanwhile
(`Progress`). A guest login queues one select; when that has ended the
command is over, since no statement comes out of `registGuest`: its format
takes five values and gets four.
-/

namespace LibuvServer.Auth

open LibuvServer.Lib LibuvServer.Netbus LibuvServer.Mylua
open LibuvServer.Gateway (SessId)

/-! ## One command -/

/-- The command an entry is about. -/
def Entry.number : Entry → Nat
  | .received n _ _ _ | .queried n _ | .result n _ | .redis n _ | .sent n _ _ | .raised n _ => n

def Entry.result? : Entry → Option QueryRes
  | .result _ res => some res
  | .received _ _ _ _ | .queried _ _ | .redis _ _ | .sent _ _ _ | .raised _ _ => none

def Entry.sent? : Entry → Option (SessId × Reply)
  | .sent _ s reply => some (s, reply)
  | .received _ _ _ _ | .queried _ _ | .result _ _ | .redis _ _ | .raised _ _ => none

/-- What is seen of command `n`. -/
def about (n : Nat) (trace : List Entry) : List Entry := trace.filter (·.number = n)

/-- How the queries of command `n` have ended. -/
def results (n : Nat) (trace : List Entry) : List QueryRes :=
  (about n trace).filterMap Entry.result?

/-- What has been sent for command `n`. -/
def replies (n : Nat) (trace : List Entry) : List (SessId × Reply) :=
  (about n trace).filterMap Entry.sent?

/-- The functions of the queries of command `n`. -/
def State.queriesOf (c : State) (n : Nat) : List (Env → QueryRes → List Act) :=
  (c.queries.filter (·.1 = n)).map (·.2)

/-- A guest login with a body. -/
def Asks (msg : LuaMsg) : Prop :=
  msg.commandType = Gateway.Ctype.eGuestLoginReq ∧ msg.body.isSome

variable {Number : Type} (lib : LuaLib Number)

/-- What a select that ended with `res` comes to. -/
def answer : QueryRes → Option GuestLoginRes
  | .rows (info :: _) =>
    if isFrozen lib info then some ⟨-3, none⟩
    else (toGuestInfo lib info).map fun info => ⟨1, some info⟩
  | .rows [] | .err _ | .success => none

/-- The answer to a command, on its session and under its tag. -/
def replyTo (s : SessId) (msg : LuaMsg) (body : GuestLoginRes) : SessId × Reply :=
  (s, ⟨Gateway.Stype.Auth, msg.commandType + 1, msg.tags, body⟩)

/-! ## The scripts -/

variable {lib}

theorem strFormat_selectGuest (gKey : LuaValue) :
    strFormat lib selectGuest [gKey] =
      some (strBytes
        "select nick , faceImage , status ,vip ,guestId from guest where guest_key = '" ++
        (luaLTolstring gKey ++ strBytes "';")) := by
  have hsplit : selectGuest =
      strBytes "select nick , faceImage , status ,vip ,guestId from guest where guest_key = '" ++
        strBytes "%s" ++ strBytes "';" := by decide +kernel
  rw [hsplit]
  exact strFormat_string (by decide +kernel) (by decide +kernel) gKey

/-- **No guest is ever registered.** -/
theorem strFormat_insertGuest {args : List LuaValue} (h : args.length ≤ 4) :
    strFormat lib insertGuest args = none := by
  have hcount : directives insertGuest = 5 := by decide +kernel
  cases hout : strFormat lib insertGuest args with
  | none => rfl
  | some out =>
    have hle := directives_le hout
    omega

theorem registGuest_connected {gKey : LuaValue} {retFunc : RetFunc GuestRow} {env : Env}
    (h : env.mysql_conn = true) : registGuest lib gKey retFunc env = [] := by
  simp only [registGuest, h, if_true]
  rw [strFormat_insertGuest]
  exact Nat.le_refl 4

/-- The function of a query to redis does nothing, and nothing is sent. -/
theorem setGuestInfo_silent (gid : Bytes) (uinfo : GuestRow) (env : Env) (n : Nat) :
    (setGuestInfo gid uinfo env).filterMap (Act.query n) = [] ∧
      ((setGuestInfo gid uinfo env).map (Act.entry n)).filterMap Entry.sent? = [] := by
  unfold setGuestInfo
  simp only
  split <;> exact ⟨rfl, rfl⟩

/-- What the function of the select does. -/
theorem onSelect_connected {s : SessId} {msg : LuaMsg} {gKey : LuaValue} {env : Env}
    (h : env.mysql_conn = true) (res : QueryRes) (n : Nat) :
    (onSelect (onGuestInfo lib s msg gKey) env res).filterMap (Act.query n) = [] ∧
      ((onSelect (onGuestInfo lib s msg gKey) env res).map (Act.entry n)).filterMap Entry.sent? =
        (answer lib res).toList.map (replyTo s msg) := by
  cases res with
  | err err => exact ⟨rfl, rfl⟩
  | success => exact ⟨rfl, rfl⟩
  | rows ret =>
    cases ret with
    | nil =>
      simp only [onSelect, onGuestInfo, registGuest_connected h, answer]
      exact ⟨rfl, rfl⟩
    | cons info rest =>
      obtain ⟨hquery, hsent⟩ := setGuestInfo_silent info.guestId info env n
      simp only [onSelect, onGuestInfo, answer]
      split
      · exact ⟨rfl, rfl⟩
      · rw [List.filterMap_append, List.map_append, List.filterMap_append, hquery, hsent]
        cases toGuestInfo lib info with
        | none => exact ⟨rfl, rfl⟩
        | some body => exact ⟨rfl, rfl⟩

/-- No script makes up how a query ended. -/
theorem filterMap_result? (n : Nat) (acts : List Act) :
    (acts.map (Act.entry n)).filterMap Entry.result? = [] := by
  rw [List.filterMap_eq_nil_iff]
  intro e he
  obtain ⟨act, -, rfl⟩ := List.mem_map.mp he
  cases act <;> rfl

/-- A guest login queues one query, once MySQL is connected. -/
theorem atRecvCmd_asks {s : SessId} {msg : LuaMsg} {env : Env} (hasks : Asks msg)
    (h : env.mysql_conn = true) :
    ∃ finalsm gKey, atRecvCmd lib s msg env =
      [.mysqlQuery finalsm (onSelect (onGuestInfo lib s msg gKey))] := by
  obtain ⟨htype, hbody⟩ := hasks
  obtain ⟨body, hbody⟩ := Option.isSome_iff_exists.mp hbody
  obtain ⟨finalsm, hfmt⟩ : ∃ finalsm,
      strFormat lib selectGuest [body.get "randkey"] = some finalsm :=
    ⟨_, strFormat_selectGuest _⟩
  refine ⟨finalsm, body.get "randkey", ?_⟩
  rw [atRecvCmd, if_pos htype, guestLogin, hbody]
  simp only [getGuestInfo, h, if_true, hfmt]

/-- Any other command does nothing. -/
theorem atRecvCmd_quiet {s : SessId} {msg : LuaMsg} {env : Env}
    (h : ¬ (Asks msg ∧ env.mysql_conn = true)) : atRecvCmd lib s msg env = [] := by
  unfold atRecvCmd
  split
  · rename_i htype
    rw [guestLogin]
    cases hbody : msg.body with
    | none => rfl
    | some body =>
      have hoff : env.mysql_conn = false := by
        rw [← Bool.not_eq_true]
        exact fun hon => h ⟨⟨htype, by rw [hbody]; rfl⟩, hon⟩
      simp only [getGuestInfo, hoff]
      rfl
  · split <;> rfl

/-! ## The process -/

/-- How far command `n` has come, and everything seen of it. -/
inductive Progress (lib : LuaLib Number) (n : Nat) (c : State × List Entry) : Prop where
  | unseen : c.1.received ≤ n → c.1.queriesOf n = [] → about n c.2 = [] → Progress lib n c
  | quiet {s : SessId} {msg : LuaMsg} {connected : Bool} : n < c.1.received →
      c.1.queriesOf n = [] → ¬ (Asks msg ∧ connected = true) →
      about n c.2 = [.received n s msg connected] → Progress lib n c
  | waiting {s : SessId} {msg : LuaMsg} {finalsm : Bytes} {gKey : LuaValue} : n < c.1.received →
      c.1.mysql_conn = true → c.1.queriesOf n = [onSelect (onGuestInfo lib s msg gKey)] →
      Asks msg → about n c.2 = [.received n s msg true, .queried n finalsm] → Progress lib n c
  | ended {s : SessId} {msg : LuaMsg} {finalsm : Bytes} {gKey : LuaValue} {env : Env}
      {res : QueryRes} : n < c.1.received → c.1.queriesOf n = [] → Asks msg →
      env.mysql_conn = true →
      about n c.2 = .received n s msg true :: .queried n finalsm :: .result n res ::
        (onSelect (onGuestInfo lib s msg gKey) env res).map (Act.entry n) → Progress lib n c

variable {c c' : State × List Entry} {n m : Nat}

@[simp] theorem Act.entry_number (n : Nat) (act : Act) : (act.entry n).number = n := by
  cases act <;> rfl

theorem about_append (n : Nat) (trace more : List Entry) :
    about n (trace ++ more) = about n trace ++ about n more := List.filter_append _ _

theorem about_own {es : List Entry} (h : ∀ e ∈ es, e.number = n) : about n es = es :=
  List.filter_eq_self.mpr fun e he => decide_eq_true (h e he)

theorem about_other {es : List Entry} (h : ∀ e ∈ es, e.number = m) (hne : m ≠ n) :
    about n es = [] :=
  List.filter_eq_nil_iff.mpr fun e he => by simp [h e he, hne]

/-- A command is not touched by what is done for others. -/
theorem Progress.congr (h : Progress lib n c) (hreceived : c.1.received ≤ c'.1.received)
    (hnew : n < c'.1.received → n < c.1.received)
    (hconn : c.1.mysql_conn = true → c'.1.mysql_conn = true)
    (hqueries : c'.1.queriesOf n = c.1.queriesOf n) (habout : about n c'.2 = about n c.2) :
    Progress lib n c' := by
  cases h with
  | unseen hnum hq ha =>
    exact .unseen (by by_contra hc; exact absurd (hnew (by omega)) (by omega))
      (hqueries.trans hq) (habout.trans ha)
  | quiet hnum hq hask ha => exact .quiet (by omega) (hqueries.trans hq) hask (habout.trans ha)
  | waiting hnum hon hq hask ha =>
    exact .waiting (by omega) (hconn hon) (hqueries.trans hq) hask (habout.trans ha)
  | ended hnum hq hask hon ha =>
    exact .ended (by omega) (hqueries.trans hq) hask hon (habout.trans ha)

/-- The queries of a command after a script of command `m`. -/
theorem queriesOf_perform (c : State) (m n : Nat) (acts : List Act) :
    (c.perform m acts).1.queriesOf n =
      c.queriesOf n ++ if m = n then (acts.filterMap (Act.query m)).map (·.2) else [] := by
  have hown : ∀ q ∈ acts.filterMap (Act.query m), q.1 = m := by
    intro q hq
    obtain ⟨act, -, hact⟩ := List.mem_filterMap.mp hq
    cases act <;> cases hact
    rfl
  simp only [State.queriesOf, State.perform, List.filter_append, List.map_append]
  congr 1
  split
  · rename_i heq
    subst heq
    rw [List.filter_eq_self.mpr fun q hq => decide_eq_true (hown q hq)]
  · rename_i hne
    rw [List.filter_eq_nil_iff.mpr fun q hq => by simp [hown q hq, hne]]
    rfl

/-- The entry an event starts with and those of the script are about the
same command. -/
theorem number_perform (c : State) (m : Nat) (acts : List Act) (first : Entry)
    (hfirst : first.number = m) : ∀ e ∈ first :: (c.perform m acts).2, e.number = m := by
  intro e he
  rcases List.mem_cons.mp he with rfl | he
  · exact hfirst
  · obtain ⟨act, -, rfl⟩ := List.mem_map.mp he
    exact act.entry_number m

/-- The queries left when one has completed. -/
theorem queriesOf_eraseIdx {c : State} {i m : Nat} {func : Env → QueryRes → List Act}
    (h : c.queries[i]? = some (m, func)) (n : Nat) :
    (m ≠ n → State.queriesOf { c with queries := c.queries.eraseIdx i } n = c.queriesOf n) ∧
      (∀ f, m = n → c.queriesOf n = [f] →
        f = func ∧ State.queriesOf { c with queries := c.queries.eraseIdx i } n = []) := by
  obtain ⟨hi, hget⟩ := List.getElem?_eq_some_iff.mp h
  have hsplit : c.queries = c.queries.take i ++ (m, func) :: c.queries.drop (i + 1) := by
    rw [← hget, List.getElem_cons_drop, List.take_append_drop]
  have hbefore : c.queriesOf n = ((c.queries.take i).filter (·.1 = n)).map (·.2) ++
      ((if m = n then [func] else []) ++
        ((c.queries.drop (i + 1)).filter (·.1 = n)).map (·.2)) := by
    rw [State.queriesOf, hsplit, List.filter_append, List.filter_cons, List.map_append, ← hsplit]
    split
    · rename_i heq
      rw [if_pos (of_decide_eq_true heq)]
      rfl
    · rename_i hne
      rw [if_neg fun heq => hne (decide_eq_true heq)]
      rfl
  have hafter : State.queriesOf { c with queries := c.queries.eraseIdx i } n =
      ((c.queries.take i).filter (·.1 = n)).map (·.2) ++
        ((c.queries.drop (i + 1)).filter (·.1 = n)).map (·.2) := by
    rw [State.queriesOf, List.eraseIdx_eq_take_drop_succ, List.filter_append, List.map_append]
  refine ⟨fun hne => ?_, fun f heq hone => ?_⟩
  · rw [hafter, hbefore, if_neg hne, List.nil_append]
  · rw [hbefore, if_pos heq] at hone
    rw [hafter]
    generalize ((c.queries.take i).filter (·.1 = n)).map (·.2) = before at hone ⊢
    generalize ((c.queries.drop (i + 1)).filter (·.1 = n)).map (·.2) = behind at hone ⊢
    have hlen := congrArg List.length hone
    simp only [List.length_append, List.length_singleton] at hlen
    have hnil : before = [] := List.eq_nil_of_length_eq_zero (by omega)
    subst hnil
    obtain ⟨rfl, rfl⟩ := List.cons.inj hone
    exact ⟨rfl, rfl⟩

/-- **A command arrives.** -/
theorem Progress.recv (h : Progress lib n c) (s : SessId) (msg : LuaMsg) (random : Int × Int)
    {done : State × List Entry}
    (hdone : done = State.perform { c.1 with received := c.1.received + 1 } c.1.received
      (atRecvCmd lib s msg (c.1.env random))) :
    Progress lib n
      (done.1, c.2 ++ (.received c.1.received s msg c.1.mysql_conn :: done.2)) := by
  subst hdone
  have hqueries := queriesOf_perform { c.1 with received := c.1.received + 1 } c.1.received n
    (atRecvCmd lib s msg (c.1.env random))
  have hnumber := number_perform { c.1 with received := c.1.received + 1 } c.1.received
    (atRecvCmd lib s msg (c.1.env random)) (.received c.1.received s msg c.1.mysql_conn) rfl
  by_cases hn : c.1.received = n
  · -- nothing was seen of the command before
    obtain ⟨hq, ha⟩ : c.1.queriesOf n = [] ∧ about n c.2 = [] := by
      cases h with
      | unseen _ hq ha => exact ⟨hq, ha⟩
      | quiet hnum => omega
      | waiting hnum => omega
      | ended hnum => omega
    rw [if_pos hn] at hqueries
    have hbase : State.queriesOf { c.1 with received := c.1.received + 1 } n = [] := hq
    rw [hbase, List.nil_append] at hqueries
    have habout : about n (.received c.1.received s msg c.1.mysql_conn ::
        (atRecvCmd lib s msg (c.1.env random)).map (Act.entry c.1.received)) =
        .received n s msg c.1.mysql_conn ::
          (atRecvCmd lib s msg (c.1.env random)).map (Act.entry n) := by
      subst hn
      exact about_own hnumber
    have hlt : n < c.1.received + 1 := by omega
    by_cases hask : Asks msg ∧ c.1.mysql_conn = true
    · have hon : (c.1.env random).mysql_conn = true := hask.2
      obtain ⟨finalsm, gKey, hacts⟩ := atRecvCmd_asks hask.1 hon
      rw [hacts] at hqueries habout ⊢
      exact .waiting hlt hask.2 hqueries hask.1
        (by rw [about_append, ha]; exact habout.trans (by rw [hask.2]; rfl))
    · have hacts : atRecvCmd lib s msg (c.1.env random) = [] := atRecvCmd_quiet hask
      rw [hacts] at hqueries habout ⊢
      exact .quiet hlt hqueries hask (by rw [about_append, ha]; exact habout)
  · -- another command
    rw [if_neg hn, List.append_nil] at hqueries
    refine h.congr (Nat.le_succ _) (fun hlt => ?_) id hqueries ?_
    · have hlt : n < c.1.received + 1 := hlt
      omega
    · rw [about_append, about_other hnumber hn, List.append_nil]

/-- **A query completes.** -/
theorem Progress.complete (h : Progress lib n c) {i m : Nat}
    {func : Env → QueryRes → List Act} (hget : c.1.queries[i]? = some (m, func))
    (res : QueryRes) (random : Int × Int) {done : State × List Entry}
    (hdone : done = State.perform { c.1 with queries := c.1.queries.eraseIdx i } m
      (func (c.1.env random) res)) :
    Progress lib n (done.1, c.2 ++ (.result m res :: done.2)) := by
  subst hdone
  have hqueries := queriesOf_perform { c.1 with queries := c.1.queries.eraseIdx i } m n
    (func (c.1.env random) res)
  have hnumber := number_perform { c.1 with queries := c.1.queries.eraseIdx i } m
    (func (c.1.env random) res) (.result m res) rfl
  obtain ⟨hother, hown⟩ := queriesOf_eraseIdx hget n
  by_cases hn : m = n
  · -- only a command that waits has a query
    have hsome : c.1.queriesOf n ≠ [] := by
      intro hnil
      have hmem : (m, func) ∈ c.1.queries.filter (·.1 = n) :=
        List.mem_filter.mpr ⟨List.mem_of_getElem? hget, decide_eq_true hn⟩
      rw [List.map_eq_nil_iff.mp hnil] at hmem
      cases hmem
    cases h with
    | unseen _ hq => exact absurd hq hsome
    | quiet _ hq => exact absurd hq hsome
    | ended _ hq => exact absurd hq hsome
    | @waiting s msg finalsm gKey hnum hon hq hask ha =>
      obtain ⟨rfl, hrest⟩ := hown _ hn hq
      have hon : (c.1.env random).mysql_conn = true := hon
      rw [if_pos hn, hrest, (onSelect_connected hon res m).1] at hqueries
      have habout : about n (c.2 ++ (.result m res ::
          (onSelect (onGuestInfo lib s msg gKey) (c.1.env random) res).map (Act.entry m))) =
          .received n s msg true :: .queried n finalsm :: .result n res ::
            (onSelect (onGuestInfo lib s msg gKey) (c.1.env random) res).map (Act.entry n) := by
        subst hn
        rw [about_append, ha]
        exact congrArg (_ ++ ·) (about_own hnumber)
      exact .ended hnum hqueries hask hon habout
  · -- the query of another command
    rw [if_neg hn, List.append_nil, hother hn] at hqueries
    refine h.congr (Nat.le_refl _) id id hqueries ?_
    rw [about_append, about_other hnumber hn, List.append_nil]

/-- **Every event** leaves every command somewhere on its way. -/
theorem Progress.record (h : Progress lib n c) {e : Event}
    (hrecord : Lib.record (Auth.step lib) c e = some c') : Progress lib n c' := by
  obtain ⟨s, out, hstep, rfl⟩ := record_eq_some.mp hrecord
  cases e with
  | mysqlConnected =>
    cases hstep
    exact h.congr (Nat.le_refl _) id (fun _ => rfl) rfl (by rw [List.append_nil])
  | redisConnected =>
    cases hstep
    exact h.congr (Nat.le_refl _) id id rfl (by rw [List.append_nil])
  | recv s msg random =>
    cases hstep
    exact h.recv s msg random rfl
  | complete i res random =>
    simp only [Auth.step] at hstep
    split at hstep
    · cases hstep
    · rename_i m func hget
      cases hstep
      exact h.complete hget res random rfl

theorem progress_run {events : List Event} (hrun : run lib events = some c) (n : Nat) :
    Progress lib n c :=
  run_invariant (fun _ _ _ h _ hrecord => h.record hrecord)
    (.unseen (Nat.zero_le n) rfl rfl) (along_true _ events) hrun

/-- A query that has not completed is the select of a guest login. -/
theorem outstanding_select (h : ∀ n, Progress lib n c) {i : Nat}
    {func : Env → QueryRes → List Act} (hget : c.1.queries[i]? = some (m, func)) :
    c.1.mysql_conn = true ∧ ∃ s msg gKey, func = onSelect (onGuestInfo lib s msg gKey) := by
  have hmem : func ∈ c.1.queriesOf m := by
    refine List.mem_map.mpr ⟨(m, func), List.mem_filter.mpr ⟨List.mem_of_getElem? hget, ?_⟩, rfl⟩
    exact decide_eq_true rfl
  cases h m with
  | unseen _ hq =>
    rw [hq] at hmem
    cases hmem
  | quiet _ hq =>
    rw [hq] at hmem
    cases hmem
  | ended _ hq =>
    rw [hq] at hmem
    cases hmem
  | @waiting s msg finalsm gKey _ hon hq =>
    rw [hq, List.mem_singleton] at hmem
    exact ⟨hon, s, msg, gKey, hmem⟩

/-! ## Answers -/

/-- The image, the level and the id of a guest are numbers. -/
def Numeric (lib : LuaLib Number) (info : GuestRow) : Prop :=
  (lib.str2num info.faceImage).isSome ∧ (lib.str2num info.vip).isSome ∧
    (lib.str2num info.guestId).isSome

instance (lib : LuaLib Number) (info : GuestRow) : Decidable (Numeric lib info) :=
  inferInstanceAs (Decidable (_ ∧ _ ∧ _))

/-- One answer to command `n`, on its session and under its tag, and no
success without an unfrozen guest. -/
def AnsweredOnce (lib : LuaLib Number) (n : Nat) (s : SessId) (msg : LuaMsg)
    (trace : List Entry) : Prop :=
  ∃ body, replies n trace =
      [(s, ⟨Gateway.Stype.Auth, Gateway.Ctype.eGuestLoginRes, msg.tags, body⟩)] ∧
    (body.guestError = 1 → ∃ info rest, .rows (info :: rest) ∈ results n trace ∧
      isFrozen lib info = false)

/-- There is a key to look for, MySQL is connected, and the select, the one
query there is, finds a guest who is frozen or can be put into a message. -/
def Answerable (lib : LuaLib Number) (msg : LuaMsg) (connected : Bool)
    (ended : List QueryRes) : Prop :=
  msg.body.isSome ∧ connected = true ∧
    ∃ info rest, ended = [.rows (info :: rest)] ∧
      (isFrozen lib info = true ∨ Numeric lib info)

theorem toGuestInfo_isSome {info : GuestRow} (h : isFrozen lib info = false) :
    (toGuestInfo lib info).isSome ↔ Numeric lib info := by
  have hstatus : (lib.str2num info.status).isSome := by
    cases hnum : lib.str2num info.status with
    | none =>
      rw [isFrozen, hnum] at h
      cases h
    | some k => rfl
  obtain ⟨status, hstatus⟩ := Option.isSome_iff_exists.mp hstatus
  unfold toGuestInfo luaLCheckint32 Numeric
  rw [hstatus]
  cases lib.str2num info.faceImage <;> cases lib.str2num info.vip <;>
    cases lib.str2num info.guestId <;> simp

theorem answer_isSome {res : QueryRes} :
    (answer lib res).isSome ↔ ∃ info rest, res = .rows (info :: rest) ∧
      (isFrozen lib info = true ∨ Numeric lib info) := by
  cases res with
  | err err => simp [answer]
  | success => simp [answer]
  | rows ret =>
    cases ret with
    | nil => simp [answer]
    | cons info rest =>
      simp only [answer, QueryRes.rows.injEq, List.cons.injEq]
      cases hfrozen : isFrozen lib info with
      | true =>
        simp only [if_true, Option.isSome_some, true_iff]
        exact ⟨info, rest, ⟨rfl, rfl⟩, .inl hfrozen⟩
      | false =>
        simp only [Bool.false_eq_true, if_false, Option.isSome_map, toGuestInfo_isSome hfrozen]
        constructor
        · exact fun hnum => ⟨info, rest, ⟨rfl, rfl⟩, .inr hnum⟩
        · rintro ⟨_, _, ⟨rfl, rfl⟩, hon | hnum⟩
          · rw [hfrozen] at hon
            cases hon
          · exact hnum

/-- A success is about an unfrozen guest. -/
theorem answer_success {res : QueryRes} {body : GuestLoginRes} (h : answer lib res = some body)
    (hok : body.guestError = 1) :
    ∃ info rest, res = .rows (info :: rest) ∧ isFrozen lib info = false := by
  obtain ⟨info, rest, rfl, -⟩ := answer_isSome.mp (by rw [h]; rfl)
  refine ⟨info, rest, rfl, ?_⟩
  cases hfrozen : isFrozen lib info with
  | true =>
    simp only [answer, hfrozen, if_true, Option.some.injEq] at h
    rw [← h] at hok
    cases hok
  | false => rfl

theorem answerable_iff {msg : LuaMsg} (hbody : msg.body.isSome) {res : QueryRes} :
    Answerable lib msg true [res] ↔ (answer lib res).isSome := by
  rw [answer_isSome]
  constructor
  · rintro ⟨-, -, info, rest, hres, hgood⟩
    exact ⟨info, rest, List.singleton_inj.mp hres, hgood⟩
  · rintro ⟨info, rest, rfl, hgood⟩
    exact ⟨hbody, rfl, info, rest, rfl, hgood⟩

/-- A command whose select has ended is answered as its result says. -/
theorem answeredOnce_iff {s : SessId} {msg : LuaMsg} {trace : List Entry} {res : QueryRes}
    (htype : msg.commandType = Gateway.Ctype.eGuestLoginReq) (hresults : results n trace = [res])
    (hreplies : replies n trace = (answer lib res).toList.map (replyTo s msg)) :
    AnsweredOnce lib n s msg trace ↔ (answer lib res).isSome := by
  rw [AnsweredOnce, hresults, hreplies]
  cases hans : answer lib res with
  | none =>
    constructor
    · rintro ⟨body, hone, -⟩
      cases hone
    · intro hsome
      cases hsome
  | some body =>
    have hctype : msg.commandType + 1 = Gateway.Ctype.eGuestLoginRes := by rw [htype]; rfl
    refine iff_of_true ⟨body, by rw [← hctype]; rfl, fun hok => ?_⟩ rfl
    obtain ⟨info, rest, hres, hfree⟩ := answer_success hans hok
    exact ⟨info, rest, List.mem_singleton.mpr hres.symm, hfree⟩

/-- A command is received once. -/
theorem received_of_mem {s s' : SessId} {msg msg' : LuaMsg} {connected connected' : Bool}
    {finalsm : Bytes} {res : QueryRes} {acts : List Act}
    (h : .received n s msg connected ∈ .received n s' msg' connected' :: .queried n finalsm ::
      .result n res :: acts.map (Act.entry n)) :
    s = s' ∧ msg = msg' ∧ connected = connected' := by
  rcases List.mem_cons.mp h with heq | hrest
  · cases heq
    exact ⟨rfl, rfl, rfl⟩
  · simp only [List.mem_cons, reduceCtorEq, false_or, List.mem_map] at hrest
    obtain ⟨act, -, hact⟩ := hrest
    cases act <;> cases hact

/-- **Guest logins.** A guest login whose queries have completed has been
answered once if and only if its select found a guest it could report. -/
theorem guest_logins {events : List Event} (hrun : run lib events = some c) {s : SessId}
    {msg : LuaMsg} {connected : Bool} (hrequest : .received n s msg connected ∈ c.2)
    (htype : msg.commandType = Gateway.Ctype.eGuestLoginReq) (hdone : c.1.queriesOf n = []) :
    AnsweredOnce lib n s msg c.2 ↔ Answerable lib msg connected (results n c.2) := by
  have hmem : .received n s msg connected ∈ about n c.2 :=
    List.mem_filter.mpr ⟨hrequest, decide_eq_true rfl⟩
  cases progress_run hrun n with
  | unseen _ _ ha =>
    rw [ha] at hmem
    cases hmem
  | waiting _ _ hq =>
    rw [hq] at hdone
    cases hdone
  | quiet _ _ hask ha =>
    -- no query, and no answer
    rw [ha, List.mem_singleton] at hmem
    cases hmem
    constructor
    · rintro ⟨body, hreplies, -⟩
      rw [replies, ha] at hreplies
      cases hreplies
    · rintro ⟨hbody, hon, -⟩
      exact absurd ⟨⟨htype, hbody⟩, hon⟩ hask
  | @ended s' msg' finalsm gKey env res _ _ hask hon ha =>
    rw [ha] at hmem
    obtain ⟨rfl, rfl, rfl⟩ := received_of_mem hmem
    have hresults : results n c.2 = [res] := by
      rw [results, ha]
      exact congrArg (res :: ·) (filterMap_result? n _)
    have hreplies : replies n c.2 = (answer lib res).toList.map (replyTo s msg) := by
      rw [replies, ha]
      exact (onSelect_connected hon res n).2
    rw [answeredOnce_iff htype hresults hreplies, hresults, answerable_iff hask.2]

/-- Numbers in decimal digits. -/
def decimalLib : LuaLib Int where
  str2num s :=
    if s ≠ [] ∧ s.all fun c => 0x30 ≤ c && c ≤ 0x39 then
      some (s.foldl (fun n c => 10 * n + (c.toNat - 0x30 : Nat)) 0)
    else none
  isZero n := n = 0
  toInteger n := some n
  toInt32 n := n

def sampleLogin : LuaMsg :=
  ⟨Gateway.Stype.Auth, Gateway.Ctype.eGuestLoginReq, 7, some (guestLoginReq (strBytes "key"))⟩

/-- The login of the guest in this row. -/
def sampleEvents (ret : List GuestRow) : List Event :=
  [.mysqlConnected, .recv 5 sampleLogin (100000, 1), .complete 0 (.rows ret) (100000, 1)]

def sampleGuest : GuestRow :=
  ⟨strBytes "guest100000", strBytes "12", strBytes "0", strBytes "0", strBytes "77"⟩

/-- A guest who is in the table. -/
theorem guest_logins_found :
    ∃ c, run decimalLib (sampleEvents [sampleGuest]) = some c ∧
      AnsweredOnce decimalLib 0 5 sampleLogin c.2 := by
  have hsum : (run decimalLib (sampleEvents [sampleGuest])).map (fun c =>
      decide (.received 0 5 sampleLogin true ∈ c.2 ∧ c.1.queries.length = 0 ∧
        results 0 c.2 = [.rows [sampleGuest]])) = some true := by decide +kernel
  obtain ⟨c, hrun, hc⟩ := Option.map_eq_some_iff.mp hsum
  obtain ⟨hmem, hqueries, hresults⟩ := of_decide_eq_true hc
  have hdone : c.1.queriesOf 0 = [] := by
    rw [State.queriesOf, List.eq_nil_of_length_eq_zero hqueries]
    rfl
  refine ⟨c, hrun, (guest_logins hrun hmem rfl hdone).mpr ⟨rfl, rfl, sampleGuest, [], hresults, ?_⟩⟩
  exact .inr (by decide +kernel)

/-- A guest who is not: the select finds no row, and nothing is sent. -/
theorem guest_logins_new :
    ¬ ∀ (events : List Event) (c : State × List Entry) (n : Nat) (s : SessId) (msg : LuaMsg)
      (connected : Bool), run decimalLib events = some c →
      .received n s msg connected ∈ c.2 → msg.commandType = Gateway.Ctype.eGuestLoginReq →
      c.1.queriesOf n = [] → AnsweredOnce decimalLib n s msg c.2 := by
  intro hall
  have hsum : (run decimalLib (sampleEvents [])).map (fun c =>
      decide (.received 0 5 sampleLogin true ∈ c.2 ∧ c.1.queries.length = 0 ∧
        replies 0 c.2 = [])) = some true := by decide +kernel
  obtain ⟨c, hrun, hc⟩ := Option.map_eq_some_iff.mp hsum
  obtain ⟨hmem, hqueries, hreplies⟩ := of_decide_eq_true hc
  have hdone : c.1.queriesOf 0 = [] := by
    rw [State.queriesOf, List.eq_nil_of_length_eq_zero hqueries]
    rfl
  obtain ⟨body, hone, -⟩ := hall _ c 0 5 sampleLogin true hrun hmem rfl hdone
  rw [hreplies] at hone
  cases hone

end LibuvServer.Auth
