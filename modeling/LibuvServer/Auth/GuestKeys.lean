import LibuvServer.Auth.Statements
import LibuvServer.Mylua.PushedMessages
import Mathlib.Tactic.Common

/-!
# Guest keys

The way of a guest's key from the message to the row of the table `guest`:
`push_proto_message_tolua` keeps the names the descriptor gives the fields,
`guestLogin` reads a field of another name, and the text `nil` goes into the
select.
-/

namespace LibuvServer.Auth

open LibuvServer.Lib LibuvServer.Netbus LibuvServer.Mylua
open LibuvServer.Gateway (SessId)

/-! ## The message -/

/-- The value of a field that is neither repeated nor a message, of the two
types the auth messages use. -/
inductive ProtoValue where
  | int32 (n : Int)
  | string (value : Bytes)

def ProtoValue.push : ProtoValue → LuaValue
  | .int32 n => .integer n
  | .string value => .string value

/-- `push_proto_message_tolua` of such fields: in the order of the descriptor,
under the names they have there. -/
def pushProtoMessageTolua (fields : List (String × ProtoValue)) : LuaTable :=
  fields.map fun field => (field.1, field.2.push)

/-- The fields of a `GuestLoginReq` in `protocol.proto`. -/
def guestLoginFields (RandKey : Bytes) : List (String × ProtoValue) :=
  [("RandKey", .string RandKey)]

/-- A name the descriptor does not have is `nil`. -/
theorem get_pushProtoMessageTolua {fields : List (String × ProtoValue)} {name : String}
    (h : ∀ field ∈ fields, field.1 ≠ name) :
    (pushProtoMessageTolua fields).get name = .nil := by
  induction fields with
  | nil => rfl
  | cons field fields ih =>
    have hne : (name == field.1) = false := by
      rw [beq_eq_false_iff_ne]
      exact (h field (by simp)).symm
    have hrest := ih fun f hf => h f (by simp [hf])
    rw [LuaTable.get] at hrest ⊢
    rw [pushProtoMessageTolua, List.map_cons, List.lookup_cons, hne]
    exact hrest

section Pushed

variable {F : Type} {pool : Proto.DescriptorPool F} {type : String} {d : Proto.Descriptor F}
  {set : Bytes → List (Proto.Value F)} {fields : List (String × ProtoValue)}

def ProtoValue.scalar : ProtoValue → Proto.Scalar F
  | .int32 n => .int32 n
  | .string value => .string value

/-- A value of the scripts on the stack. -/
def onStack : LuaValue → Proto.TValue (Proto.Table F) F
  | .nil => .nil
  | .integer n => .integer n
  | .string value => .string value

theorem onStack_push (value : ProtoValue) :
    onStack (F := F) value.push = Proto.luaScalar value.scalar := by
  cases value <;> rfl

/-- The getters of a message of this type give these fields. -/
structure Gives (d : Proto.Descriptor F) (set : Bytes → List (Proto.Value F))
    (fields : List (String × ProtoValue)) : Prop where
  singular : ∀ fd ∈ d.fields, fd.is_repeated = false
  values : (d.fields.map fun fd => (fd.name, (set fd.name).head?.getD fd.default_value)) =
    fields.map fun field => (strBytes field.1, .scalar field.2.scalar)

/-- **The table of the auth scripts** is what `push_proto_message_tolua` leaves
on the stack, where no field is repeated or a message. -/
theorem pushProtoMessageTolua_eq (hd : pool.findMessageTypeByName type = some d)
    (hgives : Gives d set fields) (depth : Nat) (stack : Proto.Stack F) :
    Proto.pushProtoMessageTolua pool (depth + 1) type set stack =
      some (.table (.mk ((pushProtoMessageTolua fields).map fun e =>
        (.string (strBytes e.1), onStack e.2))) :: stack) := by
  have hwithin : Proto.Within pool (depth + 1) (.message type set) := by
    refine ⟨d, hd, fun fd hfd v hv => ?_⟩
    rw [Proto.getters_of_singular (hgives.singular fd hfd), List.mem_singleton] at hv
    have hvalue : (fd.name, v) ∈ fields.map fun field =>
        (strBytes field.1, Proto.Value.scalar (F := F) field.2.scalar) := by
      rw [← hgives.values, hv]
      exact List.mem_map_of_mem hfd
    obtain ⟨field, -, heq⟩ := List.mem_map.mp hvalue
    rw [← (Prod.mk.inj heq).2, Proto.Within.eq_def]
    trivial
  have hentries : (d.fields.map fun fd => (Proto.LuaKey.string fd.name,
        Proto.luaField (Proto.luaValue pool depth) fd (set fd.name))) =
      (pushProtoMessageTolua fields).map fun e => (.string (strBytes e.1), onStack e.2) := by
    calc (d.fields.map fun fd => (Proto.LuaKey.string fd.name,
          Proto.luaField (Proto.luaValue pool depth) fd (set fd.name)))
        = (d.fields.map fun fd => (fd.name, (set fd.name).head?.getD fd.default_value)).map
            fun e => (Proto.LuaKey.string e.1, Proto.luaValue pool depth e.2) := by
          rw [List.map_map]
          refine List.map_congr_left fun fd hfd => ?_
          rw [Proto.luaField, if_neg (by rw [hgives.singular fd hfd]; exact Bool.false_ne_true)]
          rfl
      _ = (pushProtoMessageTolua fields).map fun e => (.string (strBytes e.1), onStack e.2) := by
          rw [hgives.values, pushProtoMessageTolua, List.map_map, List.map_map]
          refine List.map_congr_left fun field _ => ?_
          simp only [Function.comp_apply, onStack_push, Proto.luaValue.eq_def]
  have hpush := hwithin.pushes stack
  rw [Proto.luaValue, hd] at hpush
  rw [← hentries]
  exact hpush

end Pushed

/-- A `GuestLoginReq` with this key. -/
def LoginsWith (msg : LuaMsg) (RandKey : Bytes) : Prop :=
  msg.commandType = Gateway.Ctype.eGuestLoginReq ∧
    msg.body = some (pushProtoMessageTolua (guestLoginFields RandKey))

/-! ## The table -/

/-- A row of the table `guest`, with its key. -/
structure Guest where
  guest_key : Bytes
  row : GuestRow
  deriving DecidableEq

/-- The rows under a key. -/
def under (table : List Guest) (key : Bytes) : List Guest :=
  table.filter (·.guest_key = key)

/-- The rows a select of `getGuestInfo` is about: those whose key is its
string literal. -/
def selected (table : List Guest) (finalsm : Bytes) : List Guest :=
  match literals finalsm with
  | some [key] => under table key
  | _ => []

/-- Every select ends with the rows it is about, or fails. -/
def Answers (table : List Guest) (trace : List Entry) : Prop :=
  ∀ n finalsm res, .queried n finalsm ∈ trace → .result n res ∈ trace →
    res = .rows ((selected table finalsm).map (·.row)) ∨ ∃ err, res = .err err

/-! ## Each request and its guest -/

variable {Number : Type}

/-- Command `n` has been answered with this guest. -/
def Reported (n : Nat) (trace : List Entry) (info : GuestInfo) : Prop :=
  ∃ s reply, .sent n s reply ∈ trace ∧ reply.body.info = some info

/-- What is looked up, registered and reported for command `n` is the guest
under `key`. -/
structure OwnGuest (lib : LuaLib Number) (table : List Guest) (n : Nat) (key : Bytes)
    (trace : List Entry) : Prop where
  lookedUp : ∀ finalsm, .queried n finalsm ∈ trace → strBytes "select" <+: finalsm →
    selected table finalsm = under table key
  registered : ∀ finalsm, .queried n finalsm ∈ trace → strBytes "insert" <+: finalsm →
    ∃ nick, literals finalsm = some [nick, key]
  reported : ∀ info, Reported n trace info →
    ∃ guest ∈ under table key, toGuestInfo lib guest.row = some info

/-- The guest under the text `nil` is the guest under `key`: the key is that
text, or there is no guest under either. -/
def KeyMet (table : List Guest) (key : Bytes) : Prop :=
  key = strBytes "nil" ∨ under table (strBytes "nil") = [] ∧ under table key = []

/-- The one statement a guest login comes to. -/
def nilSelect : Bytes := SqlText.fill selectGuestFront [(strBytes "nil", strBytes ";")]

theorem literals_nilSelect : literals nilSelect = some [strBytes "nil"] := by decide +kernel

theorem nilSelect_select : strBytes "select" <+: nilSelect := by decide +kernel

theorem nilSelect_not_insert : ¬ strBytes "insert" <+: nilSelect := by decide +kernel

theorem selected_nilSelect (table : List Guest) :
    selected table nilSelect = under table (strBytes "nil") := by
  rw [selected, literals_nilSelect]

/-- The guests under two keys are the same only when there are none. -/
theorem under_eq_iff {table : List Guest} {key : Bytes} :
    under table (strBytes "nil") = under table key ↔ KeyMet table key := by
  constructor
  · intro h
    by_cases hkey : key = strBytes "nil"
    · exact .inl hkey
    · right
      have hnone : under table key = [] := by
        rw [List.eq_nil_iff_forall_not_mem]
        intro guest hguest
        have hnil := hguest
        rw [← h] at hnil
        have h₁ := of_decide_eq_true (List.mem_filter.mp hguest).2
        have h₂ := of_decide_eq_true (List.mem_filter.mp hnil).2
        exact hkey (h₁.symm.trans h₂)
      exact ⟨h.trans hnone, hnone⟩
  · rintro (rfl | ⟨hnil, hkey⟩)
    · rfl
    · rw [hnil, hkey]

/-! ## The statements of a run -/

variable {lib : LuaLib Number} {c c' : State × List Entry} {n : Nat}

theorem queried_mem {acts : List Act} {m : Nat} {sql : Bytes}
    (h : .queried m sql ∈ acts.map (Act.entry n)) :
    m = n ∧ ∃ func, .mysqlQuery sql func ∈ acts := by
  obtain ⟨act, hact, he⟩ := List.mem_map.mp h
  cases act with
  | mysqlQuery finalsm func =>
    cases he
    exact ⟨rfl, func, hact⟩
  | redisQuery redisState => cases he
  | sendMessage s reply => cases he
  | sendRaises s => cases he

/-- A guest login makes one statement, once MySQL is connected, and it asks
for the text `nil`. -/
theorem atRecvCmd_login {s : SessId} {msg : LuaMsg} {env : Env} {key : Bytes}
    (h : LoginsWith msg key) :
    atRecvCmd lib s msg env =
      if env.mysql_conn then [.mysqlQuery nilSelect (onSelect (onGuestInfo lib s msg .nil))]
      else [] := by
  obtain ⟨htype, hbody⟩ := h
  have hkey : (pushProtoMessageTolua (guestLoginFields key)).get "randkey" = .nil :=
    get_pushProtoMessageTolua (by simp [guestLoginFields])
  have htext : strFormat lib selectGuest [.nil] = some nilSelect := by
    rw [strFormat_selectGuest, nilSelect, ← selectGuest_fill]
    rfl
  rw [atRecvCmd, if_pos htype, guestLogin, hbody]
  simp only [hkey, getGuestInfo, htext]
  rfl

/-- Every statement belongs to a command that came while MySQL was connected,
and that of a guest login asks for the text `nil`. -/
def Texts (c : State × List Entry) : Prop :=
  ∀ n sql, .queried n sql ∈ c.2 → ∃ s msg, .received n s msg true ∈ c.2 ∧
    ∀ key, LoginsWith msg key → sql = nilSelect

/-- The function of a guest login's query makes no other. -/
theorem onSelect_silent {s : SessId} {msg : LuaMsg} {gKey : LuaValue} {env : Env}
    (henv : env.mysql_conn = true) {res : QueryRes} {sql : Bytes}
    {f : Env → QueryRes → List Act} :
    .mysqlQuery sql f ∉ onSelect (onGuestInfo lib s msg gKey) env res := by
  intro hquery
  have hnone : (onSelect (onGuestInfo lib s msg gKey) env res).filterMap (Act.query 0) = [] :=
    (onSelect_connected henv res 0).1
  rw [List.filterMap_eq_nil_iff] at hnone
  cases hnone _ hquery

/-- And so does no function of a query. -/
theorem complete_silent (h : ∀ n, Progress lib n c) {i m : Nat}
    {func : Env → QueryRes → List Act} (hget : c.1.queries[i]? = some (m, func))
    (res : QueryRes) (random : Int × Int) {sql : Bytes} {f : Env → QueryRes → List Act} :
    .mysqlQuery sql f ∉ func (c.1.env random) res := by
  obtain ⟨hon, s, msg, gKey, rfl⟩ := outstanding_select h hget
  exact onSelect_silent hon

theorem Texts.record (h : Texts c) (hp : ∀ n, Progress lib n c) {e : Event}
    (hrecord : Lib.record (Auth.step lib) c e = some c') : Texts c' := by
  obtain ⟨t, out, hstep, rfl⟩ := record_eq_some.mp hrecord
  intro n sql hsql
  -- a statement made before belongs to a command seen before
  have hold : .queried n sql ∈ c.2 → ∃ s msg, .received n s msg true ∈ c.2 ++ out ∧
      ∀ key, LoginsWith msg key → sql = nilSelect := by
    intro hmem
    obtain ⟨s, msg, hrec, htext⟩ := h n sql hmem
    exact ⟨s, msg, List.mem_append_left _ hrec, htext⟩
  rcases List.mem_append.mp hsql with hmem | hnew
  · exact hold hmem
  · cases e with
    | mysqlConnected =>
      cases hstep
      cases hnew
    | redisConnected =>
      cases hstep
      cases hnew
    | recv s msg random =>
      cases hstep
      rcases List.mem_cons.mp hnew with heq | hnew
      · cases heq
      · obtain ⟨rfl, func, hact⟩ := queried_mem hnew
        have hon : c.1.mysql_conn = true := by
          by_contra hoff
          have hquiet : atRecvCmd lib s msg (c.1.env random) = [] :=
            atRecvCmd_quiet fun hask => hoff hask.2
          rw [hquiet] at hact
          cases hact
        refine ⟨s, msg, by rw [hon]; simp, fun key hkey => ?_⟩
        have henv : (c.1.env random).mysql_conn = true := hon
        rw [atRecvCmd_login hkey, if_pos henv, List.mem_singleton] at hact
        cases hact
        rfl
    | complete i res random =>
      simp only [Auth.step] at hstep
      split at hstep
      · cases hstep
      · rename_i m func hget
        cases hstep
        rcases List.mem_cons.mp hnew with heq | hnew
        · cases heq
        · obtain ⟨rfl, f, hact⟩ := queried_mem hnew
          exact absurd hact (complete_silent hp hget res random)

theorem texts_run {events : List Event} (hrun : run lib events = some c) : Texts c := by
  have hboth : (∀ n, Progress lib n c) ∧ Texts c := by
    refine run_invariant (P := fun _ _ => True) (I := fun c => (∀ n, Progress lib n c) ∧ Texts c)
      (fun _ _ _ h _ hrecord => ⟨fun n => (h.1 n).record hrecord, h.2.record h.1 hrecord⟩)
      ⟨fun n => .unseen (Nat.zero_le n) rfl rfl, fun n sql h => ?_⟩ (along_true _ events) hrun
    cases h
  exact hboth.2

theorem mem_about {trace : List Entry} {e : Entry} : e ∈ about e.number trace ↔ e ∈ trace := by
  simp [about]

/-- **What is seen of a guest login.** Without a connection nothing, else its
select, and once that has ended what is done about the result. -/
theorem login_seen {events : List Event} (hrun : run lib events = some c) {s : SessId}
    {msg : LuaMsg} {connected : Bool} {key : Bytes} (hrec : .received n s msg connected ∈ c.2)
    (hkey : LoginsWith msg key) :
    (connected = false ∧ about n c.2 = [.received n s msg false]) ∨
    (connected = true ∧
      (about n c.2 = [.received n s msg true, .queried n nilSelect] ∨
        ∃ gKey env res, env.mysql_conn = true ∧
          about n c.2 = .received n s msg true :: .queried n nilSelect :: .result n res ::
            (onSelect (onGuestInfo lib s msg gKey) env res).map (Act.entry n))) := by
  have hmem := mem_about.mpr hrec
  have htexts := texts_run hrun n
  cases progress_run hrun n with
  | unseen _ _ ha =>
    rw [Entry.number, ha] at hmem
    cases hmem
  | @quiet s' msg' connected' _ _ hask ha =>
    rw [Entry.number, ha, List.mem_singleton] at hmem
    cases hmem
    left
    have hoff : connected = false := by
      rw [← Bool.not_eq_true]
      exact fun hon => hask ⟨⟨hkey.1, by rw [hkey.2]; rfl⟩, hon⟩
    rw [hoff] at ha
    exact ⟨hoff, ha⟩
  | @waiting s' msg' finalsm gKey _ _ _ _ ha =>
    rw [Entry.number, ha] at hmem
    obtain ⟨rfl, rfl, rfl⟩ : s = s' ∧ msg = msg' ∧ connected = true := by simpa using hmem
    right
    have hquery : .queried n finalsm ∈ c.2 := mem_about.mp (by rw [Entry.number, ha]; simp)
    obtain ⟨s'', msg'', hrec', htext⟩ := htexts finalsm hquery
    have hmem' := mem_about.mpr hrec'
    rw [Entry.number, ha] at hmem'
    obtain ⟨rfl, rfl⟩ : s'' = s ∧ msg'' = msg := by simpa using hmem'
    rw [htext key hkey] at ha
    exact ⟨rfl, .inl ha⟩
  | @ended s' msg' finalsm gKey env res _ _ _ hon ha =>
    rw [Entry.number, ha] at hmem
    obtain ⟨rfl, rfl, rfl⟩ := received_of_mem hmem
    right
    have hquery : .queried n finalsm ∈ c.2 := mem_about.mp (by rw [Entry.number, ha]; simp)
    obtain ⟨s'', msg'', hrec', htext⟩ := htexts finalsm hquery
    have hmem' := mem_about.mpr hrec'
    rw [Entry.number, ha] at hmem'
    obtain ⟨rfl, rfl, -⟩ := received_of_mem hmem'
    rw [htext key hkey] at ha
    exact ⟨rfl, .inr ⟨gKey, env, res, hon, ha⟩⟩

/-! ## Reports -/

/-- A guest is reported from the first row of the result. -/
theorem answer_info {res : QueryRes} {body : GuestLoginRes} {info : GuestInfo}
    (h : answer lib res = some body) (hinfo : body.info = some info) :
    ∃ row rest, res = .rows (row :: rest) ∧ toGuestInfo lib row = some info := by
  obtain ⟨row, rest, rfl, -⟩ := answer_isSome.mp (by rw [h]; rfl)
  refine ⟨row, rest, rfl, ?_⟩
  simp only [answer] at h
  split at h
  · cases h
    cases hinfo
  · obtain ⟨info', hinfo', rfl⟩ := Option.map_eq_some_iff.mp h
    rw [hinfo']
    exact hinfo

theorem reported_login {events : List Event} (hrun : run lib events = some c)
    {table : List Guest} (hanswers : Answers table c.2) {s : SessId} {msg : LuaMsg}
    {connected : Bool} {key : Bytes} (hrec : .received n s msg connected ∈ c.2)
    (hkey : LoginsWith msg key) {info : GuestInfo} (hrep : Reported n c.2 info) :
    connected = true ∧
      ∃ guest ∈ under table (strBytes "nil"), toGuestInfo lib guest.row = some info := by
  obtain ⟨s', reply, hsent, hinfo⟩ := hrep
  have hmem := mem_about.mpr hsent
  rcases login_seen hrun hrec hkey with ⟨-, ha⟩ | ⟨hon, ha | ⟨gKey, env, res, henv, ha⟩⟩
  · simp [Entry.number, ha] at hmem
  · simp [Entry.number, ha] at hmem
  · refine ⟨hon, ?_⟩
    have hquery : .queried n nilSelect ∈ c.2 := mem_about.mp (by rw [Entry.number, ha]; simp)
    have hresult : .result n res ∈ c.2 := mem_about.mp (by rw [Entry.number, ha]; simp)
    have hreply : (s', reply) ∈ (answer lib res).toList.map (replyTo s msg) := by
      rw [← (onSelect_connected henv res n).2]
      refine List.mem_filterMap.mpr ⟨.sent n s' reply, ?_, rfl⟩
      simpa [Entry.number, ha] using hmem
    obtain ⟨body, hbody, heq⟩ := List.mem_map.mp hreply
    have hans : answer lib res = some body := by simpa using hbody
    cases heq
    obtain ⟨row, rest, rfl, hrow⟩ := answer_info hans hinfo
    rcases hanswers n nilSelect _ hquery hresult with hrows | ⟨err, herr⟩
    · rw [QueryRes.rows.injEq, selected_nilSelect] at hrows
      have hfirst : row ∈ (under table (strBytes "nil")).map (·.row) := by
        rw [← hrows]
        simp
      obtain ⟨guest, hguest, rfl⟩ := List.mem_map.mp hfirst
      exact ⟨guest, hguest, hrow⟩
    · cases herr

/-- A guest login gets its own guest just when its key is met. -/
theorem ownGuest_iff {events : List Event} (hrun : run lib events = some c)
    {table : List Guest} (hanswers : Answers table c.2) {s : SessId} {msg : LuaMsg}
    {connected : Bool} {key : Bytes} (hrec : .received n s msg connected ∈ c.2)
    (hkey : LoginsWith msg key) :
    OwnGuest lib table n key c.2 ↔ (connected = true → KeyMet table key) := by
  have hqueried : ∀ sql, .queried n sql ∈ c.2 → connected = true ∧ sql = nilSelect := by
    intro sql hsql
    have hmem := mem_about.mpr hsql
    rcases login_seen hrun hrec hkey with ⟨-, ha⟩ | ⟨hon, ha | ⟨gKey, env, res, henv, ha⟩⟩
    · simp [Entry.number, ha] at hmem
    · exact ⟨hon, by simpa [Entry.number, ha] using hmem⟩
    · refine ⟨hon, ?_⟩
      simp only [Entry.number, ha, List.mem_cons, reduceCtorEq, false_or] at hmem
      rcases hmem with heq | hact
      · cases heq
        rfl
      · obtain ⟨-, func, hact⟩ := queried_mem hact
        exact absurd hact (onSelect_silent henv)
  constructor
  · intro hown hon
    have hquery : .queried n nilSelect ∈ c.2 := by
      rcases login_seen hrun hrec hkey with ⟨hoff, -⟩ | ⟨-, ha | ⟨gKey, env, res, -, ha⟩⟩
      · rw [hon] at hoff
        cases hoff
      · exact mem_about.mp (by rw [Entry.number, ha]; simp)
      · exact mem_about.mp (by rw [Entry.number, ha]; simp)
    have hsame := hown.lookedUp nilSelect hquery nilSelect_select
    rw [selected_nilSelect] at hsame
    exact under_eq_iff.mp hsame
  · intro hmet
    refine ⟨fun sql hsql _ => ?_, fun sql hsql hinsert => ?_, fun info hrep => ?_⟩
    · obtain ⟨hon, rfl⟩ := hqueried sql hsql
      rw [selected_nilSelect, under_eq_iff.mpr (hmet hon)]
    · obtain ⟨-, rfl⟩ := hqueried sql hsql
      exact absurd hinsert nilSelect_not_insert
    · obtain ⟨hon, guest, hguest, hinfo⟩ := reported_login hrun hanswers hrec hkey hrep
      rw [under_eq_iff.mpr (hmet hon)] at hguest
      exact ⟨guest, hguest, hinfo⟩

/-- **Guests with different keys are different accounts** just when the key
of each is the text `nil`, or there is no guest under either. -/
theorem guest_keys {events : List Event} (hrun : run lib events = some c) {table : List Guest}
    (hanswers : Answers table c.2) {n₁ n₂ : Nat} {s₁ s₂ : SessId} {msg₁ msg₂ : LuaMsg}
    {connected₁ connected₂ : Bool} {key₁ key₂ : Bytes}
    (hrec₁ : .received n₁ s₁ msg₁ connected₁ ∈ c.2) (hrec₂ : .received n₂ s₂ msg₂ connected₂ ∈ c.2)
    (hkey₁ : LoginsWith msg₁ key₁) (hkey₂ : LoginsWith msg₂ key₂) (hne : key₁ ≠ key₂) :
    (OwnGuest lib table n₁ key₁ c.2 ∧ OwnGuest lib table n₂ key₂ c.2 ∧
      ∀ info₁ info₂, Reported n₁ c.2 info₁ → Reported n₂ c.2 info₂ →
        info₁.guestId ≠ info₂.guestId) ↔
      (connected₁ = true → KeyMet table key₁) ∧ (connected₂ = true → KeyMet table key₂) := by
  have hown₁ := ownGuest_iff hrun hanswers hrec₁ hkey₁
  have hown₂ := ownGuest_iff hrun hanswers hrec₂ hkey₂
  constructor
  · rintro ⟨h₁, h₂, -⟩
    exact ⟨hown₁.mp h₁, hown₂.mp h₂⟩
  · rintro ⟨h₁, h₂⟩
    refine ⟨hown₁.mpr h₁, hown₂.mpr h₂, fun info₁ info₂ hrep₁ hrep₂ => ?_⟩
    -- only a request for the text `nil` is ever answered with a guest
    obtain ⟨hon₁, guest, hguest, -⟩ := reported_login hrun hanswers hrec₁ hkey₁ hrep₁
    obtain ⟨hon₂, -⟩ := reported_login hrun hanswers hrec₂ hkey₂ hrep₂
    have hsome : under table (strBytes "nil") ≠ [] := List.ne_nil_of_mem hguest
    have hnil₁ : key₁ = strBytes "nil" := (h₁ hon₁).resolve_right fun h => hsome h.1
    have hnil₂ : key₂ = strBytes "nil" := (h₂ hon₂).resolve_right fun h => hsome h.1
    exact absurd (hnil₁.trans hnil₂.symm) hne

def loginWith (RandKey : Bytes) : LuaMsg :=
  ⟨Gateway.Stype.Auth, Gateway.Ctype.eGuestLoginReq, 0,
    some (pushProtoMessageTolua (guestLoginFields RandKey))⟩

/-- Two guests log in, with the keys `a` and `b`, and their selects find `ret`. -/
def twoLogins (ret : List GuestRow) : List Event :=
  [.mysqlConnected, .recv 5 (loginWith (strBytes "a")) (100000, 1),
    .recv 6 (loginWith (strBytes "b")) (100000, 1), .complete 0 (.rows ret) (100000, 1),
    .complete 0 (.rows ret) (100000, 1)]

/-- What is seen of the two logins before their selects end. -/
def twoQueried : List Entry :=
  [.received 0 5 (loginWith (strBytes "a")) true, .queried 0 nilSelect,
    .received 1 6 (loginWith (strBytes "b")) true, .queried 1 nilSelect]

theorem received_twoQueried (more : List Entry) :
    .received 0 5 (loginWith (strBytes "a")) true ∈ twoQueried ++ more ∧
      .received 1 6 (loginWith (strBytes "b")) true ∈ twoQueried ++ more :=
  ⟨.head _, .tail _ (.tail _ (.head _))⟩

theorem loginsWith_loginWith (key : Bytes) : LoginsWith (loginWith key) key := ⟨rfl, rfl⟩

/-- What the function of a select does about `ret`. -/
def afterSelect (n : Nat) (s : SessId) (msg : LuaMsg) (ret : List GuestRow) : List Entry :=
  .result n (.rows ret) ::
    (onSelect (onGuestInfo decimalLib s msg .nil) ⟨true, false, (100000, 1)⟩ (.rows ret)).map
      (Act.entry n)

theorem run_twoLogins (ret : List GuestRow) :
    (run decimalLib (twoLogins ret)).map (·.2) =
      some (twoQueried ++ (afterSelect 0 5 (loginWith (strBytes "a")) ret ++
        afterSelect 1 6 (loginWith (strBytes "b")) ret)) := by
  simp [run, twoLogins, Lib.run, record, Auth.step, init, State.env, State.perform,
      atRecvCmd_login (loginsWith_loginWith _), Act.query, Act.entry, twoQueried, afterSelect]

def sampleReply (msg : LuaMsg) : Reply :=
  ⟨Gateway.Stype.Auth, msg.commandType + 1, msg.tags,
    ⟨1, some ⟨strBytes "guest100000", 12, 0, 0, 77⟩⟩⟩

theorem afterSelect_sample (n : Nat) (s : SessId) (msg : LuaMsg) :
    afterSelect n s msg [sampleGuest] =
      [.result n (.rows [sampleGuest]), .sent n s (sampleReply msg)] := by
  have hfree : isFrozen decimalLib sampleGuest = false := by decide +kernel
  have hinfo : toGuestInfo decimalLib sampleGuest =
      some ⟨strBytes "guest100000", 12, 0, 0, 77⟩ := by decide +kernel
  simp only [afterSelect, onSelect, onGuestInfo, hfree, hinfo, setGuestInfo]
  rfl

/-- The results of the two selects are those of the guests under `nil`. -/
theorem answers_twoLogins {table : List Guest} {c : State × List Entry} {ret : List GuestRow}
    (htrace : c.2 = twoQueried ++ (afterSelect 0 5 (loginWith (strBytes "a")) ret ++
      afterSelect 1 6 (loginWith (strBytes "b")) ret))
    (hret : ret = (under table (strBytes "nil")).map (·.row)) : Answers table c.2 := by
  have hqueried : ∀ {n m : Nat} {s : SessId} {msg : LuaMsg} {sql : Bytes},
      .queried m sql ∉ afterSelect n s msg ret := by
    intro n m s msg sql hmem
    rcases List.mem_cons.mp hmem with heq | hact
    · cases heq
    · obtain ⟨-, func, hact⟩ := queried_mem hact
      exact absurd hact (onSelect_silent rfl)
  have hresult : ∀ {n m : Nat} {s : SessId} {msg : LuaMsg} {res : QueryRes},
      .result m res ∈ afterSelect n s msg ret → res = .rows ret := by
    intro n m s msg res hmem
    rcases List.mem_cons.mp hmem with heq | hact
    · cases heq
      rfl
    · obtain ⟨act, -, he⟩ := List.mem_map.mp hact
      cases act <;> cases he
  rw [htrace]
  intro n sql res hsql hres
  have hnil : sql = nilSelect := by
    simp only [List.mem_append, hqueried, or_false] at hsql
    simp only [twoQueried, List.mem_cons, reduceCtorEq, Entry.queried.injEq, List.not_mem_nil,
      or_false, false_or] at hsql
    rcases hsql with ⟨-, h⟩ | ⟨-, h⟩ <;> exact h
  left
  rw [hnil, selected_nilSelect, ← hret]
  rcases List.mem_append.mp hres with hres | hres
  · simp [twoQueried] at hres
  · rcases List.mem_append.mp hres with hres | hres <;> exact hresult hres

/-- Neither guest is in the table, and there is none under the text `nil`. -/
theorem guest_keys_none :
    ∃ c, run decimalLib (twoLogins []) = some c ∧
      OwnGuest decimalLib [⟨strBytes "c", sampleGuest⟩] 0 (strBytes "a") c.2 ∧
      OwnGuest decimalLib [⟨strBytes "c", sampleGuest⟩] 1 (strBytes "b") c.2 := by
  obtain ⟨c, hrun, htrace⟩ := Option.map_eq_some_iff.mp (run_twoLogins [])
  have hnone : under [⟨strBytes "c", sampleGuest⟩] (strBytes "nil") = [] := by decide +kernel
  have hrec := received_twoQueried (afterSelect 0 5 (loginWith (strBytes "a")) [] ++
    afterSelect 1 6 (loginWith (strBytes "b")) [])
  rw [← htrace] at hrec
  have hpair := (guest_keys hrun (answers_twoLogins htrace (by rw [hnone]; rfl)) hrec.1 hrec.2
    (loginsWith_loginWith _) (loginsWith_loginWith _) (by decide +kernel)).mpr
      ⟨fun _ => .inr ⟨hnone, by decide +kernel⟩, fun _ => .inr ⟨hnone, by decide +kernel⟩⟩
  exact ⟨c, hrun, hpair.1, hpair.2.1⟩

/-- A guest is in the table under the text `nil`: both requests get it. -/
theorem guest_keys_shared :
    ¬ ∀ (events : List Event) (c : State × List Entry) (table : List Guest) (n₁ n₂ : Nat)
      (s₁ s₂ : SessId) (msg₁ msg₂ : LuaMsg) (connected₁ connected₂ : Bool) (key₁ key₂ : Bytes),
      run decimalLib events = some c → (table.map (·.guest_key)).Nodup → Answers table c.2 →
      .received n₁ s₁ msg₁ connected₁ ∈ c.2 → .received n₂ s₂ msg₂ connected₂ ∈ c.2 →
      LoginsWith msg₁ key₁ → LoginsWith msg₂ key₂ → key₁ ≠ key₂ →
      OwnGuest decimalLib table n₁ key₁ c.2 ∧ OwnGuest decimalLib table n₂ key₂ c.2 ∧
        ∀ info₁ info₂, Reported n₁ c.2 info₁ → Reported n₂ c.2 info₂ →
          info₁.guestId ≠ info₂.guestId := by
  intro hall
  obtain ⟨c, hrun, htrace⟩ := Option.map_eq_some_iff.mp (run_twoLogins [sampleGuest])
  have hone : under [⟨strBytes "nil", sampleGuest⟩] (strBytes "nil") =
      [⟨strBytes "nil", sampleGuest⟩] := by decide +kernel
  have hrec := received_twoQueried (afterSelect 0 5 (loginWith (strBytes "a")) [sampleGuest] ++
    afterSelect 1 6 (loginWith (strBytes "b")) [sampleGuest])
  rw [← htrace] at hrec
  have hsent : .sent 0 5 (sampleReply (loginWith (strBytes "a"))) ∈ c.2 ∧
      .sent 1 6 (sampleReply (loginWith (strBytes "b"))) ∈ c.2 := by
    rw [htrace, afterSelect_sample, afterSelect_sample]
    exact ⟨List.mem_append_right _ (.tail _ (.head _)),
      List.mem_append_right _ (.tail _ (.tail _ (.tail _ (.head _))))⟩
  obtain ⟨-, -, hapart⟩ := hall _ c [⟨strBytes "nil", sampleGuest⟩] 0 1 5 6 _ _ true true _ _
    hrun (by simp)
    (answers_twoLogins htrace (by rw [hone]; rfl)) hrec.1 hrec.2 (loginsWith_loginWith _)
    (loginsWith_loginWith _) (by decide +kernel)
  exact hapart _ _ ⟨5, _, hsent.1, rfl⟩ ⟨6, _, hsent.2, rfl⟩ rfl

end LibuvServer.Auth
