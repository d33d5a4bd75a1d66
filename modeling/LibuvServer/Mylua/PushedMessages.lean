import LibuvServer.Mylua.ProtoMessages
import Mathlib.Data.List.Nodup
import Mathlib.Tactic.Common

/-!
# Pushing a message

`push_proto_message_tolua` goes into every message a getter gives, and the
getter of a singular field that is not set gives a message too. So it is the
types that have to come to an end. Where they do, one table is left on the
stack, and `luaValue` says what it holds.
-/

namespace LibuvServer.Mylua.Proto

open LibuvServer.Lib LibuvServer.Netbus

variable {F : Type} {pool : DescriptorPool F} {type type' : String} {d : Descriptor F}
  {fd : FieldDescriptor F} {v : Value F} {vs : List (Value F)} {set : Bytes → List (Value F)}
  {n : Nat}

/-! ## What is wanted -/

/-- A value of a field of this type. -/
inductive Fits (pool : DescriptorPool F) : FieldType F → Value F → Prop
  | scalar {cpp_type : CppType} {s default_value : Scalar F}
      {fits : default_value.Fits cpp_type} (hs : s.Fits cpp_type) :
      Fits pool (.scalar cpp_type default_value fits) (.scalar s)
  | message {type : String} {d : Descriptor F} {set : Bytes → List (Value F)}
      (hd : pool.findMessageTypeByName type = some d)
      (hset : ∀ fd ∈ d.fields, ∀ v ∈ set fd.name, Fits pool fd.type v)
      (hone : ∀ fd ∈ d.fields, fd.label ≠ .repeated → (set fd.name).length ≤ 1) :
      Fits pool (.message type) (.message type set)

/-- Pushing the message ends, with one value more on the stack, whatever is
under it: a table with a key for each field. -/
def PushesTable (pool : DescriptorPool F) (type : String) (set : Bytes → List (Value F)) : Prop :=
  ∃ depth t d, (∀ stack, pushProtoMessageTolua pool depth type set stack =
      some (.table t :: stack)) ∧
    pool.findMessageTypeByName type = some d ∧
    t.entries.map (·.1) = d.fields.map fun fd => .string fd.name

/-- A type has a singular field that is a message of another. -/
def Holds (pool : DescriptorPool F) (type' type : String) : Prop :=
  ∃ d fd, pool.findMessageTypeByName type = some d ∧ fd ∈ d.fields ∧ fd.label ≠ .repeated ∧
    fd.type = .message type'

/-- From the type of the message, and of every message set in it, singular
message fields lead to an end. -/
inductive Pushable (pool : DescriptorPool F) : Value F → Prop
  | scalar (s : Scalar F) : Pushable pool (.scalar s)
  | message {type : String} {d : Descriptor F} {set : Bytes → List (Value F)}
      (hd : pool.findMessageTypeByName type = some d) (hends : Acc (Holds pool) type)
      (hset : ∀ fd ∈ d.fields, ∀ v ∈ set fd.name, Pushable pool v) :
      Pushable pool (.message type set)

/-! ## What is on the stack -/

/-- Values as the sequence part of a table, from index `i`. -/
def indexed {T : Type} : Nat → List (TValue T F) → List (LuaKey × TValue T F)
  | _, [] => []
  | i, v :: vs => (.integer i, v) :: indexed (i + 1) vs

/-- The value of one field. -/
def luaField (value : Value F → TValue (Table F) F) (fd : FieldDescriptor F)
    (vs : List (Value F)) : TValue (Table F) F :=
  if fd.is_repeated then .table (.mk (indexed 1 (vs.map value)))
  else value (vs.head?.getD fd.default_value)

/-- What a value becomes, at most `depth` messages deep. -/
def luaValue (pool : DescriptorPool F) : Nat → Value F → TValue (Table F) F
  | _, .scalar s => luaScalar s
  | 0, .message _ _ => .nil
  | depth + 1, .message type set =>
    match pool.findMessageTypeByName type with
    | none => .nil
    | some d => .table (.mk (d.fields.map fun fd =>
        (.string fd.name, luaField (luaValue pool depth) fd (set fd.name))))

/-- The value is at most so many messages deep, default ones included. -/
def Within (pool : DescriptorPool F) : Nat → Value F → Prop
  | _, .scalar _ => True
  | 0, .message _ _ => False
  | depth + 1, .message type set => ∃ d, pool.findMessageTypeByName type = some d ∧
    ∀ fd ∈ d.fields, ∀ v ∈ fd.getters (set fd.name), Within pool depth v

theorem Within.succ (h : Within pool n v) : Within pool (n + 1) v := by
  induction n generalizing v with
  | zero =>
    cases v with
    | scalar s => trivial
    | message type set => cases h
  | succ n ih =>
    cases v with
    | scalar s => trivial
    | message type set =>
      obtain ⟨d, hd, hfields⟩ := h
      exact ⟨d, hd, fun fd hfd v hv => ih (hfields fd hfd v hv)⟩

theorem luaScalar_ne_nil (s : Scalar F) : luaScalar s ≠ .nil := by
  intro h
  cases s <;> cases h

theorem luaValue_ne_nil (h : Within pool n v) : luaValue pool n v ≠ .nil := by
  cases v with
  | scalar s =>
    rw [luaValue.eq_def]
    exact luaScalar_ne_nil s
  | message type set =>
    cases n with
    | zero => cases h
    | succ n =>
      obtain ⟨d, hd, -⟩ := h
      rw [luaValue, hd]
      intro heq
      cases heq

theorem getters_of_repeated (h : fd.is_repeated = true) : fd.getters vs = vs := if_pos h

theorem getters_of_singular (h : fd.is_repeated = false) :
    fd.getters vs = [vs.head?.getD fd.default_value] :=
  if_neg (by rw [h]; exact Bool.false_ne_true)

theorem head_mem_getters (h : fd.is_repeated = false) :
    vs.head?.getD fd.default_value ∈ fd.getters vs := by
  rw [getters_of_singular h]
  exact .head _

theorem luaField_ne_nil (h : ∀ v ∈ fd.getters vs, Within pool n v) :
    luaField (luaValue pool n) fd vs ≠ .nil := by
  rw [luaField]
  split
  · intro heq
    cases heq
  · rename_i hsingular
    exact luaValue_ne_nil (h _ (head_mem_getters (by simpa using hsingular)))

/-- A key that is not there yet comes last. -/
theorem set_new {entries : List (LuaKey × TValue (Table F) F)} {key : LuaKey}
    {v : TValue (Table F) F} (hnew : ∀ e ∈ entries, e.1 ≠ key) (hv : v ≠ .nil) :
    (Table.mk entries).set key v = .mk (entries ++ [(key, v)]) := by
  have hrest : entries.filter (·.1 ≠ key) = entries :=
    List.filter_eq_self.mpr fun e he => decide_eq_true (hnew e he)
  simp only [Table.set, Table.entries, hrest]

section Push

variable {push : String → (Bytes → List (Value F)) → Stack F → Option (Stack F)}
  {value : Value F → TValue (Table F) F}

/-- **The loop over the elements** fills the table from index `i` on. -/
theorem pushElements_eq (h : ∀ v ∈ vs, ∀ stack, pushValue push v stack = some (value v :: stack))
    (hnil : ∀ v ∈ vs, value v ≠ .nil) (i : Nat) (entries : List (LuaKey × TValue (Table F) F))
    (hkeys : ∀ e ∈ entries, ∃ j : Nat, j < i ∧ e.1 = .integer j) (stack : Stack F) :
    pushElements push i vs (.table (.mk entries) :: stack) =
      some (.table (.mk (entries ++ indexed i (vs.map value))) :: stack) := by
  induction vs generalizing i entries with
  | nil =>
    rw [List.map_nil, indexed, List.append_nil]
    rfl
  | cons v vs ih =>
    have hnew : ∀ e ∈ entries, e.1 ≠ .integer (i : Nat) := by
      intro e he heq
      obtain ⟨j, hlt, hj⟩ := hkeys e he
      rw [hj, LuaKey.integer.injEq] at heq
      omega
    have hkeys' : ∀ e ∈ entries ++ [(LuaKey.integer (i : Nat), value v)],
        ∃ j : Nat, j < i + 1 ∧ e.1 = .integer j := by
      intro e he
      rcases List.mem_append.mp he with he | he
      · obtain ⟨j, hlt, hj⟩ := hkeys e he
        exact ⟨j, by omega, hj⟩
      · rw [List.mem_singleton.mp he]
        exact ⟨i, by omega, rfl⟩
    rw [pushElements, h v (.head _), Option.bind_some, rawseti, Option.bind_some,
      set_new hnew (hnil v (.head _)),
      ih (fun w hw => h w (.tail _ hw)) (fun w hw => hnil w (.tail _ hw)) _ _ hkeys',
      List.append_assoc]
    rfl

theorem pushField_eq
    (h : ∀ v ∈ fd.getters (set fd.name), ∀ stack, pushValue push v stack = some (value v :: stack))
    (hnil : ∀ v ∈ fd.getters (set fd.name), value v ≠ .nil) (stack : Stack F) :
    pushField push set fd stack =
      some (luaField value fd (set fd.name) :: .string fd.name :: stack) := by
  rw [pushField, luaField]
  cases hrep : fd.is_repeated with
  | true =>
    rw [getters_of_repeated hrep] at h hnil
    rw [if_pos rfl, if_pos rfl, newtable, pushElements_eq h hnil 1 [] (fun e he => by cases he),
      List.nil_append]
  | false =>
    rw [if_neg Bool.false_ne_true, if_neg Bool.false_ne_true, h _ (head_mem_getters hrep)]

/-- **The loop over the fields** adds a key for each. -/
theorem pushFields_eq {fields : List (FieldDescriptor F)}
    (hfield : ∀ fd ∈ fields, ∀ stack, pushField push set fd stack =
      some (luaField value fd (set fd.name) :: .string fd.name :: stack))
    (hnil : ∀ fd ∈ fields, luaField value fd (set fd.name) ≠ .nil)
    (hnodup : (fields.map (·.name)).Nodup) (entries : List (LuaKey × TValue (Table F) F))
    (hkeys : ∀ e ∈ entries, ∀ fd ∈ fields, e.1 ≠ .string fd.name) (stack : Stack F) :
    pushFields push set fields (.table (.mk entries) :: stack) =
      some (.table (.mk (entries ++ fields.map fun fd =>
        (.string fd.name, luaField value fd (set fd.name)))) :: stack) := by
  induction fields generalizing entries with
  | nil =>
    rw [List.map_nil, List.append_nil]
    rfl
  | cons fd fields ih =>
    rw [List.map_cons, List.nodup_cons] at hnodup
    have hkeys' : ∀ e ∈ entries ++ [(LuaKey.string fd.name, luaField value fd (set fd.name))],
        ∀ fd' ∈ fields, e.1 ≠ .string fd'.name := by
      intro e he fd' hfd'
      rcases List.mem_append.mp he with he | he
      · exact hkeys e he fd' (.tail _ hfd')
      · rw [List.mem_singleton.mp he]
        intro heq
        rw [LuaKey.string.injEq] at heq
        exact hnodup.1 (heq ▸ List.mem_map_of_mem hfd')
    rw [pushFields, hfield fd (.head _), Option.bind_some, rawset, Option.bind_some,
      set_new (fun e he => hkeys e he fd (.head _)) (hnil fd (.head _)),
      ih (fun fd' h => hfield fd' (.tail _ h)) (fun fd' h => hnil fd' (.tail _ h)) hnodup.2 _
        hkeys',
      List.append_assoc]
    rfl

/-- Whatever is pushed on the way was pushed. -/
theorem pushElements_some {i : Nat} {stack r : Stack F}
    (h : pushElements push i vs stack = some r) :
    ∀ v ∈ vs, ∃ stack' r', pushValue push v stack' = some r' := by
  induction vs generalizing i stack with
  | nil =>
    intro v hv
    cases hv
  | cons w vs ih =>
    obtain ⟨stack₂, hset, hrest⟩ := Option.bind_eq_some_iff.mp h
    obtain ⟨stack₁, hpush, -⟩ := Option.bind_eq_some_iff.mp hset
    intro v hv
    rcases List.mem_cons.mp hv with rfl | hv
    · exact ⟨stack, stack₁, hpush⟩
    · exact ih hrest v hv

theorem pushField_some {stack r : Stack F} (h : pushField push set fd stack = some r) :
    ∀ v ∈ fd.getters (set fd.name), ∃ stack' r', pushValue push v stack' = some r' := by
  rw [pushField] at h
  cases hrep : fd.is_repeated with
  | true =>
    rw [hrep, if_pos rfl] at h
    rw [getters_of_repeated hrep]
    exact pushElements_some h
  | false =>
    rw [hrep, if_neg Bool.false_ne_true] at h
    rw [getters_of_singular hrep]
    intro v hv
    rw [List.mem_singleton.mp hv]
    exact ⟨_, r, h⟩

theorem pushFields_some {fields : List (FieldDescriptor F)} {stack r : Stack F}
    (h : pushFields push set fields stack = some r) :
    ∀ fd ∈ fields, ∃ stack' r', pushField push set fd stack' = some r' := by
  induction fields generalizing stack with
  | nil =>
    intro fd hfd
    cases hfd
  | cons fd₁ fields ih =>
    obtain ⟨stack₂, hset, hrest⟩ := Option.bind_eq_some_iff.mp h
    obtain ⟨stack₁, hpush, -⟩ := Option.bind_eq_some_iff.mp hset
    intro fd hfd
    rcases List.mem_cons.mp hfd with rfl | hfd
    · exact ⟨stack, stack₁, hpush⟩
    · exact ih hrest fd hfd

end Push

/-- **A value that is not too deep** is pushed, whatever is on the stack. -/
theorem Within.pushes (h : Within pool n v) (stack : Stack F) :
    pushValue (pushProtoMessageTolua pool n) v stack = some (luaValue pool n v :: stack) := by
  induction n generalizing v stack with
  | zero =>
    cases v with
    | scalar s => rfl
    | message type set => cases h
  | succ n ih =>
    cases v with
    | scalar s => rfl
    | message type set =>
      obtain ⟨d, hd, hfields⟩ := h
      have hfield : ∀ fd ∈ d.fields, ∀ stack,
          pushField (pushProtoMessageTolua pool n) set fd stack =
          some (luaField (luaValue pool n) fd (set fd.name) :: .string fd.name :: stack) := by
        intro fd hfd stack
        exact pushField_eq (fun v hv => ih (hfields fd hfd v hv))
          (fun v hv => luaValue_ne_nil (hfields fd hfd v hv)) stack
      show pushProtoMessageTolua pool (n + 1) type set stack = _
      rw [pushProtoMessageTolua, hd, luaValue, hd]
      show pushFields _ set d.fields (newtable stack) = _
      rw [newtable, pushFields_eq hfield (fun fd hfd => luaField_ne_nil (hfields fd hfd)) d.nodup []
        (fun e he => by cases he) stack, List.nil_append]

/-- **Nothing else is pushed.** -/
theorem within_of_push {stack r : Stack F}
    (h : pushValue (pushProtoMessageTolua pool n) v stack = some r) : Within pool n v := by
  induction n generalizing v stack r with
  | zero =>
    cases v with
    | scalar s => trivial
    | message type set => cases h
  | succ n ih =>
    cases v with
    | scalar s => trivial
    | message type set =>
      have hpush : pushProtoMessageTolua pool (n + 1) type set stack = some r := h
      rw [pushProtoMessageTolua] at hpush
      cases hd : pool.findMessageTypeByName type with
      | none =>
        rw [hd] at hpush
        cases hpush
      | some d =>
        rw [hd] at hpush
        refine ⟨d, hd, fun fd hfd v hv => ?_⟩
        obtain ⟨stack₁, r₁, hfield⟩ := pushFields_some hpush fd hfd
        obtain ⟨stack₂, r₂, hvalue⟩ := pushField_some hfield v hv
        exact ih hvalue

/-! ## How deep a message is -/

theorem Fits.default (hfd : fd ∈ d.fields) (hd : pool.findMessageTypeByName type = some d) :
    Fits pool fd.type fd.default_value := by
  rw [FieldDescriptor.default_value]
  cases htype : fd.type with
  | scalar cpp_type s fits => exact .scalar fits
  | message type' =>
    obtain ⟨d', hd'⟩ := Option.isSome_iff_exists.mp (pool.closed type d hd fd hfd type' htype)
    exact .message hd' (fun fd' _ v hv => by cases hv) fun fd' _ _ => Nat.zero_le _

theorem Fits.eq_message (h : Fits pool (.message type) v) : ∃ set, v = .message type set := by
  cases h with
  | message _ _ _ => exact ⟨_, rfl⟩

theorem Fits.found (h : Fits pool (.message type) v) :
    ∃ d, pool.findMessageTypeByName type = some d := by
  cases h with
  | message hd _ _ => exact ⟨_, hd⟩

theorem Pushable.ends (h : Pushable pool (.message type set)) : Acc (Holds pool) type := by
  cases h with
  | message _ hends _ => exact hends

/-- What the getters give is of the type of the field. -/
theorem Fits.getters (h : Fits pool (.message type) (.message type set))
    (hd : pool.findMessageTypeByName type = some d) (hfd : fd ∈ d.fields) :
    ∀ v ∈ fd.getters (set fd.name), Fits pool fd.type v := by
  cases h with
  | message hd' hset hone =>
    rw [hd, Option.some.injEq] at hd'
    subst hd'
    intro v hv
    rw [FieldDescriptor.getters] at hv
    split at hv
    · exact hset fd hfd v hv
    · rw [List.mem_singleton.mp hv]
      cases hvs : set fd.name with
      | nil => exact .default hfd hd
      | cons w ws => exact hset fd hfd w (by rw [hvs]; exact .head _)

/-- What is set is what the getters give. -/
theorem Fits.mem_getters (h : Fits pool (.message type) (.message type set))
    (hd : pool.findMessageTypeByName type = some d) (hfd : fd ∈ d.fields) (hv : v ∈ set fd.name) :
    v ∈ fd.getters (set fd.name) := by
  cases h with
  | message hd' hset hone =>
    rw [hd, Option.some.injEq] at hd'
    subst hd'
    rw [FieldDescriptor.getters]
    split
    · exact hv
    · rename_i hsingular
      have hlabel : fd.label ≠ .repeated := fun heq => hsingular (decide_eq_true heq)
      have hlen := hone fd hfd hlabel
      cases hvs : set fd.name with
      | nil =>
        rw [hvs] at hv
        cases hv
      | cons w ws =>
        rw [hvs, List.length_cons] at hlen
        have hws : ws = [] := List.eq_nil_of_length_eq_zero (by omega)
        rw [hvs, hws] at hv
        exact hv

/-- What grows for one grows for as many as there are. -/
theorem exists_bound {α : Type} {P : Nat → α → Prop} (hsucc : ∀ n a, P n a → P (n + 1) a)
    {l : List α} (h : ∀ a ∈ l, ∃ n, P n a) : ∃ n, ∀ a ∈ l, P n a := by
  have hle : ∀ m n a, m ≤ n → P m a → P n a := by
    intro m n a hmn
    induction hmn with
    | refl => exact id
    | step _ ih => exact fun hm => hsucc _ a (ih hm)
  induction l with
  | nil => exact ⟨0, fun a ha => by cases ha⟩
  | cons a l ih =>
    obtain ⟨m, hm⟩ := h a (.head _)
    obtain ⟨n, hn⟩ := ih fun b hb => h b (.tail _ hb)
    refine ⟨max m n, fun b hb => ?_⟩
    rcases List.mem_cons.mp hb with rfl | hb
    · exact hle m _ b (Nat.le_max_left m n) hm
    · exact hle n _ b (Nat.le_max_right m n) (hn b hb)

/-- A message is one deeper than the deepest of its fields. -/
theorem within_message (hd : pool.findMessageTypeByName type = some d)
    (h : ∀ fd ∈ d.fields, ∀ v ∈ fd.getters (set fd.name), ∃ n, Within pool n v) :
    ∃ n, Within pool n (.message type set) := by
  have hfields : ∃ n, ∀ fd ∈ d.fields, ∀ v ∈ fd.getters (set fd.name), Within pool n v :=
    exists_bound (P := fun n fd => ∀ v ∈ fd.getters (set fd.name), Within pool n v)
      (fun n fd hfd v hv => (hfd v hv).succ)
      fun fd hfd => exists_bound (fun n v hv => hv.succ) (h fd hfd)
  obtain ⟨n, hn⟩ := hfields
  exact ⟨n + 1, d, hd, hn⟩

theorem label_of_singular (h : ¬ fd.is_repeated = true) : fd.label ≠ .repeated :=
  fun heq => h (decide_eq_true heq)

/-- A message with nothing set is as deep as its type. -/
theorem within_noneSet (hends : Acc (Holds pool) type)
    (hfound : (pool.findMessageTypeByName type).isSome) :
    ∃ n, Within pool n (.message type noneSet) := by
  induction hends with
  | intro type _ ih =>
    obtain ⟨d, hd⟩ := Option.isSome_iff_exists.mp hfound
    refine within_message hd fun fd hfd v hv => ?_
    rw [FieldDescriptor.getters] at hv
    split at hv
    · cases hv
    · rename_i hsingular
      rw [List.mem_singleton.mp hv]
      show ∃ n, Within pool n fd.default_value
      rw [FieldDescriptor.default_value]
      cases htype : fd.type with
      | scalar cpp_type s fits => exact ⟨0, trivial⟩
      | message type' =>
        exact ih type' ⟨d, fd, hd, hfd, label_of_singular hsingular, htype⟩
          (pool.closed type d hd fd hfd type' htype)

theorem Pushable.within (h : Pushable pool v) : ∃ n, Within pool n v := by
  induction h with
  | scalar s => exact ⟨0, trivial⟩
  | @message type d set hd hends _ ih =>
    refine within_message hd fun fd hfd v hv => ?_
    rw [FieldDescriptor.getters] at hv
    split at hv
    · exact ih fd hfd v hv
    · rename_i hsingular
      rw [List.mem_singleton.mp hv]
      cases hvs : set fd.name with
      | cons w ws => exact ih fd hfd w (by rw [hvs]; exact .head _)
      | nil =>
        show ∃ n, Within pool n fd.default_value
        rw [FieldDescriptor.default_value]
        cases htype : fd.type with
        | scalar cpp_type s fits => exact ⟨0, trivial⟩
        | message type' =>
          exact within_noneSet
            (hends.inv ⟨d, fd, hd, hfd, label_of_singular hsingular, htype⟩)
            (pool.closed type d hd fd hfd type' htype)

theorem Within.pushable {ftype : FieldType F} (h : Within pool n v) (hfits : Fits pool ftype v) :
    Pushable pool v := by
  induction n generalizing v ftype with
  | zero =>
    cases v with
    | scalar s => exact .scalar s
    | message type set => cases h
  | succ n ih =>
    cases v with
    | scalar s => exact .scalar s
    | message type set =>
      have hmessage : Fits pool (.message type) (.message type set) := by
        cases hfits with
        | message hd' hset hone => exact .message hd' hset hone
      obtain ⟨d, hd, hfields⟩ := h
      have hgetters : ∀ fd ∈ d.fields, ∀ v ∈ fd.getters (set fd.name), Pushable pool v :=
        fun fd hfd v hv => ih (hfields fd hfd v hv) (hmessage.getters hd hfd v hv)
      refine .message hd (.intro _ fun type' => ?_) fun fd hfd v hv =>
        hgetters fd hfd v (hmessage.mem_getters hd hfd hv)
      -- the field that holds `type'` gives a message of it, set or not
      rintro ⟨d', fd, hd', hfd, hlabel, htype⟩
      rw [hd, Option.some.injEq] at hd'
      subst hd'
      have hsingular : fd.is_repeated = false := decide_eq_false hlabel
      have hmem : (set fd.name).head?.getD fd.default_value ∈ fd.getters (set fd.name) :=
        head_mem_getters hsingular
      have hpush := hgetters fd hfd _ hmem
      have hfit := hmessage.getters hd hfd _ hmem
      rw [htype] at hfit
      obtain ⟨set', hset'⟩ := hfit.eq_message
      rw [hset'] at hpush
      exact hpush.ends

/-! ## The claim -/

/-- **Pushing a message ends**, with one table on the stack, exactly when
singular message fields lead to an end from the type of every message set in
it. -/
theorem pushes_table (hfits : Fits pool (.message type) (.message type set)) :
    PushesTable pool type set ↔ Pushable pool (.message type set) := by
  constructor
  · rintro ⟨depth, t, d, hpush, -, -⟩
    have hempty : pushValue (pushProtoMessageTolua pool depth) (.message type set) [] = some _ :=
      hpush []
    exact (within_of_push hempty).pushable hfits
  · intro h
    obtain ⟨depth, hwithin⟩ := h.within
    have hpush := hwithin.pushes
    cases depth with
    | zero => cases hwithin
    | succ depth =>
      obtain ⟨d, hd, -⟩ := hwithin
      rw [luaValue, hd] at hpush
      refine ⟨depth + 1, _, d, hpush, hd, ?_⟩
      rw [Table.entries, List.map_map]
      rfl

/-- `Leaf { optional int64 id; }`, `Tree { required Leaf leaf; repeated Tree
kids; }` and `Node { optional Node next; }`. -/
def leafType : Descriptor Int where
  name := "Leaf"
  fields := [⟨strBytes "id", .optional, .scalar .INT64 (.int64 0) ⟨by decide, by decide⟩, none⟩]
  nodup := by decide +kernel
  oneofs := by simp

def treeType : Descriptor Int where
  name := "Tree"
  fields := [⟨strBytes "leaf", .required, .message "Leaf", none⟩,
    ⟨strBytes "kids", .repeated, .message "Tree", none⟩]
  nodup := by decide +kernel
  oneofs := by simp

def nodeType : Descriptor Int where
  name := "Node"
  fields := [⟨strBytes "next", .optional, .message "Node", none⟩]
  nodup := by decide +kernel
  oneofs := by simp

def samplePool : DescriptorPool Int where
  findMessageTypeByName
    | "Leaf" => some leafType
    | "Tree" => some treeType
    | "Node" => some nodeType
    | _ => none
  closed type d hd fd hfd type' htype := by
    split at hd
    · cases hd
      simp only [leafType, List.mem_singleton] at hfd
      rw [hfd] at htype
      cases htype
    · cases hd
      simp only [treeType, List.mem_cons, List.not_mem_nil, or_false] at hfd
      rcases hfd with rfl | rfl
      · cases htype
        rfl
      · cases htype
        rfl
    · cases hd
      simp only [nodeType, List.mem_singleton] at hfd
      rw [hfd] at htype
      cases htype
      rfl
    · cases hd

/-- A tree with a tree in it, which has no leaf set. -/
def sampleTree : Bytes → List (Value Int) :=
  Function.update noneSet (strBytes "kids") [.message "Tree" noneSet]

theorem holds_sample {type' type : String} (h : Holds samplePool type' type) :
    type = "Tree" ∧ type' = "Leaf" ∨ type = "Node" ∧ type' = "Node" := by
  obtain ⟨d, fd, hd, hfd, hlabel, htype⟩ := h
  simp only [samplePool] at hd
  split at hd
  · cases hd
    simp only [leafType, List.mem_singleton] at hfd
    rw [hfd] at htype
    cases htype
  · cases hd
    simp only [treeType, List.mem_cons, List.not_mem_nil, or_false] at hfd
    rcases hfd with rfl | rfl
    · cases htype
      exact .inl ⟨rfl, rfl⟩
    · exact absurd rfl hlabel
  · cases hd
    simp only [nodeType, List.mem_singleton] at hfd
    rw [hfd] at htype
    cases htype
    exact .inr ⟨rfl, rfl⟩
  · cases hd

theorem ends_tree : Acc (Holds samplePool) "Tree" := by
  refine .intro _ fun type' h => ?_
  rcases holds_sample h with ⟨-, rfl⟩ | ⟨heq, -⟩
  · refine .intro _ fun type'' h' => ?_
    rcases holds_sample h' with ⟨heq, -⟩ | ⟨heq, -⟩
    · exact absurd heq (by decide)
    · exact absurd heq (by decide)
  · exact absurd heq (by decide)

/-- A type that repeats itself is no trouble. -/
theorem pushes_table_tree : PushesTable samplePool "Tree" sampleTree := by
  have hkids : sampleTree (strBytes "kids") = [.message "Tree" noneSet] :=
    Function.update_self _ _ _
  have hleaf : sampleTree (strBytes "leaf") = [] :=
    Function.update_of_ne (by decide +kernel) _ _
  have hnone : Fits samplePool (.message "Tree") (.message "Tree" noneSet) :=
    .message (d := treeType) rfl (fun fd _ v hv => by cases hv) fun fd _ _ => Nat.zero_le _
  have hfits : Fits samplePool (.message "Tree") (.message "Tree" sampleTree) := by
    refine .message (d := treeType) rfl (fun fd hfd v hv => ?_) fun fd hfd hlabel => ?_
    · simp only [treeType, List.mem_cons, List.not_mem_nil, or_false] at hfd
      rcases hfd with rfl | rfl
      · rw [hleaf] at hv
        cases hv
      · rw [hkids] at hv
        rw [List.mem_singleton.mp hv]
        exact hnone
    · simp only [treeType, List.mem_cons, List.not_mem_nil, or_false] at hfd
      rcases hfd with rfl | rfl
      · rw [hleaf]
        exact Nat.zero_le _
      · exact absurd rfl hlabel
  refine (pushes_table hfits).mpr (.message (d := treeType) rfl ends_tree fun fd hfd v hv => ?_)
  simp only [treeType, List.mem_cons, List.not_mem_nil, or_false] at hfd
  rcases hfd with rfl | rfl
  · rw [hleaf] at hv
    cases hv
  · rw [hkids] at hv
    rw [List.mem_singleton.mp hv]
    exact .message (d := treeType) rfl ends_tree fun fd _ v hv => by cases hv

/-- A list of nodes has a last one, and its getter gives another. -/
theorem pushes_table_node : Fits samplePool (.message "Node") (.message "Node" noneSet) ∧
    ¬ PushesTable samplePool "Node" noneSet := by
  refine ⟨.message (d := nodeType) rfl (fun fd _ v hv => by cases hv)
    fun fd _ _ => Nat.zero_le _, ?_⟩
  rintro ⟨depth, t, d, hpush, -, -⟩
  have hempty : pushValue (pushProtoMessageTolua samplePool depth) (.message "Node" noneSet) [] =
      some _ := hpush []
  have hwithin := within_of_push hempty
  clear hpush hempty
  -- on the depth: one less is not enough for the message the getter gives
  induction depth with
  | zero => cases hwithin
  | succ depth ih =>
    obtain ⟨d', hd', hfields⟩ := hwithin
    cases hd'
    exact ih (hfields _ (.head _) _ (head_mem_getters rfl))

end LibuvServer.Mylua.Proto
