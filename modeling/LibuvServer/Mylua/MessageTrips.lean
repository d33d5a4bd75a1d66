import LibuvServer.Lib.Decimal
import LibuvServer.Mylua.ConvertedFields
import Mathlib.Tactic.Common

/-!
# Messages through Lua and back

`luaTableToProtobuf` on the table `push_proto_message_tolua` has built. A
field that was not set comes back set, to what its getter gave, so messages
are compared by what their getters give. The members of a oneof are all pushed
and all set again, and only the last of them stays. Integers of 64 bits go as
text and are read as doubles.
-/

namespace LibuvServer.Mylua.Proto

open LibuvServer.Lib LibuvServer.Netbus

variable {F T : Type} {pool : DescriptorPool F} {type : String} {d : Descriptor F}
  {fd : FieldDescriptor F} {ftype : FieldType F} {v w : Value F} {vs : List (Value F)}
  {set : Bytes → List (Value F)} {n k : Nat} {lua : LuaNumbers F}

/-! ## What is wanted -/

/-- Lua's numbers are doubles: an integer becomes the nearest, and so does
its decimal text. -/
structure Doubles (lua : LuaNumbers F) : Prop where
  truncate_ofInteger : ∀ n, -2 ^ 63 ≤ n → n < 2 ^ 64 →
    lua.truncate (lua.ofInteger n) = some (toDouble n)
  str2num_decimal : ∀ n, -2 ^ 63 ≤ n → n < 2 ^ 64 →
    lua.str2num (decimal n) = some (lua.ofInteger n)

/-- The type is outside any package, with types of the same kind in its
fields, and does not contain itself. No field is a floating one. -/
inductive Plain (pool : DescriptorPool F) : String → Prop
  | mk {type : String} {d : Descriptor F} (hd : pool.findMessageTypeByName type = some d)
      (hname : d.name = type)
      (hscalar : ∀ fd ∈ d.fields, ∀ cpp_type s fits, fd.type = .scalar cpp_type s fits →
        cpp_type ≠ .DOUBLE ∧ cpp_type ≠ .FLOAT)
      (hmessage : ∀ fd ∈ d.fields, ∀ type', fd.type = .message type' → Plain pool type') :
      Plain pool type

/-- What is seen of a message through its getters. -/
inductive View (F : Type) where
  | scalar (s : Scalar F)
  | message (fields : List (List (View F)))

def view (pool : DescriptorPool F) : Nat → Value F → View F
  | _, .scalar s => .scalar s
  | 0, .message _ _ => .message []
  | depth + 1, .message type set =>
    match pool.findMessageTypeByName type with
    | none => .message []
    | some d => .message (d.fields.map fun fd => (fd.getters (set fd.name)).map (view pool depth))

/-- Every getter gives the same, at any depth, elements in the same order. -/
def SameGetters (pool : DescriptorPool F) (m m' : Value F) : Prop :=
  ∀ depth, view pool depth m = view pool depth m'

/-- The message is pushed, its table is converted, and the getters of what
comes out give what those of the message give. -/
def Trips (lua : LuaNumbers F) (pool : DescriptorPool F) (type : String)
    (set : Bytes → List (Value F)) : Prop :=
  ∃ depth depth' t m,
    (∀ stack, pushProtoMessageTolua pool depth type set stack = some (.table t :: stack)) ∧
    luaTableToProtobuf lua pool Table.entries depth' type (.table t) = .ok (some m) ∧
    SameGetters pool m (.message type set)

/-- A number of 64 bits is a double, and one of an enum is known to it. -/
def Scalar.Survives : CppType → Scalar F → Prop
  | .ENUM numbers, .enum n => n ∈ numbers
  | _, .int64 n => IsDouble n
  | _, .uint64 n => IsDouble n
  | _, _ => True

/-- The double that is nearest to a number of 64 bits fits its type, and a
number of an enum is known to it. -/
def Scalar.Converts : CppType → Scalar F → Prop
  | .ENUM numbers, .enum n => n ∈ numbers
  | _, .int64 n => -2 ^ 63 ≤ toDouble n ∧ toDouble n < 2 ^ 63
  | _, .uint64 n => 0 ≤ toDouble n ∧ toDouble n < 2 ^ 64
  | _, _ => True

/-- The same of all the getters give. -/
inductive Converts (pool : DescriptorPool F) : FieldType F → Value F → Prop
  | scalar {cpp_type : CppType} {s default_value : Scalar F}
      {fits : default_value.Fits cpp_type} (hs : s.Converts cpp_type) :
      Converts pool (.scalar cpp_type default_value fits) (.scalar s)
  | message {type : String} {d : Descriptor F} {set : Bytes → List (Value F)}
      (hd : pool.findMessageTypeByName type = some d)
      (hset : ∀ fd ∈ d.fields, ∀ v ∈ fd.getters (set fd.name), Converts pool fd.type v) :
      Converts pool (.message type) (.message type set)

/-- A field after it is in the same oneof. -/
def Descriptor.HasLater (d : Descriptor F) (fd : FieldDescriptor F) : Prop :=
  ∃ fd', [fd, fd'].Sublist d.fields ∧ fd.Shares fd'

/-- All the getters give survives, except that a member of a oneof that is not
the last gives its default, and that this converts. -/
inductive Survives (pool : DescriptorPool F) : FieldType F → Value F → Prop
  | scalar {cpp_type : CppType} {s default_value : Scalar F}
      {fits : default_value.Fits cpp_type} (hs : s.Survives cpp_type) :
      Survives pool (.scalar cpp_type default_value fits) (.scalar s)
  | message {type : String} {d : Descriptor F} {set : Bytes → List (Value F)}
      (hd : pool.findMessageTypeByName type = some d)
      (hset : ∀ fd ∈ d.fields, ¬ d.HasLater fd → ∀ v ∈ fd.getters (set fd.name),
        Survives pool fd.type v)
      (hlater : ∀ fd ∈ d.fields, d.HasLater fd → ∀ v ∈ fd.getters (set fd.name),
        Converts pool fd.type v ∧ SameGetters pool fd.default_value v) :
      Survives pool (.message type) (.message type set)

/-! ## Getters -/

theorem view_scalar (s : Scalar F) : view pool k (.scalar s) = .scalar s := by
  rw [view.eq_def]

theorem sameGetters_scalar {s s' : Scalar F} :
    SameGetters pool (.scalar s) (.scalar s') ↔ s = s' := by
  constructor
  · intro h
    have h0 := h 0
    rwa [view_scalar, view_scalar, View.scalar.injEq] at h0
  · intro h depth
    rw [h]

theorem sameGetters_message {got : Bytes → List (Value F)}
    (hd : pool.findMessageTypeByName type = some d) :
    SameGetters pool (.message type got) (.message type set) ↔
      ∀ fd ∈ d.fields, ∀ k, (fd.getters (got fd.name)).map (view pool k) =
        (fd.getters (set fd.name)).map (view pool k) := by
  constructor
  · intro h fd hfd k
    have hk := h (k + 1)
    rw [view, view, hd, View.message.injEq, List.map_inj_left] at hk
    exact hk fd hfd
  · intro h depth
    cases depth with
    | zero => rfl
    | succ k =>
      rw [view, view, hd, View.message.injEq, List.map_inj_left]
      exact fun fd hfd => h fd hfd k

/-- Values that are compared one by one. -/
theorem exists_same_iff {R : Value F → Value F → Prop} :
    (∃ ws, List.Forall₂ R vs ws ∧ ∀ k, ws.map (view pool k) = vs.map (view pool k)) ↔
      ∀ v ∈ vs, ∃ w, R v w ∧ SameGetters pool w v := by
  induction vs with
  | nil =>
    constructor
    · intro _ v hv
      cases hv
    · intro _
      exact ⟨[], .nil, fun k => rfl⟩
  | cons v vs ih =>
    rw [List.forall_mem_cons, ← ih]
    constructor
    · rintro ⟨ws, hR, hsame⟩
      cases hR with
      | @cons _ w _ ws hv hvs =>
        have hcons : ∀ k, view pool k w = view pool k v ∧
            ws.map (view pool k) = vs.map (view pool k) := fun k => List.cons.inj (hsame k)
        exact ⟨⟨w, hv, fun k => (hcons k).1⟩, ws, hvs, fun k => (hcons k).2⟩
    · rintro ⟨⟨w, hv, hsame⟩, ws, hvs, hsames⟩
      refine ⟨w :: ws, .cons hv hvs, fun k => ?_⟩
      rw [List.map_cons, List.map_cons, hsame k, hsames k]

/-! ## One level -/

section Level

variable {convert : String → TValue (Table F) F → Except Stop (Option (Value F))}

/-- A value, pushed and converted, gives what it gave. -/
def Returns (lua : LuaNumbers F) (pool : DescriptorPool F)
    (convert : String → TValue (Table F) F → Except Stop (Option (Value F))) (n : Nat)
    (ftype : FieldType F) (v : Value F) : Prop :=
  ∃ w, toValue lua pool convert ftype (luaValue pool n v) = .ok (some w) ∧ SameGetters pool w v

/-- It is converted to something. -/
def Passes (lua : LuaNumbers F) (pool : DescriptorPool F)
    (convert : String → TValue (Table F) F → Except Stop (Option (Value F))) (n : Nat)
    (ftype : FieldType F) (v : Value F) : Prop :=
  ∃ w, toValue lua pool convert ftype (luaValue pool n v) = .ok (some w)

/-- **A field** gives what it gave when each of its values does. -/
theorem field_iff (hwithin : ∀ v ∈ fd.getters (set fd.name), Within pool n v) :
    (∃ vs, convertField lua pool Table.entries convert fd
          (luaField (luaValue pool n) fd (set fd.name)) [] = .ok (some vs) ∧
        ∀ k, (fd.getters vs).map (view pool k) = (fd.getters (set fd.name)).map (view pool k)) ↔
      ∀ v ∈ fd.getters (set fd.name), Returns lua pool convert n fd.type v := by
  cases hrep : fd.is_repeated with
  | true =>
    have hforall : ∀ ws, List.Forall₂ (fun (e : LuaKey × TValue (Table F) F) w =>
        toValue lua pool convert fd.type e.2 = .ok (some w))
        (indexed 1 ((set fd.name).map (luaValue pool n))) ws ↔
        List.Forall₂ (fun v w => toValue lua pool convert fd.type (luaValue pool n v) =
          .ok (some w)) (set fd.name) ws := by
      intro ws
      rw [forall₂_indexed (R := fun x w => toValue lua pool convert fd.type x = .ok (some w)),
        List.forall₂_map_left_iff]
    simp only [luaField, hrep, if_true, convertField_repeated hrep, Table.entries,
      addValues_eq_ok, List.nil_append, exists_eq_left', hforall, getters_of_repeated hrep]
    exact exists_same_iff
  | false =>
    have hmem : (set fd.name).head?.getD fd.default_value ∈ fd.getters (set fd.name) :=
      head_mem_getters hrep
    simp only [luaField, hrep, Bool.false_eq_true, if_false, getters_of_singular hrep,
      convertField_singular hrep (luaValue_ne_nil (hwithin _ hmem)), List.forall_mem_singleton]
    constructor
    · rintro ⟨vs, hrun, hsame⟩
      obtain ⟨value, hvalue, heq⟩ := bind_eq_ok.mp hrun
      cases value with
      | none => cases heq
      | some w =>
        cases heq
        exact ⟨w, hvalue, fun k => List.head_eq_of_cons_eq (hsame k)⟩
    · rintro ⟨w, hw, hsame⟩
      refine ⟨[w], by rw [hw]; rfl, fun k => ?_⟩
      show [view pool k w] = [view pool k _]
      rw [hsame k]

theorem lookup_field {fields : List (FieldDescriptor F)}
    {f : FieldDescriptor F → TValue (Table F) F} (hnodup : (fields.map (·.name)).Nodup)
    (hfd : fd ∈ fields) :
    rawget Table.entries (.mk (fields.map fun fd => (.string fd.name, f fd))) (.string fd.name) =
      f fd := by
  rw [rawget, Table.entries]
  induction fields with
  | nil => cases hfd
  | cons fd' fields ih =>
    rw [List.map_cons, List.nodup_cons] at hnodup
    rw [List.map_cons]
    rcases List.mem_cons.mp hfd with rfl | hfd
    · rw [List.lookup_cons_self]
      rfl
    · have hne : (LuaKey.string fd.name == LuaKey.string fd'.name) = false := by
        rw [beq_eq_false_iff_ne, Ne, LuaKey.string.injEq]
        intro heq
        exact hnodup.1 (heq ▸ List.mem_map_of_mem hfd)
      rw [List.lookup_cons, hne]
      exact ih hnodup.2 hfd

/-- A field is converted when each of its values is. -/
theorem field_passes_iff (hwithin : ∀ v ∈ fd.getters (set fd.name), Within pool n v) :
    (∃ vs, convertField lua pool Table.entries convert fd
        (luaField (luaValue pool n) fd (set fd.name)) [] = .ok (some vs)) ↔
      ∀ v ∈ fd.getters (set fd.name), Passes lua pool convert n fd.type v := by
  cases hrep : fd.is_repeated with
  | true =>
    simp only [luaField, hrep, if_true, convertField_repeated hrep, Table.entries,
      addValues_accepts_iff, getters_of_repeated hrep]
    rw [indexed_forall (P := fun x => ∃ w, toValue lua pool convert fd.type x = .ok (some w))]
    exact List.forall_mem_map
  | false =>
    have hmem : (set fd.name).head?.getD fd.default_value ∈ fd.getters (set fd.name) :=
      head_mem_getters hrep
    simp only [luaField, hrep, Bool.false_eq_true, if_false, getters_of_singular hrep,
      convertField_singular hrep (luaValue_ne_nil (hwithin _ hmem)), List.forall_mem_singleton]
    constructor
    · rintro ⟨vs, hrun⟩
      obtain ⟨value, hvalue, heq⟩ := bind_eq_ok.mp hrun
      cases value with
      | none => cases heq
      | some w => exact ⟨w, hvalue⟩
    · rintro ⟨w, hw⟩
      exact ⟨[w], by rw [hw]; rfl⟩

/-- The table a message is pushed as. -/
theorem luaValue_message (hd : pool.findMessageTypeByName type = some d) :
    luaValue pool (n + 1) (.message type set) = .table (.mk (d.fields.map fun fd =>
      (.string fd.name, luaField (luaValue pool n) fd (set fd.name)))) := by
  rw [luaValue, hd]

/-- All members of a oneof are in the table, so that each but the last is cleared. -/
theorem cleared_iff (hwithin : ∀ fd ∈ d.fields, ∀ v ∈ fd.getters (set fd.name), Within pool n v) :
    Cleared Table.entries (.mk (d.fields.map fun fd =>
      (.string fd.name, luaField (luaValue pool n) fd (set fd.name)))) d.fields fd ↔
      d.HasLater fd := by
  refine exists_congr fun fd' => and_congr_right fun hsub => and_iff_left ?_
  have hfd' : fd' ∈ d.fields := hsub.subset (.tail _ (.head _))
  rw [lookup_field d.nodup hfd']
  exact luaField_ne_nil (hwithin fd' hfd')

/-- A member of a oneof has one value. -/
theorem HasLater.singular (hfd : fd ∈ d.fields) (h : d.HasLater fd) : fd.is_repeated = false := by
  obtain ⟨fd', -, hsome, -⟩ := h
  have hlabel := d.oneofs fd hfd hsome
  unfold FieldDescriptor.is_repeated
  rw [hlabel]
  rfl

/-- **A message** gives what it gave when each value of its fields does, or is
cleared and gave its default. -/
theorem message_iff {n' : Nat} (hd : pool.findMessageTypeByName type = some d)
    (hwithin : ∀ fd ∈ d.fields, ∀ v ∈ fd.getters (set fd.name), Within pool n v) :
    (∃ m, luaTableToProtobuf lua pool Table.entries (n' + 1) type
          (luaValue pool (n + 1) (.message type set)) = .ok (some m) ∧
        SameGetters pool m (.message type set)) ↔
      ∀ fd ∈ d.fields,
        (¬ d.HasLater fd → ∀ v ∈ fd.getters (set fd.name),
          Returns lua pool (luaTableToProtobuf lua pool Table.entries n') n fd.type v) ∧
        (d.HasLater fd → ∀ v ∈ fd.getters (set fd.name),
          Passes lua pool (luaTableToProtobuf lua pool Table.entries n') n fd.type v ∧
            SameGetters pool fd.default_value v) := by
  rw [luaValue_message hd, luaTableToProtobuf_fields hd]
  simp only [sameGetters_message hd]
  rw [convertFields_iff (Q := fun fd vs => ∀ k,
    (fd.getters vs).map (view pool k) = (fd.getters (set fd.name)).map (view pool k)) d.nodup
    (List.Subset.refl _) fun _ _ => rfl]
  refine forall₂_congr fun fd hfd => ?_
  rw [lookup_field d.nodup hfd, cleared_iff hwithin]
  by_cases hlater : d.HasLater fd
  · have hrep := HasLater.singular hfd hlater
    simp only [hlater, not_true_eq_false, false_implies, true_implies, true_and]
    rw [exists_and_right, field_passes_iff (hwithin fd hfd)]
    simp only [getters_of_singular hrep, List.forall_mem_singleton, List.map_cons, List.map_nil,
      List.head?_nil, Option.getD_none, List.cons.injEq, and_true]
    rfl
  · simp only [hlater, not_false_eq_true, true_implies, false_implies, and_true]
    exact field_iff (hwithin fd hfd)

/-- **A message** is converted when each value of its fields is. -/
theorem message_passes_iff {n' : Nat} (hd : pool.findMessageTypeByName type = some d)
    (hwithin : ∀ fd ∈ d.fields, ∀ v ∈ fd.getters (set fd.name), Within pool n v) :
    (∃ m, luaTableToProtobuf lua pool Table.entries (n' + 1) type
          (luaValue pool (n + 1) (.message type set)) = .ok (some m)) ↔
      ∀ fd ∈ d.fields, ∀ v ∈ fd.getters (set fd.name),
        Passes lua pool (luaTableToProtobuf lua pool Table.entries n') n fd.type v := by
  rw [luaValue_message hd, luaTableToProtobuf_converts hd]
  refine forall₂_congr fun fd hfd => ?_
  rw [lookup_field d.nodup hfd]
  exact field_passes_iff (hwithin fd hfd)

end Level

/-! ## Scalars -/

/-- What is stored of an integer: the nearest double, if it fits. -/
theorem checkStored_eq (hlua : Doubles lua) {low high m : Int} (hlow : -2 ^ 63 ≤ low)
    (hhigh : high ≤ 2 ^ 64) (hm : low ≤ m ∧ m < high) {x : TValue T F}
    (hx : luaLChecknumber lua x = .ok (lua.ofInteger m)) :
    checkStored lua low high x =
      if low ≤ toDouble m ∧ toDouble m < high then .ok (toDouble m) else .error .undefined := by
  simp only [checkStored, bind, Except.bind, hx,
    hlua.truncate_ofInteger m (by omega) (by omega)]

/-- It is stored as it was when it is a double. -/
theorem checkStored_same (hlua : Doubles lua) {low high m : Int} (hlow : -2 ^ 63 ≤ low)
    (hhigh : high ≤ 2 ^ 64) (hm : low ≤ m ∧ m < high) {x : TValue T F}
    (hx : luaLChecknumber lua x = .ok (lua.ofInteger m)) :
    checkStored lua low high x = .ok m ↔ IsDouble m := by
  rw [← toDouble_eq_iff, checkStored_eq hlua hlow hhigh hm hx]
  constructor
  · intro h
    split at h
    · exact Except.ok.inj h
    · cases h
  · intro h
    rw [h, if_pos hm]

/-- And as something when the nearest double fits. -/
theorem checkStored_ok (hlua : Doubles lua) {low high m : Int} (hlow : -2 ^ 63 ≤ low)
    (hhigh : high ≤ 2 ^ 64) (hm : low ≤ m ∧ m < high) {x : TValue T F}
    (hx : luaLChecknumber lua x = .ok (lua.ofInteger m)) :
    (∃ m', checkStored lua low high x = .ok m') ↔ low ≤ toDouble m ∧ toDouble m < high := by
  rw [checkStored_eq hlua hlow hhigh hm hx]
  split
  · exact iff_of_true ⟨_, rfl⟩ ‹_›
  · refine iff_of_false ?_ ‹_›
    rintro ⟨m', h⟩
    cases h

/-- A text is read as the number it was made from. -/
theorem luaLChecknumber_decimal (hlua : Doubles lua) {m : Int} (hlow : -2 ^ 63 ≤ m)
    (hhigh : m < 2 ^ 64) :
    luaLChecknumber lua (.string (decimal m) : TValue T F) = .ok (lua.ofInteger m) := by
  simp only [luaLChecknumber, hlua.str2num_decimal m hlow hhigh]

/-- **A scalar** comes back as it was exactly when it survives. -/
theorem toScalar_iff (hlua : Doubles lua) {cpp_type : CppType} {s : Scalar F}
    (hs : s.Fits cpp_type) (hdouble : cpp_type ≠ .DOUBLE) (hfloat : cpp_type ≠ .FLOAT) :
    toScalar lua cpp_type (luaScalar s) = .ok s ↔ s.Survives cpp_type := by
  -- a number that has come through the check, in the constructor of its kind
  have hstored : ∀ {x : Except Stop Int} {con : Int → Scalar F} {m : Int},
      (∀ m', con m' = con m → m' = m) →
        ((x >>= fun m => .ok (con m)) = .ok (con m) ↔ x = .ok m) := by
    intro x con m hcon
    rw [bind_eq_ok]
    constructor
    · rintro ⟨m', rfl, heq⟩
      rw [hcon m' (Except.ok.inj heq)]
    · intro hx
      exact ⟨m, hx, rfl⟩
  cases cpp_type with
  | DOUBLE => exact absurd rfl hdouble
  | FLOAT => exact absurd rfl hfloat
  | INT64 =>
    cases s with
    | int64 m =>
      exact (hstored fun m' h => Scalar.int64.inj h).trans
        (checkStored_same hlua (by decide) (by decide) hs
          (luaLChecknumber_decimal hlua hs.1 (Int.lt_trans hs.2 (by decide))))
    | _ => exact hs.elim
  | UINT64 =>
    cases s with
    | uint64 m =>
      exact (hstored fun m' h => Scalar.uint64.inj h).trans
        (checkStored_same hlua (by decide) (by decide) hs
          (luaLChecknumber_decimal hlua (Int.le_trans (by decide) hs.1) hs.2))
    | _ => exact hs.elim
  | ENUM numbers =>
    cases s with
    | enum m =>
      have hm : -2 ^ 31 ≤ m ∧ m < 2 ^ 31 := hs
      have hcheck : checkStored lua (-2 ^ 31) (2 ^ 31) (.integer m : TValue (Table F) F) = .ok m :=
        (checkStored_same hlua (by decide) (by decide) hs rfl).mpr (isDouble_of_lt (by omega))
      rw [luaScalar, toScalar, hcheck]
      show (if m ∈ numbers then Except.ok (Scalar.enum m) else .error Stop.undefined) = _ ↔
        m ∈ numbers
      split
      · exact iff_of_true rfl ‹_›
      · exact iff_of_false (fun h => by cases h) ‹_›
    | _ => exact hs.elim
  | INT32 =>
    cases s with
    | int32 m =>
      have hm : -2 ^ 31 ≤ m ∧ m < 2 ^ 31 := hs
      refine iff_of_true ((hstored fun m' h => Scalar.int32.inj h).mpr ?_) trivial
      exact (checkStored_same hlua (by decide) (by decide) hs rfl).mpr (isDouble_of_lt (by omega))
    | _ => exact hs.elim
  | UINT32 =>
    cases s with
    | uint32 m =>
      have hm : 0 ≤ m ∧ m < 2 ^ 32 := hs
      refine iff_of_true ((hstored fun m' h => Scalar.uint32.inj h).mpr ?_) trivial
      exact (checkStored_same hlua (by decide) (by decide) hs rfl).mpr (isDouble_of_lt (by omega))
    | _ => exact hs.elim
  | STRING =>
    cases s with
    | string s => exact iff_of_true rfl trivial
    | _ => exact hs.elim
  | BOOL =>
    cases s with
    | bool b => exact iff_of_true rfl trivial
    | _ => exact hs.elim

/-- What comes back as it was has been converted. -/
theorem Scalar.Survives.converts {cpp_type : CppType} {s : Scalar F} (hs : s.Fits cpp_type)
    (h : s.Survives cpp_type) : s.Converts cpp_type := by
  cases cpp_type <;> cases s <;> first | exact hs.elim | exact trivial | skip
  · rename_i m
    rw [Scalar.Converts, toDouble_eq_iff.mpr h]
    exact hs
  · rename_i m
    rw [Scalar.Converts, toDouble_eq_iff.mpr h]
    exact hs
  · exact h

/-- **A scalar** is converted, to itself or to another. -/
theorem toScalar_ok_iff (hlua : Doubles lua) {cpp_type : CppType} {s : Scalar F}
    (hs : s.Fits cpp_type) (hdouble : cpp_type ≠ .DOUBLE) (hfloat : cpp_type ≠ .FLOAT) :
    (∃ s', toScalar lua cpp_type (luaScalar s) = .ok s') ↔ s.Converts cpp_type := by
  have hstored : ∀ {x : Except Stop Int} {con : Int → Scalar F},
      (∃ s', (x >>= fun m => .ok (con m)) = .ok s') ↔ ∃ m, x = .ok m := by
    intro x con
    constructor
    · rintro ⟨s', h⟩
      obtain ⟨m, hm, -⟩ := bind_eq_ok.mp h
      exact ⟨m, hm⟩
    · rintro ⟨m, hm⟩
      exact ⟨con m, bind_eq_ok.mpr ⟨m, hm, rfl⟩⟩
  -- what survives is converted, and only 64 bits can be converted to others
  have hkept : s.Survives cpp_type → ∃ s', toScalar lua cpp_type (luaScalar s) = .ok s' :=
    fun h => ⟨s, (toScalar_iff hlua hs hdouble hfloat).mpr h⟩
  cases cpp_type with
  | DOUBLE => exact absurd rfl hdouble
  | FLOAT => exact absurd rfl hfloat
  | INT64 =>
    cases s with
    | int64 m =>
      exact hstored.trans (checkStored_ok hlua (by decide) (by decide) hs
        (luaLChecknumber_decimal hlua hs.1 (Int.lt_trans hs.2 (by decide))))
    | _ => exact hs.elim
  | UINT64 =>
    cases s with
    | uint64 m =>
      exact hstored.trans (checkStored_ok hlua (by decide) (by decide) hs
        (luaLChecknumber_decimal hlua (Int.le_trans (by decide) hs.1) hs.2))
    | _ => exact hs.elim
  | ENUM numbers =>
    cases s with
    | enum m =>
      refine ⟨fun h => ?_, hkept⟩
      have hm : -2 ^ 31 ≤ m ∧ m < 2 ^ 31 := hs
      have hcheck : checkStored lua (-2 ^ 31) (2 ^ 31) (.integer m : TValue (Table F) F) = .ok m :=
        (checkStored_same hlua (by decide) (by decide) hs rfl).mpr (isDouble_of_lt (by omega))
      obtain ⟨s', hs'⟩ := h
      rw [luaScalar, toScalar, hcheck] at hs'
      change (if m ∈ numbers then Except.ok (Scalar.enum m) else .error Stop.undefined) = _ at hs'
      split at hs'
      · assumption
      · cases hs'
    | _ => exact hs.elim
  | INT32 | UINT32 | STRING | BOOL =>
    cases s <;> first | exact hs.elim | exact ⟨fun _ => trivial, fun _ => hkept trivial⟩

/-! ## All levels -/

section Trips

variable {convert : String → TValue (Table F) F → Except Stop (Option (Value F))}

/-- What a field of a plain type is. -/
def PlainField (pool : DescriptorPool F) : FieldType F → Prop
  | .scalar cpp_type _ _ => cpp_type ≠ .DOUBLE ∧ cpp_type ≠ .FLOAT
  | .message type => Plain pool type

theorem Plain.inv (h : Plain pool type) (hd : pool.findMessageTypeByName type = some d) :
    d.name = type ∧ ∀ fd ∈ d.fields, PlainField pool fd.type := by
  cases h with
  | mk hd' hname hscalar hmessage =>
    rw [hd, Option.some.injEq] at hd'
    subst hd'
    refine ⟨hname, fun fd hfd => ?_⟩
    cases htype : fd.type with
    | scalar cpp_type s fits => exact hscalar fd hfd cpp_type s fits htype
    | message type' => exact hmessage fd hfd type' htype

theorem returns_scalar (hlua : Doubles lua) {cpp_type : CppType} {s dv : Scalar F}
    {fits : dv.Fits cpp_type} (hs : s.Fits cpp_type)
    (hplain : PlainField pool (.scalar cpp_type dv fits)) :
    Returns lua pool convert n (.scalar cpp_type dv fits) (.scalar s) ↔ s.Survives cpp_type := by
  rw [← toScalar_iff hlua hs hplain.1 hplain.2, Returns, luaValue.eq_def]
  constructor
  · rintro ⟨w, hw, hsame⟩
    obtain ⟨s', hs', heq⟩ := bind_eq_ok.mp hw
    cases heq
    rw [hs', sameGetters_scalar.mp hsame]
  · intro h
    exact ⟨.scalar s, bind_eq_ok.mpr ⟨s, h, rfl⟩, fun k => rfl⟩

theorem returns_message {n' : Nat} (hd : pool.findMessageTypeByName type = some d)
    (hname : d.name = type) :
    Returns lua pool (luaTableToProtobuf lua pool Table.entries n') n (.message type) v ↔
      ∃ m, luaTableToProtobuf lua pool Table.entries n' type (luaValue pool n v) = .ok (some m) ∧
        SameGetters pool m v := by
  simp only [Returns, toValue_message hd hname]

theorem passes_message {n' : Nat} (hd : pool.findMessageTypeByName type = some d)
    (hname : d.name = type) :
    Passes lua pool (luaTableToProtobuf lua pool Table.entries n') n (.message type) v ↔
      ∃ m, luaTableToProtobuf lua pool Table.entries n' type (luaValue pool n v) =
        .ok (some m) := by
  simp only [Passes, toValue_message hd hname]

theorem passes_scalar (hlua : Doubles lua) {cpp_type : CppType} {s dv : Scalar F}
    {fits : dv.Fits cpp_type} (hs : s.Fits cpp_type)
    (hplain : PlainField pool (.scalar cpp_type dv fits)) :
    Passes lua pool convert n (.scalar cpp_type dv fits) (.scalar s) ↔ s.Converts cpp_type := by
  rw [← toScalar_ok_iff hlua hs hplain.1 hplain.2, Passes, luaValue.eq_def]
  constructor
  · rintro ⟨w, hw⟩
    obtain ⟨s', hs', -⟩ := bind_eq_ok.mp hw
    exact ⟨s', hs'⟩
  · rintro ⟨s', hs'⟩
    exact ⟨.scalar s', bind_eq_ok.mpr ⟨s', hs', rfl⟩⟩

/-- What has been converted converts. -/
theorem converts_of_passes (hlua : Doubles lua) {n' : Nat} (hplain : PlainField pool ftype)
    (hfits : Fits pool ftype v) (hwithin : Within pool n v)
    (h : Passes lua pool (luaTableToProtobuf lua pool Table.entries n') n ftype v) :
    Converts pool ftype v := by
  induction n generalizing n' ftype v with
  | zero =>
    cases hfits with
    | scalar hs => exact .scalar ((passes_scalar hlua hs hplain).mp h)
    | message hd _ _ => cases hwithin
  | succ n ih =>
    cases hfits with
    | scalar hs => exact .scalar ((passes_scalar hlua hs hplain).mp h)
    | @message type d set hd hset hone =>
      obtain ⟨hname, hfields⟩ := hplain.inv hd
      obtain ⟨d', hd', hgetters⟩ := hwithin
      rw [hd, Option.some.injEq] at hd'
      subst hd'
      have hrun := (passes_message hd hname).mp h
      cases n' with
      | zero =>
        obtain ⟨m, hm⟩ := hrun
        cases hm
      | succ n' =>
        have hall := (message_passes_iff hd hgetters).mp hrun
        exact .message hd fun fd hfd v hv => ih (hfields fd hfd)
          ((Fits.message hd hset hone).getters hd hfd v hv) (hgetters fd hfd v hv)
          (hall fd hfd v hv)

theorem passes_of_converts (hlua : Doubles lua) (hplain : PlainField pool ftype)
    (hfits : Fits pool ftype v) (hwithin : Within pool n v) (h : Converts pool ftype v) :
    Passes lua pool (luaTableToProtobuf lua pool Table.entries n) n ftype v := by
  induction n generalizing ftype v with
  | zero =>
    cases h with
    | scalar hs =>
      cases hfits with
      | scalar hfit => exact (passes_scalar hlua hfit hplain).mpr hs
    | message hd _ => cases hwithin
  | succ n ih =>
    cases h with
    | scalar hs =>
      cases hfits with
      | scalar hfit => exact (passes_scalar hlua hfit hplain).mpr hs
    | @message type d set hd hset =>
      obtain ⟨hname, hfields⟩ := hplain.inv hd
      obtain ⟨d', hd', hgetters⟩ := hwithin
      rw [hd, Option.some.injEq] at hd'
      subst hd'
      refine (passes_message hd hname).mpr
        ((message_passes_iff hd hgetters).mpr fun fd hfd v hv => ?_)
      exact ih (hfields fd hfd) (hfits.getters hd hfd v hv) (hgetters fd hfd v hv)
        (hset fd hfd v hv)

/-- What has come back as it was has survived. -/
theorem survives_of_returns (hlua : Doubles lua) {n' : Nat} (hplain : PlainField pool ftype)
    (hfits : Fits pool ftype v) (hwithin : Within pool n v)
    (h : Returns lua pool (luaTableToProtobuf lua pool Table.entries n') n ftype v) :
    Survives pool ftype v := by
  induction n generalizing n' ftype v with
  | zero =>
    cases hfits with
    | scalar hs => exact .scalar ((returns_scalar hlua hs hplain).mp h)
    | message hd _ _ => cases hwithin
  | succ n ih =>
    cases hfits with
    | scalar hs => exact .scalar ((returns_scalar hlua hs hplain).mp h)
    | @message type d set hd hset hone =>
      obtain ⟨hname, hfields⟩ := hplain.inv hd
      obtain ⟨d', hd', hgetters⟩ := hwithin
      rw [hd, Option.some.injEq] at hd'
      subst hd'
      have hrun := (returns_message hd hname).mp h
      cases n' with
      | zero =>
        obtain ⟨m, hm, -⟩ := hrun
        cases hm
      | succ n' =>
        have hall := (message_iff hd hgetters).mp hrun
        have hfit : ∀ fd ∈ d.fields, ∀ v ∈ fd.getters (set fd.name), Fits pool fd.type v :=
          fun fd hfd v hv => (Fits.message hd hset hone).getters hd hfd v hv
        refine .message hd (fun fd hfd hlater v hv => ?_) fun fd hfd hlater v hv => ?_
        · exact ih (hfields fd hfd) (hfit fd hfd v hv) (hgetters fd hfd v hv)
            ((hall fd hfd).1 hlater v hv)
        · obtain ⟨hpasses, hsame⟩ := (hall fd hfd).2 hlater v hv
          exact ⟨converts_of_passes hlua (hfields fd hfd) (hfit fd hfd v hv) (hgetters fd hfd v hv)
            hpasses, hsame⟩

/-- What survives comes back as it was. -/
theorem returns_of_survives (hlua : Doubles lua) (hplain : PlainField pool ftype)
    (hfits : Fits pool ftype v) (hwithin : Within pool n v) (h : Survives pool ftype v) :
    Returns lua pool (luaTableToProtobuf lua pool Table.entries n) n ftype v := by
  induction n generalizing ftype v with
  | zero =>
    cases h with
    | scalar hs =>
      cases hfits with
      | scalar hfit => exact (returns_scalar hlua hfit hplain).mpr hs
    | message hd _ _ => cases hwithin
  | succ n ih =>
    cases h with
    | scalar hs =>
      cases hfits with
      | scalar hfit => exact (returns_scalar hlua hfit hplain).mpr hs
    | @message type d set hd hset hlater =>
      obtain ⟨hname, hfields⟩ := hplain.inv hd
      obtain ⟨d', hd', hgetters⟩ := hwithin
      rw [hd, Option.some.injEq] at hd'
      subst hd'
      refine (returns_message hd hname).mpr ((message_iff hd hgetters).mpr fun fd hfd => ?_)
      refine ⟨fun hlast v hv => ?_, fun hmore v hv => ?_⟩
      · exact ih (hfields fd hfd) (hfits.getters hd hfd v hv) (hgetters fd hfd v hv)
          (hset fd hfd hlast v hv)
      · obtain ⟨hconverts, hsame⟩ := hlater fd hfd hmore v hv
        exact ⟨passes_of_converts hlua (hfields fd hfd) (hfits.getters hd hfd v hv)
          (hgetters fd hfd v hv) hconverts, hsame⟩

theorem Plain.ends (h : Plain pool type) : Acc (Holds pool) type := by
  induction h with
  | @mk type d hd _ _ _ ih =>
    refine .intro _ fun type' => ?_
    rintro ⟨d', fd, hd', hfd, -, htype⟩
    rw [hd, Option.some.injEq] at hd'
    subst hd'
    exact ih fd hfd type' htype

theorem Plain.pushable (h : Plain pool type) (hfits : Fits pool (.message type) v) :
    Pushable pool v := by
  induction h generalizing v with
  | @mk type d hd hname hscalar hmessage ih =>
    have hends : Acc (Holds pool) type := (Plain.mk hd hname hscalar hmessage).ends
    cases hfits with
    | message hd' hset _ =>
      rw [hd, Option.some.injEq] at hd'
      subst hd'
      refine .message hd hends fun fd hfd v hv => ?_
      have hv' := hset fd hfd v hv
      cases htype : fd.type with
      | scalar cpp_type s fits =>
        rw [htype] at hv'
        cases hv'
        exact .scalar _
      | message type' =>
        rw [htype] at hv'
        exact ih fd hfd type' htype hv'

theorem Trips.survives (hlua : Doubles lua) (hplain : Plain pool type)
    (hfits : Fits pool (.message type) (.message type set)) (h : Trips lua pool type set) :
    Survives pool (.message type) (.message type set) := by
  obtain ⟨depth, depth', t, m, hpush, hconvert, hsame⟩ := h
  obtain ⟨d, hd⟩ := hfits.found
  obtain ⟨hname, -⟩ := hplain.inv hd
  have hempty : pushValue (pushProtoMessageTolua pool depth) (.message type set) [] = some _ :=
    hpush []
  have hwithin := within_of_push hempty
  have htable : luaValue pool depth (.message type set) = .table t :=
    (List.cons.inj (Option.some.inj ((hwithin.pushes []).symm.trans hempty))).1
  have hreturns : Returns lua pool (luaTableToProtobuf lua pool Table.entries depth') depth
      (.message type) (.message type set) :=
    (returns_message hd hname).mpr ⟨m, by rw [htable]; exact hconvert, hsame⟩
  exact survives_of_returns hlua hplain hfits hwithin hreturns

/-- **A message survives the trip** through Lua exactly when its integers of
64 bits are doubles and its enums know their numbers. -/
theorem message_trips (hlua : Doubles lua) (hplain : Plain pool type)
    (hfits : Fits pool (.message type) (.message type set)) :
    Trips lua pool type set ↔ Survives pool (.message type) (.message type set) := by
  constructor
  · exact fun h => h.survives hlua hplain hfits
  · intro h
    obtain ⟨d, hd⟩ := hfits.found
    obtain ⟨hname, -⟩ := hplain.inv hd
    obtain ⟨depth, hwithin⟩ := (hplain.pushable hfits).within
    obtain ⟨m, hconvert, hsame⟩ := (returns_message hd hname).mp
      (returns_of_survives hlua hplain hfits hwithin h)
    have hpush := hwithin.pushes
    cases depth with
    | zero => cases hwithin
    | succ depth =>
      rw [luaValue, hd] at hpush hconvert
      exact ⟨depth + 1, depth + 1, _, m, hpush, hconvert, hsame⟩

end Trips

/-! ## Samples -/

/-- Numbers that are integers, read off their decimal texts. -/
def integerLua : LuaNumbers Int where
  ofInteger := toDouble
  str2num s := (parseInt s).map toDouble
  num2str := decimal
  truncate := some
  toFloat x := x

theorem doubles_integerLua : Doubles integerLua where
  truncate_ofInteger _ _ _ := rfl
  str2num_decimal n _ _ := by
    show (parseInt (decimal n)).map toDouble = some (toDouble n)
    rw [decimal, strBytes, parseInt_toString]
    rfl

/-- `Account { required Leaf leaf; repeated uint64 tags; optional Kind kind; }`. -/
def accountType : Descriptor Int where
  name := "Account"
  fields := [⟨strBytes "leaf", .required, .message "Leaf", none⟩,
    ⟨strBytes "tags", .repeated, .scalar .UINT64 (.uint64 0) ⟨by decide, by decide⟩, none⟩,
    ⟨strBytes "kind", .optional, .scalar (.ENUM [1, 2]) (.enum 1) ⟨by decide, by decide⟩, none⟩]
  nodup := by decide +kernel
  oneofs := by simp

def accountPool : DescriptorPool Int where
  findMessageTypeByName
    | "Leaf" => some leafType
    | "Account" => some accountType
    | _ => none
  closed type d hd fd hfd type' htype := by
    split at hd
    · cases hd
      simp only [leafType, List.mem_singleton] at hfd
      rw [hfd] at htype
      cases htype
    · cases hd
      simp only [accountType, List.mem_cons, List.not_mem_nil, or_false] at hfd
      rcases hfd with rfl | rfl | rfl
      · cases htype
        rfl
      · cases htype
      · cases htype
    · cases hd

theorem plain_leaf : Plain accountPool "Leaf" := by
  refine .mk (d := leafType) rfl rfl (fun fd hfd cpp_type s fits htype => ?_)
    fun fd hfd type' htype => ?_
  · simp only [leafType, List.mem_singleton] at hfd
    rw [hfd] at htype
    cases htype
    exact ⟨by decide, by decide⟩
  · simp only [leafType, List.mem_singleton] at hfd
    rw [hfd] at htype
    cases htype

theorem plain_account : Plain accountPool "Account" := by
  refine .mk (d := accountType) rfl rfl (fun fd hfd cpp_type s fits htype => ?_)
    fun fd hfd type' htype => ?_
  · simp only [accountType, List.mem_cons, List.not_mem_nil, or_false] at hfd
    rcases hfd with rfl | rfl | rfl
    · cases htype
    · cases htype
      exact ⟨by decide, by decide⟩
    · cases htype
      exact ⟨by decide, by decide⟩
  · simp only [accountType, List.mem_cons, List.not_mem_nil, or_false] at hfd
    rcases hfd with rfl | rfl | rfl
    · cases htype
      exact plain_leaf
    · cases htype
    · cases htype

/-- A leaf with this number. -/
def leafWith (id : Int) : Bytes → List (Value Int) :=
  Function.update noneSet (strBytes "id") [.scalar (.int64 id)]

theorem fits_leaf {id : Int} (hid : -2 ^ 63 ≤ id ∧ id < 2 ^ 63) :
    Fits accountPool (.message "Leaf") (.message "Leaf" (leafWith id)) := by
  have hset : leafWith id (strBytes "id") = [.scalar (.int64 id)] := Function.update_self _ _ _
  refine .message (d := leafType) rfl (fun fd hfd v hv => ?_) fun fd hfd _ => ?_
  · simp only [leafType, List.mem_singleton] at hfd
    rw [hfd, hset] at hv
    rw [hfd, List.mem_singleton.mp hv]
    exact .scalar hid
  · simp only [leafType, List.mem_singleton] at hfd
    rw [hfd, hset]
    exact Nat.le_refl 1

/-- There are no oneofs in these types. -/
theorem not_hasLater {d : Descriptor Int} (h : ∀ fd ∈ d.fields, fd.containing_oneof = none)
    (fd : FieldDescriptor Int) : ¬ d.HasLater fd := by
  rintro ⟨fd', hsub, hsome, -⟩
  rw [h fd (hsub.subset (.head _))] at hsome
  cases hsome

theorem not_hasLater_leaf (fd : FieldDescriptor Int) : ¬ leafType.HasLater fd :=
  not_hasLater (by simp [leafType]) fd

theorem survives_leaf_iff {id : Int} :
    Survives accountPool (.message "Leaf") (.message "Leaf" (leafWith id)) ↔ IsDouble id := by
  have hset : leafWith id (strBytes "id") = [.scalar (.int64 id)] := Function.update_self _ _ _
  constructor
  · intro h
    cases h with
    | message hd hgetters =>
      cases hd
      have hid := hgetters _ (.head _) (not_hasLater_leaf _) (.scalar (.int64 id))
        (by rw [hset]; exact .head _)
      cases hid with
      | scalar hs => exact hs
  · intro hid
    refine .message (d := leafType) rfl (fun fd hfd _ v hv => ?_)
      fun fd _ hlater => absurd hlater (not_hasLater_leaf fd)
    simp only [leafType, List.mem_singleton] at hfd
    rw [hfd, hset] at hv
    rw [hfd, List.mem_singleton.mp hv]
    exact .scalar hid

/-- An account with a leaf and two tags; its kind is not set. -/
def accountSet : Bytes → List (Value Int) :=
  Function.update (Function.update noneSet (strBytes "leaf") [.message "Leaf" (leafWith (-2 ^ 63))])
    (strBytes "tags") [.scalar (.uint64 (2 ^ 63 + 2 ^ 11)), .scalar (.uint64 3)]

theorem message_trips_account : Trips integerLua accountPool "Account" accountSet := by
  have hleaf : accountSet (strBytes "leaf") = [.message "Leaf" (leafWith (-2 ^ 63))] :=
    (Function.update_of_ne (by decide +kernel) _ _).trans (Function.update_self _ _ _)
  have htags : accountSet (strBytes "tags") =
      [.scalar (.uint64 (2 ^ 63 + 2 ^ 11)), .scalar (.uint64 3)] := Function.update_self _ _ _
  have hkind : accountSet (strBytes "kind") = [] :=
    (Function.update_of_ne (by decide +kernel) _ _).trans
      (Function.update_of_ne (by decide +kernel) _ _)
  have hfits : Fits accountPool (.message "Account") (.message "Account" accountSet) := by
    refine .message (d := accountType) rfl (fun fd hfd v hv => ?_) fun fd hfd hlabel => ?_
    · simp only [accountType, List.mem_cons, List.not_mem_nil, or_false] at hfd
      rcases hfd with rfl | rfl | rfl
      · rw [hleaf] at hv
        rw [List.mem_singleton.mp hv]
        exact fits_leaf ⟨by decide, by decide⟩
      · rw [htags] at hv
        simp only [List.mem_cons, List.not_mem_nil, or_false] at hv
        rcases hv with rfl | rfl
        · exact .scalar ⟨by decide, by decide⟩
        · exact .scalar ⟨by decide, by decide⟩
      · rw [hkind] at hv
        cases hv
    · simp only [accountType, List.mem_cons, List.not_mem_nil, or_false] at hfd
      rcases hfd with rfl | rfl | rfl
      · rw [hleaf]
        exact Nat.le_refl 1
      · exact absurd rfl hlabel
      · rw [hkind]
        exact Nat.zero_le 1
  refine (message_trips doubles_integerLua plain_account hfits).mpr ?_
  refine .message (d := accountType) rfl (fun fd hfd _ v hv => ?_)
    fun fd _ hlater => absurd hlater (not_hasLater (by simp [accountType]) fd)
  simp only [accountType, List.mem_cons, List.not_mem_nil, or_false] at hfd
  rcases hfd with rfl | rfl | rfl
  · rw [hleaf] at hv
    rw [List.mem_singleton.mp hv]
    exact survives_leaf_iff.mpr (by decide)
  · rw [htags] at hv
    simp only [FieldDescriptor.getters, FieldDescriptor.is_repeated, decide_true, if_true,
      List.mem_cons, List.not_mem_nil, or_false] at hv
    rcases hv with rfl | rfl
    · exact .scalar (show IsDouble _ by decide)
    · exact .scalar (show IsDouble _ by decide)
  · rw [hkind] at hv
    rw [List.mem_singleton.mp hv]
    exact .scalar (show (1 : Int) ∈ [1, 2] by decide)

/-- 2 ^ 53 + 1 comes back as another number. -/
theorem message_trips_large : Plain accountPool "Leaf" ∧
    Fits accountPool (.message "Leaf") (.message "Leaf" (leafWith (2 ^ 53 + 1))) ∧
    ¬ Trips integerLua accountPool "Leaf" (leafWith (2 ^ 53 + 1)) := by
  have hfits : Fits accountPool (.message "Leaf") (.message "Leaf" (leafWith (2 ^ 53 + 1))) :=
    fits_leaf ⟨by decide, by decide⟩
  refine ⟨plain_leaf, hfits, fun h => ?_⟩
  have hdouble := survives_leaf_iff.mp (h.survives doubles_integerLua plain_leaf hfits)
  exact absurd hdouble (by decide)

/-- `Choice { oneof pick { int32 a; int32 b; } }`. -/
def choiceType : Descriptor Int where
  name := "Choice"
  fields := [⟨strBytes "a", .optional, .scalar .INT32 (.int32 0) ⟨by decide, by decide⟩, some 0⟩,
    ⟨strBytes "b", .optional, .scalar .INT32 (.int32 0) ⟨by decide, by decide⟩, some 0⟩]
  nodup := by decide +kernel
  oneofs := by simp

def choicePool : DescriptorPool Int where
  findMessageTypeByName
    | "Choice" => some choiceType
    | _ => none
  closed type d hd fd hfd type' htype := by
    split at hd
    · cases hd
      simp only [choiceType, List.mem_cons, List.not_mem_nil, or_false] at hfd
      rcases hfd with rfl | rfl <;> cases htype
    · cases hd

/-- A choice of the first is lost: the second is pushed too, and set after it. -/
theorem choice_lost {m : Int} (hm : -2 ^ 31 ≤ m ∧ m < 2 ^ 31) (hne : m ≠ 0) :
    ¬ Trips integerLua choicePool "Choice"
      (Function.update noneSet (strBytes "a") [.scalar (.int32 m)]) := by
  have ha : Function.update noneSet (strBytes "a") [Value.scalar (F := Int) (.int32 m)]
      (strBytes "a") = [.scalar (.int32 m)] := Function.update_self _ _ _
  have hb : Function.update noneSet (strBytes "a") [Value.scalar (F := Int) (.int32 m)]
      (strBytes "b") = [] := Function.update_of_ne (by decide +kernel) _ _
  have hplain : Plain choicePool "Choice" := by
    refine .mk (d := choiceType) rfl rfl (fun fd hfd cpp_type s fits htype => ?_)
      fun fd hfd type' htype => ?_ <;>
      simp only [choiceType, List.mem_cons, List.not_mem_nil, or_false] at hfd <;>
      rcases hfd with rfl | rfl <;> cases htype
    · exact ⟨by decide, by decide⟩
    · exact ⟨by decide, by decide⟩
  have hfits : Fits choicePool (.message "Choice") (.message "Choice"
      (Function.update noneSet (strBytes "a") [.scalar (.int32 m)])) := by
    refine .message (d := choiceType) rfl (fun fd hfd v hv => ?_) fun fd hfd _ => ?_ <;>
      simp only [choiceType, List.mem_cons, List.not_mem_nil, or_false] at hfd
    · rcases hfd with rfl | rfl
      · rw [ha] at hv
        rw [List.mem_singleton.mp hv]
        exact .scalar hm
      · rw [hb] at hv
        cases hv
    · rcases hfd with rfl | rfl
      · rw [ha]
        exact Nat.le_refl 1
      · rw [hb]
        exact Nat.zero_le 1
  intro h
  cases h.survives doubles_integerLua hplain hfits with
  | message hd _ hlater =>
    cases hd
    have hsame := (hlater _ (.head _) ⟨_, List.Sublist.refl _, rfl, rfl⟩ (.scalar (.int32 m))
      (by rw [ha]; exact .head _)).2
    have hzero : Scalar.int32 (F := Int) 0 = .int32 m := sameGetters_scalar.mp hsame
    exact hne (Scalar.int32.inj hzero).symm

end LibuvServer.Mylua.Proto
