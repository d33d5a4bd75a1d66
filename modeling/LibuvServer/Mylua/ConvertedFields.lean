import LibuvServer.Lib.Runs
import LibuvServer.Mylua.PushedMessages
import Mathlib.Data.List.Forall2
import Mathlib.Tactic.Common

/-!
# The fields of a conversion

What `luaTableToProtobuf` makes of a table, field by field. A field that is
set takes the place of the others in its oneof, so that what is left of a
field depends on those after it (`convertFields_iff`).
-/

namespace LibuvServer.Mylua.Proto

open LibuvServer.Lib LibuvServer.Netbus

variable {F T : Type} {pool : DescriptorPool F} {type : String} {d : Descriptor F}
  {fd : FieldDescriptor F} {ftype : FieldType F} {v w : Value F} {vs : List (Value F)}
  {set : Bytes → List (Value F)} {n k : Nat} {lua : LuaNumbers F}

/-! ## Values -/

section Loops

variable {heap : LuaHeap T F} {convert : String → TValue T F → Except Stop (Option (Value F))}

theorem addValues_eq_ok {entries : List (LuaKey × TValue T F)} {old : List (Value F)} :
    addValues lua pool convert ftype entries old = .ok (some vs) ↔
      ∃ ws, vs = old ++ ws ∧
        List.Forall₂ (fun e w => toValue lua pool convert ftype e.2 = .ok (some w)) entries ws := by
  induction entries generalizing old with
  | nil =>
    rw [addValues]
    constructor
    · intro h
      cases h
      exact ⟨[], (List.append_nil _).symm, .nil⟩
    · rintro ⟨ws, rfl, h⟩
      cases h
      rw [List.append_nil]
  | cons e entries ih =>
    obtain ⟨key, x⟩ := e
    rw [addValues, bind_eq_ok]
    constructor
    · rintro ⟨value, hvalue, hrest⟩
      cases value with
      | none => cases hrest
      | some value =>
        obtain ⟨ws, rfl, hws⟩ := ih.mp hrest
        exact ⟨value :: ws, by rw [List.append_assoc]; rfl, .cons hvalue hws⟩
    · rintro ⟨ws, rfl, h⟩
      cases h with
      | @cons _ w _ ws hvalue hws =>
        exact ⟨some w, hvalue, ih.mpr ⟨ws, by rw [List.append_assoc]; rfl, hws⟩⟩

/-- The loop accepts what it accepts one by one. -/
theorem addValues_accepts_iff {ftype : FieldType F} {entries : List (LuaKey × TValue T F)} :
    (∃ vs', addValues lua pool convert ftype entries vs = .ok (some vs')) ↔
      ∀ e ∈ entries, ∃ w, toValue lua pool convert ftype e.2 = .ok (some w) := by
  induction entries generalizing vs with
  | nil => exact iff_of_true ⟨vs, rfl⟩ fun e he => by cases he
  | cons e entries ih =>
    obtain ⟨key, x⟩ := e
    rw [List.forall_mem_cons]
    simp only [addValues, bind_eq_ok]
    constructor
    · rintro ⟨vs', value, hvalue, hrest⟩
      cases value with
      | none => cases hrest
      | some w => exact ⟨⟨w, hvalue⟩, ih.mp ⟨vs', hrest⟩⟩
    · rintro ⟨⟨w, hw⟩, hrest⟩
      obtain ⟨vs', hvs'⟩ := ih.mpr hrest
      exact ⟨vs', some w, hw, hvs'⟩

theorem indexed_forall {P : TValue T F → Prop} {i : Nat} {xs : List (TValue T F)} :
    (∀ e ∈ indexed i xs, P e.2) ↔ ∀ x ∈ xs, P x := by
  induction xs generalizing i with
  | nil => simp [indexed]
  | cons x xs ih =>
    rw [indexed, List.forall_mem_cons, List.forall_mem_cons, ih]

theorem forall₂_indexed {R : TValue T F → Value F → Prop} {i : Nat} {xs : List (TValue T F)} :
    List.Forall₂ (fun e w => R e.2 w) (indexed i xs) vs ↔ List.Forall₂ R xs vs := by
  induction xs generalizing i vs with
  | nil =>
    rw [indexed, List.forall₂_nil_left_iff, List.forall₂_nil_left_iff]
  | cons x xs ih =>
    rw [indexed, List.forall₂_cons_left_iff, List.forall₂_cons_left_iff]
    simp only [ih]

theorem convertField_repeated {t : T}
    (hrep : fd.is_repeated = true) :
    convertField lua pool heap convert fd (.table t) vs =
      addValues lua pool convert fd.type (heap t) vs := by
  rw [convertField, if_pos hrep]

theorem convertField_singular {x : TValue T F}
    (hrep : fd.is_repeated = false) (hx : x ≠ .nil) :
    convertField lua pool heap convert fd x vs =
      (toValue lua pool convert fd.type x >>= fun value =>
        return value.map fun value => [value]) := by
  unfold convertField
  rw [if_neg (by rw [hrep]; exact Bool.false_ne_true)]
  cases x with
  | nil => exact absurd rfl hx
  | _ => rfl

/-- Where there is `nil`, a field keeps its values if it may. -/
theorem convertField_nil {ws : List (Value F)}
    (h : convertField lua pool heap convert fd .nil ws = .ok (some vs)) : vs = ws := by
  simp only [convertField] at h
  split at h
  · cases h
    rfl
  · split at h
    · cases h
    · cases h
      rfl

/-! ## Oneofs -/

/-- `ClearOneof`, seen from another field. -/
theorem clearOneof_name (hfd : fd ∈ d.fields) (fd' : FieldDescriptor F) :
    d.clearOneof fd' set fd.name = if fd'.Shares fd then [] else set fd.name := by
  have hmem : fd.name ∈ (d.fields.filter (fd'.Shares ·)).map (·.name) ↔ fd'.Shares fd := by
    rw [List.mem_map]
    constructor
    · rintro ⟨fd'', hfd'', hname⟩
      obtain ⟨hin, hshares⟩ := List.mem_filter.mp hfd''
      rw [List.inj_on_of_nodup_map d.nodup hin hfd hname] at hshares
      exact of_decide_eq_true hshares
    · exact fun h => ⟨fd, List.mem_filter.mpr ⟨hfd, decide_eq_true h⟩, rfl⟩
  unfold Descriptor.clearOneof
  simp only [hmem]

theorem afterTurn_self {x : TValue T F} (hx : x ≠ .nil) :
    afterTurn d fd x vs set fd.name = vs := by
  unfold afterTurn
  cases x with
  | nil => exact absurd rfl hx
  | _ => exact Function.update_self _ _ _

/-- The turn of a field clears another of its oneof, where it is set. -/
theorem afterTurn_other (x : TValue T F) (vs : List (Value F)) (set : Bytes → List (Value F))
    {fd' : FieldDescriptor F} (hfd : fd ∈ d.fields) (hname : fd.name ≠ fd'.name) :
    (fd.Shares fd' ∧ x ≠ .nil → afterTurn d fd' x vs set fd.name = []) ∧
      (¬ (fd.Shares fd' ∧ x ≠ .nil) → afterTurn d fd' x vs set fd.name = set fd.name) := by
  have hshares : fd'.Shares fd ↔ fd.Shares fd' := by
    unfold FieldDescriptor.Shares
    constructor
    · rintro ⟨hsome, heq⟩
      exact ⟨by rwa [heq], heq.symm⟩
    · rintro ⟨hsome, heq⟩
      exact ⟨by rwa [heq], heq.symm⟩
  have hset : x ≠ .nil → afterTurn d fd' x vs set fd.name =
      if fd.Shares fd' then [] else set fd.name := by
    intro hx
    have hturn : afterTurn d fd' x vs set = d.setField fd' vs set := by
      unfold afterTurn
      cases x with
      | nil => exact absurd rfl hx
      | _ => rfl
    rw [hturn, Descriptor.setField, Function.update_of_ne hname, clearOneof_name hfd]
    simp only [hshares]
  constructor
  · rintro ⟨h, hx⟩
    rw [hset hx, if_pos h]
  · intro h
    by_cases hx : x = .nil
    · rw [hx]
      rfl
    · rw [hset hx, if_neg fun hs => h ⟨hs, hx⟩]

/-- One of these fields is set, and in the oneof of the other. -/
def ClearedBy (heap : LuaHeap T F) (t : T) (fd : FieldDescriptor F)
    (fields : List (FieldDescriptor F)) : Prop :=
  ∃ fd' ∈ fields, fd.Shares fd' ∧ rawget heap t (.string fd'.name) ≠ .nil

/-- A field whose turn it is not keeps its values, or is cleared. -/
theorem convertFields_other {t : T} {fields : List (FieldDescriptor F)}
    {got : Bytes → List (Value F)} (hfd : fd ∈ d.fields)
    (h : convertFields lua pool heap convert d t fields set = .ok (some got))
    (hname : fd.name ∉ fields.map (·.name)) :
    (ClearedBy heap t fd fields → got fd.name = []) ∧
      (¬ ClearedBy heap t fd fields → got fd.name = set fd.name) := by
  induction fields generalizing set with
  | nil =>
    cases h
    refine ⟨?_, fun _ => rfl⟩
    rintro ⟨_, hmem, -⟩
    cases hmem
  | cons fd' fields ih =>
    rw [convertFields, bind_eq_ok] at h
    obtain ⟨vs, -, hrest⟩ := h
    rw [List.map_cons, List.mem_cons, not_or] at hname
    cases vs with
    | none => cases hrest
    | some vs =>
      obtain ⟨hcleared, hkept⟩ := ih hrest hname.2
      have hturn := afterTurn_other (rawget heap t (.string fd'.name)) vs set hfd hname.1
      constructor
      · rintro ⟨fd'', hmem, hshares⟩
        by_cases hlater : ClearedBy heap t fd fields
        · exact hcleared hlater
        · rcases List.mem_cons.mp hmem with rfl | hmem
          · rw [hkept hlater, hturn.1 hshares]
          · exact absurd ⟨fd'', hmem, hshares⟩ hlater
      · intro hnone
        have hlater : ¬ ClearedBy heap t fd fields :=
          fun ⟨fd'', hmem, hshares⟩ => hnone ⟨fd'', .tail _ hmem, hshares⟩
        rw [hkept hlater, hturn.2 fun hshares => hnone ⟨fd', .head _, hshares⟩]

/-- A later field of its oneof is set after it. -/
def Cleared (heap : LuaHeap T F) (t : T) (fields : List (FieldDescriptor F))
    (fd : FieldDescriptor F) : Prop :=
  ∃ fd', [fd, fd'].Sublist fields ∧ fd.Shares fd' ∧ rawget heap t (.string fd'.name) ≠ .nil

theorem cleared_cons_self {t : T} {fields : List (FieldDescriptor F)} :
    Cleared heap t (fd :: fields) fd ↔ ClearedBy heap t fd fields := by
  refine exists_congr fun fd' => and_congr_left fun _ => ?_
  rw [List.cons_sublist_cons, List.singleton_sublist]

theorem cleared_cons_of_ne {t : T} {fields : List (FieldDescriptor F)} {fd' : FieldDescriptor F}
    (hne : fd' ≠ fd) : Cleared heap t (fd :: fields) fd' ↔ Cleared heap t fields fd' := by
  refine exists_congr fun fd'' => and_congr_left fun _ => ?_
  rw [List.sublist_cons_iff]
  refine or_iff_left ?_
  rintro ⟨r, heq, -⟩
  exact hne (List.cons.inj heq).1

/-! ## Messages -/

/-- **The fields are converted** when each is, by itself; what is left of it
is nothing where it is cleared. -/
theorem convertFields_iff {t : T} {fields : List (FieldDescriptor F)}
    {Q : FieldDescriptor F → List (Value F) → Prop} (hnodup : (fields.map (·.name)).Nodup)
    (hsub : fields ⊆ d.fields) (hempty : ∀ fd ∈ fields, set fd.name = []) :
    (∃ got, convertFields lua pool heap convert d t fields set = .ok (some got) ∧
        ∀ fd ∈ fields, Q fd (got fd.name)) ↔
      ∀ fd ∈ fields, ∃ vs, convertField lua pool heap convert fd
          (rawget heap t (.string fd.name)) [] = .ok (some vs) ∧
        (¬ Cleared heap t fields fd → Q fd vs) ∧ (Cleared heap t fields fd → Q fd []) := by
  induction fields generalizing set with
  | nil =>
    constructor
    · intro _ fd hfd
      cases hfd
    · intro _
      exact ⟨set, rfl, fun fd hfd => by cases hfd⟩
  | cons fd fields ih =>
    rw [List.map_cons, List.nodup_cons] at hnodup
    rw [List.cons_subset] at hsub
    have hnew : fd ∉ fields := fun hmem => hnodup.1 (List.mem_map_of_mem hmem)
    have hhead : set fd.name = [] := hempty fd (.head _)
    -- the fields that are left are still empty
    have hleft : ∀ vs, ∀ fd' ∈ fields,
        afterTurn d fd (rawget heap t (.string fd.name)) vs set fd'.name = [] := by
      intro vs fd' hfd'
      have hname : fd'.name ≠ fd.name := fun heq => hnodup.1 (heq ▸ List.mem_map_of_mem hfd')
      have hturn := afterTurn_other (rawget heap t (.string fd.name)) vs set (hsub.2 hfd') hname
      by_cases hclear : fd'.Shares fd ∧ rawget heap t (.string fd.name) ≠ .nil
      · exact hturn.1 hclear
      · rw [hturn.2 hclear, hempty fd' (.tail _ hfd')]
    have htail : ∀ fd' ∈ fields,
        (Cleared heap t (fd :: fields) fd' ↔ Cleared heap t fields fd') := by
      intro fd' hfd'
      refine cleared_cons_of_ne ?_
      rintro rfl
      exact hnew hfd'
    -- what the field has after its turn is what its conversion gave
    have hself : ∀ vs, convertField lua pool heap convert fd (rawget heap t (.string fd.name)) [] =
        .ok (some vs) →
        afterTurn d fd (rawget heap t (.string fd.name)) vs set fd.name = vs := by
      intro vs hvs
      by_cases hnil : rawget heap t (.string fd.name) = .nil
      · rw [hnil] at hvs ⊢
        rw [convertField_nil hvs]
        exact hhead
      · exact afterTurn_self hnil
    rw [List.forall_mem_cons, cleared_cons_self]
    constructor
    · rintro ⟨got, hrun, hQ⟩
      rw [convertFields, hhead, bind_eq_ok] at hrun
      obtain ⟨vs, hvs, hrest⟩ := hrun
      cases vs with
      | none => cases hrest
      | some vs =>
        obtain ⟨hcleared, hkept⟩ := convertFields_other hsub.1 hrest hnodup.1
        have hgot := hQ fd (.head _)
        refine ⟨⟨vs, hvs, fun hnone => ?_, fun hby => ?_⟩, fun fd' hfd' => ?_⟩
        · rwa [hkept hnone, hself vs hvs] at hgot
        · rwa [hcleared hby] at hgot
        · rw [htail fd' hfd']
          exact (ih hnodup.2 hsub.2 (hleft vs)).mp ⟨got, hrest, fun fd' h => hQ fd' (.tail _ h)⟩
            fd' hfd'
    · rintro ⟨⟨vs, hvs, hQkept, hQcleared⟩, hlater⟩
      have hrun : ∃ got, convertFields lua pool heap convert d t fields
          (afterTurn d fd (rawget heap t (.string fd.name)) vs set) = .ok (some got) ∧
          ∀ fd ∈ fields, Q fd (got fd.name) := by
        refine (ih hnodup.2 hsub.2 (hleft vs)).mpr fun fd' hfd' => ?_
        rw [← htail fd' hfd']
        exact hlater fd' hfd'
      obtain ⟨got, hrest, hQs⟩ := hrun
      obtain ⟨hcleared, hkept⟩ := convertFields_other hsub.1 hrest hnodup.1
      refine ⟨got, ?_, fun fd' hfd' => ?_⟩
      · rw [convertFields, hhead, bind_eq_ok]
        exact ⟨some vs, hvs, hrest⟩
      · rcases List.mem_cons.mp hfd' with rfl | hfd'
        · by_cases hby : ClearedBy heap t fd' fields
          · rw [hcleared hby]
            exact hQcleared hby
          · rw [hkept hby, hself vs hvs]
            exact hQkept hby
        · exact hQs fd' hfd'

/-- A table is made a message by its fields. -/
theorem luaTableToProtobuf_fields {heap : LuaHeap T F} {t : T} {P : Value F → Prop}
    (hd : pool.findMessageTypeByName type = some d) :
    (∃ m, luaTableToProtobuf lua pool heap (n + 1) type (.table t) = .ok (some m) ∧ P m) ↔
      ∃ got, convertFields lua pool heap (luaTableToProtobuf lua pool heap n) d t d.fields
        noneSet = .ok (some got) ∧ P (.message type got) := by
  simp only [luaTableToProtobuf, hd]
  constructor
  · rintro ⟨m, hrun, hP⟩
    obtain ⟨got, hgot, heq⟩ := bind_eq_ok.mp hrun
    cases got with
    | none => cases heq
    | some got =>
      cases heq
      exact ⟨got, hgot, hP⟩
  · rintro ⟨got, hgot, hP⟩
    exact ⟨.message type got, bind_eq_ok.mpr ⟨_, hgot, rfl⟩, hP⟩

/-- A table is made a message when each field is converted. -/
theorem luaTableToProtobuf_converts {heap : LuaHeap T F} {t : T}
    (hd : pool.findMessageTypeByName type = some d) :
    (∃ m, luaTableToProtobuf lua pool heap (n + 1) type (.table t) = .ok (some m)) ↔
      ∀ fd ∈ d.fields, ∃ vs, convertField lua pool heap (luaTableToProtobuf lua pool heap n) fd
        (rawget heap t (.string fd.name)) [] = .ok (some vs) := by
  have hfields : (∃ m, luaTableToProtobuf lua pool heap (n + 1) type (.table t) = .ok (some m) ∧
      True) ↔ ∃ got, convertFields lua pool heap (luaTableToProtobuf lua pool heap n) d t d.fields
        noneSet = .ok (some got) ∧ True := luaTableToProtobuf_fields (P := fun _ => True) hd
  have hiff : (∃ got, convertFields lua pool heap (luaTableToProtobuf lua pool heap n) d t d.fields
      noneSet = .ok (some got) ∧ ∀ fd ∈ d.fields, True) ↔ ∀ fd ∈ d.fields, ∃ vs,
        convertField lua pool heap (luaTableToProtobuf lua pool heap n) fd
          (rawget heap t (.string fd.name)) [] = .ok (some vs) ∧ (_ → True) ∧ (_ → True) :=
    convertFields_iff (Q := fun _ _ => True) d.nodup (List.Subset.refl _) fun _ _ => rfl
  simp only [and_true, implies_true] at hfields hiff
  rw [hfields, hiff]

theorem luaTableToProtobuf_type {heap : LuaHeap T F} {x : TValue T F}
    (h : luaTableToProtobuf lua pool heap n type x = .ok (some w)) :
    ∃ got, w = .message type got := by
  cases n with
  | zero => cases h
  | succ n =>
    unfold luaTableToProtobuf at h
    split at h
    · obtain ⟨got, -, heq⟩ := bind_eq_ok.mp h
      cases got with
      | none => cases heq
      | some got =>
        cases heq
        exact ⟨got, rfl⟩
    · cases h

/-- A message is converted by the name of its type without the package, and
copied into a message of its type; so the two have to be one. -/
theorem toValue_message_iff {heap : LuaHeap T F} {x : TValue T F}
    (hd : pool.findMessageTypeByName type = some d) :
    toValue lua pool (luaTableToProtobuf lua pool heap n) (.message type) x = .ok (some w) ↔
      d.name = type ∧ luaTableToProtobuf lua pool heap n type x = .ok (some w) := by
  simp only [toValue, hd]
  rw [bind_eq_ok]
  constructor
  · rintro ⟨value, hvalue, hcopy⟩
    cases value with
    | none => cases hcopy
    | some value =>
      obtain ⟨got, rfl⟩ := luaTableToProtobuf_type hvalue
      rw [copyFrom] at hcopy
      split at hcopy
      · rename_i hname
        cases hcopy
        rw [← hname]
        exact ⟨rfl, hvalue⟩
      · cases hcopy
  · rintro ⟨hname, hvalue⟩
    obtain ⟨got, rfl⟩ := luaTableToProtobuf_type hvalue
    rw [hname]
    exact ⟨_, hvalue, if_pos rfl⟩

theorem toValue_message {heap : LuaHeap T F} {x : TValue T F}
    (hd : pool.findMessageTypeByName type = some d) (hname : d.name = type) :
    toValue lua pool (luaTableToProtobuf lua pool heap n) (.message type) x = .ok (some w) ↔
      luaTableToProtobuf lua pool heap n type x = .ok (some w) :=
  (toValue_message_iff hd).trans (and_iff_right hname)

end Loops

end LibuvServer.Mylua.Proto
