import Mathlib.Algebra.GroupWithZero.Nat
import Mathlib.Data.List.Forall2
import Mathlib.Data.List.TakeWhile
import Mathlib.Tactic.Common

/-!
# The Lua stack

What C code does to the stack of values when it builds tables on it. A call
whose precondition the API leaves to its caller is undefined: `none`.
-/

namespace LibuvServer.Lib

/-- A value on the stack. -/
inductive LuaStackValue where
  | nil
  | integer (n : Int)
  | string (s : List UInt8)
  | table (fields : List (Nat × LuaStackValue))

namespace LuaStack

open LuaStackValue

/-- The values on the stack, the top first. -/
abbrev Stack := List LuaStackValue

/-- A piece of C code, by what it does to the stack. -/
abbrev Act := Stack → Option Stack

def isNil : LuaStackValue → Bool
  | nil => true
  | integer _ | string _ | table _ => false

/-- A text as C sees it. -/
def cString (s : List UInt8) : List UInt8 := s.takeWhile (· ≠ 0)

def pushnil : Act := fun stack => some (nil :: stack)

def pushinteger (n : Int) : Act := fun stack => some (integer n :: stack)

def pushstring (s : List UInt8) : Act := fun stack => some (string (cString s) :: stack)

def newtable : Act := fun stack => some (table [] :: stack)

def setField (index : Nat) (value : LuaStackValue) (fields : List (Nat × LuaStackValue)) :
    List (Nat × LuaStackValue) :=
  let rest := fields.filter (·.1 ≠ index)
  if isNil value then rest else rest ++ [(index, value)]

/-- `lua_rawseti(L, -2, index)`: the value on the top goes into the table
under it. -/
def rawseti (index : Nat) : Act
  | value :: table fields :: stack => some (table (setField index value fields) :: stack)
  | _ => none

/-- A loop that makes a value and puts it into the table, at one index after
the other. -/
def pushEach : Nat → List Act → Act
  | _, [] => some
  | index, act :: acts => fun stack =>
    ((act stack).bind (rawseti index)).bind (pushEach (index + 1) acts)

def pushTable (acts : List Act) : Act := fun stack =>
  (newtable stack).bind (pushEach 1 acts)

/-! ## Code that pushes its value -/

/-- The code leaves one value more on the stack. -/
def Pushes (act : Act) (value : LuaStackValue) : Prop :=
  ∀ stack, act stack = some (value :: stack)

theorem pushnil_pushes : Pushes pushnil nil := fun _ => rfl

theorem pushinteger_pushes (n : Int) : Pushes (pushinteger n) (integer n) := fun _ => rfl

theorem pushstring_pushes (s : List UInt8) : Pushes (pushstring s) (string (cString s)) :=
  fun _ => rfl

theorem forall₂_pushes {α : Type} {act : α → Act} {value : α → LuaStackValue}
    (h : ∀ a, Pushes (act a) (value a)) (l : List α) :
    List.Forall₂ Pushes (l.map act) (l.map value) := by
  induction l with
  | nil => exact .nil
  | cons a l ih => exact .cons (h a) ih

/-- The fields such a loop makes. -/
def fieldsFrom : Nat → List LuaStackValue → List (Nat × LuaStackValue) → List (Nat × LuaStackValue)
  | _, [], fields => fields
  | index, value :: values, fields => fieldsFrom (index + 1) values (setField index value fields)

theorem pushEach_pushes {acts : List Act} {values : List LuaStackValue}
    (h : List.Forall₂ Pushes acts values) (index : Nat) (fields : List (Nat × LuaStackValue))
    (stack : Stack) :
    pushEach index acts (table fields :: stack) =
      some (table (fieldsFrom index values fields) :: stack) := by
  induction h generalizing index fields with
  | nil => rfl
  | cons hact _ ih =>
    show ((_ : Option Stack).bind (rawseti index)).bind _ = _
    rw [hact]
    exact ih _ _

theorem pushTable_pushes {acts : List Act} {values : List LuaStackValue}
    (h : List.Forall₂ Pushes acts values) :
    Pushes (pushTable acts) (table (fieldsFrom 1 values [])) :=
  fun stack => pushEach_pushes h 1 [] stack

/-! ## What the tables hold -/

/-- The value at an index. -/
def field (fields : List (Nat × LuaStackValue)) (index : Nat) : LuaStackValue :=
  (fields.lookup index).getD nil

theorem lookup_filter_ne (fields : List (Nat × LuaStackValue)) (index j : Nat) :
    (fields.filter (·.1 ≠ index)).lookup j = if j = index then none else fields.lookup j := by
  induction fields with
  | nil => exact (ite_self none).symm
  | cons entry fields ih =>
    obtain ⟨i, value⟩ := entry
    rw [List.filter_cons, List.lookup_cons]
    by_cases hi : i = index
    · rw [if_neg (by simpa using hi), ih]
      split
      · rfl
      · rename_i hj
        rw [beq_false_of_ne (by omega)]
    · rw [if_pos (by simpa using hi), List.lookup_cons, ih]
      by_cases hj : j = index
      · rw [beq_false_of_ne (by omega), if_pos hj]
      · rw [if_neg hj, if_neg hj]

/-- A field that is set has its value, and the others have theirs. -/
theorem field_setField (index : Nat) (value : LuaStackValue)
    (fields : List (Nat × LuaStackValue)) (j : Nat) :
    field (setField index value fields) j = if j = index then value else field fields j := by
  unfold field setField
  cases hnil : isNil value with
  | true =>
    have hvalue : value = nil := by
      cases value with
      | nil => rfl
      | _ => cases hnil
    rw [if_pos rfl, lookup_filter_ne, hvalue]
    split
    · rfl
    · rfl
  | false =>
    rw [if_neg Bool.false_ne_true, List.lookup_append, lookup_filter_ne, List.lookup_cons]
    by_cases hj : j = index
    · rw [if_pos hj, if_pos hj, hj, beq_self_eq_true]
      rfl
    · rw [if_neg hj, if_neg hj, beq_false_of_ne hj]
      exact congrArg (·.getD nil) (Option.or_none)

/-- The values a loop puts into a table are there, in their order. -/
theorem field_fieldsFrom (values : List LuaStackValue) (index : Nat)
    (fields : List (Nat × LuaStackValue)) (j : Nat) :
    field (fieldsFrom index values fields) j =
      if index ≤ j then values[j - index]?.getD (field fields j) else field fields j := by
  induction values generalizing index fields with
  | nil => exact (ite_self _).symm
  | cons value values ih =>
    rw [fieldsFrom, ih, field_setField]
    rcases Nat.lt_trichotomy j index with hlt | rfl | hgt
    · rw [if_neg (by omega), if_neg (by omega), if_neg (by omega)]
    · rw [if_neg (by omega), if_pos rfl, if_pos (Nat.le_refl j), Nat.sub_self]
      rfl
    · have hsub : j - index = j - (index + 1) + 1 := by omega
      rw [if_pos (by omega), if_neg (by omega), if_pos (by omega), hsub, List.getElem?_cons_succ]

theorem field_element {values : List LuaStackValue} {i : Nat} (hi : i < values.length) :
    field (fieldsFrom 1 values []) (i + 1) = values.get ⟨i, hi⟩ := by
  rw [field_fieldsFrom, if_pos (by omega), Nat.add_sub_cancel, List.getElem?_eq_getElem hi]
  rfl

theorem field_outside {values : List LuaStackValue} {index : Nat}
    (h : index = 0 ∨ values.length < index) : field (fieldsFrom 1 values []) index = nil := by
  rw [field_fieldsFrom]
  split
  · rw [List.getElem?_eq_none (by omega)]
    rfl
  · rfl

/-- The value is a table that has the list from index 1 on, as the relation
wants it, and nothing else. -/
def TableOf {α : Type} (R : α → LuaStackValue → Prop) (l : List α) (value : LuaStackValue) :
    Prop :=
  ∃ fields, value = table fields ∧
    (∀ i (hi : i < l.length), R (l.get ⟨i, hi⟩) (field fields (i + 1))) ∧
    ∀ index, index = 0 ∨ l.length < index → field fields index = nil

/-- What a loop over the list has put into a table is that list. -/
theorem tableOf_fieldsFrom {α : Type} {R : α → LuaStackValue → Prop} {l : List α}
    {values : List LuaStackValue} (h : l.length = values.length) :
    TableOf R l (table (fieldsFrom 1 values [])) ↔ List.Forall₂ R l values := by
  rw [List.forall₂_iff_get]
  constructor
  · rintro ⟨fields, heq, hentries, -⟩
    obtain rfl := table.inj heq
    refine ⟨h, fun i hl hvalues => ?_⟩
    have hentry := hentries i hl
    rw [field_element hvalues] at hentry
    exact hentry
  · rintro ⟨-, hentries⟩
    refine ⟨_, rfl, fun i hi => ?_, fun index hindex => ?_⟩
    · rw [field_element (h ▸ hi)]
      exact hentries i hi (h ▸ hi)
    · exact field_outside (h ▸ hindex)

/-- The values from index 1 on, up to the first that is missing: as many as
`#` gives. -/
def elements (fields : List (Nat × LuaStackValue)) : List LuaStackValue :=
  ((List.range fields.length).map fun i => field fields (i + 1)).takeWhile fun v => !isNil v

theorem length_fieldsFrom {values : List LuaStackValue} (h : ∀ v ∈ values, isNil v = false)
    {index : Nat} {fields : List (Nat × LuaStackValue)} (hfields : ∀ e ∈ fields, e.1 < index) :
    (fieldsFrom index values fields).length = fields.length + values.length := by
  induction values generalizing index fields with
  | nil => rfl
  | cons value values ih =>
    have hrest : fields.filter (·.1 ≠ index) = fields :=
      List.filter_eq_self.mpr fun e he => decide_eq_true (Nat.ne_of_lt (hfields e he))
    have hset : setField index value fields = fields ++ [(index, value)] := by
      unfold setField
      rw [hrest, h value (.head _), if_neg Bool.false_ne_true]
    have hlt : ∀ e ∈ fields ++ [(index, value)], e.1 < index + 1 := by
      intro e he
      rcases List.mem_append.mp he with he | he
      · exact Nat.lt_succ_of_lt (hfields e he)
      · rw [List.mem_singleton.mp he]
        exact Nat.lt_succ_self index
    rw [fieldsFrom, hset, ih (fun v hv => h v (.tail _ hv)) hlt, List.length_append,
      List.length_singleton, List.length_cons]
    omega

/-- Values put into a table are found again, when none is `nil`. -/
theorem elements_fieldsFrom {values : List LuaStackValue} (h : ∀ v ∈ values, isNil v = false) :
    elements (fieldsFrom 1 values []) = values := by
  have hlength : (fieldsFrom 1 values []).length = 0 + values.length :=
    length_fieldsFrom h fun e he => by cases he
  have hvalues : (List.range values.length).map (fun i => field (fieldsFrom 1 values []) (i + 1)) =
      values := by
    refine List.ext_getElem (by rw [List.length_map, List.length_range]) fun i hi hi' => ?_
    rw [List.getElem_map, List.getElem_range, field_element hi', List.get_eq_getElem]
  unfold elements
  rw [hlength, Nat.zero_add, hvalues, List.takeWhile_eq_self_iff]
  intro v hv
  rw [h v hv]
  rfl

/-- A text without a zero byte is all there in C. -/
theorem cString_eq_self_iff {s : List UInt8} : cString s = s ↔ 0 ∉ s := by
  rw [cString, List.takeWhile_eq_self_iff]
  constructor
  · intro h hmem
    exact absurd (h 0 hmem) (by decide)
  · intro h c hc
    exact decide_eq_true fun heq => h (heq ▸ hc)

theorem zero_notMem_cString (s : List UInt8) : 0 ∉ cString s :=
  cString_eq_self_iff.mp (List.takeWhile_idem)

theorem cString_append {s : List UInt8} (h : 0 ∉ s) (rest : List UInt8) :
    cString (s ++ rest) = s ++ cString rest :=
  List.takeWhile_append_of_pos fun _ hc => decide_eq_true fun heq => h (heq ▸ hc)

/-! ## Code that takes too much -/

/-- How many tables there are from the top. -/
def depth : Stack → Nat
  | table _ :: stack => depth stack + 1
  | _ => 0

/-- With the value put into the table on the top, the code takes `n` tables
off the stack, and must find another under them. -/
def Costs (act : Act) (n : Nat) : Prop :=
  ∀ index stack, 0 < depth stack →
    (depth stack ≤ n → (act stack).bind (rawseti index) = none) ∧
    (n < depth stack → ∃ stack', (act stack).bind (rawseti index) = some stack' ∧
      depth stack' = depth stack - n)

theorem depth_pos {stack : Stack} (h : 0 < depth stack) :
    ∃ fields under, stack = table fields :: under := by
  cases stack with
  | nil => cases h
  | cons value under =>
    cases value with
    | table fields => exact ⟨fields, under, rfl⟩
    | nil => cases h
    | integer n => cases h
    | string s => cases h

theorem rawseti_none {index : Nat} {value : LuaStackValue} {stack : Stack} (h : depth stack = 0) :
    rawseti index (value :: stack) = none := by
  cases stack with
  | nil => rfl
  | cons under stack =>
    cases under with
    | table fields =>
      rw [depth] at h
      omega
    | nil => rfl
    | integer n => rfl
    | string s => rfl

theorem rawseti_some {index : Nat} {value : LuaStackValue} {stack : Stack} (h : 0 < depth stack) :
    ∃ stack', rawseti index (value :: stack) = some stack' ∧ depth stack' = depth stack := by
  obtain ⟨fields, under, rfl⟩ := depth_pos h
  exact ⟨_, rfl, rfl⟩

theorem Pushes.costs {act : Act} {value : LuaStackValue} (h : Pushes act value) : Costs act 0 := by
  intro index stack hpos
  rw [h]
  exact ⟨fun hnone => absurd hpos (by omega), fun hsome => rawseti_some hsome⟩

/-- Code that pushes nothing: the table on the top goes in instead. -/
theorem costs_nothing : Costs some 1 := by
  intro index stack hpos
  obtain ⟨fields, under, rfl⟩ := depth_pos hpos
  rw [depth]
  constructor
  · intro hle
    exact rawseti_none (by omega)
  · intro hlt
    have hunder : 0 < depth under := by omega
    obtain ⟨stack', hset, hdepth⟩ := rawseti_some hunder
    exact ⟨stack', hset, by omega⟩

/-- A loop takes what its steps take together. -/
theorem pushEach_costs {acts : List Act} {costs : List Nat} (h : List.Forall₂ Costs acts costs)
    (index : Nat) (stack : Stack) (hpos : 0 < depth stack) :
    (depth stack ≤ costs.sum → pushEach index acts stack = none) ∧
      (costs.sum < depth stack → ∃ stack', pushEach index acts stack = some stack' ∧
        depth stack' = depth stack - costs.sum) := by
  induction h generalizing index stack with
  | nil => exact ⟨fun hle => absurd hpos (by simpa using hle), fun _ => ⟨stack, rfl, rfl⟩⟩
  | @cons act n acts costs hact _ ih =>
    obtain ⟨hnone, hsome⟩ := hact index stack hpos
    rw [List.sum_cons]
    have hloop : pushEach index (act :: acts) stack =
        ((act stack).bind (rawseti index)).bind (pushEach (index + 1) acts) := rfl
    rw [hloop]
    by_cases hfew : depth stack ≤ n
    · rw [hnone hfew]
      exact ⟨fun _ => rfl, fun hlt => by omega⟩
    · obtain ⟨stack₁, hstep, hdepth⟩ := hsome (by omega)
      obtain ⟨hnone₁, hsome₁⟩ := ih (index + 1) stack₁ (by omega)
      rw [hstep, Option.bind_some]
      refine ⟨fun hle => hnone₁ (by omega), fun hlt => ?_⟩
      obtain ⟨stack', hrest, hdepth'⟩ := hsome₁ (by omega)
      exact ⟨stack', hrest, by rw [hdepth', hdepth, Nat.sub_sub]⟩

theorem pushTable_costs {acts : List Act} {costs : List Nat}
    (h : List.Forall₂ Costs acts costs) : Costs (pushTable acts) costs.sum := by
  intro index stack hpos
  obtain ⟨hnone, hsome⟩ := pushEach_costs h 1 (table [] :: stack) (Nat.succ_pos _)
  rw [depth] at hnone hsome
  have htable : pushTable acts stack = pushEach 1 acts (table [] :: stack) := rfl
  rw [htable]
  by_cases hfew : depth stack + 1 ≤ costs.sum
  · rw [hnone hfew]
    exact ⟨fun _ => rfl, fun hlt => by omega⟩
  · -- the table is there, with `depth stack - costs.sum` under it
    obtain ⟨stack₁, hpush, hdepth⟩ := hsome (by omega)
    obtain ⟨fields, under, rfl⟩ := depth_pos (by omega : 0 < depth stack₁)
    rw [hpush, Option.bind_some]
    rw [depth] at hdepth
    refine ⟨fun hle => rawseti_none (by omega), fun hlt => ?_⟩
    have hunder : 0 < depth under := by omega
    obtain ⟨stack', hset, hdepth'⟩ := rawseti_some hunder
    exact ⟨stack', hset, by omega⟩

/-! ## Code that pushes too little -/

/-- What the code leaves on the stack is `n` values short of one more. -/
def Misses (act : Act) (n : Nat) : Prop :=
  ∀ stack stack', act stack = some stack' → stack'.length + n = stack.length + 1

theorem Pushes.misses {act : Act} {value : LuaStackValue} (h : Pushes act value) :
    Misses act 0 := by
  intro stack stack' hact
  rw [h, Option.some.injEq] at hact
  rw [← hact]
  rfl

theorem misses_nothing : Misses some 1 := by
  intro stack stack' hact
  rw [Option.some.inj hact]

theorem length_rawseti {index : Nat} {stack stack' : Stack}
    (h : rawseti index stack = some stack') : stack'.length + 1 = stack.length := by
  unfold rawseti at h
  split at h
  · cases h
    rfl
  · cases h

theorem pushEach_length {acts : List Act} {misses : List Nat}
    (h : List.Forall₂ Misses acts misses) {index : Nat} {stack stack' : Stack}
    (hpush : pushEach index acts stack = some stack') :
    stack'.length + misses.sum = stack.length := by
  induction h generalizing index stack with
  | nil =>
    cases hpush
    rfl
  | @cons act n acts misses hact _ ih =>
    obtain ⟨stack₂, hstep, hrest⟩ := Option.bind_eq_some_iff.mp hpush
    obtain ⟨stack₁, hvalue, hset⟩ := Option.bind_eq_some_iff.mp hstep
    have h₁ := hact _ _ hvalue
    have h₂ := length_rawseti hset
    have h₃ := ih hrest
    rw [List.sum_cons]
    omega

/-- A table is short of what its loop is short of. -/
theorem pushTable_misses {acts : List Act} {misses : List Nat}
    (h : List.Forall₂ Misses acts misses) : Misses (pushTable acts) misses.sum := by
  intro stack stack' hpush
  have hloop : pushEach 1 acts (table [] :: stack) = some stack' := hpush
  exact pushEach_length h hloop

end LuaStack

end LibuvServer.Lib
