import LibuvServer.Protobuf.WireFormat
import Mathlib.Tactic.Common

/-!
# Unknown fields

The loop that `WireFormatParser` and every generated `_InternalParse` goes
through, and the fields a message does not know, which it keeps: how they are
read, written and measured. A group is a set of fields between two tags, and
groups go only as deep as the context lets them.
-/

namespace LibuvServer.Protobuf

/-! ## The loop -/

/-- How a loop ended: what was read, `last_tag_minus_1_`, which is 0 at a
limit, and what is left. -/
structure Ended (M : Type) where
  msg : M
  last_tag_minus_1 : Nat
  rest : List UInt8
  deriving DecidableEq

/-- The tags that end a loop. -/
def Stops (tag : Nat) : Prop := tag = 0 ∨ tag % 8 = WireType.END_GROUP

instance (tag : Nat) : Decidable (Stops tag) := inferInstanceAs (Decidable (_ ∨ _))

section Loop

variable {M : Type} (field : Nat → M → List UInt8 → Read M)

/-- A tag and its field, over and over. A generated loop looks for its own
fields first; they have other tags than those that stop it. -/
def parseLoop : Nat → M → List UInt8 → Option (Ended M)
  | _, m, [] => some ⟨m, 0, []⟩
  | 0, _, _ :: _ => none
  | fuel + 1, m, b :: p =>
    (ReadTag (b :: p)).bind fun (tag, p) =>
      if Stops tag then some ⟨m, (tag + (2 ^ 32 - 1)) % 2 ^ 32, p⟩
      else (field tag m p).bind fun (m, p) => parseLoop fuel m p

/-- Every turn takes at least a byte. -/
def parse (m : M) (p : List UInt8) : Option (Ended M) := parseLoop field p.length m p

/-- The field is read off the front. -/
def Shortens : Prop := ∀ tag m p m' q, field tag m p = some (m', q) → q.length ≤ p.length

variable {field} {m m' m'' : M} {p bytes more : List UInt8}

theorem parseLoop_fuel (h : Shortens field) {fuel fuel' : Nat} (hfuel : p.length ≤ fuel)
    (hfuel' : p.length ≤ fuel') : parseLoop field fuel m p = parseLoop field fuel' m p := by
  induction fuel generalizing fuel' m p with
  | zero =>
    rw [List.eq_nil_of_length_eq_zero (Nat.le_zero.mp hfuel)]
    cases fuel' <;> rfl
  | succ fuel ih =>
    cases p with
    | nil => cases fuel' <;> rfl
    | cons b p =>
      cases fuel' with
      | zero => cases hfuel'
      | succ fuel' =>
        rw [parseLoop, parseLoop]
        cases htag : ReadTag (b :: p) with
        | none => rfl
        | some r =>
          have hlt : r.2.length < (b :: p).length := ReadTag_shorter htag
          simp only [Option.bind_some]
          split
          · rfl
          · cases hfield : field r.1 m r.2 with
            | none => rfl
            | some s =>
              have hle : s.2.length ≤ r.2.length := h r.1 m r.2 s.1 s.2 hfield
              exact ih (by omega) (by omega)

/-- **One turn** of the loop. -/
theorem parse_turn (h : Shortens field) (hp : p ≠ []) : parse field m p =
    (ReadTag p).bind fun r =>
      if Stops r.1 then some ⟨m, (r.1 + (2 ^ 32 - 1)) % 2 ^ 32, r.2⟩
      else (field r.1 m r.2).bind fun s => parse field s.1 s.2 := by
  cases p with
  | nil => exact absurd rfl hp
  | cons b p =>
    rw [parse, List.length_cons, parseLoop]
    cases htag : ReadTag (b :: p) with
    | none => rfl
    | some r =>
      have hlt : r.2.length < (b :: p).length := ReadTag_shorter htag
      simp only [Option.bind_some]
      split
      · rfl
      · cases hfield : field r.1 m r.2 with
        | none => rfl
        | some s =>
          have hle : s.2.length ≤ r.2.length := h r.1 m r.2 s.1 s.2 hfield
          exact parseLoop_fuel h (by rw [List.length_cons] at hlt; omega) (Nat.le_refl _)

/-- What a loop leaves was there before. -/
theorem parse_shorter (h : Shortens field) {e : Ended M} (he : parse field m p = some e) :
    e.rest.length ≤ p.length := by
  induction hn : p.length using Nat.strongRecOn generalizing m p with
  | ind n ih =>
    by_cases hp : p = []
    · subst hp
      cases he
      exact Nat.zero_le _
    · rw [parse_turn h hp] at he
      obtain ⟨r, htag, he⟩ := Option.bind_eq_some_iff.mp he
      have hlt : r.2.length < p.length := ReadTag_shorter htag
      split at he
      · cases he
        exact hn ▸ Nat.le_of_lt hlt
      · obtain ⟨s, hfield, he⟩ := Option.bind_eq_some_iff.mp he
        have hle : s.2.length ≤ r.2.length := h r.1 m r.2 s.1 s.2 hfield
        exact Nat.le_trans (ih s.2.length (by omega) he rfl) (by omega)

/-- The bytes take the loop from `m` to `m'`. -/
def Takes (field : Nat → M → List UInt8 → Read M) (bytes : List UInt8) (m m' : M) : Prop :=
  ∀ rest, parse field m (bytes ++ rest) = parse field m' rest

theorem Takes.nil (m : M) : Takes field [] m m := fun _ => rfl

theorem Takes.append (h : Takes field bytes m m') (h' : Takes field more m' m'') :
    Takes field (bytes ++ more) m m'' := by
  intro rest
  rw [List.append_assoc, h, h']

/-- What takes the loop to `m'` and is all there is. -/
theorem Takes.parse_eq (h : Takes field bytes m m') : parse field m bytes = some ⟨m', 0, []⟩ := by
  have hall := h []
  rwa [List.append_nil] at hall

end Loop

section Tags

variable {M : Type} {field : Nat → M → List UInt8 → Read M} {m m' : M} {body : List UInt8}
  {num type : Nat}

theorem MakeTag_eq (hnum : num < 2 ^ 29) (htype : type < 8) : MakeTag num type = num * 8 + type :=
  Nat.mod_eq_of_lt (by omega)

theorem WriteTagToArray_ne_nil (num type : Nat) : WriteTagToArray num type ≠ [] :=
  Lib.Varint.encode_ne_nil _

/-- **A field** after its tag. -/
theorem takes_field (h : Shortens field) (hnum : 0 < num) (hnum' : num < 2 ^ 29) (htype : type < 8)
    (hopen : type ≠ WireType.END_GROUP)
    (hfield : ∀ rest, field (num * 8 + type) m (body ++ rest) = some (m', rest)) :
    Takes field (WriteTagToArray num type ++ body) m m' := by
  intro rest
  have hstop : ¬ Stops (num * 8 + type) := by
    have hend : WireType.END_GROUP = 4 := rfl
    rintro (hzero | hend')
    · omega
    · omega
  rw [List.append_assoc, parse_turn h (List.append_ne_nil_of_left_ne_nil
    (WriteTagToArray_ne_nil num type) _), ReadTag_write, Option.bind_some,
    MakeTag_eq hnum' htype, if_neg hstop, hfield, Option.bind_some]

/-- The tag at the end of a group. -/
theorem parse_endGroup (h : Shortens field) (hnum : num < 2 ^ 29) (rest : List UInt8) :
    parse field m (WriteTagToArray num WireType.END_GROUP ++ rest) =
      some ⟨m, num * 8 + 3, rest⟩ := by
  have hend : WireType.END_GROUP = 4 := rfl
  have hstop : Stops (num * 8 + WireType.END_GROUP) := .inr (by omega)
  have hlast : (num * 8 + WireType.END_GROUP + (2 ^ 32 - 1)) % 2 ^ 32 = num * 8 + 3 := by omega
  rw [parse_turn h (List.append_ne_nil_of_left_ne_nil (WriteTagToArray_ne_nil _ _) _),
    ReadTag_write, Option.bind_some, MakeTag_eq hnum (by omega), if_pos hstop, hlast]

end Tags

/-! ## Sets of fields -/

/-- The value of an unknown field that is no group. -/
inductive UnknownField where
  | varint (v : Nat)
  | fixed64 (v : Nat)
  | length_delimited (s : List UInt8)
  | fixed32 (v : Nat)
  deriving DecidableEq

/-- The fields in the order they were added, each with its number. -/
inductive UnknownFieldSet where
  | nil
  | field (number : Nat) (value : UnknownField) (rest : UnknownFieldSet)
  | group (number : Nat) (group : UnknownFieldSet) (rest : UnknownFieldSet)
  deriving DecidableEq

namespace UnknownFieldSet

def append : UnknownFieldSet → UnknownFieldSet → UnknownFieldSet
  | nil, set => set
  | field number value rest, set => field number value (rest.append set)
  | group number grp rest, set => group number grp (rest.append set)

theorem append_nil (set : UnknownFieldSet) : set.append nil = set := by
  induction set with
  | nil => rfl
  | field number value rest ih => exact congrArg _ ih
  | group number grp rest _ ih => exact congrArg _ ih

theorem append_assoc (a b c : UnknownFieldSet) : (a.append b).append c = a.append (b.append c) := by
  induction a with
  | nil => rfl
  | field number value rest ih => exact congrArg _ ih
  | group number grp rest _ ih => exact congrArg _ ih

end UnknownFieldSet

/-! ## Reading -/

/-- `FieldParser` for an unknown field: a set with this field alone. The tags
that end a group do not get here. -/
def FieldParser (ParseGroup : Nat → List UInt8 → Read UnknownFieldSet) (tag : Nat)
    (p : List UInt8) : Read UnknownFieldSet :=
  let number := tag / 8
  let add (number : Nat) (value : UnknownField) := UnknownFieldSet.field number value .nil
  if number = 0 then none
  else if tag % 8 = WireType.VARINT then
    (VarintParse p).map fun (value, p) => (add number (.varint value), p)
  else if tag % 8 = WireType.FIXED64 then
    (UnalignedLoad 8 p).map fun (value, p) => (add number (.fixed64 value), p)
  else if tag % 8 = WireType.LENGTH_DELIMITED then
    (InlineGreedyStringParser p).map fun (s, p) => (add number (.length_delimited s), p)
  else if tag % 8 = WireType.START_GROUP then ParseGroup number p
  else if tag % 8 = WireType.FIXED32 then
    (UnalignedLoad 4 p).map fun (value, p) => (add number (.fixed32 value), p)
  else none

/-- A field added to the set. -/
def addField (ParseGroup : Nat → List UInt8 → Read UnknownFieldSet) (tag : Nat)
    (set : UnknownFieldSet) (p : List UInt8) : Read UnknownFieldSet :=
  (FieldParser ParseGroup tag p).map fun (one, p) => (set.append one, p)

/-- `ParseContext::ParseGroup`, with `depth_` as it is before. -/
def ParseGroup : Nat → Nat → List UInt8 → Read UnknownFieldSet
  | 0, _, _ => none
  | depth + 1, num, p =>
    (parse (addField (ParseGroup depth)) .nil p).bind fun e =>
      -- `ConsumeEndGroup`
      if e.last_tag_minus_1 = num * 8 + 3 then some (.group num e.msg .nil, e.rest) else none

/-- `UnknownFieldParse`. -/
def UnknownFieldParse (depth : Nat) : Nat → UnknownFieldSet → List UInt8 → Read UnknownFieldSet :=
  addField (ParseGroup depth)

/-! ## Writing -/

def UnknownField.toArray (number : Nat) : UnknownField → List UInt8
  | .varint v => WriteTagToArray number WireType.VARINT ++ UnsafeVarint v
  | .fixed64 v => WriteTagToArray number WireType.FIXED64 ++ littleEndian 8 v
  | .length_delimited s => WriteString number s
  | .fixed32 v => WriteTagToArray number WireType.FIXED32 ++ littleEndian 4 v

/-- `WireFormat::InternalSerializeUnknownFieldsToArray`. -/
def InternalSerializeUnknownFieldsToArray : UnknownFieldSet → List UInt8
  | .nil => []
  | .field number value rest =>
    value.toArray number ++ InternalSerializeUnknownFieldsToArray rest
  | .group number group rest =>
    WriteTagToArray number WireType.START_GROUP ++ InternalSerializeUnknownFieldsToArray group ++
      WriteTagToArray number WireType.END_GROUP ++ InternalSerializeUnknownFieldsToArray rest

def UnknownField.size (number : Nat) : UnknownField → Nat
  | .varint v => TagSize number WireType.VARINT + VarintSize v
  | .fixed64 _ => TagSize number WireType.FIXED64 + 8
  | .length_delimited s =>
    TagSize number WireType.LENGTH_DELIMITED + VarintSize (s.length % 2 ^ 32) + s.length
  | .fixed32 _ => TagSize number WireType.FIXED32 + 4

/-- `WireFormat::ComputeUnknownFieldsSize`. -/
def ComputeUnknownFieldsSize : UnknownFieldSet → Nat
  | .nil => 0
  | .field number value rest => value.size number + ComputeUnknownFieldsSize rest
  | .group number group rest =>
    TagSize number WireType.START_GROUP + ComputeUnknownFieldsSize group +
      TagSize number WireType.END_GROUP + ComputeUnknownFieldsSize rest

/-! ## Round trips -/

/-- What `UnknownField` and its number can hold, and be read. -/
def UnknownField.Fits : UnknownField → Prop
  | .varint v => v < 2 ^ 64
  | .fixed64 v => v < 2 ^ 64
  | .length_delimited s => s.length ≤ INT_MAX - kSlopBytes
  | .fixed32 v => v < 2 ^ 32

def NumberFits (number : Nat) : Prop := 0 < number ∧ number < 2 ^ 29

/-- Every field fits, and groups are inside each other `depth` times at most. -/
def UnknownFieldSet.Fits : UnknownFieldSet → Nat → Prop
  | .nil, _ => True
  | .field number value rest, depth => NumberFits number ∧ value.Fits ∧ rest.Fits depth
  | .group number grp rest, depth =>
    NumberFits number ∧ 0 < depth ∧ grp.Fits (depth - 1) ∧ rest.Fits depth

section RoundTrips

variable {depth : Nat} {set acc : UnknownFieldSet}

theorem FieldParser_shorter {ParseGroup : Nat → List UInt8 → Read UnknownFieldSet} {tag : Nat}
    {p q : List UInt8} (hgroup : ∀ num p set q, ParseGroup num p = some (set, q) →
      q.length ≤ p.length) (h : FieldParser ParseGroup tag p = some (set, q)) :
    q.length ≤ p.length := by
  simp only [FieldParser] at h
  split at h
  · cases h
  split at h
  · obtain ⟨r, hr, heq⟩ := Option.map_eq_some_iff.mp h
    cases heq
    exact Nat.le_of_lt (VarintParse_shorter hr)
  split at h
  · obtain ⟨r, hr, heq⟩ := Option.map_eq_some_iff.mp h
    cases heq
    exact UnalignedLoad_shorter hr
  split at h
  · obtain ⟨r, hr, heq⟩ := Option.map_eq_some_iff.mp h
    cases heq
    exact Nat.le_of_lt (InlineGreedyStringParser_shorter hr)
  split at h
  · exact hgroup _ _ _ _ h
  split at h
  · obtain ⟨r, hr, heq⟩ := Option.map_eq_some_iff.mp h
    cases heq
    exact UnalignedLoad_shorter hr
  · cases h

theorem addField_shortens {ParseGroup : Nat → List UInt8 → Read UnknownFieldSet}
    (hgroup : ∀ num p set q, ParseGroup num p = some (set, q) → q.length ≤ p.length) :
    Shortens (addField ParseGroup) := by
  intro tag m p m' q h
  obtain ⟨r, hr, heq⟩ := Option.map_eq_some_iff.mp h
  cases heq
  exact FieldParser_shorter hgroup hr

theorem ParseGroup_shorter {num : Nat} {p q : List UInt8}
    (h : ParseGroup depth num p = some (set, q)) : q.length ≤ p.length := by
  induction depth generalizing num p set q with
  | zero => cases h
  | succ depth ih =>
    obtain ⟨e, he, hend⟩ := Option.bind_eq_some_iff.mp h
    obtain ⟨-, heq⟩ := Option.ite_none_right_eq_some.mp hend
    cases heq
    exact parse_shorter (addField_shortens fun _ _ _ _ => ih) he

theorem UnknownFieldParse_shortens (depth : Nat) : Shortens (UnknownFieldParse depth) :=
  addField_shortens fun _ _ _ _ => ParseGroup_shorter

/-- The wire type of a field. -/
def UnknownField.type : UnknownField → Nat
  | .varint _ => WireType.VARINT
  | .fixed64 _ => WireType.FIXED64
  | .length_delimited _ => WireType.LENGTH_DELIMITED
  | .fixed32 _ => WireType.FIXED32

/-- A field without its tag. -/
def UnknownField.body : UnknownField → List UInt8
  | .varint v => UnsafeVarint v
  | .fixed64 v => littleEndian 8 v
  | .length_delimited s => UnsafeVarint (s.length % 2 ^ 32) ++ s
  | .fixed32 v => littleEndian 4 v

theorem UnknownField.toArray_eq (value : UnknownField) (number : Nat) :
    value.toArray number = WriteTagToArray number value.type ++ value.body := by
  cases value with
  | varint v => rfl
  | fixed64 v => rfl
  | length_delimited s => exact List.append_assoc _ _ _
  | fixed32 v => rfl

theorem UnknownField.type_lt (value : UnknownField) :
    value.type < 8 ∧ value.type ≠ WireType.END_GROUP := by
  cases value <;> simp only [UnknownField.type] <;> decide

/-- **A field** is read as it was written. -/
theorem FieldParser_write {value : UnknownField} (h : value.Fits) {number : Nat}
    (hnumber : 0 < number) (ParseGroup : Nat → List UInt8 → Read UnknownFieldSet)
    (rest : List UInt8) : FieldParser ParseGroup (number * 8 + value.type) (value.body ++ rest) =
      some (.field number value .nil, rest) := by
  have hdiv : (number * 8 + value.type) / 8 = number := by
    have hlt := value.type_lt.1
    omega
  have hmod : (number * 8 + value.type) % 8 = value.type := by
    have hlt := value.type_lt.1
    omega
  cases value with
  | varint v =>
    have htype : (number * 8 + UnknownField.type (.varint v)) % 8 = WireType.VARINT := hmod
    simp only [FieldParser, hdiv, htype]
    rw [if_neg (by omega), if_pos trivial]
    show (VarintParse (UnsafeVarint v ++ rest)).map _ = _
    rw [VarintParse_write h]
    rfl
  | fixed64 v =>
    have htype : (number * 8 + UnknownField.type (.fixed64 v)) % 8 = WireType.FIXED64 := hmod
    simp only [FieldParser, hdiv, htype]
    rw [if_neg (by omega), if_neg (by decide), if_pos trivial]
    show (UnalignedLoad 8 (littleEndian 8 v ++ rest)).map _ = _
    rw [UnalignedLoad_write h]
    rfl
  | length_delimited s =>
    have htype : (number * 8 + UnknownField.type (.length_delimited s)) % 8 =
      WireType.LENGTH_DELIMITED := hmod
    simp only [FieldParser, hdiv, htype]
    rw [if_neg (by omega), if_neg (by decide), if_neg (by decide), if_pos trivial]
    show (InlineGreedyStringParser (UnsafeVarint (s.length % 2 ^ 32) ++ s ++ rest)).map _ = _
    rw [List.append_assoc, InlineGreedyStringParser_write h]
    rfl
  | fixed32 v =>
    have htype : (number * 8 + UnknownField.type (.fixed32 v)) % 8 = WireType.FIXED32 := hmod
    simp only [FieldParser, hdiv, htype]
    rw [if_neg (by omega), if_neg (by decide), if_neg (by decide), if_neg (by decide),
      if_neg (by decide), if_pos trivial]
    show (UnalignedLoad 4 (littleEndian 4 v ++ rest)).map _ = _
    rw [UnalignedLoad_write h]
    rfl

/-- No field of the set has one of the tags. -/
def UnknownFieldSet.Foreign (known : List Nat) : UnknownFieldSet → Prop
  | .nil => True
  | .field number value rest => number * 8 + value.type ∉ known ∧ rest.Foreign known
  | .group number _ rest => number * 8 + WireType.START_GROUP ∉ known ∧ rest.Foreign known

theorem UnknownFieldSet.foreign_nil (set : UnknownFieldSet) : set.Foreign [] := by
  induction set with
  | nil => exact trivial
  | field number value rest ih => exact ⟨List.not_mem_nil, ih⟩
  | group number grp rest _ ih => exact ⟨List.not_mem_nil, ih⟩

/-- **A set of fields** is read as it was written, group by group, by any
switch that leaves its tags to `UnknownFieldParse`. -/
theorem takes_unknown {M : Type} {field : Nat → M → List UInt8 → Read M} (hshort : Shortens field)
    {put : UnknownFieldSet → M} {known : List Nat}
    (hown : ∀ tag acc p, tag ∉ known →
      field tag (put acc) p = (UnknownFieldParse depth tag acc p).map fun r => (put r.1, r.2))
    (h : set.Fits depth) (hforeign : set.Foreign known) (acc : UnknownFieldSet) :
    Takes field (InternalSerializeUnknownFieldsToArray set) (put acc) (put (acc.append set)) := by
  induction set generalizing depth acc M known with
  | nil =>
    rw [UnknownFieldSet.append_nil]
    exact Takes.nil (put acc)
  | field number value rest ih =>
    obtain ⟨hnumber, hvalue, hrest⟩ := h
    have hone : Takes field (WriteTagToArray number value.type ++ value.body) (put acc)
        (put (acc.append (.field number value .nil))) := by
      refine takes_field hshort hnumber.1 hnumber.2 value.type_lt.1 value.type_lt.2 fun more => ?_
      rw [hown _ _ _ hforeign.1, UnknownFieldParse, addField, FieldParser_write hvalue hnumber.1]
      rfl
    have hall := hone.append (ih hshort hown hrest hforeign.2 _)
    rw [UnknownFieldSet.append_assoc, ← UnknownField.toArray_eq] at hall
    exact hall
  | group number grp rest ihgroup ihrest =>
    obtain ⟨hnumber, hdepth, hgrp, hrest⟩ := h
    obtain ⟨depth, rfl⟩ := Nat.exists_eq_succ_of_ne_zero (Nat.pos_iff_ne_zero.mp hdepth)
    rw [Nat.succ_sub_one] at hgrp
    have hbody : ∀ more, ParseGroup (depth + 1) number
        (InternalSerializeUnknownFieldsToArray grp ++
          WriteTagToArray number WireType.END_GROUP ++ more) =
        some (.group number grp .nil, more) := by
      intro more
      have hinner : Takes (UnknownFieldParse depth) (InternalSerializeUnknownFieldsToArray grp)
          (id .nil) (id grp) := ihgroup (UnknownFieldParse_shortens depth)
        (fun _ _ _ _ => Option.map_id'.symm) hgrp grp.foreign_nil .nil
      have hread := hinner (WriteTagToArray number WireType.END_GROUP ++ more)
      rw [parse_endGroup (UnknownFieldParse_shortens depth) hnumber.2] at hread
      rw [List.append_assoc, ParseGroup]
      refine (congrArg (Option.bind · _) hread).trans ?_
      exact if_pos rfl
    have hone : Takes field (WriteTagToArray number WireType.START_GROUP ++
        (InternalSerializeUnknownFieldsToArray grp ++ WriteTagToArray number WireType.END_GROUP))
        (put acc) (put (acc.append (.group number grp .nil))) := by
      refine takes_field hshort hnumber.1 hnumber.2 (by decide) (by decide) fun more => ?_
      have hdiv : (number * 8 + WireType.START_GROUP) / 8 = number := by
        have hstart : WireType.START_GROUP = 3 := rfl
        omega
      have hmod : (number * 8 + WireType.START_GROUP) % 8 = WireType.START_GROUP := by
        have hstart : WireType.START_GROUP = 3 := rfl
        omega
      have hnumber' := hnumber.1
      rw [hown _ _ _ hforeign.1]
      simp only [UnknownFieldParse, addField, FieldParser, hdiv, hmod]
      rw [if_neg (by omega), if_neg (by decide), if_neg (by decide), if_neg (by decide),
        if_pos trivial, hbody]
      rfl
    have hall := hone.append (ihrest hshort hown hrest hforeign.2 _)
    rw [UnknownFieldSet.append_assoc, ← List.append_assoc] at hall
    exact hall

end RoundTrips

end LibuvServer.Protobuf
