import LibuvServer.Protobuf.Messages
import Mathlib.Tactic.Common

/-!
# Messages on the wire

A message that is written and read is the message it was, with the fields it
does not know, and it takes the bytes `ByteSizeLong` says. What is written for
a field is read by the case of the switch that is its own, wherever the field
is among the others: a schema is read as a part of the schema it is in.
-/

namespace LibuvServer.Protobuf

open LibuvServer.Lib

namespace Schema

/-! ## Tags -/

/-- The tags of the fields. -/
def tags : Schema → List Nat
  | nil => []
  | int32 number _ rest => MakeTag number WireType.VARINT :: rest.tags
  | string number _ rest => MakeTag number WireType.LENGTH_DELIMITED :: rest.tags
  | message number _ _ rest => MakeTag number WireType.LENGTH_DELIMITED :: rest.tags

/-- What `protoc` takes: every field has a number of its own. -/
def Ok : Schema → Prop
  | nil => True
  | int32 number _ rest =>
    NumberFits number ∧ MakeTag number WireType.VARINT ∉ rest.tags ∧ rest.Ok
  | string number _ rest =>
    NumberFits number ∧ MakeTag number WireType.LENGTH_DELIMITED ∉ rest.tags ∧ rest.Ok
  | message number _ type rest =>
    NumberFits number ∧ MakeTag number WireType.LENGTH_DELIMITED ∉ rest.tags ∧ type.Ok ∧ rest.Ok

instance (number : Nat) : Decidable (NumberFits number) := inferInstanceAs (Decidable (_ ∧ _))

instance Ok.decidable : (s : Schema) → Decidable s.Ok
  | nil => .isTrue trivial
  | int32 _ _ rest =>
    have := Ok.decidable rest
    inferInstanceAs (Decidable (_ ∧ _ ∧ _))
  | string _ _ rest =>
    have := Ok.decidable rest
    inferInstanceAs (Decidable (_ ∧ _ ∧ _))
  | message _ _ type rest =>
    have := Ok.decidable type
    have := Ok.decidable rest
    inferInstanceAs (Decidable (_ ∧ _ ∧ _ ∧ _))

/-- What the fields can hold and be read: the messages inside have a size that
is read, and are not too deep. What is unknown has none of the tags. -/
def FitsIn (known : List Nat) (depth : Nat) : (s : Schema) → s.Msg → Prop
  | nil, unknown => unknown.Fits depth ∧ unknown.Foreign known
  | int32 _ _ rest, (v, m) => (∀ n ∈ v, -2 ^ 31 ≤ n ∧ n < 2 ^ 31) ∧ rest.FitsIn known depth m
  | string _ _ rest, (v, m) =>
    (∀ s ∈ v, s.length ≤ INT_MAX - kSlopBytes) ∧ rest.FitsIn known depth m
  | message _ _ type rest, (v, m) =>
    (∀ sub ∈ v, 0 < depth ∧ type.FitsIn type.tags (depth - 1) sub ∧
      type.ByteSizeLong sub ≤ INT_MAX - kSlopBytes) ∧ rest.FitsIn known depth m

/-- What a message can hold and be read as deep as this. -/
def Fits (s : Schema) (depth : Nat) (m : s.Msg) : Prop := s.FitsIn s.tags depth m

end Schema

/-! ## Numbers -/

/-- An `int32` survives its 64 bits. -/
theorem toInt32_signExtended {n : Int} (h : -2 ^ 31 ≤ n ∧ n < 2 ^ 31) :
    toInt32 (signExtended n) = n := by
  have hcast : ((n % 2 ^ 64).toNat : Int) = n % 2 ^ 64 := by omega
  have hlow : (n % 2 ^ 64).bmod (2 ^ 32) = n := by
    rw [Int.bmod_def]
    simp only [Nat.reducePow, Nat.cast_ofNat]
    omega
  unfold toInt32 signExtended
  rw [hcast]
  exact hlow

theorem signExtended_lt (n : Int) : signExtended n < 2 ^ 64 := by
  rw [signExtended]
  omega

theorem VarintSize_eq {v : Nat} (h : v < 2 ^ 64) : VarintSize v = (UnsafeVarint v).length :=
  (Varint.length_encode_eq h).symm

theorem TagSize_eq (number type : Nat) :
    TagSize number type = (WriteTagToArray number type).length := by
  have htag : MakeTag number type < 2 ^ 32 := Nat.mod_lt _ (Nat.two_pow_pos 32)
  exact VarintSize_eq (by omega)

theorem Int32Size_eq {n : Int} (h : -2 ^ 31 ≤ n ∧ n < 2 ^ 31) :
    Int32Size n = (UnsafeVarint (signExtended n)).length := by
  rw [Int32Size]
  split
  · -- a negative number has all ten bytes
    have hlog : (signExtended n).log2 = 63 := by
      refine (Nat.log2_eq_iff ?_).mpr ?_ <;> rw [signExtended] <;> omega
    rw [UnsafeVarint, Varint.length_encode, hlog]
  · have hvalue : signExtended n = n.toNat := by
      rw [signExtended]
      omega
    rw [hvalue]
    exact VarintSize_eq (by omega)

/-! ## Sizes -/

theorem length_field (value : UnknownField) (number : Nat) (h : value.Fits) :
    value.size number = (value.toArray number).length := by
  have hmax : INT_MAX - kSlopBytes = 2147483631 := rfl
  cases value with
  | varint v => rw [UnknownField.size, UnknownField.toArray, List.length_append, TagSize_eq,
      VarintSize_eq h]
  | fixed64 v => rw [UnknownField.size, UnknownField.toArray, List.length_append, TagSize_eq,
      length_littleEndian]
  | length_delimited s =>
    rw [UnknownField.size, UnknownField.toArray, WriteString, List.length_append,
      List.length_append, TagSize_eq, VarintSize_eq (by omega)]
  | fixed32 v => rw [UnknownField.size, UnknownField.toArray, List.length_append, TagSize_eq,
      length_littleEndian]

theorem length_unknown {set : UnknownFieldSet} {depth : Nat} (h : set.Fits depth) :
    ComputeUnknownFieldsSize set = (InternalSerializeUnknownFieldsToArray set).length := by
  induction set generalizing depth with
  | nil => rfl
  | field number value rest ih =>
    obtain ⟨-, hvalue, hrest⟩ := h
    rw [ComputeUnknownFieldsSize, InternalSerializeUnknownFieldsToArray, List.length_append,
      length_field value number hvalue, ih hrest]
  | group number grp rest ihgroup ihrest =>
    obtain ⟨-, -, hgrp, hrest⟩ := h
    rw [ComputeUnknownFieldsSize, InternalSerializeUnknownFieldsToArray, List.length_append,
      List.length_append, List.length_append, TagSize_eq, TagSize_eq, ihgroup hgrp, ihrest hrest]

namespace Schema

variable {known : List Nat} {depth : Nat}

/-- **A message takes the bytes** `ByteSizeLong` says. -/
theorem ByteSizeLong_eq : {s : Schema} → {known : List Nat} → {depth : Nat} → {m : s.Msg} →
    s.FitsIn known depth m → s.ByteSizeLong m = (s.InternalSerialize m).length := by
  intro s
  induction s with
  | nil =>
    intro known depth m h
    exact length_unknown h.1
  | int32 number required rest ih =>
    rintro known depth ⟨v, m⟩ ⟨hv, hm⟩
    rw [ByteSizeLong, InternalSerialize, List.length_append, ih hm]
    cases v with
    | none => rfl
    | some n =>
      simp only [Option.elim_some, WriteInt32ToArray, List.length_append, TagSize_eq,
        Int32Size_eq (hv n rfl)]
  | string number required rest ih =>
    rintro known depth ⟨v, m⟩ ⟨hv, hm⟩
    rw [ByteSizeLong, InternalSerialize, List.length_append, ih hm]
    cases v with
    | none => rfl
    | some t =>
      have hsize : VarintSize (t.length % 2 ^ 32) = (UnsafeVarint (t.length % 2 ^ 32)).length :=
        VarintSize_eq (by omega)
      simp only [Option.elim_some, WriteString, LengthDelimitedSize, List.length_append, TagSize_eq,
        hsize]
      omega
  | message number required type rest ihtype ih =>
    rintro known depth ⟨v, m⟩ ⟨hv, hm⟩
    rw [ByteSizeLong, InternalSerialize, List.length_append, ih hm]
    cases v with
    | none => rfl
    | some sub =>
      have hsub := ihtype (hv sub rfl).2.1
      have hsize : VarintSize (type.ByteSizeLong sub % 2 ^ 32) =
          (UnsafeVarint (type.ByteSizeLong sub % 2 ^ 32)).length := VarintSize_eq (by omega)
      simp only [Option.elim_some, LengthDelimitedSize, List.length_append, TagSize_eq, hsize]
      omega

/-! ## Reading what was written -/

theorem ParseMessage_shorter {M : Type} {field : Nat → M → List UInt8 → Read M} {m m' : M}
    {p q : List UInt8} (h : ParseMessage depth field m p = some (m', q)) : q.length ≤ p.length := by
  obtain ⟨⟨size, p'⟩, hsize, h⟩ := Option.bind_eq_some_iff.mp h
  rw [ReadSize_eq] at hsize
  obtain ⟨r, hr, heq⟩ := Option.bind_eq_some_iff.mp hsize
  obtain ⟨-, heq⟩ := Option.ite_none_right_eq_some.mp heq
  cases heq
  have hlt : p'.length < p.length := Varint.decode_shorter hr
  obtain ⟨-, h⟩ := Option.ite_none_left_eq_some.mp h
  obtain ⟨e, -, h⟩ := Option.bind_eq_some_iff.mp h
  obtain ⟨-, heq⟩ := Option.ite_none_right_eq_some.mp h
  cases heq
  rw [List.length_drop]
  omega

theorem parseField_shortens (s : Schema) (depth : Nat) : Shortens (s.parseField depth) := by
  induction s with
  | nil => exact UnknownFieldParse_shortens depth
  | int32 number required rest ih =>
    rintro tag ⟨v, m⟩ p m' q h
    rw [parseField] at h
    split at h
    · obtain ⟨r, hr, heq⟩ := Option.map_eq_some_iff.mp h
      cases heq
      exact Nat.le_of_lt (VarintParse_shorter hr)
    · obtain ⟨r, hr, heq⟩ := Option.map_eq_some_iff.mp h
      cases heq
      exact ih _ _ _ _ _ hr
  | string number required rest ih =>
    rintro tag ⟨v, m⟩ p m' q h
    rw [parseField] at h
    split at h
    · obtain ⟨r, hr, heq⟩ := Option.map_eq_some_iff.mp h
      cases heq
      exact Nat.le_of_lt (InlineGreedyStringParser_shorter hr)
    · obtain ⟨r, hr, heq⟩ := Option.map_eq_some_iff.mp h
      cases heq
      exact ih _ _ _ _ _ hr
  | message number required type rest _ ih =>
    rintro tag ⟨v, m⟩ p m' q h
    rw [parseField] at h
    split at h
    · obtain ⟨r, hr, heq⟩ := Option.map_eq_some_iff.mp h
      cases heq
      exact ParseMessage_shorter hr
    · obtain ⟨r, hr, heq⟩ := Option.map_eq_some_iff.mp h
      cases heq
      exact ih _ _ _ _ _ hr

/-- The switch of `s` as a part of the switch `field`, which leaves to it the
tags of `s` and all it does not know. -/
structure Inside {M : Type} (field : Nat → M → List UInt8 → Read M) (known : List Nat)
    (depth : Nat) (s : Schema) (put : s.Msg → M) : Prop where
  tags : ∀ tag ∈ s.tags, tag ∈ known
  own : ∀ tag m p, tag ∈ s.tags ∨ tag ∉ known →
    field tag (put m) p = (s.parseField depth tag m p).map fun r => (put r.1, r.2)

theorem Inside.self (s : Schema) (depth : Nat) :
    Inside (s.parseField depth) s.tags depth s id where
  tags _ h := h
  own _ _ _ _ := Option.map_id'.symm

section Inside

variable {M : Type} {field : Nat → M → List UInt8 → Read M} {rest type : Schema} {number : Nat}
  {required : Bool}

/-- A tag of the rest is not the tag of the first field. -/
theorem rest_tag {first tag : Nat} (hfirst : first ∈ known) (hnew : first ∉ rest.tags)
    (h : tag ∈ rest.tags ∨ tag ∉ known) : tag ≠ first := by
  rintro rfl
  rcases h with hrest | hforeign
  · exact hnew hrest
  · exact hforeign hfirst

theorem Inside.int32 {put : (int32 number required rest).Msg → M}
    (h : Inside field known depth (int32 number required rest) put)
    (hnew : MakeTag number WireType.VARINT ∉ rest.tags) (v : Option Int) :
    Inside field known depth rest fun m => put (v, m) where
  tags tag ht := h.tags tag (.tail _ ht)
  own tag m p ht := by
    have hne := rest_tag (h.tags _ (.head _)) hnew ht
    rw [h.own tag (v, m) p (ht.imp_left (.tail _)), parseField, if_neg hne, Option.map_map]
    rfl

theorem Inside.string {put : (string number required rest).Msg → M}
    (h : Inside field known depth (string number required rest) put)
    (hnew : MakeTag number WireType.LENGTH_DELIMITED ∉ rest.tags) (v : Option (List UInt8)) :
    Inside field known depth rest fun m => put (v, m) where
  tags tag ht := h.tags tag (.tail _ ht)
  own tag m p ht := by
    have hne := rest_tag (h.tags _ (.head _)) hnew ht
    rw [h.own tag (v, m) p (ht.imp_left (.tail _)), parseField, if_neg hne, Option.map_map]
    rfl

theorem Inside.message {put : (message number required type rest).Msg → M}
    (h : Inside field known depth (message number required type rest) put)
    (hnew : MakeTag number WireType.LENGTH_DELIMITED ∉ rest.tags) (v : Option type.Msg) :
    Inside field known depth rest fun m => put (v, m) where
  tags tag ht := h.tags tag (.tail _ ht)
  own tag m p ht := by
    have hne := rest_tag (h.tags _ (.head _)) hnew ht
    rw [h.own tag (v, m) p (ht.imp_left (.tail _)), parseField, if_neg hne, Option.map_map]
    rfl

end Inside

/-- A message inside is read up to its end. -/
theorem ParseMessage_write {M : Type} {field : Nat → M → List UInt8 → Read M} {m m' : M}
    {bytes : List UInt8} (h : Takes field bytes m m') (hdepth : 0 < depth)
    (hsize : bytes.length ≤ INT_MAX - kSlopBytes) (more : List UInt8) :
    ParseMessage depth field m (UnsafeVarint bytes.length ++ (bytes ++ more)) =
      some (m', more) := by
  have hfits : ¬ (depth = 0 ∨ (bytes ++ more).length < bytes.length) := by
    rw [List.length_append]
    omega
  rw [ParseMessage, ReadSize_write hsize, Option.bind_some]
  show (if _ then _ else _) = _
  rw [if_neg hfits, List.take_left, h.parse_eq, Option.bind_some, if_pos rfl, List.drop_left]

/-- **The fields of a message**, one after another, take a new message to it. -/
theorem takes_fields {s : Schema} {M : Type} {field : Nat → M → List UInt8 → Read M}
    {put : s.Msg → M} (hshort : Shortens field) (h : Inside field known depth s put) (hok : s.Ok)
    {m : s.Msg} (hm : s.FitsIn known depth m) :
    Takes field (s.InternalSerialize m) (put s.Clear) (put m) := by
  induction s generalizing M known depth with
  | nil =>
    exact takes_unknown hshort (fun tag acc p ht => h.own tag acc p (.inr ht)) hm.1 hm.2 .nil
  | int32 number required rest ih =>
    obtain ⟨v, m⟩ := m
    obtain ⟨hnumber, hnew, hok⟩ := hok
    obtain ⟨hv, hm⟩ := hm
    have hrest := ih hshort (h.int32 hnew v) hok hm
    cases v with
    | none => exact hrest
    | some n =>
      refine Takes.append (takes_field hshort hnumber.1 hnumber.2 (by decide) (by decide)
        fun more => ?_) hrest
      have hlt := signExtended_lt n
      rw [← MakeTag_eq hnumber.2 (by decide), h.own _ _ _ (.inl (.head _)), Clear, parseField,
        if_pos rfl, VarintParse_write hlt, Option.map_some, Option.map_some]
      show some (put (some (toInt32 (signExtended n)), rest.Clear), more) = _
      rw [toInt32_signExtended (hv n rfl)]
  | string number required rest ih =>
    obtain ⟨v, m⟩ := m
    obtain ⟨hnumber, hnew, hok⟩ := hok
    obtain ⟨hv, hm⟩ := hm
    have hrest := ih hshort (h.string hnew v) hok hm
    cases v with
    | none => exact hrest
    | some t =>
      refine Takes.append ?_ hrest
      show Takes field (WriteString number t) _ _
      rw [WriteString, List.append_assoc]
      refine takes_field hshort hnumber.1 hnumber.2 (by decide) (by decide) fun more => ?_
      rw [← MakeTag_eq hnumber.2 (by decide), h.own _ _ _ (.inl (.head _)), Clear, parseField,
        if_pos rfl, List.append_assoc, InlineGreedyStringParser_write (hv t rfl), Option.map_some,
        Option.map_some]
  | message number required type rest ihtype ih =>
    obtain ⟨v, m⟩ := m
    obtain ⟨hnumber, hnew, htype, hok⟩ := hok
    obtain ⟨hv, hm⟩ := hm
    have hrest := ih hshort (h.message hnew v) hok hm
    cases v with
    | none => exact hrest
    | some sub =>
      obtain ⟨hdepth, hsub, hsize⟩ := hv sub rfl
      have htakes :
          Takes (type.parseField (depth - 1)) (type.InternalSerialize sub) type.Clear sub :=
        ihtype (parseField_shortens type (depth - 1)) (Inside.self type (depth - 1)) htype hsub
      have hlen := ByteSizeLong_eq hsub
      have hmax : INT_MAX - kSlopBytes = 2147483631 := rfl
      refine Takes.append ?_ hrest
      show Takes field (WriteTagToArray number WireType.LENGTH_DELIMITED ++
        UnsafeVarint (type.ByteSizeLong sub % 2 ^ 32) ++ type.InternalSerialize sub) _ _
      rw [List.append_assoc]
      refine takes_field hshort hnumber.1 hnumber.2 (by decide) (by decide) fun more => ?_
      rw [← MakeTag_eq hnumber.2 (by decide), h.own _ _ _ (.inl (.head _)), Clear, parseField,
        if_pos rfl, Nat.mod_eq_of_lt (by omega), hlen, List.append_assoc]
      rw [hlen] at hsize
      show ((ParseMessage depth (type.parseField (depth - 1)) type.Clear _).map _).map _ = _
      rw [ParseMessage_write htakes hdepth hsize]
      rfl

theorem ParsePartialFromArray_write {s : Schema} (hok : s.Ok) {m : s.Msg}
    (hm : s.Fits defaultRecursionLimit m) :
    s.ParsePartialFromArray (s.InternalSerialize m) = some m := by
  have htakes : Takes (s.parseField defaultRecursionLimit) (s.InternalSerialize m) s.Clear m :=
    takes_fields (parseField_shortens s defaultRecursionLimit)
      (Inside.self s defaultRecursionLimit) hok hm
  rw [ParsePartialFromArray, MergePartialFromArray, InternalParse, htakes.parse_eq,
    Option.bind_some, if_pos rfl]

/-- **A message comes back.** What is written for a message of any type that
`protoc` takes, with whatever it does not know, is as long as `ByteSizeLong`
says, and is read as the same message; the whole parser reads it if and only
if every required field is set. -/
theorem message_comes_back {s : Schema} (hok : s.Ok) {m : s.Msg}
    (hm : s.Fits defaultRecursionLimit m) :
    (s.InternalSerialize m).length = s.ByteSizeLong m ∧
      s.ParsePartialFromArray (s.InternalSerialize m) = some m ∧
      (s.ParseFromArray (s.InternalSerialize m)).isSome = s.IsInitialized m := by
  have hpartial := ParsePartialFromArray_write hok hm
  refine ⟨(ByteSizeLong_eq hm).symm, hpartial, ?_⟩
  rw [ParseFromArray, hpartial, Option.bind_some]
  cases s.IsInitialized m <;> rfl

/-! ## A small type -/

/-- A number, and a message with a text and a number. -/
def sampleType : Schema :=
  .int32 1 true (.message 2 false (.string 1 true (.int32 5 true .nil)) .nil)

/-- All fields are set, and a group is there that nobody knows. -/
def sampleMessage : sampleType.Msg :=
  (some (-3), some (some [0x6b], some 77, .nil), .group 4 (.field 9 (.varint 300) .nil) .nil)

theorem sampleType_ok : sampleType.Ok := by decide

theorem sampleMessage_fits : sampleType.Fits defaultRecursionLimit sampleMessage := by
  refine ⟨fun n hn => ?_, fun sub hsub => ?_, ?_, ?_⟩
  · cases hn
    exact ⟨by decide, by decide⟩
  · cases hsub
    refine ⟨by decide, ⟨fun t ht => ?_, fun n hn => ?_, trivial, trivial⟩, by decide⟩
    · cases ht
      decide
    · cases hn
      exact ⟨by decide, by decide⟩
  · have hnine : NumberFits 9 := by decide
    have hvalue : UnknownField.Fits (.varint 300) := by
      show 300 < 2 ^ 64
      decide
    exact ⟨by decide, by decide, ⟨hnine, hvalue, trivial⟩, trivial⟩
  · exact ⟨by decide, trivial⟩

theorem message_comes_back_sample :
    (sampleType.InternalSerialize sampleMessage).length = 23 ∧
      sampleType.ParsePartialFromArray (sampleType.InternalSerialize sampleMessage) =
        some sampleMessage ∧
      (sampleType.ParseFromArray (sampleType.InternalSerialize sampleMessage)).isSome = true :=
  message_comes_back sampleType_ok sampleMessage_fits

end Schema

end LibuvServer.Protobuf
