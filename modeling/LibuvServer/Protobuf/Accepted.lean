import LibuvServer.Protobuf.Merging
import Mathlib.Tactic.Common

/-!
# Accepted bytes

What a parser takes need not be what a serializer writes: numbers may be
longer than they have to be, fields may be in any order and more than once.
But the message it makes of it can be written, and what is written then stands
for the bytes it was read from, alone or with other bytes.
-/

namespace LibuvServer.Protobuf

open LibuvServer.Lib

/-! ## A rule for the loop -/

section Loop

variable {M : Type} {field : Nat → M → List UInt8 → Read M} {P : M → Prop}

theorem ReadTag_lt {tag : Nat} {p q : List UInt8} (h : ReadTag p = some (tag, q)) :
    tag < 2 ^ 32 := by
  rw [ReadTag_eq] at h
  obtain ⟨r, -, heq⟩ := Option.bind_eq_some_iff.mp h
  cases heq
  exact Nat.mod_lt _ (Nat.two_pow_pos 32)

/-- What a switch keeps. -/
def Keeps (field : Nat → M → List UInt8 → Read M) (P : M → Prop) : Prop :=
  ∀ tag m p m' q, tag < 2 ^ 32 → field tag m p = some (m', q) → P m → P m'

/-- **What every field keeps**, the loop keeps. -/
theorem parse_keeps (h : Keeps field P) {m : M} {p : List UInt8} {e : Ended M}
    (he : parse field m p = some e) (hm : P m) : P e.msg := by
  rw [parse] at he
  generalize p.length = fuel at he
  induction fuel generalizing m p with
  | zero =>
    cases p with
    | nil =>
      cases he
      exact hm
    | cons b p => cases he
  | succ fuel ih =>
    cases p with
    | nil =>
      cases he
      exact hm
    | cons b p =>
      obtain ⟨⟨tag, q⟩, htag, he⟩ := Option.bind_eq_some_iff.mp he
      dsimp only at he
      split at he
      · cases he
        exact hm
      · obtain ⟨⟨m', q'⟩, hfield, he⟩ := Option.bind_eq_some_iff.mp he
        exact ih (h tag m q m' q' (ReadTag_lt htag) hfield hm) he

end Loop

/-! ## Unknown fields -/

section Fields

variable {depth tag : Nat} {p q : List UInt8} {set : UnknownFieldSet} {known : List Nat}

theorem VarintParse_lt {v : Nat} (h : VarintParse p = some (v, q)) : v < 2 ^ 64 := by
  rw [VarintParse_eq] at h
  obtain ⟨r, -, heq⟩ := Option.bind_eq_some_iff.mp h
  cases heq
  exact Nat.mod_lt _ (Nat.two_pow_pos 64)

theorem UnalignedLoad_lt {n v : Nat} (h : UnalignedLoad n p = some (v, q)) : v < 256 ^ n := by
  have hvalue : ∀ bytes : List UInt8,
      bytes.foldr (fun b v => b.toNat + 256 * v) 0 < 256 ^ bytes.length := by
    intro bytes
    induction bytes with
    | nil => exact Nat.one_pos
    | cons b bytes ih =>
      have hb := b.toNat_lt
      rw [List.foldr_cons, List.length_cons, Nat.pow_succ]
      omega
  obtain ⟨hle, heq⟩ := Option.ite_none_right_eq_some.mp h
  cases heq
  have hlt := hvalue (p.take n)
  rwa [List.length_take, Nat.min_eq_left hle] at hlt

theorem InlineGreedyStringParser_le {s : List UInt8}
    (h : InlineGreedyStringParser p = some (s, q)) :
    s.length ≤ INT_MAX - kSlopBytes := by
  obtain ⟨⟨size, p'⟩, hsize, hs⟩ := Option.bind_eq_some_iff.mp h
  obtain ⟨-, hle⟩ := ReadSize_decodes hsize
  obtain ⟨-, heq⟩ := Option.ite_none_right_eq_some.mp hs
  cases heq
  exact Nat.le_trans (List.length_take_le _ _) hle

theorem UnknownFieldSet.Fits.append {other : UnknownFieldSet} (h : set.Fits depth)
    (h' : other.Fits depth) : (set.append other).Fits depth := by
  induction set with
  | nil => exact h'
  | field number value rest ih => exact ⟨h.1, h.2.1, ih h.2.2⟩
  | group number grp rest _ ih => exact ⟨h.1, h.2.1, h.2.2.1, ih h.2.2.2⟩

theorem UnknownFieldSet.Foreign.append {other : UnknownFieldSet} (h : set.Foreign known)
    (h' : other.Foreign known) : (set.append other).Foreign known := by
  induction set with
  | nil => exact h'
  | field number value rest ih => exact ⟨h.1, ih h.2⟩
  | group number grp rest _ ih => exact ⟨h.1, ih h.2⟩

/-- A field that is read can be written, under the tag it was read with. -/
theorem FieldParser_fits {ParseGroup : Nat → List UInt8 → Read UnknownFieldSet}
    (hgroup : ∀ num p set q, ParseGroup num p = some (set, q) →
      ∃ grp, set = .group num grp .nil ∧ 0 < depth ∧ grp.Fits (depth - 1))
    (htag : tag < 2 ^ 32) (h : FieldParser ParseGroup tag p = some (set, q)) :
    set.Fits depth ∧ (tag ∉ known → set.Foreign known) := by
  simp only [FieldParser] at h
  split at h
  · cases h
  rename_i hnumber
  have hfits : NumberFits (tag / 8) := ⟨Nat.pos_of_ne_zero hnumber, by omega⟩
  have htagEq : ∀ type, tag % 8 = type → tag / 8 * 8 + type = tag := by omega
  split at h
  · rename_i htype
    obtain ⟨r, hr, heq⟩ := Option.map_eq_some_iff.mp h
    cases heq
    exact ⟨⟨hfits, VarintParse_lt hr, trivial⟩, fun hnew => ⟨by rwa [UnknownField.type,
      htagEq _ htype], trivial⟩⟩
  split at h
  · rename_i htype
    obtain ⟨r, hr, heq⟩ := Option.map_eq_some_iff.mp h
    cases heq
    exact ⟨⟨hfits, UnalignedLoad_lt hr, trivial⟩, fun hnew => ⟨by rwa [UnknownField.type,
      htagEq _ htype], trivial⟩⟩
  split at h
  · rename_i htype
    obtain ⟨r, hr, heq⟩ := Option.map_eq_some_iff.mp h
    cases heq
    exact ⟨⟨hfits, InlineGreedyStringParser_le hr, trivial⟩, fun hnew => ⟨by rwa [UnknownField.type,
      htagEq _ htype], trivial⟩⟩
  split at h
  · rename_i htype
    obtain ⟨grp, rfl, hdepth, hgrp⟩ := hgroup _ _ _ _ h
    exact ⟨⟨hfits, hdepth, hgrp, trivial⟩, fun hnew => ⟨by rwa [htagEq _ htype], trivial⟩⟩
  split at h
  · rename_i htype
    obtain ⟨r, hr, heq⟩ := Option.map_eq_some_iff.mp h
    cases heq
    exact ⟨⟨hfits, UnalignedLoad_lt hr, trivial⟩, fun hnew => ⟨by rwa [UnknownField.type,
      htagEq _ htype], trivial⟩⟩
  · cases h

theorem addField_fits {ParseGroup : Nat → List UInt8 → Read UnknownFieldSet}
    (hgroup : ∀ num p set q, ParseGroup num p = some (set, q) →
      ∃ grp, set = .group num grp .nil ∧ 0 < depth ∧ grp.Fits (depth - 1)) :
    Keeps (addField ParseGroup) (·.Fits depth) := by
  intro tag m p m' q htag h hm
  obtain ⟨r, hr, heq⟩ := Option.map_eq_some_iff.mp h
  cases heq
  have hone : r.1.Fits depth ∧ (tag ∉ ([] : List Nat) → r.1.Foreign []) :=
    FieldParser_fits hgroup htag hr
  exact hm.append hone.1

/-- A group goes one deeper. -/
theorem ParseGroup_fits {num : Nat} (h : ParseGroup depth num p = some (set, q)) :
    ∃ grp, set = .group num grp .nil ∧ 0 < depth ∧ grp.Fits (depth - 1) := by
  induction depth generalizing num p set q with
  | zero => cases h
  | succ depth ih =>
    obtain ⟨e, he, hend⟩ := Option.bind_eq_some_iff.mp h
    obtain ⟨-, heq⟩ := Option.ite_none_right_eq_some.mp hend
    cases heq
    exact ⟨e.msg, rfl, Nat.succ_pos depth, parse_keeps (addField_fits fun _ _ _ _ => ih) he trivial⟩

end Fields

/-! ## Messages -/

theorem toInt32_fits (v : Nat) : -2 ^ 31 ≤ toInt32 v ∧ toInt32 v < 2 ^ 31 := by
  have hword : 0 < 2 ^ 32 := Nat.two_pow_pos 32
  have hhalf : ((2 ^ 32 : Nat) : Int) = 2 * 2 ^ 31 := rfl
  have hle := Int.le_bmod (x := v) hword
  have hlt := Int.bmod_lt (x := v) hword
  rw [hhalf] at hle hlt
  unfold toInt32
  exact ⟨by omega, by omega⟩

namespace Schema

/-- What a parser leaves in the fields: `FitsIn` but for the sizes that the
messages inside will have. -/
def Holds (known : List Nat) (depth : Nat) : (s : Schema) → s.Msg → Prop
  | nil, unknown => unknown.Fits depth ∧ unknown.Foreign known
  | int32 _ _ rest, (v, m) => (∀ n ∈ v, -2 ^ 31 ≤ n ∧ n < 2 ^ 31) ∧ rest.Holds known depth m
  | string _ _ rest, (v, m) =>
    (∀ s ∈ v, s.length ≤ INT_MAX - kSlopBytes) ∧ rest.Holds known depth m
  | message _ _ type rest, (v, m) =>
    (∀ sub ∈ v, 0 < depth ∧ type.Holds type.tags (depth - 1) sub) ∧ rest.Holds known depth m

theorem Clear_holds (s : Schema) (known : List Nat) (depth : Nat) :
    s.Holds known depth s.Clear := by
  induction s with
  | nil => exact ⟨trivial, trivial⟩
  | int32 number required rest ih => exact ⟨fun _ h => (nomatch h), ih⟩
  | string number required rest ih => exact ⟨fun _ h => (nomatch h), ih⟩
  | message number required type rest _ ih => exact ⟨fun _ h => (nomatch h), ih⟩

/-- A message inside is no larger than the message. -/
theorem Holds.fitsIn {s : Schema} {known : List Nat} {depth : Nat} {m : s.Msg}
    (h : s.Holds known depth m) (hsize : s.ByteSizeLong m ≤ INT_MAX - kSlopBytes) :
    s.FitsIn known depth m := by
  induction s generalizing known depth with
  | nil => exact h
  | int32 number required rest ih =>
    obtain ⟨v, m⟩ := m
    rw [ByteSizeLong] at hsize
    exact ⟨h.1, ih h.2 (by omega)⟩
  | string number required rest ih =>
    obtain ⟨v, m⟩ := m
    rw [ByteSizeLong] at hsize
    exact ⟨h.1, ih h.2 (by omega)⟩
  | message number required type rest ihtype ih =>
    obtain ⟨v, m⟩ := m
    rw [ByteSizeLong] at hsize
    refine ⟨fun sub hsub => ?_, ih h.2 (by omega)⟩
    obtain ⟨hdepth, hholds⟩ := h.1 sub hsub
    cases hsub
    rw [Option.elim_some, LengthDelimitedSize] at hsize
    have hinside : type.ByteSizeLong sub ≤ INT_MAX - kSlopBytes := by omega
    exact ⟨hdepth, ihtype hholds hinside, hinside⟩

/-- **The switch** leaves in a field only what the field can hold. -/
theorem parseField_holds {s : Schema} {known : List Nat} {depth tag : Nat} {m m' : s.Msg}
    {p q : List UInt8} (htag : tag < 2 ^ 32) (hknown : tag ∈ known → tag ∈ s.tags)
    (h : s.parseField depth tag m p = some (m', q)) (hm : s.Holds known depth m) :
    s.Holds known depth m' := by
  induction s generalizing known depth tag p q with
  | nil =>
    have hnew : tag ∉ known := fun hmem => List.not_mem_nil (hknown hmem)
    obtain ⟨r, hr, heq⟩ := Option.map_eq_some_iff.mp h
    cases heq
    obtain ⟨hfits, hforeign⟩ := FieldParser_fits (fun _ _ _ _ => ParseGroup_fits) htag hr
    exact ⟨hm.1.append hfits, hm.2.append (hforeign hnew)⟩
  | int32 number required rest ih =>
    obtain ⟨v, m⟩ := m
    rw [parseField] at h
    split at h
    · obtain ⟨r, hr, heq⟩ := Option.map_eq_some_iff.mp h
      cases heq
      refine ⟨fun n hn => ?_, hm.2⟩
      rw [← Option.some.inj hn]
      exact toInt32_fits r.1
    · rename_i hother
      obtain ⟨r, hr, heq⟩ := Option.map_eq_some_iff.mp h
      cases heq
      exact ⟨hm.1,
        ih htag (fun hmem => (List.mem_cons.mp (hknown hmem)).resolve_left hother) hr hm.2⟩
  | string number required rest ih =>
    obtain ⟨v, m⟩ := m
    rw [parseField] at h
    split at h
    · obtain ⟨r, hr, heq⟩ := Option.map_eq_some_iff.mp h
      cases heq
      refine ⟨fun t ht => ?_, hm.2⟩
      cases ht
      exact InlineGreedyStringParser_le hr
    · rename_i hother
      obtain ⟨r, hr, heq⟩ := Option.map_eq_some_iff.mp h
      cases heq
      exact ⟨hm.1,
        ih htag (fun hmem => (List.mem_cons.mp (hknown hmem)).resolve_left hother) hr hm.2⟩
  | message number required type rest ihtype ih =>
    obtain ⟨v, m⟩ := m
    rw [parseField] at h
    split at h
    · obtain ⟨r, hr, heq⟩ := Option.map_eq_some_iff.mp h
      cases heq
      refine ⟨fun sub hsub => ?_, hm.2⟩
      cases hsub
      obtain ⟨⟨size, p'⟩, -, hr⟩ := Option.bind_eq_some_iff.mp hr
      obtain ⟨hlimits, hr⟩ := Option.ite_none_left_eq_some.mp hr
      obtain ⟨e, he, hr⟩ := Option.bind_eq_some_iff.mp hr
      obtain ⟨-, heq⟩ := Option.ite_none_right_eq_some.mp hr
      cases heq
      have hthere : type.Holds type.tags (depth - 1) (v.getD type.Clear) := by
        cases v with
        | none => exact Clear_holds type _ _
        | some sub => exact (hm.1 sub rfl).2
      have hkeeps : Keeps (type.parseField (depth - 1)) (type.Holds type.tags (depth - 1)) :=
        fun tag m p m' q htag h => ihtype htag id h
      exact ⟨Nat.pos_of_ne_zero fun hzero => hlimits (.inl hzero), parse_keeps hkeeps he hthere⟩
    · rename_i hother
      obtain ⟨r, hr, heq⟩ := Option.map_eq_some_iff.mp h
      cases heq
      exact ⟨hm.1,
        ih htag (fun hmem => (List.mem_cons.mp (hknown hmem)).resolve_left hother) hr hm.2⟩

theorem ParsePartialFromArray_holds {s : Schema} {data : List UInt8} {m : s.Msg}
    (h : s.ParsePartialFromArray data = some m) : s.Holds s.tags defaultRecursionLimit m := by
  obtain ⟨e, he, hend⟩ := Option.bind_eq_some_iff.mp h
  obtain ⟨-, heq⟩ := Option.ite_none_right_eq_some.mp hend
  cases heq
  exact parse_keeps (fun tag m p m' q htag h => parseField_holds htag id h) he (Clear_holds s _ _)

/-- **Accepted bytes** and what is written for them are the same to any reader.
If the message that was read has a size that can be read again, it is written
in as many bytes as `ByteSizeLong` says, these are read as the message again,
and, whatever message they are read into and whatever follows them, the result
is the one that the accepted bytes would have had. -/
theorem accepted_is_written {s : Schema} (hok : s.Ok) {data : List UInt8} {m : s.Msg}
    (h : s.ParsePartialFromArray data = some m)
    (hsize : s.ByteSizeLong m ≤ INT_MAX - kSlopBytes) :
    (s.InternalSerialize m).length = s.ByteSizeLong m ∧
      s.ParsePartialFromArray (s.InternalSerialize m) = some m ∧
      s.ParseFromArray (s.InternalSerialize m) = s.ParseFromArray data ∧
      ∀ b others, s.MergePartialFromArray b (s.InternalSerialize m ++ others) =
        s.MergePartialFromArray b (data ++ others) := by
  have hfits := (ParsePartialFromArray_holds h).fitsIn hsize
  have hwritten := ParsePartialFromArray_write hok hfits
  refine ⟨(ByteSizeLong_eq hfits).symm, hwritten, ?_, fun b others => ?_⟩
  · rw [ParseFromArray, ParseFromArray, hwritten, h]
  · rw [MergePartialFromArray_append s hwritten, MergePartialFromArray_append s h]

/-- A message inside in two parts, and a number in more bytes than it needs. -/
def sampleBytes : List UInt8 :=
  [0x12, 0x02, 0x28, 0x05, 0x12, 0x05, 0x0a, 0x01, 0x6b, 0x28, 0x4d, 0x08, 0x83, 0x80, 0x80, 0x80,
    0x00]

def sampleRead : sampleType.Msg := (some 3, some (some [0x6b], some 77, .nil), .nil)

/-- Seventeen bytes are nine when they are written again. -/
theorem accepted_is_written_sample :
    (sampleType.InternalSerialize sampleRead).length = 9 ∧
      sampleType.ParseFromArray (sampleType.InternalSerialize sampleRead) =
        sampleType.ParseFromArray sampleBytes := by
  have hread : sampleType.ParsePartialFromArray sampleBytes = some sampleRead := by decide +kernel
  obtain ⟨hlength, -, hwhole, -⟩ := accepted_is_written sampleType_ok hread (by decide)
  exact ⟨hlength.trans (by decide), hwhole⟩

end Schema

end LibuvServer.Protobuf
