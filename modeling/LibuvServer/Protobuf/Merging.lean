import LibuvServer.Protobuf.RoundTrips
import Mathlib.Tactic.Common

/-!
# Merging

Two messages of a type one after another are read as one: the second goes into
what the first has left, a field that is set replacing the one before it, and
a message inside going into the one that is there. So bytes that follow bytes
are a message that is merged into a message.
-/

namespace LibuvServer.Protobuf

open LibuvServer.Lib

/-! ## What follows is not looked at -/

section Follows

variable {p q more : List UInt8} {v : Nat}

theorem VarintParse_follows (h : VarintParse p = some (v, q)) (more : List UInt8) :
    VarintParse (p ++ more) = some (v, q ++ more) := by
  rw [VarintParse_eq] at h ⊢
  obtain ⟨r, hr, heq⟩ := Option.bind_eq_some_iff.mp h
  cases heq
  rw [Varint.decode_append hr, Option.bind_some]

theorem ReadTag_follows (h : ReadTag p = some (v, q)) (more : List UInt8) :
    ReadTag (p ++ more) = some (v, q ++ more) := by
  rw [ReadTag_eq] at h ⊢
  obtain ⟨r, hr, heq⟩ := Option.bind_eq_some_iff.mp h
  cases heq
  rw [Varint.decode_append hr, Option.bind_some]

/-- A size that is read is not too large. -/
theorem ReadSize_decodes (h : ReadSize p = some (v, q)) :
    Varint.decode 5 p = some (v, q) ∧ v ≤ INT_MAX - kSlopBytes := by
  rw [ReadSize_eq] at h
  obtain ⟨r, hr, heq⟩ := Option.bind_eq_some_iff.mp h
  obtain ⟨hle, heq⟩ := Option.ite_none_right_eq_some.mp heq
  cases heq
  exact ⟨hr, hle⟩

theorem ReadSize_follows (h : ReadSize p = some (v, q)) (more : List UInt8) :
    ReadSize (p ++ more) = some (v, q ++ more) := by
  obtain ⟨hr, hle⟩ := ReadSize_decodes h
  rw [ReadSize_eq, Varint.decode_append hr, Option.bind_some, if_pos hle]

theorem InlineGreedyStringParser_follows {s : List UInt8}
    (h : InlineGreedyStringParser p = some (s, q)) (more : List UInt8) :
    InlineGreedyStringParser (p ++ more) = some (s, q ++ more) := by
  obtain ⟨⟨size, p'⟩, hsize, hs⟩ := Option.bind_eq_some_iff.mp h
  obtain ⟨hle, heq⟩ := Option.ite_none_right_eq_some.mp hs
  cases heq
  rw [InlineGreedyStringParser, ReadSize_follows hsize, Option.bind_some]
  show ReadString size (p' ++ more) = _
  rw [ReadString, if_pos (by rw [List.length_append]; omega), List.take_append_of_le_length hle,
    List.drop_append_of_le_length hle]

theorem UnalignedLoad_follows {n : Nat} (h : UnalignedLoad n p = some (v, q)) (more : List UInt8) :
    UnalignedLoad n (p ++ more) = some (v, q ++ more) := by
  obtain ⟨hle, heq⟩ := Option.ite_none_right_eq_some.mp h
  cases heq
  rw [UnalignedLoad, if_pos (by rw [List.length_append]; omega), List.take_append_of_le_length hle,
    List.drop_append_of_le_length hle]

end Follows

section Loop

variable {M : Type} {field : Nat → M → List UInt8 → Read M} {m m' : M} {p : List UInt8}

/-- A field is read the same whatever follows it. -/
def Follows (field : Nat → M → List UInt8 → Read M) : Prop :=
  ∀ tag m p m' q, field tag m p = some (m', q) → ∀ more,
    field tag m (p ++ more) = some (m', q ++ more)

/-- **A loop that went on to its end** goes on with what follows; one that a
tag ended leaves it. -/
theorem parse_follows (hshort : Shortens field) (hfollow : Follows field) {e : Ended M}
    (h : parse field m p = some e) (more : List UInt8) :
    parse field m (p ++ more) =
      if e.last_tag_minus_1 = 0 then parse field e.msg more
      else some { e with rest := e.rest ++ more } := by
  induction hn : p.length using Nat.strongRecOn generalizing m p with
  | ind n ih =>
    by_cases hp : p = []
    · subst hp
      cases h
      rfl
    · rw [parse_turn hshort hp] at h
      obtain ⟨r, htag, h⟩ := Option.bind_eq_some_iff.mp h
      have hlt : r.2.length < p.length := ReadTag_shorter htag
      rw [parse_turn hshort (List.append_ne_nil_of_left_ne_nil hp more), ReadTag_follows htag,
        Option.bind_some]
      by_cases hstop : Stops r.1
      · rw [if_pos hstop] at h ⊢
        cases h
        have hlast : (r.1 + (2 ^ 32 - 1)) % 2 ^ 32 ≠ 0 := by
          have hend : WireType.END_GROUP = 4 := rfl
          rcases hstop with hzero | hend'
          · omega
          · omega
        rw [if_neg hlast]
      · rw [if_neg hstop] at h ⊢
        obtain ⟨s, hfield, h⟩ := Option.bind_eq_some_iff.mp h
        have hle : s.2.length ≤ r.2.length := hshort r.1 m r.2 s.1 s.2 hfield
        have hnext : field r.1 m (r.2 ++ more) = some (s.1, s.2 ++ more) :=
          hfollow r.1 m r.2 s.1 s.2 hfield more
        rw [hnext, Option.bind_some]
        exact ih s.2.length (by omega) h rfl

end Loop

/-! ### Fields -/

theorem FieldParser_follows {ParseGroup : Nat → List UInt8 → Read UnknownFieldSet}
    (hgroup : ∀ num p set q, ParseGroup num p = some (set, q) → ∀ more,
      ParseGroup num (p ++ more) = some (set, q ++ more)) {tag : Nat} {p q : List UInt8}
    {set : UnknownFieldSet} (h : FieldParser ParseGroup tag p = some (set, q))
    (more : List UInt8) : FieldParser ParseGroup tag (p ++ more) = some (set, q ++ more) := by
  simp only [FieldParser] at h ⊢
  split at h
  · cases h
  rename_i hnumber
  rw [if_neg hnumber]
  split at h
  · rename_i htype
    obtain ⟨r, hr, heq⟩ := Option.map_eq_some_iff.mp h
    cases heq
    rw [if_pos htype, VarintParse_follows hr]
    rfl
  rename_i htype
  rw [if_neg htype]
  split at h
  · rename_i htype
    obtain ⟨r, hr, heq⟩ := Option.map_eq_some_iff.mp h
    cases heq
    rw [if_pos htype, UnalignedLoad_follows hr]
    rfl
  rename_i htype
  rw [if_neg htype]
  split at h
  · rename_i htype
    obtain ⟨r, hr, heq⟩ := Option.map_eq_some_iff.mp h
    cases heq
    rw [if_pos htype, InlineGreedyStringParser_follows hr]
    rfl
  rename_i htype
  rw [if_neg htype]
  split at h
  · rename_i htype
    rw [if_pos htype]
    exact hgroup _ _ _ _ h more
  rename_i htype
  rw [if_neg htype]
  split at h
  · rename_i htype
    obtain ⟨r, hr, heq⟩ := Option.map_eq_some_iff.mp h
    cases heq
    rw [if_pos htype, UnalignedLoad_follows hr]
    rfl
  · cases h

theorem addField_follows {ParseGroup : Nat → List UInt8 → Read UnknownFieldSet}
    (hgroup : ∀ num p set q, ParseGroup num p = some (set, q) → ∀ more,
      ParseGroup num (p ++ more) = some (set, q ++ more)) : Follows (addField ParseGroup) := by
  intro tag m p m' q h more
  obtain ⟨r, hr, heq⟩ := Option.map_eq_some_iff.mp h
  cases heq
  rw [addField, FieldParser_follows hgroup hr]
  rfl

/-- A group ends where its tag is. -/
theorem ParseGroup_follows {depth num : Nat} {p q : List UInt8} {set : UnknownFieldSet}
    (h : ParseGroup depth num p = some (set, q)) (more : List UInt8) :
    ParseGroup depth num (p ++ more) = some (set, q ++ more) := by
  induction depth generalizing num p set q more with
  | zero => cases h
  | succ depth ih =>
    obtain ⟨e, he, hend⟩ := Option.bind_eq_some_iff.mp h
    obtain ⟨hlast, heq⟩ := Option.ite_none_right_eq_some.mp hend
    cases heq
    have hloop := parse_follows (UnknownFieldParse_shortens depth)
      (addField_follows fun _ _ _ _ h more => ih h more) he more
    rw [if_neg (by omega)] at hloop
    rw [ParseGroup]
    refine (congrArg (Option.bind · _) hloop).trans ?_
    exact if_pos hlast

theorem ParseMessage_follows {M : Type} {depth : Nat} {field : Nat → M → List UInt8 → Read M}
    {m m' : M} {p q : List UInt8} (h : ParseMessage depth field m p = some (m', q))
    (more : List UInt8) : ParseMessage depth field m (p ++ more) = some (m', q ++ more) := by
  obtain ⟨⟨size, p'⟩, hsize, h⟩ := Option.bind_eq_some_iff.mp h
  obtain ⟨hfits, h⟩ := Option.ite_none_left_eq_some.mp h
  obtain ⟨e, he, h⟩ := Option.bind_eq_some_iff.mp h
  obtain ⟨hlast, heq⟩ := Option.ite_none_right_eq_some.mp h
  cases heq
  have hle : size ≤ p'.length := Nat.not_lt.mp fun hlt => hfits (.inr hlt)
  have hmore : ¬ (depth = 0 ∨ (p' ++ more).length < size) := by
    rw [List.length_append]
    omega
  rw [ParseMessage, ReadSize_follows hsize, Option.bind_some]
  show (if _ then _ else _) = _
  rw [if_neg hmore, List.take_append_of_le_length hle, List.drop_append_of_le_length hle, he,
    Option.bind_some, if_pos hlast]

namespace Schema

theorem parseField_follows (s : Schema) (depth : Nat) : Follows (s.parseField depth) := by
  induction s with
  | nil => exact addField_follows fun _ _ _ _ => ParseGroup_follows
  | int32 number required rest ih =>
    rintro tag ⟨v, m⟩ p m' q h more
    rw [parseField] at h ⊢
    split at h
    · rename_i htag
      obtain ⟨r, hr, heq⟩ := Option.map_eq_some_iff.mp h
      cases heq
      rw [if_pos htag, VarintParse_follows hr]
      rfl
    · rename_i htag
      obtain ⟨r, hr, heq⟩ := Option.map_eq_some_iff.mp h
      cases heq
      rw [if_neg htag, ih tag m p r.1 r.2 hr]
      rfl
  | string number required rest ih =>
    rintro tag ⟨v, m⟩ p m' q h more
    rw [parseField] at h ⊢
    split at h
    · rename_i htag
      obtain ⟨r, hr, heq⟩ := Option.map_eq_some_iff.mp h
      cases heq
      rw [if_pos htag, InlineGreedyStringParser_follows hr]
      rfl
    · rename_i htag
      obtain ⟨r, hr, heq⟩ := Option.map_eq_some_iff.mp h
      cases heq
      rw [if_neg htag, ih tag m p r.1 r.2 hr]
      rfl
  | message number required type rest _ ih =>
    rintro tag ⟨v, m⟩ p m' q h more
    rw [parseField] at h ⊢
    split at h
    · rename_i htag
      obtain ⟨r, hr, heq⟩ := Option.map_eq_some_iff.mp h
      cases heq
      rw [if_pos htag, ParseMessage_follows hr]
      rfl
    · rename_i htag
      obtain ⟨r, hr, heq⟩ := Option.map_eq_some_iff.mp h
      cases heq
      rw [if_neg htag, ih tag m p r.1 r.2 hr]
      rfl

/-! ## A message into a message -/

theorem MergeFrom_clear : (s : Schema) → (m : s.Msg) → s.MergeFrom m s.Clear = m := by
  intro s
  induction s with
  | nil => exact UnknownFieldSet.append_nil
  | int32 number required rest ih =>
    rintro ⟨v, m⟩
    exact Prod.ext rfl (ih m)
  | string number required rest ih =>
    rintro ⟨v, m⟩
    exact Prod.ext rfl (ih m)
  | message number required type rest _ ih =>
    rintro ⟨v, m⟩
    exact Prod.ext rfl (ih m)

theorem clear_mergeFrom : (s : Schema) → (m : s.Msg) → s.MergeFrom s.Clear m = m := by
  intro s
  induction s with
  | nil => exact fun _ => rfl
  | int32 number required rest ih =>
    rintro ⟨v, m⟩
    exact Prod.ext Option.or_none (ih m)
  | string number required rest ih =>
    rintro ⟨v, m⟩
    exact Prod.ext Option.or_none (ih m)
  | message number required type rest ihtype ih =>
    rintro ⟨v, m⟩
    refine Prod.ext ?_ (ih m)
    cases v with
    | none => rfl
    | some sub => exact congrArg some (ihtype sub)

theorem MergeFrom_assoc : (s : Schema) → (a b c : s.Msg) →
    s.MergeFrom (s.MergeFrom a b) c = s.MergeFrom a (s.MergeFrom b c) := by
  intro s
  induction s with
  | nil => exact UnknownFieldSet.append_assoc
  | int32 number required rest ih =>
    rintro ⟨u, a⟩ ⟨v, b⟩ ⟨w, c⟩
    exact Prod.ext (Option.or_assoc ..).symm (ih a b c)
  | string number required rest ih =>
    rintro ⟨u, a⟩ ⟨v, b⟩ ⟨w, c⟩
    exact Prod.ext (Option.or_assoc ..).symm (ih a b c)
  | message number required type rest ihtype ih =>
    rintro ⟨u, a⟩ ⟨v, b⟩ ⟨w, c⟩
    refine Prod.ext ?_ (ih a b c)
    cases w with
    | none => rfl
    | some sub =>
      cases v with
      | none =>
        exact congrArg (fun sub => some (type.MergeFrom _ sub)) (clear_mergeFrom type sub).symm
      | some sub' => exact congrArg some (ihtype _ sub' sub)

end Schema

/-! ## Reading into a message -/

section Into

variable {M : Type} {field : Nat → M → List UInt8 → Read M} {f : M → M}

/-- What is read goes into a message as it would into another. -/
def Commutes (field : Nat → M → List UInt8 → Read M) (f : M → M) : Prop :=
  ∀ tag m p, field tag (f m) p = (field tag m p).map fun r => (f r.1, r.2)

theorem parseLoop_commutes (h : Commutes field f) (fuel : Nat) (m : M) (p : List UInt8) :
    parseLoop field fuel (f m) p =
      (parseLoop field fuel m p).map fun e => { e with msg := f e.msg } := by
  induction fuel generalizing m p with
  | zero => cases p <;> rfl
  | succ fuel ih =>
    cases p with
    | nil => rfl
    | cons b p =>
      rw [parseLoop, parseLoop]
      cases ReadTag (b :: p) with
      | none => rfl
      | some r =>
        simp only [Option.bind_some]
        split
        · rfl
        · rw [h r.1 m r.2]
          cases field r.1 m r.2 with
          | none => rfl
          | some t => exact ih t.1 t.2

theorem parse_commutes (h : Commutes field f) (m : M) (p : List UInt8) :
    parse field (f m) p = (parse field m p).map fun e => { e with msg := f e.msg } :=
  parseLoop_commutes h p.length m p

theorem ParseMessage_commutes (h : Commutes field f) (depth : Nat) (m : M) (p : List UInt8) :
    ParseMessage depth field (f m) p =
      (ParseMessage depth field m p).map fun r => (f r.1, r.2) := by
  rw [ParseMessage, ParseMessage]
  cases ReadSize p with
  | none => rfl
  | some r =>
    simp only [Option.bind_some]
    split
    · rfl
    · rw [parse_commutes h]
      cases parse field m (r.2.take r.1) with
      | none => rfl
      | some e =>
        simp only [Option.map_some, Option.bind_some]
        split <;> rfl

end Into

namespace Schema

/-- **The switch** reads into what a message was merged into. -/
theorem parseField_commutes (s : Schema) (depth : Nat) (a : s.Msg) :
    Commutes (s.parseField depth) (s.MergeFrom a) := by
  induction s generalizing depth with
  | nil =>
    intro tag m p
    show (FieldParser _ _ _).map _ = ((FieldParser _ _ _).map _).map _
    rw [Option.map_map]
    congr 1
    funext r
    exact Prod.ext (UnknownFieldSet.append_assoc a m r.1) rfl
  | int32 number required rest ih =>
    obtain ⟨u, a⟩ := a
    rintro tag ⟨v, m⟩ p
    rw [MergeFrom, parseField, parseField]
    split
    · rw [Option.map_map]
      rfl
    · rw [ih depth a tag m p, Option.map_map, Option.map_map]
      rfl
  | string number required rest ih =>
    obtain ⟨u, a⟩ := a
    rintro tag ⟨v, m⟩ p
    rw [MergeFrom, parseField, parseField]
    split
    · rw [Option.map_map]
      rfl
    · rw [ih depth a tag m p, Option.map_map, Option.map_map]
      rfl
  | message number required type rest ihtype ih =>
    obtain ⟨u, a⟩ := a
    rintro tag ⟨v, m⟩ p
    rw [MergeFrom, parseField, parseField]
    split
    · -- the message that is there is the one inside `a`, with what was read into it
      have hthere : (v.elim u fun sub => some (type.MergeFrom (u.getD type.Clear) sub)).getD
          type.Clear = type.MergeFrom (u.getD type.Clear) (v.getD type.Clear) := by
        cases v with
        | none => exact (MergeFrom_clear type _).symm
        | some sub => rfl
      rw [hthere, ParseMessage_commutes (ihtype (depth - 1) (u.getD type.Clear)), Option.map_map,
        Option.map_map]
      rfl
    · rw [ih depth a tag m p, Option.map_map, Option.map_map]
      rfl

theorem MergePartialFromArray_eq (s : Schema) (a : s.Msg) (data : List UInt8) :
    s.MergePartialFromArray a data = (s.ParsePartialFromArray data).map (s.MergeFrom a) := by
  have hread := parse_commutes (parseField_commutes s defaultRecursionLimit a) s.Clear data
  rw [MergeFrom_clear] at hread
  rw [ParsePartialFromArray, MergePartialFromArray, MergePartialFromArray, InternalParse, hread,
    InternalParse]
  cases parse (s.parseField defaultRecursionLimit) s.Clear data with
  | none => rfl
  | some e =>
    simp only [Option.map_some, Option.bind_some]
    split <;> rfl

theorem MergePartialFromArray_append (s : Schema) {first : List UInt8} {a : s.Msg}
    (h : s.ParsePartialFromArray first = some a) (b : s.Msg) (others : List UInt8) :
    s.MergePartialFromArray b (first ++ others) =
      s.MergePartialFromArray (s.MergeFrom b a) others := by
  have hfirst := MergePartialFromArray_eq s b first
  rw [h, Option.map_some] at hfirst
  obtain ⟨e, he, hend⟩ := Option.bind_eq_some_iff.mp hfirst
  obtain ⟨hlast, heq⟩ := Option.ite_none_right_eq_some.mp hend
  have hfollows := parse_follows (parseField_shortens s defaultRecursionLimit)
    (parseField_follows s defaultRecursionLimit) he others
  rw [if_pos hlast, Option.some.inj heq] at hfollows
  rw [MergePartialFromArray, MergePartialFromArray, InternalParse, InternalParse, hfollows]

/-- **Bytes after bytes** are a message merged into a message. For every type,
what follows bytes that are read is read if and only if it would be alone, and
the message is then that of the first bytes with that of the others merged
into it; merging from an array is parsing it and merging, and merging is
associative, so this is so for any number of pieces. -/
theorem bytes_after_bytes (s : Schema) {first : List UInt8} {a : s.Msg}
    (h : s.ParsePartialFromArray first = some a) (others : List UInt8) :
    s.ParsePartialFromArray (first ++ others) =
        (s.ParsePartialFromArray others).map (s.MergeFrom a) ∧
      s.MergePartialFromArray a others = (s.ParsePartialFromArray others).map (s.MergeFrom a) ∧
      ∀ b c, s.MergeFrom (s.MergeFrom a b) c = s.MergeFrom a (s.MergeFrom b c) := by
  refine ⟨?_, MergePartialFromArray_eq s a others, MergeFrom_assoc s a⟩
  rw [← MergePartialFromArray_eq, ParsePartialFromArray, MergePartialFromArray_append s h,
    clear_mergeFrom]

/-- Other numbers, and no text. -/
def sampleMore : sampleType.Msg := (some 1, some (none, some 5, .nil), .nil)

/-- The numbers are replaced, and the text stays. -/
theorem bytes_after_bytes_sample :
    sampleType.ParsePartialFromArray
        (sampleType.InternalSerialize sampleMessage ++ [0x12, 0x02, 0x28, 0x05, 0x08, 0x01]) =
      some (some 1, some (some [0x6b], some 5, .nil),
        .group 4 (.field 9 (.varint 300) .nil) .nil) := by
  have hothers : sampleType.ParsePartialFromArray [0x12, 0x02, 0x28, 0x05, 0x08, 0x01] =
      some sampleMore := by decide +kernel
  have hfirst := ParsePartialFromArray_write sampleType_ok sampleMessage_fits
  rw [(bytes_after_bytes sampleType hfirst _).1, hothers]
  rfl

end Schema

end LibuvServer.Protobuf
