import LibuvServer.Encryption.Base64
import Mathlib.Tactic.Common

/-!
# Base64 texts

What `base64_encode` leaves in its block is the text of the standard, and a
text is decoded just when what is left of it without the bytes that are in no
table is such texts one after another. Neither of the two ever writes outside
its block.
-/

namespace LibuvServer.Encryption

open LibuvServer.Lib LibuvServer.Netbus
open LibuvServer.Lib.Base64 (standard)
open LibuvServer.Lib.Base64.Alphabet (Group)

/-! ## Encoding -/

theorem digitAt_eq : ∀ n < 64, digitAt n = standard.digit n := by decide +kernel

theorem land_63 (n : Nat) : n &&& 0x3f = n % 64 := Nat.and_two_pow_sub_one_eq_mod n 6

/-- Three bytes as one number. -/
theorem three_bytes {x y z : Nat} (hy : y < 256) (hz : z < 256) :
    x <<< 16 ||| y <<< 8 ||| z = (x * 256 + y) * 256 + z := by
  have hxy : x <<< 16 ||| y <<< 8 = (x * 256 + y) <<< 8 := by
    rw [show x <<< 16 = (x <<< 8) <<< 8 from Nat.shiftLeft_add x 8 8, ← Nat.shiftLeft_or_distrib,
      ← Nat.shiftLeft_add_eq_or_of_lt hy, Nat.shiftLeft_eq x]
  rw [hxy, ← Nat.shiftLeft_add_eq_or_of_lt hz, Nat.shiftLeft_eq]

section Encode

variable {text : Bytes} {buffer : RawBlock UInt8} {i j : Nat}

theorem drop_cons_byteAt (h : i < text.length) :
    ∃ x, text.drop i = x :: text.drop (i + 1) ∧ byteAt text i = x.toNat := by
  refine ⟨text[i], List.drop_eq_getElem_cons h, ?_⟩
  rw [byteAt, List.getD_eq_getElem?_getD, List.getElem?_eq_getElem h]
  rfl

/-- What is written of three bytes. -/
theorem quad_three {x y z : UInt8} {v : Nat}
    (hv : v = x.toNat <<< 16 ||| y.toNat <<< 8 ||| z.toNat) :
    [digitAt (v >>> 18), digitAt (v >>> 12 &&& 0x3f), digitAt (v >>> 6 &&& 0x3f),
      digitAt (v &&& 0x3f)] = standard.quad [x, y, z] := by
  have hx := x.toNat_lt
  have hy := y.toNat_lt
  have hz := z.toNat_lt
  rw [three_bytes hy hz] at hv
  simp only [land_63, Nat.shiftRight_eq_div_pow, Base64.Alphabet.quad, ← hv]
  rw [digitAt_eq _ (by omega), digitAt_eq _ (by omega), digitAt_eq _ (by omega),
    digitAt_eq _ (by omega)]

theorem quad_one {x : UInt8} : [digitAt (x.toNat >>> 2), digitAt ((x.toNat &&& 3) <<< 4), 0x3d,
    0x3d] = standard.quad [x] := by
  have hx := x.toNat_lt
  have hland : x.toNat &&& 3 = x.toNat % 4 := Nat.and_two_pow_sub_one_eq_mod _ 2
  simp only [hland, Nat.shiftRight_eq_div_pow, Nat.shiftLeft_eq, Base64.Alphabet.quad]
  rw [digitAt_eq _ (by omega), digitAt_eq _ (by omega)]
  rfl

theorem quad_two {x y : UInt8} {v : Nat} (hv : v = x.toNat <<< 8 ||| y.toNat) :
    [digitAt (v >>> 10), digitAt (v >>> 4 &&& 0x3f), digitAt ((v &&& 0xf) <<< 2), 0x3d] =
      standard.quad [x, y] := by
  have hx := x.toNat_lt
  have hy := y.toNat_lt
  have hland : v &&& 0xf = v % 16 := Nat.and_two_pow_sub_one_eq_mod _ 4
  rw [← Nat.shiftLeft_add_eq_or_of_lt hy, Nat.shiftLeft_eq] at hv
  simp only [land_63, hland, Nat.shiftRight_eq_div_pow, Nat.shiftLeft_eq, Base64.Alphabet.quad,
    ← hv]
  rw [digitAt_eq _ (by omega), digitAt_eq _ (by omega), digitAt_eq _ (by omega)]
  rfl

/-- A group written behind what is there. -/
theorem write_group (group : Bytes) (hin : buffer.inside = true)
    (hroom : j + group.length ≤ buffer.cells.length) :
    (buffer.write j group).inside = true ∧
      (buffer.write j group).cells.length = buffer.cells.length ∧
      (buffer.write j group).cells.take (j + group.length) =
        buffer.cells.take j ++ group.map some :=
  ⟨RawBlock.write_inside.mpr ⟨hin, by omega, by omega⟩, RawBlock.length_write,
    RawBlock.take_write hroom⟩

/-- **The loop and the `switch`** write the digits of what is left. -/
theorem encodeGroups_eq (hi : i ≤ text.length) (hin : buffer.inside = true)
    (hroom : j + (standard.encode (text.drop i)).length ≤ buffer.cells.length) :
    let done := encodeGroups text buffer i j
    let block := encodePadding text done.1 done.2.1 done.2.2
    block.inside = true ∧ block.cells.length = buffer.cells.length ∧
      block.cells.take (j + (standard.encode (text.drop i)).length) =
        buffer.cells.take j ++ (standard.encode (text.drop i)).map some := by
  fun_induction encodeGroups text buffer i j with
  | case1 buffer i j hmore v ih =>
    obtain ⟨x, hx, hbyte⟩ := drop_cons_byteAt (show i < text.length by omega)
    obtain ⟨y, hy, hbyte'⟩ := drop_cons_byteAt (show i + 1 < text.length by omega)
    obtain ⟨z, hz, hbyte''⟩ := drop_cons_byteAt (show i + 1 + 1 < text.length by omega)
    have hencode : standard.encode (text.drop i) =
        standard.quad [x, y, z] ++ standard.encode (text.drop (i + 3)) := by
      rw [hx, hy, hz]
      rfl
    have hfour := quad_three (x := x) (y := y) (z := z) (v := v)
      (by rw [← hbyte, ← hbyte', ← hbyte''])
    have hlen : (standard.quad [x, y, z]).length = 4 := rfl
    rw [hencode, List.length_append, hlen] at hroom
    obtain ⟨hin', hsize, hwrote⟩ := write_group (j := j) (standard.quad [x, y, z]) hin
      (by omega)
    rw [hlen] at hwrote
    rw [hfour] at ih ⊢
    obtain ⟨hinside, hlength, htake⟩ := ih (by omega) hin' (by rw [hsize]; omega)
    refine ⟨hinside, hlength.trans hsize, ?_⟩
    rw [hencode, List.length_append, hlen, ← Nat.add_assoc, List.map_append, ← List.append_assoc,
      ← hwrote]
    exact htake
  | case2 buffer i j hend =>
    unfold encodePadding
    simp only
    split
    · rename_i hone
      obtain ⟨x, hx, hbyte⟩ := drop_cons_byteAt (show i < text.length by omega)
      have hnil : text.drop (i + 1) = [] := List.drop_eq_nil_of_le (by omega)
      have hencode : standard.encode (text.drop i) = standard.quad [x] := by
        rw [hx, hnil]
        rfl
      rw [hencode] at hroom ⊢
      rw [hbyte, quad_one]
      exact write_group _ hin hroom
    · split
      · rename_i htwo
        obtain ⟨x, hx, hbyte⟩ := drop_cons_byteAt (show i < text.length by omega)
        obtain ⟨y, hy, hbyte'⟩ := drop_cons_byteAt (show i + 1 < text.length by omega)
        have hnil : text.drop (i + 1 + 1) = [] := List.drop_eq_nil_of_le (by omega)
        have hencode : standard.encode (text.drop i) = standard.quad [x, y] := by
          rw [hx, hy, hnil]
          rfl
        rw [hencode] at hroom ⊢
        rw [quad_two (x := x) (y := y) (by rw [hbyte, hbyte'])]
        exact write_group _ hin hroom
      · have hnil : text.drop i = [] := List.drop_eq_nil_of_le (by omega)
        rw [hnil]
        exact ⟨hin, rfl, (List.append_nil _).symm⟩

/-- **`base64_encode`** leaves the text of the standard and its terminator in
the block it returns. -/
theorem base64Encode_eq (hsz : (text.length + 2) / 3 * 4 + 1 < 2 ^ 31) :
    (base64Encode text).2 = (standard.encode text).length ∧
      (base64Encode text).1.inside = true ∧
      (base64Encode text).1.cells.take ((standard.encode text).length + 1) =
        (standard.encode text ++ [0]).map some := by
  have hlen : (standard.encode text).length = (text.length + 2) / 3 * 4 :=
    standard.length_encode text
  have hsize : toInt (toInt (toInt (text.length + 2) / 3) * 4) = (standard.encode text).length := by
    have hsum : toInt (text.length + 2) = text.length + 2 := toInt_of_range (by omega) (by omega)
    have hthird : toInt ((text.length + 2) / 3) = (text.length + 2) / 3 :=
      toInt_of_range (by omega) (by omega)
    rw [hsum, hthird, toInt_of_range (by omega) (by omega), hlen]
    omega
  have hbuffer : (standard.encode text).length + 1 ≤ (RawBlock.malloc
      (if ((standard.encode text).length : Int) ≥ SMALL_CHUNK then
        toInt ((standard.encode text).length + 1) else SMALL_CHUNK) :
          RawBlock UInt8).cells.length := by
    have hchunk : SMALL_CHUNK = 256 := rfl
    rw [RawBlock.length_malloc, toInt_of_range (by omega) (by omega)]
    split <;> omega
  obtain ⟨hin, hcells, htake⟩ := encodeGroups_eq (i := 0) (j := 0)
    (Nat.zero_le text.length) rfl (by rw [List.drop_zero]; exact Nat.le_trans (by omega) hbuffer)
  rw [List.drop_zero, Nat.zero_add, List.take_zero, List.nil_append] at htake
  have hroom : (standard.encode text).length + [(0 : UInt8)].length ≤ _ :=
    Nat.le_trans hbuffer (Nat.le_of_eq hcells.symm)
  rw [base64Encode, hsize]
  obtain ⟨hinside, -, hwrote⟩ := write_group _ hin hroom
  refine ⟨rfl, hinside, ?_⟩
  rw [List.map_append, ← htake]
  exact hwrote

end Encode

/-! ## Decoding -/

/-- The byte is in the decoder's table. -/
def known (b : UInt8) : Bool := b64index b ≠ -1

/-- The table is the alphabet's. -/
theorem b64index_table : ∀ n < 256, b64index (UInt8.ofNat n) =
    (standard.value (UInt8.ofNat n)).elim (if UInt8.ofNat n = standard.pad then -2 else -1)
      fun v => (v : Int) := by decide +kernel

theorem b64index_eq (b : UInt8) : b64index b =
    (standard.value b).elim (if b = standard.pad then -2 else -1) fun v => (v : Int) := by
  have hb := b64index_table b.toNat b.toNat_lt
  rwa [UInt8.ofNat_toNat] at hb

/-- A byte of the table is a digit or the padding. -/
theorem known_cases {b : UInt8} (h : known b = true) :
    b = standard.pad ∧ b64index b = -2 ∨
      b ≠ standard.pad ∧ ∃ v < 64, standard.value b = some v ∧ b64index b = v := by
  have hindex := b64index_eq b
  cases hvalue : standard.value b with
  | none =>
    rw [hvalue, Option.elim_none] at hindex
    by_cases hpad : b = standard.pad
    · rw [if_pos hpad] at hindex
      exact .inl ⟨hpad, hindex⟩
    · rw [if_neg hpad] at hindex
      exact absurd hindex (of_decide_eq_true h)
  | some v =>
    rw [hvalue, Option.elim_some] at hindex
    refine .inr ⟨?_, v, ((standard.value_eq_some b v).mp hvalue).1, rfl, hindex⟩
    rintro rfl
    rw [standard.value_pad] at hvalue
    cases hvalue

theorem known_digit {v : Nat} (h : v < 64) : known (standard.digit v) = true := by
  have hindex := b64index_eq (standard.digit v)
  rw [Base64.Alphabet.value_digit h, Option.elim_some] at hindex
  refine decide_eq_true ?_
  rw [hindex]
  omega

/-- How much padding there is among four bytes. -/
def paddingOf (c : List Int) : Nat := c.countP (· = -2)

section Decode

variable {p q r s : UInt8} {P Q R S : Int}

theorem paddingOf_four : paddingOf [P, Q, R, S] =
    (if P = -2 then 1 else 0) + (if Q = -2 then 1 else 0) + (if R = -2 then 1 else 0) +
      if S = -2 then 1 else 0 := by
  simp only [paddingOf, List.countP_cons, List.countP_nil, decide_eq_true_eq]
  omega

/-- A group with one padding ends with it. -/
theorem decodeFour_last (h : S ≠ -2) : decodeFour [P, Q, R, S] 1 = none := if_pos (.inl h)

/-- Padding in front of a digit fails. -/
theorem decodeFour_pad (h : P = -2 ∨ Q = -2) :
    decodeFour [P, Q, R, S] (paddingOf [P, Q, R, S]) = none := by
  have hcount : paddingOf [P, Q, R, S] = _ := paddingOf_four
  have hfront : 1 ≤ (if P = -2 then 1 else 0) + if Q = -2 then 1 else 0 := by
    rcases h with h | h
    · rw [if_pos h]
      omega
    · rw [if_pos h]
      omega
  match hn : paddingOf [P, Q, R, S] with
  | 0 => omega
  | 1 =>
    have hlast : S ≠ -2 := by
      intro hS
      rw [if_pos hS] at hcount
      omega
    exact decodeFour_last hlast
  | 2 =>
    refine if_pos ?_
    by_cases hS : S = -2
    · refine .inr (.inl fun hR : R = -2 => ?_)
      rw [if_pos hS, if_pos hR] at hcount
      omega
    · exact .inl hS
  | _ + 3 => rfl

theorem or_three {a b c d : Nat} (hb : b < 64) (hc : c < 64) (hd : d < 64) :
    a <<< 18 ||| b <<< 12 ||| c <<< 6 ||| d = ((a * 64 + b) * 64 + c) * 64 + d := by
  have hab : a <<< 18 ||| b <<< 12 = (a * 64 + b) <<< 12 := by
    rw [show a <<< 18 = (a <<< 6) <<< 12 from Nat.shiftLeft_add a 6 12, ← Nat.shiftLeft_or_distrib,
      ← Nat.shiftLeft_add_eq_or_of_lt hb, Nat.shiftLeft_eq a]
  have habc : (a * 64 + b) <<< 12 ||| c <<< 6 = ((a * 64 + b) * 64 + c) <<< 6 := by
    rw [show (a * 64 + b) <<< 12 = ((a * 64 + b) <<< 6) <<< 6 from Nat.shiftLeft_add _ 6 6,
      ← Nat.shiftLeft_or_distrib, ← Nat.shiftLeft_add_eq_or_of_lt hc, Nat.shiftLeft_eq (a * 64 + b)]
  rw [hab, habc, ← Nat.shiftLeft_add_eq_or_of_lt hd, Nat.shiftLeft_eq]

/-- **The `switch`** reads four digits as the standard does. -/
theorem decodeFour_eq (hp : known p = true) (hq : known q = true) (hr : known r = true)
    (hs : known s = true) :
    decodeFour [b64index p, b64index q, b64index r, b64index s]
      (paddingOf [b64index p, b64index q, b64index r, b64index s]) = standard.unquad p q r s := by
  rcases known_cases hp with ⟨rfl, hpi⟩ | ⟨hp, a, ha, hpv, hpi⟩
  · rw [decodeFour_pad (.inl hpi), Base64.Alphabet.unquad, standard.value_pad]
    rfl
  rcases known_cases hq with ⟨rfl, hqi⟩ | ⟨hq, b, hb, hqv, hqi⟩
  · rw [decodeFour_pad (.inr hqi), Base64.Alphabet.unquad, standard.value_pad, hpv]
    rfl
  rw [Base64.Alphabet.unquad, hpv, hqv, Option.bind_some, Option.bind_some]
  have hland : ∀ n, n &&& 0xff = n % 256 := fun n => Nat.and_two_pow_sub_one_eq_mod n 8
  rcases known_cases hs with ⟨rfl, hsi⟩ | ⟨hs, d, hd, hsv, hsi⟩
  · rw [if_pos rfl]
    rcases known_cases hr with ⟨rfl, hri⟩ | ⟨hr, c, hc, hrv, hri⟩
    · have htwo : paddingOf [(a : Int), b, -2, -2] = 2 := by
        rw [paddingOf_four, if_neg (by omega), if_neg (by omega)]
        rfl
      have hbits : a <<< 2 ||| b >>> 4 = a * 4 + b / 16 := by
        have hsmall : b / 2 ^ 4 < 2 ^ 2 := by omega
        rw [Nat.shiftRight_eq_div_pow, ← Nat.shiftLeft_add_eq_or_of_lt hsmall, Nat.shiftLeft_eq]
        rfl
      rw [if_pos rfl, hpi, hqi, hri, htwo]
      show (if (-2 : Int) ≠ -2 ∨ (-2 : Int) ≠ -2 ∨ b &&& 0xf ≠ 0 then none
        else some [UInt8.ofNat (a <<< 2 ||| b >>> 4)]) = _
      rw [show b &&& 0xf = b % 16 from Nat.and_two_pow_sub_one_eq_mod b 4, hbits]
      by_cases hzero : b % 16 = 0
      · rw [if_pos hzero, if_neg (by simp [hzero])]
      · rw [if_neg hzero, if_pos (.inr (.inr hzero))]
    · have hone : paddingOf [(a : Int), b, c, -2] = 1 := by
        rw [paddingOf_four, if_neg (by omega), if_neg (by omega), if_neg (by omega)]
        rfl
      have hbits : a <<< 10 ||| b <<< 4 ||| c >>> 2 = a * 1024 + b * 16 + c / 4 := by
        have hsmall : c / 2 ^ 2 < 2 ^ 4 := by omega
        have hab : a <<< 10 ||| b <<< 4 = (a * 64 + b) <<< 4 := by
          rw [show a <<< 10 = (a <<< 6) <<< 4 from Nat.shiftLeft_add a 6 4,
            ← Nat.shiftLeft_or_distrib, ← Nat.shiftLeft_add_eq_or_of_lt hb, Nat.shiftLeft_eq a]
        rw [hab, Nat.shiftRight_eq_div_pow, ← Nat.shiftLeft_add_eq_or_of_lt hsmall,
          Nat.shiftLeft_eq]
        omega
      rw [if_neg hr, hrv, Option.bind_some, hpi, hqi, hri, hsi, hone]
      show (if (-2 : Int) ≠ -2 ∨ c &&& 3 ≠ 0 then none
        else some [UInt8.ofNat ((a <<< 10 ||| b <<< 4 ||| c >>> 2) >>> 8),
          UInt8.ofNat ((a <<< 10 ||| b <<< 4 ||| c >>> 2) &&& 0xff)]) = _
      rw [show c &&& 3 = c % 4 from Nat.and_two_pow_sub_one_eq_mod c 2, hbits, hland,
        Nat.shiftRight_eq_div_pow]
      by_cases hzero : c % 4 = 0
      · rw [if_neg (by simp [hzero])]
        exact (if_pos hzero).symm
      · rw [if_pos (.inr hzero)]
        exact (if_neg hzero).symm
  · rw [if_neg hs]
    rcases known_cases hr with ⟨rfl, hri⟩ | ⟨hr, c, hc, hrv, hri⟩
    · have hone : paddingOf [(a : Int), b, -2, d] = 1 := by
        rw [paddingOf_four, if_neg (by omega), if_neg (by omega), if_pos rfl, if_neg (by omega)]
      have hlast : (d : Int) ≠ -2 := by omega
      rw [hpi, hqi, hri, hsi, hone, standard.value_pad, decodeFour_last hlast]
      rfl
    · rw [hrv, hsv, Option.bind_some, Option.bind_some, hpi, hqi, hri, hsi]
      have hzero : paddingOf [(a : Int), b, c, d] = 0 := by
        rw [paddingOf_four, if_neg (by omega), if_neg (by omega), if_neg (by omega),
          if_neg (by omega)]
      rw [hzero]
      show some [UInt8.ofNat ((a <<< 18 ||| b <<< 12 ||| c <<< 6 ||| d) >>> 16),
        UInt8.ofNat ((a <<< 18 ||| b <<< 12 ||| c <<< 6 ||| d) >>> 8 &&& 0xff),
        UInt8.ofNat ((a <<< 18 ||| b <<< 12 ||| c <<< 6 ||| d) &&& 0xff)] = _
      rw [or_three hb hc hd, hland, hland, Nat.shiftRight_eq_div_pow, Nat.shiftRight_eq_div_pow]

/-- The last byte of a text is known, if there is one. -/
def Ends (text : Bytes) : Prop := ∀ b ∈ text.getLast?, known b = true

theorem Ends.nil : Ends [] := by
  intro b hb
  cases hb

theorem Ends.cons {x : UInt8} {text : Bytes} (h : Ends text)
    (hx : text = [] → known x = true) : Ends (x :: text) := by
  cases text with
  | nil =>
    intro b hb
    cases hb
    exact hx rfl
  | cons y text =>
    intro b hb
    rw [List.getLast?_cons_cons] at hb
    exact h b hb

theorem drop_cons_getD {text : Bytes} {i : Nat} (h : ¬ (text.length : Int) ≤ i) :
    text.drop i = text.getD i 0 :: text.drop (i + 1) := by
  have hi : i < text.length := by omega
  rw [List.drop_eq_getElem_cons hi, List.getD_eq_getElem?_getD, List.getElem?_eq_getElem hi]
  rfl

/-- **The inner loop** takes the bytes up to the fourth that is known. -/
theorem readFour_some {text : Bytes} {i padding : Nat} {c : List Int}
    {done : Nat × List Int × Nat} (h : readFour text text.length i c padding = some done)
    (hpadding : padding = paddingOf c) (hc : c.length ≤ 4) :
    ∃ pre, text.drop i = pre ++ text.drop done.1 ∧ Ends pre ∧
      done.2.1 = c ++ (pre.filter known).map b64index ∧ done.2.1.length = 4 ∧
      done.2.2 = paddingOf done.2.1 := by
  fun_induction readFour text text.length i c padding with
  | case1 i c padding _ hend => cases h
  | case2 i c padding hfew hmore x hskip ih =>
    obtain ⟨pre, hdrop, hends, hvalues, hfour, hcount⟩ := ih h hpadding hc
    have hunknown : known (text.getD i 0) = false := by
      rw [known, decide_eq_false_iff_not]
      exact fun hne => hne hskip
    have hsome : pre ≠ [] := by
      rintro rfl
      rw [hvalues, List.filter_nil, List.map_nil, List.append_nil] at hfour
      omega
    refine ⟨text.getD i 0 :: pre, ?_, hends.cons fun hnil => absurd hnil hsome, ?_, hfour, hcount⟩
    · rw [drop_cons_getD hmore, hdrop, List.cons_append]
    · rw [List.filter_cons_of_neg (by rw [hunknown]; exact Bool.false_ne_true), hvalues]
  | case3 i c padding hfew hmore x hkeep ih =>
    have hnext : (if x = -2 then padding + 1 else padding) = paddingOf (c ++ [x]) := by
      rw [paddingOf, List.countP_append, List.countP_singleton, hpadding, paddingOf]
      simp only [decide_eq_true_eq]
      split <;> rfl
    have hlen : (c ++ [x]).length ≤ 4 := by
      rw [List.length_append, List.length_singleton]
      exact hfew
    obtain ⟨pre, hdrop, hends, hvalues, hfour, hcount⟩ := ih h hnext hlen
    have hknown : known (text.getD i 0) = true := decide_eq_true hkeep
    refine ⟨text.getD i 0 :: pre, ?_, hends.cons fun _ => hknown, ?_, hfour, hcount⟩
    · rw [drop_cons_getD hmore, hdrop, List.cons_append]
    · rw [List.filter_cons_of_pos hknown, List.map_cons, hvalues, List.append_assoc]
      rfl
  | case4 i c padding hfull =>
    cases h
    have hfour : c.length = 4 := by omega
    exact ⟨[], rfl, .nil, (List.append_nil c).symm, hfour, hpadding⟩

/-- It fails when there are not as many. -/
theorem readFour_none {text : Bytes} {i padding : Nat} {c : List Int}
    (h : readFour text text.length i c padding = none) :
    c.length + ((text.drop i).filter known).length < 4 := by
  fun_induction readFour text text.length i c padding with
  | case1 i c padding hfew hend =>
    rw [List.drop_eq_nil_of_le (by omega)]
    exact hfew
  | case2 i c padding hfew hmore x hskip ih =>
    have hunknown : ¬ known (text.getD i 0) = true := by
      rw [known, decide_eq_true_eq]
      exact fun hne => hne hskip
    rw [drop_cons_getD hmore, List.filter_cons_of_neg hunknown]
    exact ih h
  | case3 i c padding hfew hmore x hkeep ih =>
    have hknown : known (text.getD i 0) = true := decide_eq_true hkeep
    have hless := ih h
    rw [List.length_append, List.length_singleton] at hless
    rw [drop_cons_getD hmore, List.filter_cons_of_pos hknown, List.length_cons]
    omega
  | case4 i c padding hfull => cases h

theorem Ends.append {pre text : Bytes} (h : Ends pre) : Ends (pre ++ text) ↔ Ends text := by
  cases text with
  | nil =>
    rw [List.append_nil]
    exact iff_of_true h nofun
  | cons x text =>
    unfold Ends
    rw [List.getLast?_append_of_ne_nil _ (List.cons_ne_nil x text)]

/-- A text that ends with a known byte has one. -/
theorem Ends.filter_ne_nil {text : Bytes} (h : Ends text) (hne : text ≠ []) :
    text.filter known ≠ [] := by
  intro hnil
  have hlast := List.getLast?_eq_some_getLast hne
  exact List.filter_eq_nil_iff.mp hnil _ (List.getLast_mem hne) (h _ hlast)

theorem decode_short {text : Bytes} (hpos : text ≠ []) (hlt : text.length < 4) :
    standard.decode text = none := by
  match text with
  | [] => exact absurd rfl hpos
  | [_] => rfl
  | [_, _] => rfl
  | [_, _, _] => rfl
  | _ :: _ :: _ :: _ :: _ =>
    simp only [List.length_cons] at hlt
    omega

/-- **Four known bytes** at the front of what is left. -/
theorem readFour_group {text : Bytes} {i i' padding : Nat} {c : List Int}
    (h : readFour text text.length i [] 0 = some (i', c, padding)) :
    (∃ p q r s, (text.drop i).filter known = p :: q :: r :: s :: (text.drop i').filter known ∧
      decodeFour c padding = standard.unquad p q r s) ∧
    (Ends (text.drop i) ↔ Ends (text.drop i')) ∧ i + 4 + (text.length - i') ≤ text.length := by
  obtain ⟨pre, hdrop, hends, hvalues, hfour, hcount⟩ := readFour_some h rfl (Nat.zero_le 4)
  rw [List.nil_append] at hvalues
  rw [hvalues, List.length_map] at hfour
  have hlen := congrArg List.length hdrop
  rw [List.length_append, List.length_drop, List.length_drop] at hlen
  have hpre : 4 ≤ pre.length := hfour ▸ List.length_filter_le known pre
  refine ⟨?_, by rw [hdrop, hends.append], by omega⟩
  match hfilter : pre.filter known, hfour with
  | [p, q, r, s], _ =>
    have hknown : ∀ b ∈ [p, q, r, s], known b = true := by
      rw [← hfilter]
      exact fun b hb => (List.mem_filter.mp hb).2
    refine ⟨p, q, r, s, by rw [hdrop, List.filter_append, hfilter]; rfl, ?_⟩
    have hc : c = [p, q, r, s].map b64index := by rw [← hfilter, ← hvalues]
    have hp : padding = paddingOf c := hcount
    rw [hp, hc]
    exact decodeFour_eq (hknown p (by simp)) (hknown q (by simp)) (hknown r (by simp))
      (hknown s (by simp))

/-- **The loop of `base64_decode`** writes what the rest of the text stands
for, if it stands for anything, and fails if it does not. -/
theorem decodeGroups_eq {text : Bytes} {buffer : RawBlock UInt8} {i output : Nat}
    (hin : buffer.inside = true)
    (hroom : output + (text.length - i + 3) / 4 * 3 + 1 ≤ buffer.cells.length) :
    let done := decodeGroups text text.length buffer i output
    done.1.inside = true ∧ done.1.cells.length = buffer.cells.length ∧
      (∀ k, done.2 = some k → Ends (text.drop i) ∧
        ∃ m, standard.decode ((text.drop i).filter known) = some m) ∧
      ∀ m, Ends (text.drop i) → standard.decode ((text.drop i).filter known) = some m →
        done.2 = some (output + m.length) ∧ output + m.length + 1 ≤ buffer.cells.length ∧
          done.1.cells.take (output + m.length) = buffer.cells.take output ++ m.map some := by
  fun_induction decodeGroups text text.length buffer i output with
  | case1 buffer i output hmore hread =>
    refine ⟨hin, rfl, fun k hk => ?_, fun m hends hm => ?_⟩
    · cases hk
    have hrest : text.drop i ≠ [] := by
      rw [Ne, List.drop_eq_nil_iff]
      omega
    have hfew := readFour_none hread
    rw [List.length_nil, Nat.zero_add] at hfew
    rw [decode_short (hends.filter_ne_nil hrest) hfew] at hm
    cases hm
  | case2 buffer i output hmore i' c padding hread hfour =>
    refine ⟨hin, rfl, fun k hk => ?_, fun m hends hm => ?_⟩
    · cases hk
    obtain ⟨⟨p, q, r, s, hfilter, hunquad⟩, -, -⟩ := readFour_group hread
    rw [hfilter, Base64.Alphabet.decode, ← hunquad, hfour] at hm
    cases hm
  | case3 buffer i output hmore i' c padding hread bytes hfour hlt ih =>
    obtain ⟨⟨p, q, r, s, hfilter, hunquad⟩, hends, hfar⟩ := readFour_group hread
    have hbytes : standard.unquad p q r s = some bytes := hunquad.symm.trans hfour
    obtain ⟨-, hthree⟩ : Group bytes :=
      Base64.Alphabet.group_of_quad (Base64.Alphabet.quad_of_unquad hbytes)
    have hdecode : standard.decode ((text.drop i).filter known) =
        (standard.decode ((text.drop i').filter known)).map (bytes ++ ·) := by
      rw [hfilter, Base64.Alphabet.decode, hbytes]
      rfl
    obtain ⟨hin', hsize, hwrote⟩ := write_group (j := output) bytes hin (by omega)
    obtain ⟨hinside, hlength, hok, hall⟩ := ih hin' (by rw [hsize]; omega)
    rw [hdecode, hends]
    refine ⟨hinside, hlength.trans hsize, fun k hk => ?_, fun m hends' hm => ?_⟩
    · obtain ⟨hends', m, hm⟩ := hok k hk
      exact ⟨hends', bytes ++ m, by rw [hm]; rfl⟩
    · obtain ⟨m', hm', rfl⟩ := Option.map_eq_some_iff.mp hm
      obtain ⟨hk, hfits, htake⟩ := hall m' hends' hm'
      rw [List.length_append, ← Nat.add_assoc, ← hsize]
      refine ⟨hk, hfits, ?_⟩
      rw [htake, hwrote, List.map_append, List.append_assoc]
  | case4 buffer i output hend =>
    rw [List.drop_eq_nil_of_le (by omega)]
    refine ⟨hin, rfl, fun k _ => ⟨.nil, [], rfl⟩, fun m _ hm => ?_⟩
    cases hm
    exact ⟨rfl, by rw [List.length_nil]; omega, (List.append_nil _).symm⟩

/-- **`base64_decode`** on any text that is not too long for an `int`. -/
theorem base64Decode_eq {text : Bytes} (hsz : text.length < 2 ^ 31) :
    (base64Decode text).1.inside = true ∧
      (∀ m, (∃ k : Nat, (base64Decode text).2 = some k ∧ (base64Decode text).1.Holds k m) ↔
        Ends text ∧ standard.decode (text.filter known) = some m) ∧
      ((base64Decode text).2 = none ↔
        ¬ (Ends text ∧ ∃ m, standard.decode (text.filter known) = some m)) := by
  have hsize : toInt text.length = text.length := toInt_of_range (by omega) (by omega)
  have hbuffer : 0 + (text.length - 0 + 3) / 4 * 3 + 1 ≤ (RawBlock.malloc
      (if toInt ((text.length + 3) / 4 * 3 + 1 : Nat) > SMALL_CHUNK then
        toInt ((text.length + 3) / 4 * 3 + 1 : Nat) else SMALL_CHUNK) :
        RawBlock UInt8).cells.length := by
    have hchunk : SMALL_CHUNK = 256 := rfl
    rw [RawBlock.length_malloc, toInt_of_range (by omega) (by omega)]
    split <;> omega
  have hgroups := @decodeGroups_eq text _ 0 0 rfl hbuffer
  rw [List.drop_zero] at hgroups
  obtain ⟨block, hblock₀⟩ : ∃ block, block = (RawBlock.malloc
      (if toInt ((text.length + 3) / 4 * 3 + 1 : Nat) > SMALL_CHUNK then
        toInt ((text.length + 3) / 4 * 3 + 1 : Nat) else SMALL_CHUNK) : RawBlock UInt8) := ⟨_, rfl⟩
  have heq : base64Decode text = terminate (decodeGroups text text.length block 0 0) := by
    rw [base64Decode, hsize, hblock₀]
  rw [← hblock₀] at hgroups
  rw [heq]
  revert hgroups
  generalize decodeGroups text text.length block 0 0 = done
  intro hgroups
  obtain ⟨block, size⟩ := done
  obtain ⟨hin, hlength, hok, hall⟩ := hgroups
  cases size with
  | none =>
    refine ⟨hin, fun m => ⟨?_, ?_⟩, iff_of_true rfl ?_⟩
    · rintro ⟨k, hk, -⟩
      cases hk
    · rintro ⟨hends, hm⟩
      cases (hall m hends hm).1
    · rintro ⟨hends, m, hm⟩
      cases (hall m hends hm).1
  | some output =>
    obtain ⟨hends, m₀, hm₀⟩ := hok output rfl
    obtain ⟨hk, hfits, htake⟩ := hall m₀ hends hm₀
    rw [Nat.zero_add] at hk hfits htake
    obtain rfl := Option.some.inj hk
    obtain ⟨hinside, -, hwrote⟩ := write_group (j := m₀.length) [0] hin
      (by rw [hlength]; exact hfits)
    have hblock : (block.write m₀.length [0]).cells.take m₀.length = m₀.map some := by
      have hfirst := congrArg (List.take m₀.length) hwrote
      rwa [List.take_take, Nat.min_eq_left (Nat.le_add_right _ _), htake, List.take_zero,
        List.nil_append, List.take_left' (by rw [List.length_map])] at hfirst
    refine ⟨hinside, fun m => ⟨?_, ?_⟩, iff_of_false nofun fun hnot => hnot ⟨hends, m₀, hm₀⟩⟩
    · rintro ⟨k, hk, hlen, hcells⟩
      cases hk
      refine ⟨hends, ?_⟩
      have hsame : m₀.map some = m.map some := by
        rw [← hcells, ← hblock]
        rfl
      rw [hm₀, List.map_injective_iff.mpr (fun _ _ h => Option.some.inj h) hsame]
    · rintro ⟨-, hm⟩
      obtain rfl := Option.some.inj (hm₀.symm.trans hm)
      exact ⟨m₀.length, rfl, rfl, hblock⟩

/-- **What is decoded.** For any text that is not too long for an `int`, no
byte is written outside the block, and the bytes that are returned are the ones
the text stands for: without the bytes that are in no table it is the digits of
groups of bytes, one after another, and its last byte is in the table. For any
other text it returns `NULL`. -/
theorem base64_accepts {text : Bytes} (hsz : text.length < 2 ^ 31) :
    (base64Decode text).1.inside = true ∧
      (∀ m, (∃ k : Nat, (base64Decode text).2 = some k ∧ (base64Decode text).1.Holds k m) ↔
        Ends text ∧ ∃ groups : List Bytes, (∀ g ∈ groups, Group g) ∧
          text.filter known = groups.flatMap standard.quad ∧ m = groups.flatten) ∧
      ((base64Decode text).2 = none ↔ ¬ (Ends text ∧ ∃ groups : List Bytes,
        (∀ g ∈ groups, Group g) ∧ text.filter known = groups.flatMap standard.quad)) := by
  obtain ⟨hin, hiff, hnone⟩ := base64Decode_eq hsz
  refine ⟨hin, fun m => ?_, ?_⟩
  · rw [hiff, Base64.Alphabet.decode_eq_some]
  · rw [hnone]
    refine not_congr (and_congr_right' ⟨?_, ?_⟩)
    · rintro ⟨m, hm⟩
      obtain ⟨groups, hgroups, htext, -⟩ := Base64.Alphabet.decode_eq_some.mp hm
      exact ⟨groups, hgroups, htext⟩
    · rintro ⟨groups, hgroups, htext⟩
      exact ⟨groups.flatten, Base64.Alphabet.decode_eq_some.mpr ⟨groups, hgroups, htext, rfl⟩⟩

/-- A text in two lines, with padding at the end of the first. -/
theorem base64_accepts_lines :
    (base64Decode [0x54, 0x51, 0x3d, 0x3d, 0x0a, 0x54, 0x57, 0x46, 0x75]).1.inside = true ∧
      ∃ k : Nat, (base64Decode [0x54, 0x51, 0x3d, 0x3d, 0x0a, 0x54, 0x57, 0x46, 0x75]).2 = some k ∧
        (base64Decode [0x54, 0x51, 0x3d, 0x3d, 0x0a, 0x54, 0x57, 0x46, 0x75]).1.Holds k
          [0x4d, 0x4d, 0x61, 0x6e] := by
  obtain ⟨hin, hiff, -⟩ := base64_accepts
    (show [0x54, 0x51, 0x3d, 0x3d, 0x0a, 0x54, 0x57, 0x46, 0x75].length < 2 ^ 31 by decide)
  refine ⟨hin, (hiff _).mpr ⟨?_, [[0x4d], [0x4d, 0x61, 0x6e]], ?_, ?_, rfl⟩⟩
  · intro b hb
    cases hb
    decide
  · intro g hg
    rcases List.mem_cons.mp hg with rfl | hg
    · exact ⟨by decide, by decide⟩
    · rw [List.mem_singleton.mp hg]
      exact ⟨by decide, by decide⟩
  · decide

/-! ## There and back -/

theorem known_encode {m : Bytes} {b : UInt8} (h : b ∈ standard.encode m) : known b = true := by
  obtain ⟨groups, -, hencode, -⟩ := standard.encode_groups m
  rw [hencode] at h
  obtain ⟨g, -, hb⟩ := List.mem_flatMap.mp h
  have hpad : known standard.pad = true := by decide
  match g with
  | [] => cases hb
  | [x] =>
    have hx := x.toNat_lt
    simp only [Base64.Alphabet.quad, List.mem_cons, List.not_mem_nil, or_false] at hb
    rcases hb with rfl | rfl | rfl | rfl
    · exact known_digit (by omega)
    · exact known_digit (by omega)
    · exact hpad
    · exact hpad
  | [x, y] =>
    have hx := x.toNat_lt
    have hy := y.toNat_lt
    simp only [Base64.Alphabet.quad, List.mem_cons, List.not_mem_nil, or_false] at hb
    rcases hb with rfl | rfl | rfl | rfl
    · exact known_digit (by omega)
    · exact known_digit (by omega)
    · exact known_digit (by omega)
    · exact hpad
  | [x, y, z] =>
    have hx := x.toNat_lt
    have hy := y.toNat_lt
    have hz := z.toNat_lt
    simp only [Base64.Alphabet.quad, List.mem_cons, List.not_mem_nil, or_false] at hb
    rcases hb with rfl | rfl | rfl | rfl <;> exact known_digit (by omega)
  | _ :: _ :: _ :: _ :: _ => cases hb

/-- **There and back.** Bytes whose text is not too long for an `int` are
encoded inside the block, and its text is decoded to them inside the other. -/
theorem base64_round_trip {text : Bytes} (hsz : (text.length + 2) / 3 * 4 + 1 < 2 ^ 31) :
    (base64Encode text).1.inside = true ∧
      ∃ encoded : Bytes, encoded = standard.encode text ∧
        (base64Encode text).2 = encoded.length ∧
        (base64Encode text).1.cells.take (encoded.length + 1) = (encoded ++ [0]).map some ∧
        (base64Decode encoded).1.inside = true ∧
        ∃ k : Nat, (base64Decode encoded).2 = some k ∧ (base64Decode encoded).1.Holds k text := by
  obtain ⟨hlen, hin, hcells⟩ := base64Encode_eq hsz
  have hlength : (standard.encode text).length = (text.length + 2) / 3 * 4 :=
    standard.length_encode text
  obtain ⟨hinside, hiff, -⟩ := @base64Decode_eq (standard.encode text) (by omega)
  refine ⟨hin, standard.encode text, rfl, hlen, hcells, hinside, (hiff text).mpr ⟨?_, ?_⟩⟩
  · exact fun b hb => known_encode (List.mem_of_getLast? hb)
  · rw [List.filter_eq_self.mpr fun b hb => known_encode hb]
    exact standard.decode_encode text

/-- Ten bytes. -/
theorem base64_round_trip_ten :
    (base64Encode (List.replicate 10 0xff)).1.inside = true ∧
      ∃ encoded : Bytes, (base64Encode (List.replicate 10 0xff)).2 = encoded.length ∧
        ∃ k : Nat, (base64Decode encoded).2 = some k ∧
          (base64Decode encoded).1.Holds k (List.replicate 10 0xff) := by
  obtain ⟨hin, encoded, -, hlen, -, -, hback⟩ := base64_round_trip
    (show ((List.replicate 10 (0xff : UInt8)).length + 2) / 3 * 4 + 1 < 2 ^ 31 by decide)
  exact ⟨hin, encoded, hlen, hback⟩

end Decode

end LibuvServer.Encryption
