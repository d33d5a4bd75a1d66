import Mathlib.Data.List.Basic
import Mathlib.Tactic.Common

/-!
# Base64

Three bytes are written as four digits of six bits. One or two bytes at the
end are filled up with zero bits, and the digits they do not need are padding.
The alphabet is a parameter. Reading is strict: bits that were filled in have
to be zero, so a group of digits is read just when some bytes are written so.
-/

namespace LibuvServer.Lib.Base64

/-- Sixty-four digits and the padding. -/
structure Alphabet (β : Type*) where
  digit : Nat → β
  value : β → Option Nat
  pad : β
  value_eq_some : ∀ b n, value b = some n ↔ n < 64 ∧ digit n = b
  value_pad : value pad = none

namespace Alphabet

variable {β : Type*} (A : Alphabet β)

/-- The digits of one to three bytes. -/
def quad : List UInt8 → List β
  | [x] => [A.digit (x.toNat / 4), A.digit (x.toNat % 4 * 16), A.pad, A.pad]
  | [x, y] =>
    let n := x.toNat * 256 + y.toNat
    [A.digit (n / 1024), A.digit (n / 16 % 64), A.digit (n % 16 * 4), A.pad]
  | [x, y, z] =>
    let n := (x.toNat * 256 + y.toNat) * 256 + z.toNat
    [A.digit (n / 262144), A.digit (n / 4096 % 64), A.digit (n / 64 % 64), A.digit (n % 64)]
  | _ => []

def encode : List UInt8 → List β
  | x :: y :: z :: m => A.quad [x, y, z] ++ encode m
  | m => A.quad m

section Groups

variable {A} {p q r s : β} {g : List UInt8}

theorem value_digit {n : Nat} (h : n < 64) : A.value (A.digit n) = some n :=
  (A.value_eq_some _ _).mpr ⟨h, rfl⟩

theorem digit_ne_pad {n : Nat} (h : n < 64) : A.digit n ≠ A.pad := by
  intro heq
  have hvalue := value_digit (A := A) h
  rw [heq, A.value_pad] at hvalue
  cases hvalue

/-- A group of bytes that has digits of its own. -/
def Group (g : List UInt8) : Prop := 0 < g.length ∧ g.length ≤ 3

theorem quad_of_group (h : Group g) : ∃ p q r s, A.quad g = [p, q, r, s] := by
  match g, h with
  | [_], _ => exact ⟨_, _, _, _, rfl⟩
  | [_, _], _ => exact ⟨_, _, _, _, rfl⟩
  | [_, _, _], _ => exact ⟨_, _, _, _, rfl⟩

theorem group_of_quad (h : A.quad g = [p, q, r, s]) : Group g := by
  match g with
  | [] => cases h
  | [_] | [_, _] | [_, _, _] => exact ⟨by simp, by simp⟩
  | _ :: _ :: _ :: _ :: _ => cases h

end Groups

/-- The groups of a message: all but the last are of three bytes. -/
theorem encode_groups (m : List UInt8) : ∃ groups : List (List UInt8),
    (∀ g ∈ groups, Group g) ∧ A.encode m = groups.flatMap A.quad ∧ m = groups.flatten := by
  induction m using encode.induct with
  | case1 x y z m ih =>
    obtain ⟨groups, hall, hencode, hflat⟩ := ih
    refine ⟨[x, y, z] :: groups, fun g hg => ?_, ?_, ?_⟩
    · rcases List.mem_cons.mp hg with rfl | hmem
      · exact ⟨by simp, by simp⟩
      · exact hall g hmem
    · rw [encode, hencode, List.flatMap_cons]
    · rw [List.flatten_cons, ← hflat]
      rfl
  | case2 m hshort =>
    match m with
    | [] => exact ⟨[], nofun, rfl, rfl⟩
    | [x] =>
      refine ⟨[[x]], fun g hg => ?_, ?_, rfl⟩
      · rw [List.mem_singleton.mp hg]
        exact ⟨by simp, by simp⟩
      · rw [List.flatMap_cons, List.flatMap_nil, List.append_nil]
        rfl
    | [x, y] =>
      refine ⟨[[x, y]], fun g hg => ?_, ?_, rfl⟩
      · rw [List.mem_singleton.mp hg]
        exact ⟨by simp, by simp⟩
      · rw [List.flatMap_cons, List.flatMap_nil, List.append_nil]
        rfl
    | x :: y :: z :: m => exact absurd rfl (hshort x y z m)

theorem length_encode (m : List UInt8) : (A.encode m).length = (m.length + 2) / 3 * 4 := by
  induction m using encode.induct with
  | case1 x y z m ih =>
    rw [encode, List.length_append, ih]
    simp only [quad, List.length_cons, List.length_nil]
    omega
  | case2 m hshort =>
    match m with
    | [] => rfl
    | [_] =>
      rw [encode.eq_2 _ _ hshort]
      simp [quad]
    | [_, _] =>
      rw [encode.eq_2 _ _ hshort]
      simp [quad]
    | x :: y :: z :: m => exact absurd rfl (hshort x y z m)

theorem ofNat_toNat {x : UInt8} {n : Nat} (h : n = x.toNat) : UInt8.ofNat n = x := by
  rw [h, UInt8.ofNat_toNat]

theorem toNat_ofNat {n : Nat} (h : n < 256) : (UInt8.ofNat n).toNat = n := by
  rw [UInt8.toNat_ofNat', Nat.mod_eq_of_lt h]

variable [DecidableEq β]

/-- The bytes of four digits. -/
def unquad (p q r s : β) : Option (List UInt8) :=
  (A.value p).bind fun p => (A.value q).bind fun q =>
    if s = A.pad then
      if r = A.pad then
        if q % 16 = 0 then some [UInt8.ofNat (p * 4 + q / 16)] else none
      else
        (A.value r).bind fun r =>
          let n := p * 1024 + q * 16 + r / 4
          if r % 4 = 0 then some [UInt8.ofNat (n / 256), UInt8.ofNat (n % 256)] else none
    else
      (A.value r).bind fun r => (A.value s).bind fun s =>
        let n := ((p * 64 + q) * 64 + r) * 64 + s
        some [UInt8.ofNat (n / 65536), UInt8.ofNat (n / 256 % 256), UInt8.ofNat (n % 256)]

def decode : List β → Option (List UInt8)
  | [] => some []
  | p :: q :: r :: s :: t => (A.unquad p q r s).bind fun g => (decode t).map (g ++ ·)
  | _ => none

section Quads

variable {A} {p q r s : β} {g m : List UInt8} {t : List β}

/-- **Digits that were written** are read as the bytes they were written for. -/
theorem unquad_of_quad (h : A.quad g = [p, q, r, s]) : A.unquad p q r s = some g := by
  match g with
  | [] => cases h
  | [x] =>
    simp only [quad, List.cons.injEq, and_true] at h
    obtain ⟨rfl, rfl, rfl, rfl⟩ := h
    have hx := x.toNat_lt
    rw [unquad, value_digit (by omega), Option.bind_some, value_digit (by omega),
      Option.bind_some, if_pos rfl, if_pos rfl, if_pos (by omega), ofNat_toNat (x := x) (by omega)]
  | [x, y] =>
    simp only [quad, List.cons.injEq, and_true] at h
    obtain ⟨rfl, rfl, rfl, rfl⟩ := h
    have hx := x.toNat_lt
    have hy := y.toNat_lt
    rw [unquad, value_digit (by omega), Option.bind_some, value_digit (by omega),
      Option.bind_some, if_pos rfl, if_neg (digit_ne_pad (by omega)), value_digit (by omega),
      Option.bind_some]
    simp only
    rw [if_pos (by omega), ofNat_toNat (x := x) (by omega), ofNat_toNat (x := y) (by omega)]
  | [x, y, z] =>
    simp only [quad, List.cons.injEq, and_true] at h
    obtain ⟨rfl, rfl, rfl, rfl⟩ := h
    have hx := x.toNat_lt
    have hy := y.toNat_lt
    have hz := z.toNat_lt
    rw [unquad, value_digit (by omega), Option.bind_some, value_digit (by omega),
      Option.bind_some, if_neg (digit_ne_pad (by omega)), value_digit (by omega),
      Option.bind_some, value_digit (by omega), Option.bind_some]
    simp only
    rw [ofNat_toNat (x := x) (by omega), ofNat_toNat (x := y) (by omega),
      ofNat_toNat (x := z) (by omega)]
  | _ :: _ :: _ :: _ :: _ => cases h

/-- **Digits that are read** were written for the bytes they are read as. -/
theorem quad_of_unquad (h : A.unquad p q r s = some g) :
    A.quad g = [p, q, r, s] := by
  obtain ⟨x, hx, hrest⟩ := Option.bind_eq_some_iff.mp h
  obtain ⟨y, hy, hdigits⟩ := Option.bind_eq_some_iff.mp hrest
  obtain ⟨hx64, rfl⟩ := (A.value_eq_some _ _).mp hx
  obtain ⟨hy64, rfl⟩ := (A.value_eq_some _ _).mp hy
  split at hdigits
  · rename_i hs
    split at hdigits
    · rename_i hr
      obtain ⟨hzero, heq⟩ := Option.ite_none_right_eq_some.mp hdigits
      obtain rfl := Option.some.inj heq
      rw [quad, toNat_ofNat (by omega), hs, hr, show (x * 4 + y / 16) / 4 = x by omega,
        show (x * 4 + y / 16) % 4 * 16 = y by omega]
    · obtain ⟨z, hz, hlast⟩ := Option.bind_eq_some_iff.mp hdigits
      obtain ⟨hz64, rfl⟩ := (A.value_eq_some _ _).mp hz
      obtain ⟨hzero, heq⟩ := Option.ite_none_right_eq_some.mp hlast
      obtain rfl := Option.some.inj heq
      obtain ⟨n, hn⟩ : ∃ n, n = x * 1024 + y * 16 + z / 4 := ⟨_, rfl⟩
      rw [← hn, quad, toNat_ofNat (by omega), toNat_ofNat (by omega),
        show n / 256 * 256 + n % 256 = n by omega]
      rw [hs, show n / 1024 = x by omega, show n / 16 % 64 = y by omega,
        show n % 16 * 4 = z by omega]
  · obtain ⟨z, hz, hlast⟩ := Option.bind_eq_some_iff.mp hdigits
    obtain ⟨w, hw, heq⟩ := Option.bind_eq_some_iff.mp hlast
    obtain ⟨hz64, rfl⟩ := (A.value_eq_some _ _).mp hz
    obtain ⟨hw64, rfl⟩ := (A.value_eq_some _ _).mp hw
    obtain rfl := Option.some.inj heq
    obtain ⟨n, hn⟩ : ∃ n, n = ((x * 64 + y) * 64 + z) * 64 + w := ⟨_, rfl⟩
    rw [← hn, quad, toNat_ofNat (by omega), toNat_ofNat (by omega), toNat_ofNat (by omega),
      show (n / 65536 * 256 + n / 256 % 256) * 256 + n % 256 = n by omega]
    rw [show n / 262144 = x by omega, show n / 4096 % 64 = y by omega,
      show n / 64 % 64 = z by omega, show n % 64 = w by omega]

/-- **What is read**: the digits of groups of bytes, one after another. -/
theorem decode_eq_some : A.decode t = some m ↔
    ∃ groups : List (List UInt8), (∀ g ∈ groups, Group g) ∧ t = groups.flatMap A.quad ∧
      m = groups.flatten := by
  constructor
  · intro h
    induction t using decode.induct generalizing m with
    | case1 =>
      cases h
      exact ⟨[], nofun, rfl, rfl⟩
    | case2 p q r s t ih =>
      obtain ⟨g, hg, hmap⟩ := Option.bind_eq_some_iff.mp h
      obtain ⟨rest, hrest, rfl⟩ := Option.map_eq_some_iff.mp hmap
      obtain ⟨groups, hall, rfl, rfl⟩ := ih hrest
      have hquad := quad_of_unquad hg
      refine ⟨g :: groups, fun g' hg' => ?_, ?_, rfl⟩
      · rcases List.mem_cons.mp hg' with rfl | hmem
        · exact group_of_quad hquad
        · exact hall g' hmem
      · rw [List.flatMap_cons, hquad]
        rfl
    | case3 t hnil hcons =>
      rw [decode.eq_3 _ _ hnil hcons] at h
      cases h
  · rintro ⟨groups, hall, rfl, rfl⟩
    induction groups with
    | nil => rfl
    | cons g groups ih =>
      obtain ⟨p, q, r, s, hquad⟩ := quad_of_group (A := A) (hall g (.head _))
      rw [List.flatMap_cons, hquad]
      show (A.unquad p q r s).bind _ = _
      rw [unquad_of_quad hquad, Option.bind_some]
      show (A.decode (groups.flatMap A.quad)).map _ = _
      rw [ih fun g' hg' => hall g' (.tail _ hg')]
      rfl

end Quads

/-- **What is written is read back.** -/
theorem decode_encode (m : List UInt8) : A.decode (A.encode m) = some m :=
  decode_eq_some.mpr (A.encode_groups m)

end Alphabet

/-! ## The standard alphabet -/

/-- Letters, digits, `+` and `/`. -/
def standardDigit (n : Nat) : UInt8 :=
  if n < 26 then UInt8.ofNat (65 + n)
  else if n < 52 then UInt8.ofNat (71 + n)
  else if n < 62 then UInt8.ofNat (n - 4)
  else if n = 62 then 43
  else 47

theorem standardDigit_ne : ∀ m < 64, ∀ n < 64, standardDigit m = standardDigit n → m = n := by
  decide +kernel

def standard : Alphabet UInt8 where
  digit := standardDigit
  value b := (List.range 64).find? fun n => standardDigit n = b
  pad := 61
  value_eq_some b n := by
    constructor
    · intro h
      obtain ⟨hn, hmem⟩ := And.intro (List.find?_some h) (List.mem_of_find?_eq_some h)
      exact ⟨List.mem_range.mp hmem, of_decide_eq_true hn⟩
    · rintro ⟨hn, rfl⟩
      obtain ⟨m, hm⟩ : ∃ m, (List.range 64).find? (fun m => standardDigit m = standardDigit n) =
          some m := by
        rw [← Option.isSome_iff_exists, List.find?_isSome]
        exact ⟨n, List.mem_range.mpr hn, decide_eq_true rfl⟩
      have hsame : decide (standardDigit m = standardDigit n) = true :=
        List.find?_some (p := fun m => decide (standardDigit m = standardDigit n)) hm
      have hlt := List.mem_range.mp (List.mem_of_find?_eq_some hm)
      rw [hm, standardDigit_ne m hlt n hn (of_decide_eq_true hsame)]
  value_pad := by decide

end LibuvServer.Lib.Base64
