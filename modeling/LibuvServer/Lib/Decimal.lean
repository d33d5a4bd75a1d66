import Mathlib.Tactic.Common

/-!
# Integers in decimal

What is printed of an integer, as bytes, and how it is read off again.
-/

namespace LibuvServer.Lib

theorem toList_loop (bytes : ByteArray) (i : Nat) (r : List UInt8) :
    ByteArray.toList.loop bytes i r = r.reverse ++ bytes.data.toList.drop i := by
  fun_induction ByteArray.toList.loop bytes i r with
  | case1 i r hlt ih =>
    have hlt' : i < bytes.data.toList.length := hlt
    have hget : bytes.get! i = bytes.data.toList[i] := by
      show bytes.data[i]! = _
      rw [getElem!_pos bytes.data i hlt]
      rfl
    rw [ih, List.drop_eq_getElem_cons hlt', List.reverse_cons, List.append_assoc, hget]
    rfl
  | case2 i r hge =>
    have hge' : bytes.data.toList.length ≤ i := Nat.le_of_not_lt hge
    rw [List.drop_of_length_le hge', List.append_nil]

theorem toList_bytes (bytes : ByteArray) : bytes.toList = bytes.data.toList :=
  toList_loop bytes 0 []

/-- In a text of ASCII characters every character is one byte. -/
theorem utf8_ascii {l : List Char} (h : ∀ c ∈ l, c.val.toNat ≤ 127) :
    (String.ofList l).toUTF8.toList = l.map fun c => UInt8.ofNat c.val.toNat := by
  rw [toList_bytes, String.toUTF8_eq_toByteArray, String.toByteArray_ofList, List.utf8Encode,
    List.toList_data_toByteArray]
  induction l with
  | nil => rfl
  | cons c l ih =>
    have hc : String.utf8EncodeChar c = [UInt8.ofNat c.val.toNat] := if_pos (h c (.head _))
    rw [List.flatMap_cons, hc, ih fun d hd => h d (.tail _ hd)]
    rfl

def parseNat (s : List UInt8) : Option Nat :=
  if s ≠ [] ∧ s.all fun c => 0x30 ≤ c && c ≤ 0x39 then
    some (s.foldl (fun n c => 10 * n + (c.toNat - 0x30)) 0)
  else none

def parseInt : List UInt8 → Option Int
  | [] => none
  | c :: s =>
    if c = 0x2d then (parseNat s).map fun n => -(n : Int)
    else (parseNat (c :: s)).map Int.ofNat

/-- A digit is one byte, and that byte one of ten. -/
theorem digit_byte {c : Char} (h : c.isDigit = true) :
    c.val.toNat ≤ 127 ∧ (UInt8.ofNat c.val.toNat).toNat = c.toNat ∧
      (0x30 ≤ UInt8.ofNat c.val.toNat && UInt8.ofNat c.val.toNat ≤ 0x39) = true := by
  simp only [Char.isDigit, Bool.and_eq_true, decide_eq_true_eq, UInt32.le_iff_toNat_le] at h
  have hlow : 48 ≤ c.val.toNat := h.1
  have hhigh : c.val.toNat ≤ 57 := h.2
  have hbyte : (UInt8.ofNat c.val.toNat).toNat = c.val.toNat := by
    rw [UInt8.toNat_ofNat']
    omega
  refine ⟨by omega, hbyte, ?_⟩
  simp only [Bool.and_eq_true, decide_eq_true_eq, UInt8.le_iff_toNat_le, hbyte]
  exact ⟨hlow, hhigh⟩

theorem parseNat_digits {l : List Char} (hne : l ≠ []) (h : ∀ c ∈ l, c.isDigit = true) :
    parseNat (l.map fun c => UInt8.ofNat c.val.toNat) = some (Nat.ofDigitChars 10 l 0) := by
  have hall : ((l.map fun c => UInt8.ofNat c.val.toNat).all fun c => 0x30 ≤ c && c ≤ 0x39) =
      true := by
    rw [List.all_map, List.all_eq_true]
    intro c hc
    exact (digit_byte (h c hc)).2.2
  have hfold : ∀ n, (l.map fun c => UInt8.ofNat c.val.toNat).foldl
      (fun n c => 10 * n + (c.toNat - 0x30)) n = Nat.ofDigitChars 10 l n := by
    clear hne hall
    induction l with
    | nil => exact fun n => rfl
    | cons c l ih =>
      intro n
      rw [List.map_cons, List.foldl_cons, (digit_byte (h c (.head _))).2.1,
        ih fun d hd => h d (.tail _ hd)]
      rfl
  rw [parseNat, if_pos ⟨by simpa using hne, hall⟩, hfold]

theorem isDigit_of_mem (m : Nat) : ∀ c ∈ Nat.toDigits 10 m, c.isDigit = true := fun _ hc =>
  Nat.isDigit_of_mem_toDigits (by decide) (by decide) hc

/-- What is printed of a number is its digits. -/
theorem repr_bytes (m : Nat) :
    m.repr.toUTF8.toList = (Nat.toDigits 10 m).map fun c => UInt8.ofNat c.val.toNat := by
  rw [Nat.repr_eq_ofList_toDigits]
  exact utf8_ascii fun c hc => (digit_byte (isDigit_of_mem m c hc)).1

theorem negSucc_bytes (m : Nat) :
    (toString (Int.negSucc m)).toUTF8.toList = 0x2d :: (m + 1).repr.toUTF8.toList := by
  show ("-" ++ (m + 1).repr).toUTF8.toList = _
  rw [toList_bytes, toList_bytes]
  rfl

/-- Nothing but digits and a sign is printed. -/
theorem digit_of_mem {n : Int} {c : UInt8} (h : c ∈ (toString n).toUTF8.toList) :
    c = 0x2d ∨ (0x30 ≤ c && c ≤ 0x39) = true := by
  have hnat : ∀ m : Nat, c ∈ m.repr.toUTF8.toList → (0x30 ≤ c && c ≤ 0x39) = true := by
    intro m hm
    rw [repr_bytes, List.mem_map] at hm
    obtain ⟨d, hd, rfl⟩ := hm
    exact (digit_byte (isDigit_of_mem m d hd)).2.2
  cases n with
  | ofNat m => exact .inr (hnat m h)
  | negSucc m =>
    rw [negSucc_bytes, List.mem_cons] at h
    exact h.imp id (hnat (m + 1))

/-- **What is printed of an integer is read as that integer.** -/
theorem parseInt_toString (n : Int) : parseInt (toString n).toUTF8.toList = some n := by
  have hparse : ∀ m : Nat, parseNat m.repr.toUTF8.toList = some m := by
    intro m
    rw [repr_bytes, parseNat_digits Nat.toDigits_ne_nil (isDigit_of_mem m),
      Nat.ofDigitChars_toDigits (by decide) (by decide)]
  cases n with
  | negSucc m =>
    rw [negSucc_bytes, parseInt, if_pos rfl, hparse]
    rfl
  | ofNat m =>
    show parseInt m.repr.toUTF8.toList = _
    have hplain : parseInt m.repr.toUTF8.toList =
        (parseNat m.repr.toUTF8.toList).map Int.ofNat := by
      rw [repr_bytes]
      cases hl : Nat.toDigits 10 m with
      | nil => exact absurd hl Nat.toDigits_ne_nil
      | cons c l =>
        have hc := (digit_byte (isDigit_of_mem m c (by rw [hl]; exact .head _))).2.2
        have hsign : UInt8.ofNat c.val.toNat ≠ 0x2d := by
          intro heq
          rw [heq] at hc
          exact absurd hc (by decide)
        rw [List.map_cons, parseInt, if_neg hsign]
    rw [hplain, hparse]
    rfl

/-- Different integers are printed differently. -/
theorem toString_bytes_inj {m n : Int}
    (h : (toString m).toUTF8.toList = (toString n).toUTF8.toList) : m = n := by
  have hparse := parseInt_toString m
  rw [h, parseInt_toString, Option.some.injEq] at hparse
  exact hparse.symm

end LibuvServer.Lib
