import LibuvServer.Netbus.WebProtocol
import Mathlib.Algebra.Group.Nat.Defs
import Mathlib.Tactic.Common

/-!
# The header of a web frame

The frame format gives the length of a payload in one of three forms.
`readWebHeader` decodes two of them; of the eight bytes of the third it
takes the first four, which hold the upper half of the length.
-/

namespace LibuvServer.Netbus

open LibuvServer.Lib

namespace WebProtocol

/-! ## The format -/

/-- The three forms of a payload length. -/
inductive LengthForm where
  | seven
  | sixteen
  | sixtyFour
  deriving DecidableEq

/-- The lengths a form can carry. -/
def LengthForm.Carries : LengthForm → Nat → Prop
  | .seven, n => n ≤ 125
  | .sixteen, n => n < 2 ^ 16
  | .sixtyFour, n => n < 2 ^ 63

instance (form : LengthForm) (n : Nat) : Decidable (form.Carries n) :=
  match form with
  | .seven => inferInstanceAs (Decidable (n ≤ 125))
  | .sixteen => inferInstanceAs (Decidable (n < 2 ^ 16))
  | .sixtyFour => inferInstanceAs (Decidable (n < 2 ^ 63))

/-- The low `k` bytes of `n`, high byte first. -/
def bigEndian : Nat → Nat → Bytes
  | 0, _ => []
  | k + 1, n => UInt8.ofNat (n / 256 ^ k) :: bigEndian k n

/-- The seven length bits and the extended length. -/
def LengthForm.field : LengthForm → Nat → Bytes
  | .seven, n => [UInt8.ofNat n]
  | .sixteen, n => 126 :: bigEndian 2 n
  | .sixtyFour, n => 127 :: bigEndian 8 n

/-- The size of a masked frame's header: what comes before the mask, and the
mask. -/
def LengthForm.headSize : LengthForm → Nat
  | .seven => 2 + 4
  | .sixteen => 4 + 4
  | .sixtyFour => 10 + 4

/-- The first bytes of a masked frame with FIN set, up to its mask. -/
structure FrameHead where
  opcode : UInt8
  form : LengthForm
  payloadLen : Nat
  opcode_data : opcode = 0x81 ∨ opcode = 0x82
  carries : form.Carries payloadLen

/-- The header without the mask. The mask bit is the top bit of the second
byte. -/
def FrameHead.bytes (h : FrameHead) : Bytes :=
  match h.form.field h.payloadLen with
  | b :: rest => h.opcode :: (b ||| 0x80) :: rest
  | [] => []

/-- `readWebHeader` takes the header for what it is: it is accepted with its
sizes as soon as all of it is there, and not before. -/
structure Decoded (h : FrameHead) : Prop where
  accepted : ∀ pkgData pkgLen, h.bytes <+: pkgData → h.bytes.length ≤ pkgLen →
    readWebHeader pkgData pkgLen =
      some (((h.form.headSize + h.payloadLen : Nat) : Int), h.form.headSize)
  refused : ∀ pkgData pkgLen, 1 ≤ pkgLen → pkgLen < h.bytes.length →
    pkgData.take pkgLen = h.bytes.take pkgLen → readWebHeader pkgData pkgLen = none

/-! ## What the decoder takes from a header -/

/-- The `dataLen` of `readWebHeader`. -/
def readDataLen (pkgData : Bytes) : Nat :=
  let dataLen := byteAt pkgData 1 &&& 0x0000007f
  if dataLen = 126 then byteAt pkgData 3 ||| byteAt pkgData 2 <<< 8
  else if dataLen = 127 then
    byteAt pkgData 5 ||| byteAt pkgData 4 <<< 8 ||| byteAt pkgData 3 <<< 16 |||
      byteAt pkgData 2 <<< 24
  else dataLen

/-- The header size `readWebHeader` has counted before it adds the mask. -/
def readHeadSize (pkgData : Bytes) : Nat :=
  let dataLen := byteAt pkgData 1 &&& 0x0000007f
  if dataLen = 126 then 2 + 2 else if dataLen = 127 then 2 + 8 else 2

theorem readHeadSize_ge (pkgData : Bytes) : 2 ≤ readHeadSize pkgData := by
  unfold readHeadSize
  simp only
  split
  · decide
  · split <;> decide

/-- `readWebHeader` accepts a data opcode whose length is all there. -/
theorem readWebHeader_eq (pkgData : Bytes) (pkgLen : Nat) :
    readWebHeader pkgData pkgLen =
      if byteAt pkgData 0 ≠ 0x81 ∧ byteAt pkgData 0 ≠ 0x82 then none
      else if pkgLen < readHeadSize pkgData then none
      else some (headerSizes (readDataLen pkgData) (readHeadSize pkgData)) := by
  unfold readWebHeader readDataLen readHeadSize
  by_cases hop : byteAt pkgData 0 ≠ 0x81 ∧ byteAt pkgData 0 ≠ 0x82
  · rw [if_pos hop, if_pos hop]
  · rw [if_neg hop, if_neg hop]
    by_cases h126 : byteAt pkgData 1 &&& 0x0000007f = 126
    · simp only [h126, if_true]
      by_cases h2 : pkgLen < 2
      · rw [if_pos h2, if_pos (by omega)]
      · rw [if_neg h2]
    · by_cases h127 : byteAt pkgData 1 &&& 0x0000007f = 127
      · simp only [h127, show ¬ (127 : Nat) = 126 by decide, if_true, if_false]
        by_cases h2 : pkgLen < 2
        · rw [if_pos h2, if_pos (by omega)]
        · rw [if_neg h2]
      · simp only [h126, h127, if_false]

/-- The sizes of an accepted header. -/
theorem readWebHeader_sizes {pkgData : Bytes} {pkgLen headSize : Nat} {pkgSize : Int}
    (h : readWebHeader pkgData pkgLen = some (pkgSize, headSize)) :
    pkgSize = toInt32 ((readDataLen pkgData + headSize) % 2 ^ 32) ∧ 6 ≤ headSize := by
  rw [readWebHeader_eq] at h
  split at h
  · cases h
  · split at h
    · cases h
    · rw [headerSizes, Option.some.injEq, Prod.mk.injEq] at h
      obtain ⟨hp, hk⟩ := h
      have hsize := readHeadSize_ge pkgData
      rw [← hp, ← hk]
      exact ⟨rfl, by omega⟩

/-! ## The three forms -/

@[simp] theorem length_bigEndian (k n : Nat) : (bigEndian k n).length = k := by
  induction k with
  | zero => rfl
  | succ k ih => rw [bigEndian, List.length_cons, ih]

/-- A byte of a number, high byte first. -/
theorem byteAt_bigEndian {k i : Nat} (n : Nat) (hi : i < k) :
    byteAt (bigEndian k n) i = n / 256 ^ (k - 1 - i) % 256 := by
  induction k generalizing i with
  | zero => omega
  | succ k ih =>
    cases i with
    | zero => simp [bigEndian, byteAt]
    | succ i =>
      have hrest := ih (i := i) (by omega)
      rw [show k + 1 - 1 - (i + 1) = k - 1 - i by omega, ← hrest]
      rfl

/-- What stands at the front of a buffer is read from it. -/
theorem byteAt_of_isPrefix {v data : Bytes} {i : Nat} (h : v <+: data) (hi : i < v.length) :
    byteAt data i = byteAt v i := by
  obtain ⟨w, rfl⟩ := h
  exact byteAt_append hi w

namespace FrameHead

variable (h : FrameHead)

theorem length_bytes : h.bytes.length = h.form.headSize - 4 := by
  cases hf : h.form <;>
    simp [bytes, hf, LengthForm.field, LengthForm.headSize]

theorem byteAt_zero : byteAt h.bytes 0 = 0x81 ∨ byteAt h.bytes 0 = 0x82 := by
  have hop : byteAt h.bytes 0 = h.opcode.toNat := by
    cases hf : h.form <;> simp [bytes, hf, LengthForm.field, byteAt]
  rw [hop]
  rcases h.opcode_data with ho | ho <;> rw [ho]
  · exact .inl rfl
  · exact .inr rfl

/-- The seven length bits. -/
theorem lengthBits : byteAt h.bytes 1 &&& 0x0000007f =
    match h.form with
    | .seven => h.payloadLen
    | .sixteen => 126
    | .sixtyFour => 127 := by
  have hc := h.carries
  cases hf : h.form with
  | seven =>
    rw [hf] at hc
    have hn : (UInt8.ofNat h.payloadLen).toNat = h.payloadLen := by
      rw [UInt8.toNat_ofNat']
      exact Nat.mod_eq_of_lt (Nat.lt_of_le_of_lt hc (by decide))
    have hb : byteAt h.bytes 1 = (UInt8.ofNat h.payloadLen ||| 0x80).toNat := by
      simp [bytes, hf, LengthForm.field, byteAt]
    rw [hb, ClientFrame.and_or_mask_bit _ (by rw [hn]; exact Nat.lt_of_le_of_lt hc (by decide)), hn]
  | sixteen =>
    have hb : byteAt h.bytes 1 = ((126 : UInt8) ||| 0x80).toNat := by
      simp [bytes, hf, LengthForm.field, byteAt]
    rw [hb]
    rfl
  | sixtyFour =>
    have hb : byteAt h.bytes 1 = ((127 : UInt8) ||| 0x80).toNat := by
      simp [bytes, hf, LengthForm.field, byteAt]
    rw [hb]
    rfl

theorem readHeadSize_eq : readHeadSize h.bytes = h.form.headSize - 4 := by
  have hc := h.carries
  rw [readHeadSize, h.lengthBits]
  cases hf : h.form with
  | seven =>
    rw [hf] at hc
    have hn : h.payloadLen ≤ 125 := hc
    simp only
    rw [if_neg (by omega), if_neg (by omega)]
    rfl
  | sixteen => rfl
  | sixtyFour => rfl

/-- The length is read back, but of the 64-bit form only the upper half. -/
theorem readDataLen_eq : readDataLen h.bytes =
    match h.form with
    | .sixtyFour => h.payloadLen / 2 ^ 32
    | _ => h.payloadLen := by
  have hc := h.carries
  rw [readDataLen, h.lengthBits]
  cases hf : h.form with
  | seven =>
    rw [hf] at hc
    have hn : h.payloadLen ≤ 125 := hc
    simp only
    rw [if_neg (by omega), if_neg (by omega)]
  | sixteen =>
    rw [hf] at hc
    have hn : h.payloadLen < 2 ^ 16 := hc
    have hb : ∀ i, byteAt h.bytes (i + 2) = byteAt (bigEndian 2 h.payloadLen) i := by
      intro i
      simp [bytes, hf, LengthForm.field, byteAt]
    have h2 := hb 0
    have h3 := hb 1
    rw [byteAt_bigEndian _ (by decide)] at h2 h3
    simp only [if_true]
    rw [or_shiftLeft_eight (byteAt_lt _ _), h3, h2]
    omega
  | sixtyFour =>
    rw [hf] at hc
    have hn : h.payloadLen < 2 ^ 63 := hc
    have hb : ∀ i, byteAt h.bytes (i + 2) = byteAt (bigEndian 8 h.payloadLen) i := by
      intro i
      simp [bytes, hf, LengthForm.field, byteAt]
    have h2 := hb 0
    have h3 := hb 1
    have h4 := hb 2
    have h5 := hb 3
    rw [byteAt_bigEndian _ (by decide)] at h2 h3 h4 h5
    have hlow : byteAt h.bytes 5 ||| byteAt h.bytes 4 <<< 8 < 2 ^ 16 := by
      rw [or_shiftLeft_eight (byteAt_lt _ _)]
      have := byteAt_lt h.bytes 5
      have := byteAt_lt h.bytes 4
      omega
    have hmid : byteAt h.bytes 5 ||| byteAt h.bytes 4 <<< 8 ||| byteAt h.bytes 3 <<< 16
        < 2 ^ 24 := by
      rw [or_shiftLeft hlow]
      have := byteAt_lt h.bytes 3
      omega
    simp only [show ¬ (127 : Nat) = 126 by decide, if_true, if_false]
    rw [or_shiftLeft hmid, or_shiftLeft hlow, or_shiftLeft_eight (byteAt_lt _ _), h5, h4, h3, h2]
    omega

end FrameHead

/-! ## Reading a header -/

/-- Only what comes before the mask is read. -/
theorem readWebHeader_of_isPrefix (h : FrameHead) {pkgData : Bytes} {pkgLen : Nat}
    (hpre : h.bytes <+: pkgData) (hlen : h.bytes.length ≤ pkgLen) :
    readWebHeader pkgData pkgLen =
      some (headerSizes (readDataLen h.bytes) (h.form.headSize - 4)) := by
  have hbytes := h.length_bytes
  have hsize := h.readHeadSize_eq
  have hge := readHeadSize_ge h.bytes
  have h1 : byteAt pkgData 1 = byteAt h.bytes 1 := byteAt_of_isPrefix hpre (by omega)
  have hhead : readHeadSize pkgData = readHeadSize h.bytes := by
    rw [readHeadSize, readHeadSize, h1]
  have hdata : readDataLen pkgData = readDataLen h.bytes := by
    have hbits := h.lengthBits
    rw [readDataLen, readDataLen, h1]
    -- the bytes of the extended length are there when they are read
    cases hf : h.form with
    | seven =>
      have hc : h.payloadLen ≤ 125 := by simpa [hf, LengthForm.Carries] using h.carries
      simp only [hbits, hf]
      rw [if_neg (by omega), if_neg (by omega), if_neg (by omega), if_neg (by omega)]
    | sixteen =>
      rw [hf, LengthForm.headSize] at hbytes
      rw [byteAt_of_isPrefix hpre (i := 2) (by omega), byteAt_of_isPrefix hpre (i := 3) (by omega)]
      simp only [hbits, hf, if_true]
    | sixtyFour =>
      rw [hf, LengthForm.headSize] at hbytes
      rw [byteAt_of_isPrefix hpre (i := 2) (by omega), byteAt_of_isPrefix hpre (i := 3) (by omega),
        byteAt_of_isPrefix hpre (i := 4) (by omega), byteAt_of_isPrefix hpre (i := 5) (by omega)]
  have hop := h.byteAt_zero
  have h0 : byteAt pkgData 0 = byteAt h.bytes 0 := byteAt_of_isPrefix hpre (by omega)
  rw [readWebHeader_eq, h0, hhead, hdata, hsize, if_neg (by omega), if_neg (by omega)]

/-- A header that is cut short is not accepted. -/
theorem readWebHeader_short (h : FrameHead) {pkgData : Bytes} {pkgLen : Nat}
    (hlt : pkgLen < h.bytes.length) (hsame : pkgData.take pkgLen = h.bytes.take pkgLen) :
    readWebHeader pkgData pkgLen = none := by
  have hbytes := h.length_bytes
  have hsize := h.readHeadSize_eq
  have hge := readHeadSize_ge pkgData
  have hone : 2 ≤ pkgLen → readHeadSize pkgData = readHeadSize h.bytes := by
    intro h2
    have hb : ∀ v : Bytes, byteAt (v.take pkgLen) 1 = byteAt v 1 := by
      intro v
      simp [byteAt, List.getD_eq_getElem?_getD, List.getElem?_take_of_lt (show 1 < pkgLen by omega)]
    rw [readHeadSize, readHeadSize, ← hb pkgData, hsame, hb]
  have hshort : pkgLen < readHeadSize pkgData := by
    by_cases h2 : 2 ≤ pkgLen
    · rw [hone h2]
      omega
    · omega
  rw [readWebHeader_eq, if_pos hshort, ite_self]

/-- **A header is decoded as the format has it** in the two short forms, and
in the long form when there is no payload. -/
theorem web_headers (h : FrameHead) (hn : h.payloadLen < 2 ^ 31 - 14) :
    Decoded h ↔ h.form ≠ .sixtyFour ∨ h.payloadLen = 0 := by
  have hsizes : ∀ n, n ≤ h.payloadLen →
      headerSizes n (h.form.headSize - 4) =
        (((h.form.headSize + n : Nat) : Int), h.form.headSize) := by
    intro n hle
    have hfour : h.form.headSize - 4 + 4 = h.form.headSize := by
      cases h.form <;> rfl
    have hsmall : h.form.headSize ≤ 14 := by
      cases h.form <;> decide
    rw [ClientFrame.headerSizes_of_lt (by omega), hfour]
  have hdata := h.readDataLen_eq
  constructor
  · intro hdec
    have hread := hdec.accepted h.bytes h.bytes.length List.prefix_rfl (Nat.le_refl _)
    rw [readWebHeader_of_isPrefix h List.prefix_rfl (Nat.le_refl _)] at hread
    by_cases hf : h.form = .sixtyFour
    · right
      have hupper : readDataLen h.bytes = 0 := by
        rw [hdata, hf]
        simp only
        omega
      rw [hupper, hsizes 0 (Nat.zero_le _), Option.some.injEq, Prod.mk.injEq] at hread
      omega
    · exact .inl hf
  · intro hform
    have hlen : readDataLen h.bytes = h.payloadLen := by
      rw [hdata]
      cases hf : h.form with
      | seven => rfl
      | sixteen => rfl
      | sixtyFour =>
        have hzero : h.payloadLen = 0 := hform.resolve_left (fun hne => hne hf)
        simp only
        omega
    refine ⟨fun pkgData pkgLen hpre hle => ?_, fun pkgData pkgLen _ hlt hsame => ?_⟩
    · rw [readWebHeader_of_isPrefix h hpre hle, hlen, hsizes _ (Nat.le_refl _)]
    · exact readWebHeader_short h hlt hsame

/-- A text frame of five bytes. -/
theorem web_headers_seven :
    Decoded ⟨0x81, .seven, 5, .inl rfl, by decide⟩ :=
  (web_headers ⟨0x81, .seven, 5, .inl rfl, by decide⟩ (by decide)).mpr (.inl (by decide))

/-- A frame of 65536 bytes is taken for a frame without payload. -/
theorem web_headers_long :
    ¬ Decoded ⟨0x82, .sixtyFour, 65536, .inr rfl, by decide⟩ := by
  intro hdec
  have hread := hdec.accepted [0x82, 0xff, 0, 0, 0, 0, 0, 1, 0, 0] 10 (by decide) (by decide)
  revert hread
  decide

end WebProtocol

end LibuvServer.Netbus
