import LibuvServer.Encryption.Rounds
import Mathlib.Tactic.Common

/-!
# Digests

A context stands for the bytes it was updated with so far (`Holds`): the state
after their complete blocks, their number of bits, and the bytes that are left
over. Every update keeps that, however the data is cut into pieces, and so do
the updates that `sat_SHA1_Final` makes for the padding.
-/

namespace LibuvServer.Encryption

open LibuvServer.Lib LibuvServer.Netbus
open LibuvServer.Lib.Sha1 (Vars Word bytes sha1)

/-! ## Blocks -/

/-- The loop of an update takes the complete blocks. -/
theorem transformBlocks_eq (state : Vars) (data : Bytes) (i : Nat) :
    (transformBlocks state data i).1 = sha1.absorb state (data.drop i) ∧
      data.drop (transformBlocks state data i).2 = sha1.rest (data.drop i) := by
  fun_induction transformBlocks state data i with
  | case1 state i hlt ih =>
    have hblock : (slice data i 64).length = sha1.size := by
      show (slice data i 64).length = 64
      rw [slice, List.length_take, List.length_drop]
      omega
    have hsplit : data.drop i = slice data i 64 ++ data.drop (i + 64) := by
      rw [slice, ← List.drop_drop, List.take_append_drop]
    obtain ⟨habsorb, hrest⟩ := sha1.absorb_block state hblock (data.drop (i + 64))
    rw [hsplit, habsorb, hrest, sha1Transform_eq] at *
    exact ih
  | case2 state i hge =>
    have hshort : (data.drop i).length < sha1.size := by
      show (data.drop i).length < 64
      rw [List.length_drop]
      omega
    obtain ⟨habsorb, hrest⟩ := sha1.absorb_short state hshort
    exact ⟨habsorb.symm, hrest.symm⟩

/-! ## Contexts -/

/-- A number of two words grows by less than a word. -/
theorem carry_bits {c0 c1 k : Nat} (hc0 : c0 < 2 ^ 32) (hk : k < 2 ^ 32) :
    (c1 + if (c0 + k) % 2 ^ 32 < k then 1 else 0) % 2 ^ 32 * 2 ^ 32 + (c0 + k) % 2 ^ 32 =
      (c1 * 2 ^ 32 + c0 + k) % 2 ^ 64 := by
  have hcarry : (c0 + k) / 2 ^ 32 = if (c0 + k) % 2 ^ 32 < k then 1 else 0 := by
    split <;> omega
  have hword : 0 < 2 ^ 32 := Nat.two_pow_pos 32
  calc (c1 + if (c0 + k) % 2 ^ 32 < k then 1 else 0) % 2 ^ 32 * 2 ^ 32 + (c0 + k) % 2 ^ 32
      = (c0 + k + c1 * 2 ^ 32) % 2 ^ 32 + 2 ^ 32 * ((c0 + k + c1 * 2 ^ 32) / 2 ^ 32 % 2 ^ 32) := by
        rw [Nat.add_mul_mod_self_right, Nat.add_mul_div_right _ _ hword, hcarry, Nat.add_comm c1,
          Nat.mul_comm (2 ^ 32), Nat.add_comm]
    _ = (c0 + k + c1 * 2 ^ 32) % (2 ^ 32 * 2 ^ 32) := Nat.mod_mul.symm
    _ = (c1 * 2 ^ 32 + c0 + k) % 2 ^ 64 := by
        rw [Nat.add_comm (c0 + k), Nat.add_assoc, ← Nat.pow_add]

/-- The number in the two words of `count`. -/
def SHA1_CTX.bits (context : SHA1_CTX) : Nat :=
  context.count1.toNat * 2 ^ 32 + context.count0.toNat

/-- The context after the bytes `m`. -/
structure Holds (context : SHA1_CTX) (m : Bytes) : Prop where
  state : context.state = sha1.absorb sha1.init m
  bits : context.bits = 8 * m.length % 2 ^ 64
  buffer : context.buffer.take (m.length % 64) = sha1.rest m

section Holds

variable {context : SHA1_CTX} {m data : Bytes}

theorem Holds.init (stack : SHA1_CTX) : Holds (satSha1Init stack) [] where
  state := (sha1.absorb_short sha1.init (by decide)).1.symm
  bits := by
    show 0 * _ + 0 = 0 % _
    rw [Nat.zero_mul, Nat.zero_mod]
  buffer := by
    have hrest : sha1.rest [] = [] := (sha1.absorb_short sha1.init (by decide)).2
    rw [hrest]
    rfl

theorem Holds.count0 (h : Holds context m) : context.count0.toNat = 8 * m.length % 2 ^ 32 := by
  have hbits := h.bits
  have hlt := context.count0.isLt
  rw [SHA1_CTX.bits] at hbits
  omega

/-- Where the buffer is free. -/
theorem Holds.index (h : Holds context m) :
    (context.count0 >>> 3 &&& 63).toNat = m.length % 64 := by
  have hcount := h.count0
  have hmask : (63 : Word).toNat = 2 ^ 6 - 1 := rfl
  rw [BitVec.toNat_and, hmask, Nat.and_two_pow_sub_one_eq_mod, BitVec.toNat_ushiftRight,
    Nat.shiftRight_eq_div_pow]
  omega

/-- The bits are counted in 64 bits. -/
theorem Holds.bits_update (h : Holds context m) (hsmall : data.length < 2 ^ 29) :
    (satSha1Update context data).bits = 8 * (m ++ data).length % 2 ^ 64 := by
  have hk : data.length <<< 3 = 8 * data.length := by
    rw [Nat.shiftLeft_eq, Nat.mul_comm]
  have hlt : 8 * data.length < 2 ^ 32 := by omega
  have hhigh : BitVec.ofNat 32 (data.length >>> 29) = 0 := by
    rw [Nat.shiftRight_eq_div_pow, Nat.div_eq_of_lt hsmall]
    rfl
  have hcount0 : (satSha1Update context data).count0.toNat =
      (context.count0.toNat + 8 * data.length) % 2 ^ 32 := by
    rw [count0_update, hk, BitVec.toNat_add, BitVec.toNat_ofNat, Nat.mod_eq_of_lt hlt]
  have hcount1 : (satSha1Update context data).count1.toNat = (context.count1.toNat +
      if (satSha1Update context data).count0.toNat < 8 * data.length then 1 else 0) % 2 ^ 32 := by
    have hcarry : (satSha1Update context data).count1 = context.count1 +
        (if (satSha1Update context data).count0.toNat < data.length <<< 3 then 1 else 0 : Word) +
          BitVec.ofNat 32 (data.length >>> 29) := by
      rw [count0_update]
      unfold satSha1Update
      simp only
      split <;> rfl
    rw [hcarry, hhigh, hk, show ∀ x : Word, x + 0 = x from fun x => BitVec.add_zero x,
      BitVec.toNat_add]
    split <;> rfl
  rw [SHA1_CTX.bits, hcount1, hcount0, carry_bits context.count0.isLt hlt, List.length_append,
    Nat.mul_add, ← Nat.mod_add_mod (8 * m.length), ← h.bits, SHA1_CTX.bits]

/-- The data fills the buffer. -/
theorem update_full {j : Nat} (hj : (context.count0 >>> 3 &&& 63).toNat = j)
    (hfull : j + data.length > 63) {buffer : Bytes}
    (hbuffer : buffer = overwrite context.buffer j (data.take (64 - j))) :
    (satSha1Update context data).state =
        (transformBlocks (sha1Transform context.state buffer) data (64 - j)).1 ∧
      (satSha1Update context data).buffer = overwrite buffer 0
        (data.drop (transformBlocks (sha1Transform context.state buffer) data (64 - j)).2) := by
  subst hj hbuffer
  unfold satSha1Update
  simp only
  rw [if_pos hfull]
  exact ⟨rfl, rfl⟩

/-- It does not. -/
theorem update_short {j : Nat} (hj : (context.count0 >>> 3 &&& 63).toNat = j)
    (hshort : ¬ j + data.length > 63) :
    (satSha1Update context data).state = context.state ∧
      (satSha1Update context data).buffer = overwrite context.buffer j data := by
  subst hj
  unfold satSha1Update
  simp only
  rw [if_neg hshort]
  exact ⟨rfl, rfl⟩

/-- **An update** adds its data. -/
theorem Holds.update (h : Holds context m) (hsmall : data.length < 2 ^ 29) :
    Holds (satSha1Update context data) (m ++ data) := by
  have hindex := h.index
  have hrest : (sha1.rest m).length = m.length % 64 := sha1.length_rest m
  have hlt : m.length % 64 < 64 := Nat.mod_lt _ (by decide)
  have hsize := context.full
  obtain ⟨habsorb, hleft⟩ := sha1.absorb_append sha1.init m data
  suffices hboth : (satSha1Update context data).state = sha1.absorb sha1.init (m ++ data) ∧
      (satSha1Update context data).buffer.take ((m ++ data).length % 64) =
        sha1.rest (m ++ data) from ⟨hboth.1, h.bits_update hsmall, hboth.2⟩
  have hlast : (sha1.rest (m ++ data)).length = (m ++ data).length % 64 := sha1.length_rest _
  by_cases hfull : m.length % 64 + data.length > 63
  · -- the buffer is filled, and then the complete blocks are taken from the data
    obtain ⟨buffer, hbuffer⟩ : ∃ buffer, buffer =
        overwrite context.buffer (m.length % 64) (data.take (64 - m.length % 64)) := ⟨_, rfl⟩
    have hblock : buffer = sha1.rest m ++ data.take (64 - m.length % 64) := by
      have htake : (data.take (64 - m.length % 64)).length = 64 - m.length % 64 := by
        rw [List.length_take]
        omega
      rw [hbuffer, overwrite_eq (by omega), h.buffer, List.drop_eq_nil_of_le (by omega),
        List.append_nil]
    have hlen : buffer.length = sha1.size := by
      rw [hbuffer, length_overwrite, hsize]
      rfl
    have hsplit : sha1.rest m ++ data = buffer ++ data.drop (64 - m.length % 64) := by
      rw [hblock, List.append_assoc, List.take_append_drop]
    obtain ⟨hfirst, hfirst'⟩ := sha1.absorb_block (sha1.absorb sha1.init m) hlen
      (data.drop (64 - m.length % 64))
    obtain ⟨hblocks, hdrop⟩ := transformBlocks_eq (sha1Transform context.state buffer) data
      (64 - m.length % 64)
    obtain ⟨hstate, hbuffer'⟩ := update_full hindex hfull hbuffer
    rw [hstate, hbuffer', hdrop, habsorb, hleft, hsplit, hfirst, hfirst', hblocks,
      sha1Transform_eq, h.state]
    refine ⟨rfl, ?_⟩
    rw [← hfirst', ← hsplit, ← hleft]
    exact take_overwrite_zero (by rw [hlen]; exact Nat.le_of_lt (Nat.mod_lt _ sha1.pos)) hlast
  · have hshort : (sha1.rest m ++ data).length < sha1.size := by
      show (sha1.rest m ++ data).length < 64
      rw [List.length_append, hrest]
      omega
    obtain ⟨hsame, hall⟩ := sha1.absorb_short (sha1.absorb sha1.init m) hshort
    obtain ⟨hstate, hbuffer⟩ := update_short hindex hfull
    rw [hstate, hbuffer, habsorb, hleft, hsame, hall]
    refine ⟨h.state, ?_⟩
    have hmod : (m ++ data).length % 64 = m.length % 64 + data.length := by
      rw [List.length_append]
      omega
    rw [hmod, take_overwrite (by omega), h.buffer]

/-- The loop goes on until eight bytes are left in the buffer. -/
theorem Holds.more_zeros (h : Holds context m) :
    context.count0 &&& 504 ≠ 448 ↔ m.length % 64 ≠ 56 := by
  rw [count_ne_iff, h.count0]
  omega

/-- **The zeros** of the padding. -/
theorem Holds.padZeros (h : Holds context m) :
    Holds (padZeros context) (m ++ List.replicate ((120 - m.length % 64) % 64) 0) := by
  fun_induction Encryption.padZeros context generalizing m with
  | case1 context hmore ih =>
    have hlen := h.more_zeros.mp hmore
    have hone : [(0 : UInt8)].length < 2 ^ 29 := by decide
    have hnext := ih (h.update hone)
    have hzeros : (120 - m.length % 64) % 64 = (120 - (m ++ [0]).length % 64) % 64 + 1 := by
      rw [List.length_append, List.length_singleton]
      omega
    rw [hzeros, List.replicate_succ, List.append_cons]
    exact hnext
  | case2 context hdone =>
    have hlen : m.length % 64 = 56 := Decidable.not_not.mp (mt h.more_zeros.mpr hdone)
    rw [hlen, List.replicate_zero, List.append_nil]
    exact h

/-- A byte of a word. -/
theorem byte_eq (word : Word) (bits : Nat) :
    UInt8.ofBitVec ((word >>> bits &&& 255).setWidth 8) = UInt8.ofNat (word.toNat / 2 ^ bits) := by
  apply UInt8.toNat_inj.mp
  have hmask : (255 : Word).toNat = 2 ^ 8 - 1 := rfl
  rw [UInt8.toNat_ofBitVec, BitVec.toNat_setWidth, BitVec.toNat_and, hmask,
    Nat.and_two_pow_sub_one_eq_mod, BitVec.toNat_ushiftRight, Nat.shiftRight_eq_div_pow,
    UInt8.toNat_ofNat', Nat.mod_mod]

/-- A byte that is not cut off. -/
theorem byte_mod {n s k : Nat} (h : s + 8 ≤ k) :
    UInt8.ofNat (n % 2 ^ k / 2 ^ s) = UInt8.ofNat (n / 2 ^ s) := by
  obtain ⟨j, rfl⟩ : ∃ j, k = s + (8 + j) := ⟨k - s - 8, by omega⟩
  apply UInt8.toNat_inj.mp
  rw [UInt8.toNat_ofNat', UInt8.toNat_ofNat', Nat.pow_add, Nat.mod_mul_right_div_self, Nat.pow_add,
    Nat.mod_mul_right_mod]

/-- **The length** of the padding. -/
theorem Holds.finalcount (h : Holds context m) :
    finalcount context = bytes 8 (8 * m.length) := by
  have hcount0 := h.count0
  have hcount1 : context.count1.toNat = 8 * m.length % 2 ^ 64 / 2 ^ 32 := by
    rw [← h.bits, SHA1_CTX.bits, Nat.add_comm, Nat.add_mul_div_right _ _ (Nat.two_pow_pos 32),
      Nat.div_eq_of_lt context.count0.isLt, Nat.zero_add]
  have hhigh : ∀ s, s + 8 ≤ 32 → UInt8.ofBitVec ((context.count1 >>> s &&& 255).setWidth 8) =
      UInt8.ofNat (8 * m.length / 2 ^ (32 + s)) := by
    intro s hs
    rw [byte_eq, hcount1, Nat.div_div_eq_div_mul, ← Nat.pow_add, byte_mod (by omega)]
  have hlow : ∀ s, s + 8 ≤ 32 → UInt8.ofBitVec ((context.count0 >>> s &&& 255).setWidth 8) =
      UInt8.ofNat (8 * m.length / 2 ^ s) := by
    intro s hs
    rw [byte_eq, hcount0, byte_mod hs]
  have hall : Encryption.finalcount context =
      [24, 16, 8, 0].map (fun s => UInt8.ofBitVec ((context.count1 >>> s &&& 255).setWidth 8)) ++
      [24, 16, 8, 0].map (fun s => UInt8.ofBitVec ((context.count0 >>> s &&& 255).setWidth 8)) :=
    rfl
  rw [hall]
  simp only [List.map_cons, List.map_nil, List.cons_append, List.nil_append, bytes]
  rw [hhigh 24 (by decide), hhigh 16 (by decide), hhigh 8 (by decide), hhigh 0 (by decide),
    hlow 24 (by decide), hlow 16 (by decide), hlow 8 (by decide), hlow 0 (by decide)]
  rfl

theorem digest_eq (v : Vars) : ((List.range 20).map fun i =>
    UInt8.ofBitVec ((v.toList.getD (i >>> 2) 0 >>> ((3 - (i &&& 3)) * 8) &&& 255).setWidth 8)) =
      v.toList.flatMap fun w => bytes 4 w.toNat := by
  have hword : ∀ w : Word, bytes 4 w.toNat = [24, 16, 8, 0].map fun s =>
      UInt8.ofBitVec ((w >>> s &&& 255).setWidth 8) := by
    intro w
    simp only [List.map_cons, List.map_nil, byte_eq]
    rfl
  simp only [hword]
  rfl

/-- **The digest** of what the context has been updated with. -/
theorem Holds.final (h : Holds context m) : satSha1Final context = Sha1.digest m := by
  have hmarked : Holds (satSha1Update context [0x80]) (m ++ [0x80]) := h.update (by decide)
  have hzeros := hmarked.padZeros
  have hlast : Holds (satSha1Update (Encryption.padZeros (satSha1Update context [0x80]))
      (Encryption.finalcount context)) (m ++ sha1.padding m.length) := by
    have hpadding : m ++ sha1.padding m.length = m ++ [0x80] ++
        List.replicate ((120 - (m ++ [0x80]).length % 64) % 64) 0 ++
          Encryption.finalcount context := by
      have hcount : (119 - m.length % 64) % 64 = (120 - (m ++ [0x80]).length % 64) % 64 := by
        rw [List.length_append, List.length_singleton]
        omega
      rw [h.finalcount, ← hcount, List.append_assoc, List.append_assoc]
      rfl
    rw [hpadding]
    exact hzeros.update (by rw [h.finalcount, Sha1.length_bytes]; decide)
  rw [satSha1Final, digest_eq, hlast.state]
  rfl

end Holds

/-- **SHA-1.** Data that is hashed in pieces, in a context that held anything
before, has the digest of all of it. -/
theorem sha1_of_pieces (stack : SHA1_CTX) {pieces : List Bytes}
    (hsmall : ∀ data ∈ pieces, data.length < 2 ^ 29) :
    satSha1Final (pieces.foldl satSha1Update (satSha1Init stack)) = Sha1.digest pieces.flatten := by
  suffices hall : ∀ (pieces : List Bytes) (context : SHA1_CTX) (m : Bytes),
      (∀ data ∈ pieces, data.length < 2 ^ 29) → Holds context m →
        Holds (pieces.foldl satSha1Update context) (m ++ pieces.flatten) from
    (hall pieces _ [] hsmall (Holds.init stack)).final
  intro pieces
  induction pieces with
  | nil =>
    intro context m _ h
    rwa [List.flatten_nil, List.append_nil]
  | cons data pieces ih =>
    intro context m hsmall h
    rw [List.flatten_cons, ← List.append_assoc]
    exact ih _ _ (fun d hd => hsmall d (.tail _ hd)) (h.update (hsmall data (.head _)))

/-- A context that was used before. -/
def usedStack : SHA1_CTX where
  state := ⟨1, 2, 3, 4, 5⟩
  count0 := 24
  count1 := 7
  buffer := List.replicate 64 0xcc
  full := List.length_replicate

/-- A text in two pieces, the second of them over the end of a block. -/
theorem sha1_of_pieces_two :
    satSha1Final ([List.replicate 40 0x61, List.replicate 40 0x62].foldl satSha1Update
        (satSha1Init usedStack)) =
      Sha1.digest [List.replicate 40 0x61, List.replicate 40 0x62].flatten :=
  sha1_of_pieces usedStack (by decide)

end LibuvServer.Encryption
