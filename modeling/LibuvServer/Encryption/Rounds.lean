import LibuvServer.Encryption.Sha1
import Mathlib.Tactic.Common
import Mathlib.Tactic.IntervalCases

/-!
# The rounds of SHA-1

`sha1Transform` is the compression of the standard. Operation `i` of the
source works on the registers under the names they have after `i` moves, and
finds word `i` of the schedule in the block: `perform_step` is one operation,
and `perform_rounds` all that have been done so far.
-/

namespace LibuvServer.Encryption

open LibuvServer.Lib LibuvServer.Netbus
open LibuvServer.Lib.Sha1 (Ch K Maj Parity Vars Word ofBytes)

/-! ## Words -/

theorem rol_eq (value : Word) {bits : Nat} (h : bits < 32) :
    rol value bits = value.rotateLeft bits := by
  rw [rol, BitVec.rotateLeft_def, Nat.mod_eq_of_lt h]

theorem ch_eq (w x y : Word) : (w &&& (x ^^^ y)) ^^^ y = Ch w x y := by
  ext i hi
  simp only [Ch, BitVec.getElem_xor, BitVec.getElem_and, BitVec.getElem_not]
  cases w[i] <;> cases x[i] <;> cases y[i] <;> rfl

theorem maj_eq (w x y : Word) : ((w ||| x) &&& y) ||| (w &&& x) = Maj w x y := by
  ext i hi
  simp only [Maj, BitVec.getElem_xor, BitVec.getElem_and, BitVec.getElem_or]
  cases w[i] <;> cases x[i] <;> cases y[i] <;> rfl

/-- The bytes of a word the other way round. -/
theorem swap_eq (p q r s : UInt8) :
    rol (ofBytes s r q p) 24 &&& 0xFF00FF00 ||| rol (ofBytes s r q p) 8 &&& 0x00FF00FF =
      ofBytes p q r s := by
  ext i hi
  simp only [rol, ofBytes, BitVec.getElem_or, BitVec.getElem_and]
  interval_cases i <;> simp

theorem land_15 (i : Nat) : i &&& 15 = i % 16 := Nat.and_two_pow_sub_one_eq_mod i 4

/-! ## Registers -/

section Registers

variable {s : Vars} {x : Word} {r r' : Reg} {i k : Nat}

@[simp] theorem Reg.get_set_self : r.get (r.set s x) = x := by
  cases r <;> rfl

theorem Reg.get_set_of_ne (h : r ≠ r') : r.get (r'.set s x) = r.get s := by
  cases r <;> cases r' <;> first | rfl | exact absurd rfl h

/-- The registers in their order. -/
def named : Nat → Reg
  | 0 => .a
  | 1 => .b
  | 2 => .c
  | 3 => .d
  | _ => .e

theorem named_ne : ∀ m < 5, ∀ n < 5, m ≠ n → named m ≠ named n := by decide

/-- The `k`-th register of operation `i`: all have moved one place at every
operation before it. -/
def register (i k : Nat) : Reg := named ((k + 4 * i) % 5)

theorem register_ne {k' : Nat} (hk : k < 5) (hk' : k' < 5) (h : k ≠ k') :
    register i k ≠ register i k' :=
  named_ne _ (Nat.mod_lt _ (by decide)) _ (Nat.mod_lt _ (by decide)) (by omega)

theorem register_succ (i k : Nat) : register (i + 1) (k + 1) = register i k := by
  rw [register, register, show k + 1 + 4 * (i + 1) = k + 4 * i + 5 by omega, Nat.add_mod_right]

/-- The register that was the last one is the first one next. -/
theorem register_first (i : Nat) : register (i + 1) 0 = register i 4 := by
  rw [register, register, show 0 + 4 * (i + 1) = 4 + 4 * i by omega]

/-- The working variables as operation `i` finds them. -/
def view (i : Nat) (s : Vars) : Vars where
  a := (register i 0).get s
  b := (register i 1).get s
  c := (register i 2).get s
  d := (register i 3).get s
  e := (register i 4).get s

/-- They are back in their places every five operations. -/
theorem view_eighty (s : Vars) : view 80 s = s := rfl

def operationAt (i : Nat) : Operation :=
  if i < 16 then .R0 else if i < 20 then .R1 else if i < 40 then .R2
  else if i < 60 then .R3 else .R4

def roundAt (i : Nat) : Round where
  operation := operationAt i
  v := register i 0
  w := register i 1
  x := register i 2
  y := register i 3
  z := register i 4
  i := i

/-- **Every operation is where it belongs**, on the registers it should have. -/
theorem rounds_eq : rounds = (List.range 80).map roundAt := by decide

theorem function_eq (i : Nat) (w x y : Word) : (operationAt i).function w x y = Sha1.f i w x y := by
  unfold operationAt Sha1.f
  by_cases h16 : i < 16
  · rw [if_pos h16, if_pos (by omega)]
    exact ch_eq w x y
  rw [if_neg h16]
  by_cases h20 : i < 20
  · rw [if_pos h20, if_pos h20]
    exact ch_eq w x y
  rw [if_neg h20, if_neg h20]
  by_cases h40 : i < 40
  · rw [if_pos h40, if_pos h40]
    rfl
  rw [if_neg h40, if_neg h40]
  by_cases h60 : i < 60
  · rw [if_pos h60, if_pos h60]
    exact maj_eq w x y
  · rw [if_neg h60, if_neg h60]
    rfl

theorem constant_eq (i : Nat) : (operationAt i).constant = K i := by
  unfold operationAt K
  by_cases h16 : i < 16
  · rw [if_pos h16, if_pos (by omega)]
    rfl
  rw [if_neg h16]
  by_cases h20 : i < 20
  · rw [if_pos h20, if_pos h20]
    rfl
  rw [if_neg h20, if_neg h20]
  by_cases h40 : i < 40
  · rw [if_pos h40, if_pos h40]
    rfl
  rw [if_neg h40, if_neg h40]
  by_cases h60 : i < 60
  · rw [if_pos h60, if_pos h60]
    rfl
  · rw [if_neg h60, if_neg h60]
    rfl

end Registers

/-! ## The block -/

/-- The sixteen words of the block before operation `i`: the words of the
schedule it and the next ones look back to, and behind them what the buffer
holds. -/
structure Scheduled (buffer : Bytes) (i : Nat) (l : List Word) : Prop where
  length : l.length = 16
  loaded : ∀ t, i ≤ t → t < 16 → l.getD t 0 = (loadWords buffer).getD t 0
  done : ∀ t, t < i → i ≤ t + 16 → l.getD (t % 16) 0 = Sha1.W buffer t

section Schedule

variable {buffer : Bytes} {l : List Word} {i : Nat}

theorem Scheduled.load : Scheduled buffer 0 (loadWords buffer) where
  length := by rw [loadWords, List.length_map, List.length_range]
  loaded _ _ _ := rfl
  done _ h := absurd h (Nat.not_lt_zero _)

theorem loadWords_getD {t : Nat} (h : t < 16) : (loadWords buffer).getD t 0 =
    ofBytes (buffer.getD (4 * t + 3) 0) (buffer.getD (4 * t + 2) 0) (buffer.getD (4 * t + 1) 0)
      (buffer.getD (4 * t) 0) := by
  rw [loadWords, List.getD_eq_getElem?_getD, List.getElem?_map, List.getElem?_range h]
  rfl

theorem getD_set {j t : Nat} {x : Word} (hj : j < l.length) :
    (l.set j x).getD t 0 = if t = j then x else l.getD t 0 := by
  rw [List.getD_eq_getElem?_getD, List.getD_eq_getElem?_getD, List.getElem?_set]
  by_cases h : t = j
  · rw [if_pos h, if_pos h.symm, if_pos hj]
    rfl
  · rw [if_neg h, if_neg (Ne.symm h)]

/-- The word that comes next is written over the one that is not needed. -/
theorem Scheduled.write (h : Scheduled buffer i l) :
    Scheduled buffer (i + 1) (l.set (i % 16) (Sha1.W buffer i)) where
  length := by rw [List.length_set, h.length]
  loaded t ht hlt := by
    rw [getD_set (by rw [h.length]; omega), if_neg (by omega)]
    exact h.loaded t (by omega) hlt
  done t ht hnear := by
    rw [getD_set (by rw [h.length]; omega)]
    by_cases heq : t = i
    · rw [heq, if_pos rfl]
    · rw [if_neg (by omega)]
      exact h.done t (by omega) (by omega)

/-- **The block is expanded** by the next word of the schedule. -/
theorem Scheduled.expand (h : Scheduled buffer i l) :
    (operationAt i).expand l i = l.set (i % 16) (Sha1.W buffer i) := by
  by_cases hi : i < 16
  · have hop : operationAt i = .R0 := if_pos hi
    have hword : Sha1.W buffer i = Sha1.word buffer i := by
      rw [Sha1.W, if_pos hi]
    rw [hop, Operation.expand, blk0, h.loaded i (Nat.le_refl i) hi, loadWords_getD hi, swap_eq,
      hword, Nat.mod_eq_of_lt hi]
    rfl
  · have hexpand : (operationAt i).expand = blk := by
      unfold operationAt
      rw [if_neg hi]
      split
      · rfl
      split
      · rfl
      split <;> rfl
    -- the words it looks back to are the last sixteen
    have hback : ∀ k, 0 < k → k ≤ 16 → l.getD ((i - k) % 16) 0 = Sha1.W buffer (i - k) :=
      fun k hpos hk => h.done (i - k) (by omega) (by omega)
    have hword : Sha1.W buffer i = rol (Sha1.W buffer (i - 3) ^^^ Sha1.W buffer (i - 8) ^^^
        Sha1.W buffer (i - 14) ^^^ Sha1.W buffer (i - 16)) 1 := by
      rw [rol_eq _ (by decide), Sha1.W, if_neg hi]
    rw [hexpand, blk, land_15, land_15, land_15, land_15, hword,
      show (i + 13) % 16 = (i - 3) % 16 by omega, show (i + 8) % 16 = (i - 8) % 16 by omega,
      show (i + 2) % 16 = (i - 14) % 16 by omega, hback 3 (by decide) (by decide),
      hback 8 (by decide) (by decide), hback 14 (by decide) (by decide)]
    rw [show l.getD (i % 16) 0 = Sha1.W buffer (i - 16) by
      rw [← hback 16 (by decide) (by decide), show (i - 16) % 16 = i % 16 by omega]]

end Schedule

/-! ## Operations -/

/-- **One operation** is one step of the standard. -/
theorem perform_step {buffer : Bytes} {i : Nat} {s : Vars} {l : List Word}
    (h : Scheduled buffer i l) :
    view (i + 1) (Round.perform (s, l) (roundAt i)).1 = Sha1.step buffer (view i s) i ∧
      Scheduled buffer (i + 1) (Round.perform (s, l) (roundAt i)).2 := by
  have hword : ((operationAt i).expand l i).getD (i &&& 15) 0 = Sha1.W buffer i := by
    rw [h.expand, land_15, getD_set (by rw [h.length]; omega), if_pos rfl]
  obtain ⟨z, hz⟩ : ∃ z, z = (register i 4).get s + ((operationAt i).function
      ((register i 1).get s) ((register i 2).get s) ((register i 3).get s) +
      ((operationAt i).expand l i).getD (i &&& 15) 0 + (operationAt i).constant +
      rol ((register i 0).get s) 5) := ⟨_, rfl⟩
  have hperform : (Round.perform (s, l) (roundAt i)).1 = (register i 1).set
      ((register i 4).set s z) (rol ((register i 1).get ((register i 4).set s z)) 30) := by
    rw [hz]
    rfl
  -- neither of the two registers that are written
  have hkept : ∀ k, k < 5 → k ≠ 1 → k ≠ 4 →
      (register i k).get (Round.perform (s, l) (roundAt i)).1 = (register i k).get s := by
    intro k hk hk1 hk4
    rw [hperform, Reg.get_set_of_ne (register_ne hk (by decide) hk1),
      Reg.get_set_of_ne (register_ne hk (by decide) hk4)]
  constructor
  · simp only [view, Sha1.step, register_succ, register_first, Vars.mk.injEq]
    refine ⟨?_, hkept 0 (by decide) (by decide) (by decide), ?_,
      hkept 2 (by decide) (by decide) (by decide), hkept 3 (by decide) (by decide) (by decide)⟩
    · rw [hperform, Reg.get_set_of_ne (register_ne (by decide) (by decide) (by decide)),
        Reg.get_set_self, hz, hword, function_eq, constant_eq, rol_eq _ (by decide)]
      ac_rfl
    · rw [hperform, Reg.get_set_self,
        Reg.get_set_of_ne (register_ne (by decide) (by decide) (by decide)), rol_eq _ (by decide)]
  · show Scheduled buffer (i + 1) ((operationAt i).expand l i)
    rw [h.expand]
    exact h.write

/-- **All operations so far.** -/
theorem perform_rounds (state : Vars) (buffer : Bytes) (n : Nat) :
    let s := ((List.range n).map roundAt).foldl Round.perform (state, loadWords buffer)
    view n s.1 = (List.range n).foldl (Sha1.step buffer) state ∧ Scheduled buffer n s.2 := by
  induction n with
  | zero => exact ⟨rfl, .load⟩
  | succ n ih =>
    simp only [List.range_succ, List.map_append, List.map_cons, List.map_nil, List.foldl_append,
      List.foldl_cons, List.foldl_nil] at ih ⊢
    obtain ⟨hview, hscheduled⟩ := ih
    rw [← hview]
    exact perform_step hscheduled

/-- **A block is compressed** as the standard says. -/
theorem sha1Transform_eq (state : Vars) (buffer : Bytes) :
    sha1Transform state buffer = Sha1.compress state buffer := by
  have hall := (perform_rounds state buffer 80).1
  rw [sha1Transform, Sha1.compress, rounds_eq, ← hall, view_eighty]

end LibuvServer.Encryption
