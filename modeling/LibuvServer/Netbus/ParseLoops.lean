import LibuvServer.Netbus.TcpReassembly
import LibuvServer.Netbus.WebHeaders
import LibuvServer.Netbus.WebReception
import Mathlib.Algebra.Group.Int.Defs
import Mathlib.Tactic.Common

/-!
# Where the parse loops stop

The loops of `tcpDataParser` and `webDataParser` on any content of a receive
buffer: what a pass takes off `received`, whether the loop is left, and what
it touches. The bytes a peer sent decide, through the headers that are found
where one frame after another is cut off.
-/

namespace LibuvServer.Netbus

open LibuvServer.Lib TcpProtocol WebProtocol

variable {s t : SessionUv} {long : Bool} {v blk : Bytes} {n : Nat}

/-! ## What a loop has before it -/

/-- The received bytes are `v`, at the front of the block the loop works on. -/
structure Sees (long : Bool) (s : SessionUv) (v : Bytes) : Prop where
  received : s.received = v.length
  block : 0 < s.received → ∃ blk, s.buffer long = some blk ∧ s.received ≤ blk.length ∧
    blk.take s.received = v

theorem sees_take (hb : s.buffer long = some blk) (hr : s.received ≤ blk.length) :
    Sees long s (blk.take s.received) where
  received := by
    rw [List.length_take]
    exact (Nat.min_eq_left hr).symm
  block _ := ⟨blk, hb, hr, rfl⟩

/-- `memmove` of `received` bytes, the first `n` of them taken off. -/
def movedDown (blk : Bytes) (received n : Nat) : Bytes :=
  if n < received then overwrite blk 0 (slice blk n (received - n)) else blk

theorem buffer_write (s : SessionUv) (long : Bool) (off : Nat) (data : Bytes) :
    (s.write long off data).buffer long = (s.buffer long).map (overwrite · off data) := by
  cases long <;> rfl

theorem buffer_moveDown (hb : s.buffer long = some blk) :
    (s.moveDown long n).buffer long = some (movedDown blk s.received n) := by
  unfold SessionUv.moveDown movedDown
  split
  · rw [buffer_write, hb, Option.map_some, Option.getD_some]
  · exact hb

theorem buffer_releaseLong (s : SessionUv) (long : Bool) :
    s.releaseLong.buffer long = s.buffer long ∨
      s.received = 0 ∧ s.releaseLong.buffer long = none := by
  unfold SessionUv.releaseLong
  split
  · rename_i hz
    cases long with
    | true => exact .inr ⟨hz.1, rfl⟩
    | false => exact .inl rfl
  · exact .inl rfl

/-- The block after a pass, unless it was freed. -/
theorem buffer_discard (hb : s.buffer long = some blk) :
    (s.discard long n).buffer long = some (movedDown blk s.received n) ∨
      s.received - n = 0 ∧ (s.discard long n).buffer long = none := by
  have hmove : SessionUv.buffer { s.moveDown long n with received := s.received - n } long =
      some (movedDown blk s.received n) := by
    rw [← buffer_moveDown hb]
    cases long <;> rfl
  rcases buffer_releaseLong { s.moveDown long n with received := s.received - n } long with h | h
  · exact .inl (h.trans hmove)
  · exact .inr h

section Moved

variable {r : Nat} (hr : r ≤ blk.length) (hn : n ≤ r)
include hr hn

theorem length_slice_moved : (slice blk n (r - n)).length = r - n := by
  rw [slice, List.length_take, List.length_drop]
  omega

theorem take_movedDown : (movedDown blk r n).take (r - n) = (blk.take r).drop n := by
  have hlen := length_slice_moved hr hn
  rw [List.drop_take, movedDown]
  split
  · exact take_overwrite_zero (by omega) hlen
  · rw [show r - n = 0 by omega, List.take_zero, List.take_zero]

/-- Nothing past the received bytes is moved. -/
theorem drop_movedDown : (movedDown blk r n).drop r = blk.drop r := by
  have hlen := length_slice_moved hr hn
  rw [movedDown]
  split
  · exact drop_overwrite (by omega) (by omega)
  · rfl

end Moved

@[simp] theorem length_movedDown (blk : Bytes) (r n : Nat) :
    (movedDown blk r n).length = blk.length := by
  unfold movedDown
  split
  · rw [length_overwrite]
  · rfl

/-- A pass takes the first `n` bytes off. -/
theorem Sees.discard (h : Sees long s v) (hn : n ≤ v.length) :
    Sees long (s.discard long n) (v.drop n) := by
  refine ⟨by rw [SessionUv.discard_received, List.length_drop, h.received], fun hpos => ?_⟩
  rw [SessionUv.discard_received] at hpos ⊢
  obtain ⟨blk, hb, hr, hv⟩ := h.block (by omega)
  rcases buffer_discard (n := n) hb with hb' | ⟨hzero, -⟩
  · refine ⟨_, hb', by rw [length_movedDown]; omega, ?_⟩
    rw [take_movedDown hr (by rw [h.received]; exact hn), hv]
  · omega

/-- Bytes rewritten in place that then leave with the first `n` do not
matter. -/
theorem Sees.write_discard (h : Sees long s v) (hn : n ≤ v.length) {off : Nat} {data : Bytes}
    (hin : data = [] ∨ off + data.length ≤ n) :
    Sees long ((s.write long off data).discard long n) (v.drop n) := by
  rcases hin with rfl | hin
  · rw [SessionUv.write_nil]
    exact h.discard hn
  · have hw : ∃ v', Sees long (s.write long off data) v' ∧ v'.drop n = v.drop n ∧
        v'.length = v.length := by
      by_cases hpos : 0 < s.received
      · obtain ⟨blk, hb, hr, hv⟩ := h.block hpos
        have hb' : (s.write long off data).buffer long = some (overwrite blk off data) := by
          rw [buffer_write, hb, Option.map_some]
        have hs := sees_take hb' (by rwa [SessionUv.write_received, length_overwrite])
        rw [SessionUv.write_received] at hs
        refine ⟨_, hs, ?_, by rw [← hs.received, SessionUv.write_received, h.received]⟩
        have hrec := h.received
        rw [List.drop_take, drop_overwrite (by omega) hin, ← hv, List.drop_take]
      · have hrec := h.received
        have hdata : data = [] := List.eq_nil_of_length_eq_zero (by omega)
        rw [hdata, SessionUv.write_nil]
        exact ⟨v, h, rfl, rfl⟩
    obtain ⟨v', hs, hdrop, hlen⟩ := hw
    rw [← hdrop]
    exact hs.discard (by rw [hlen]; exact hn)

/-! ## The TCP loop -/

theorem header_of_take (hr : n ≤ blk.length) (htwo : 2 ≤ n) :
    header (blk.take n) = header blk := by
  have hlen : 2 ≤ (blk.take n).length := by
    rw [List.length_take]
    omega
  conv_rhs => rw [← List.take_append_drop n blk]
  rw [header_append hlen]

theorem tcp_split?_none (h : v.length < 2 ∨ v.length < header v) :
    tcpFraming.split? v = none := by
  rw [Framing.split?_eq_none]
  intro n hn
  obtain ⟨htwo, hhead, -⟩ := frameSize?_eq_some.mp hn
  omega

/-- What a pass over the received bytes does: it waits for more of them, or
takes off what the header announces, which may be nothing. -/
theorem tcpPass_cases (h : Sees long s v) :
    (tcpPass long s = .exit s [] ∧ tcpFraming.split? v = none ∧ HeaderNonzero v) ∨
    (∃ out, tcpPass long s = .again (s.discard long (header v)) out ∧ 2 ≤ v.length ∧
      header v ≤ v.length ∧ Sees long (s.discard long (header v)) (v.drop (header v))) := by
  have hrec := h.received
  by_cases hr : s.received = 0
  · left
    refine ⟨by rw [tcpPass, if_pos hr], tcp_split?_none (by omega), fun h2 => by omega⟩
  · obtain ⟨blk, hb, hfits, hv⟩ := h.block (by omega)
    have hin : ¬ blk.length < s.received := by omega
    by_cases htwo : s.received < 2
    · left
      refine ⟨?_, tcp_split?_none (by omega), fun h2 => by omega⟩
      rw [tcpPass, if_neg hr, hb]
      simp only [if_neg hin, readTcpHeader_eq, if_pos htwo]
    · have hhead : header blk = header v := by
        rw [← hv, header_of_take hfits (by omega)]
      by_cases hlt : s.received < header v
      · left
        refine ⟨?_, tcp_split?_none (by omega), fun _ => by omega⟩
        rw [tcpPass, if_neg hr, hb]
        simp only [if_neg hin, readTcpHeader_eq, if_neg htwo, hhead, if_pos hlt]
      · right
        have hpass : ∃ out, tcpPass long s = .again (s.discard long (header v)) out := by
          rw [tcpPass, if_neg hr, hb]
          simp only [if_neg hin, readTcpHeader_eq, if_neg htwo, hhead, if_neg hlt]
          exact ⟨_, rfl⟩
        obtain ⟨out, hpass⟩ := hpass
        exact ⟨out, hpass, by omega, by omega, h.discard (by omega)⟩

/-- Every pass has received bytes before it. -/
theorem tcpPass_sees (h : Sees long s v) :
    Throughout (tcpPass long) (fun t => ∃ w, Sees long t w) s := by
  refine throughout_of_invariant (fun t t' out ht hpass => ?_) ⟨v, h⟩
  obtain ⟨w, hw⟩ := ht
  rcases tcpPass_cases hw with ⟨hexit, -⟩ | ⟨out', hagain, -, -, hw'⟩
  · rw [hexit] at hpass
    cases hpass
  · rw [hagain] at hpass
    cases hpass
    exact ⟨_, hw'⟩

/-- The loop never leaves the block it works on. -/
theorem tcpPass_safe (h : Sees long s v) :
    Throughout (tcpPass long) (fun t => tcpPass long t ≠ .fault) s := by
  intro t ht
  obtain ⟨w, hw⟩ := tcpPass_sees h t ht
  rcases tcpPass_cases hw with ⟨hexit, -⟩ | ⟨out, hagain, -⟩
  · rw [hexit]
    simp
  · rw [hagain]
    simp

/-- Every pass makes progress unless a header of zero is met. -/
theorem tcp_lowers (h : Sees long s v) :
    Throughout (tcpPass long) (Lowers (tcpPass long) SessionUv.received) s ↔
      HeaderNonzero (tcpFraming.drain v).2 := by
  -- along the packages that are cut off; the last front decides
  induction v using tcpFraming.drain_induction generalizing s with
  | none v hd =>
    rw [tcpFraming.drain_of_none hd]
    rcases tcpPass_cases h with ⟨hexit, -, hz⟩ | ⟨out, hagain, htwo, hle, -⟩
    · rw [throughout_of_no_again (by rw [hexit]; simp)]
      refine iff_of_true (fun t out hpass => ?_) hz
      rw [hexit] at hpass
      cases hpass
    · -- nothing is cut off, so the header is zero
      have hzero : header v = 0 := by
        by_contra hne
        have hn := (Framing.split?_eq_none _).mp hd (header v)
          (frameSize?_eq_some.mpr ⟨htwo, rfl, by omega⟩)
        omega
      refine iff_of_false (fun hlow => ?_) (fun hz => hz htwo hzero)
      obtain ⟨k, hk, hkle, hrec⟩ := hlow s .start _ _ hagain
      rw [SessionUv.discard_received, hzero] at hrec
      omega
  | some v f r hs ih =>
    obtain ⟨hsize, hv, hpos⟩ := tcpFraming.split?_some hs
    obtain ⟨htwo, hhead, -⟩ := frameSize?_eq_some.mp hsize
    rw [tcpFraming.drain_of_some hs]
    rcases tcpPass_cases h with ⟨-, hnone, -⟩ | ⟨out, hagain, -, hle, hsees⟩
    · rw [hs] at hnone
      cases hnone
    · rw [hhead] at hagain hsees
      rw [hv, List.drop_left] at hsees
      rw [throughout_again hagain, ih hsees, and_iff_right]
      intro t out' hpass
      rw [hagain] at hpass
      cases hpass
      have hrec := h.received
      exact ⟨f.length, hpos, by omega, SessionUv.discard_received _ _ _⟩

/-- **The TCP loop ends, making progress in every pass**, unless it comes to
a header of zero. -/
theorem tcp_loop (s : SessionUv) (hr : s.received ≤ s.pkgData.length) :
    (Ends (tcpPass s.longPkg.isSome) s ∧
      Throughout (tcpPass s.longPkg.isSome)
        (Lowers (tcpPass s.longPkg.isSome) SessionUv.received) s) ↔
      HeaderNonzero (tcpFraming.drain s.view).2 := by
  have hsees : Sees s.longPkg.isSome s s.view := sees_take s.buffer_isSome hr
  rw [← tcp_lowers hsees]
  exact ⟨fun h => h.2, fun h => ⟨ends_of_lowers (tcpPass_safe hsees) h, h⟩⟩

/-- A session that has received `data` since it was created. -/
def SessionUv.holding (t : SocketType) (data : Bytes) : SessionUv :=
  { (SessionUv.create t).write false 0 data with
    received := data.length
    wsShake := true }

theorem view_holding {k : SocketType} {data : Bytes} (h : data.length ≤ RECVBUF) :
    (SessionUv.holding k data).view = data := by
  have hlen : data.length ≤ (SessionUv.create k).recvBuf.length := by
    rw [(SessionUv.create k).recvBuf_size]
    exact h
  exact take_overwrite_zero hlen rfl

theorem fits_holding {k : SocketType} {data : Bytes} (h : data.length ≤ RECVBUF) :
    (SessionUv.holding k data).received ≤ (SessionUv.holding k data).pkgData.length := by
  show data.length ≤ (SessionUv.holding k data).recvBuf.length
  rw [(SessionUv.holding k data).recvBuf_size]
  exact h

/-- A header of one takes one byte off and leaves too few for another. -/
theorem tcp_loop_short :
    Ends (tcpPass false) (.holding .TCP_SOCKET [1, 0]) ∧
      Throughout (tcpPass false) (Lowers (tcpPass false) SessionUv.received)
        (.holding .TCP_SOCKET [1, 0]) := by
  refine (tcp_loop (.holding .TCP_SOCKET [1, 0]) (fits_holding (by decide))).mpr ?_
  rw [view_holding (by decide)]
  exact fun h => absurd h (by decide)

/-- A header of zero takes nothing off, and the loop does not end. -/
theorem tcp_loop_zero :
    ¬ (Ends (tcpPass false) (.holding .TCP_SOCKET [0, 0]) ∧
      Throughout (tcpPass false) (Lowers (tcpPass false) SessionUv.received)
        (.holding .TCP_SOCKET [0, 0])) := by
  rintro ⟨hends, -⟩
  have hsees : Sees false (.holding .TCP_SOCKET [0, 0]) [0, 0] := by
    have h := sees_take (SessionUv.holding .TCP_SOCKET [0, 0]).buffer_isSome
      (fits_holding (by decide))
    rwa [show (SessionUv.holding .TCP_SOCKET [0, 0]).pkgData.take _ = _ from
      view_holding (by decide)] at h
  have hstored : Stored tcpFraming (.holding .TCP_SOCKET [0, 0]) :=
    .of_none rfl rfl (by decide)
  rcases tcpPass_cases hsees with ⟨-, -, hz⟩ | ⟨out, hagain, -⟩
  · exact hz (by decide) (by decide)
  · rw [show header [0, 0] = 0 by decide, discard_zero hstored rfl (by decide)] at hagain
    exact not_ends_of_same hagain hends

/-! ## The web loop -/

/-- The length a header announces and the header's size fit an `int`. -/
def HeaderFits (v : Bytes) : Prop :=
  ∀ pkgSize headSize, readWebHeader v v.length = some (pkgSize, headSize) →
    readDataLen v + headSize < 2 ^ 31

/-- A pass of the loop in bounds. -/
structure WebPassSafe (long : Bool) (s : SessionUv) : Prop where
  /-- The size of an accepted header is the sum, and covers the header. -/
  sizes : ∀ blk pkgSize headSize, 0 < s.received → s.buffer long = some blk →
    readWebHeader blk s.received = some (pkgSize, headSize) →
    pkgSize = readDataLen blk + headSize ∧ (headSize : Int) ≤ pkgSize
  lowers : Lowers (webPass long) SessionUv.received s
  /-- No byte outside the block is moved. -/
  no_fault : webPass long s ≠ .fault
  /-- No byte past the received ones is written. -/
  inside : ∀ blk t blk' out, s.buffer long = some blk → webPass long s = .again t out →
    t.buffer long = some blk' → blk'.drop s.received = blk.drop s.received

theorem toInt32_lt (n : Nat) : toInt32 n < 2 ^ 31 :=
  Int.bmod_lt (by decide)

/-- An accepted header has the right size just when the sum fits. -/
theorem headerFits_iff {pkgSize : Int} {headSize : Nat}
    (h : readWebHeader v v.length = some (pkgSize, headSize)) :
    HeaderFits v ↔ pkgSize = readDataLen v + headSize := by
  obtain ⟨hp, -⟩ := readWebHeader_sizes h
  constructor
  · intro hfits
    have hlt := hfits pkgSize headSize h
    rw [hp, Nat.mod_eq_of_lt (by omega), toInt32_of_lt hlt]
    omega
  · intro hsum p k hpk
    rw [h, Option.some.injEq, Prod.mk.injEq] at hpk
    obtain ⟨-, rfl⟩ := hpk
    have hlt := toInt32_lt ((readDataLen v + headSize) % 2 ^ 32)
    omega

/-- The length is read from the received bytes. -/
theorem readDataLen_take {q : Int × Nat} (h : readWebHeader blk n = some q) :
    readDataLen (blk.take n) = readDataLen blk := by
  have hb : ∀ i, i < n → byteAt (blk.take n) i = byteAt blk i := by
    intro i hi
    simp [byteAt, List.getD_eq_getElem?_getD, List.getElem?_take_of_lt hi]
  have hsize : readHeadSize blk ≤ n := by
    rw [readWebHeader_eq] at h
    split at h
    · cases h
    · split at h
      · cases h
      · omega
  have htwo := readHeadSize_ge blk
  rw [readDataLen, readDataLen, hb 1 (by omega)]
  rw [readHeadSize] at hsize
  split
  · rename_i h126
    rw [if_pos h126] at hsize
    rw [hb 2 (by omega), hb 3 (by omega)]
  · rename_i h126
    rw [if_neg h126] at hsize
    split
    · rename_i h127
      rw [if_pos h127] at hsize
      rw [hb 2 (by omega), hb 3 (by omega), hb 4 (by omega), hb 5 (by omega)]
    · rfl

/-- What a pass over the received bytes does: it stops, or meets a negative
size, or takes off what the header announces. -/
theorem webPass_cases (h : Sees long s v) :
    (∃ out, webPass long s = .exit s out ∧ webFraming.split? v = none) ∨
    (∃ pkgSize headSize, readWebHeader v v.length = some (pkgSize, headSize) ∧ pkgSize < 0 ∧
      webPass long s = .fault) ∨
    (∃ (n headSize : Nat) (data : Bytes) (out : List Call),
      readWebHeader v v.length = some ((n : Int), headSize) ∧ n ≤ v.length ∧
      (data = [] ∨ headSize + data.length ≤ n) ∧
      webPass long s = .again ((s.write long headSize data).discard long n) out) := by
  have hrec := h.received
  by_cases hr : s.received = 0
  · left
    refine ⟨[], by rw [webPass, if_pos hr], ?_⟩
    have hnil : v = [] := List.eq_nil_of_length_eq_zero (by omega)
    rw [Framing.split?_eq_none]
    intro n hn
    obtain ⟨hpos, -⟩ := frameSize?_eq_some.mp hn
    rw [hnil]
    exact hpos
  · obtain ⟨blk, hb, hfits, hv⟩ := h.block (by omega)
    have hin : ¬ blk.length < s.received := by omega
    have hread : readWebHeader blk s.received = readWebHeader v v.length := by
      rw [readWebHeader_take (by omega) hfits, hv]
    -- a frame to cut off needs an accepted header
    have hsplit : (∀ n headSize : Nat, readWebHeader v v.length = some ((n : Int), headSize) →
        v.length < n) → webFraming.split? v = none := by
      intro hlong
      rw [Framing.split?_eq_none]
      intro n hn
      obtain ⟨-, headSize, hn⟩ := frameSize?_eq_some.mp hn
      exact hlong n headSize hn
    by_cases hclose : byteAt blk 0 = 0x88
    · left
      refine ⟨[.close], ?_, hsplit fun n headSize hn => ?_⟩
      · rw [webPass, if_neg hr, hb]
        simp only [if_neg hin, if_pos hclose]
      · rw [← hread] at hn
        have hop := readWebHeader_opcode hn
        omega
    · cases hhead : readWebHeader v v.length with
      | none =>
        left
        refine ⟨[], ?_, hsplit fun n headSize hn => ?_⟩
        · rw [webPass, if_neg hr, hb]
          simp only [if_neg hin, if_neg hclose, hread, hhead]
        · rw [hhead] at hn
          cases hn
      | some q =>
        obtain ⟨pkgSize, headSize⟩ := q
        by_cases hlt : (s.received : Int) < pkgSize
        · left
          refine ⟨[], ?_, hsplit fun n k hn => ?_⟩
          · rw [webPass, if_neg hr, hb]
            simp only [if_neg hin, if_neg hclose, hread, hhead, if_pos hlt]
          · rw [hhead, Option.some.injEq, Prod.mk.injEq] at hn
            omega
        · by_cases hneg : pkgSize < 0
          · right; left
            refine ⟨pkgSize, headSize, rfl, hneg, ?_⟩
            rw [webPass, if_neg hr, hb]
            simp only [if_neg hin, if_neg hclose, hread, hhead, if_neg hlt, if_pos hneg]
          · right; right
            obtain ⟨n, rfl⟩ : ∃ n : Nat, pkgSize = n := ⟨pkgSize.toNat, by omega⟩
            have hlen : ((n : Int) - headSize).toNat = n - headSize := by omega
            refine ⟨n, headSize, unmasked blk n headSize, [.recCommand (unmasked blk n headSize)
              ((n : Int) - headSize)], rfl, by omega, unmasked_inside _ _ _, ?_⟩
            rw [webPass, if_neg hr, hb]
            simp only [if_neg hin, if_neg hclose, hread, hhead, if_neg hlt, if_neg hneg,
              Int.toNat_natCast, hlen]
            rfl

/-- An accepted header covers itself when its sum fits. -/
theorem HeaderFits.covers {pkgSize : Int} {headSize : Nat} (h : HeaderFits v)
    (hread : readWebHeader v v.length = some (pkgSize, headSize)) :
    6 ≤ headSize ∧ (headSize : Int) ≤ pkgSize := by
  have hsum := (headerFits_iff hread).mp h
  have hsix := (readWebHeader_sizes hread).2
  exact ⟨hsix, by omega⟩

/-- Nothing past the received bytes changes. -/
theorem drop_write_discard (hb : s.buffer long = some blk) (hr : s.received ≤ blk.length)
    (hn : n ≤ s.received) {off : Nat} {data blk' : Bytes}
    (hin : data = [] ∨ off + data.length ≤ n)
    (hb' : ((s.write long off data).discard long n).buffer long = some blk') :
    blk'.drop s.received = blk.drop s.received := by
  have hw : (s.write long off data).buffer long = some (overwrite blk off data) := by
    rw [buffer_write, hb, Option.map_some]
  have hover : (overwrite blk off data).drop s.received = blk.drop s.received := by
    rcases hin with rfl | hin
    · simp [overwrite]
    · exact drop_overwrite (by omega) (by omega)
  rcases buffer_discard (n := n) hw with hd | ⟨-, hd⟩
  · rw [hb', Option.some.injEq] at hd
    rw [hd, SessionUv.write_received, drop_movedDown (by rwa [length_overwrite]) hn, hover]
  · rw [hb'] at hd
    cases hd

theorem webPass_safe (h : Sees long s v) (hfits : HeaderFits v) : WebPassSafe long s := by
  have hrec := h.received
  refine ⟨fun blk pkgSize headSize hpos hb hread => ?_, fun t out hpass => ?_, fun hpass => ?_,
    fun blk t blk' out hb hpass hb' => ?_⟩
  · obtain ⟨blk', hb', hle, hv⟩ := h.block hpos
    rw [hb, Option.some.injEq] at hb'
    rw [← hb'] at hle hv
    have hlen : readDataLen v = readDataLen blk := by rw [← hv, readDataLen_take hread]
    rw [readWebHeader_take hpos hle, hv] at hread
    exact ⟨by rw [(headerFits_iff hread).mp hfits, hlen], (hfits.covers hread).2⟩
  · rcases webPass_cases h with ⟨out', hexit, -⟩ | ⟨p, k, -, -, hfault⟩ |
      ⟨n, k, data, out', hread, hle, -, hagain⟩
    · rw [hexit] at hpass
      cases hpass
    · rw [hfault] at hpass
      cases hpass
    · rw [hagain] at hpass
      cases hpass
      have hcov := hfits.covers hread
      refine ⟨n, by omega, by omega, ?_⟩
      rw [SessionUv.discard_received, SessionUv.write_received]
  · rcases webPass_cases h with ⟨out', hexit, -⟩ | ⟨p, k, hread, hneg, -⟩ |
      ⟨n, k, data, out', hread, hle, -, hagain⟩
    · rw [hexit] at hpass
      cases hpass
    · have hcov := hfits.covers hread
      omega
    · rw [hagain] at hpass
      cases hpass
  · rcases webPass_cases h with ⟨out', hexit, -⟩ | ⟨p, k, -, -, hfault⟩ |
      ⟨n, k, data, out', hread, hle, hin, hagain⟩
    · rw [hexit] at hpass
      cases hpass
    · rw [hfault] at hpass
      cases hpass
    · rw [hagain] at hpass
      cases hpass
      by_cases hpos : 0 < s.received
      · obtain ⟨blk₁, hb₁, hr, -⟩ := h.block hpos
        rw [hb, Option.some.injEq] at hb₁
        rw [← hb₁] at hr
        exact drop_write_discard hb hr (by omega) hin hb'
      · have hcov := hfits.covers hread
        omega

/-- A header met where the loop stands decides whether its sum fits. -/
theorem headerFits_of_safe (h : Sees long s v) (hs : WebPassSafe long s) : HeaderFits v := by
  intro pkgSize headSize hread
  have hrec := h.received
  have hpos : 0 < s.received := by
    by_contra hz
    have hnil : v = [] := List.eq_nil_of_length_eq_zero (by omega)
    rw [hnil] at hread
    simp [readWebHeader] at hread
  obtain ⟨blk, hb, hle, hv⟩ := h.block hpos
  have hread' : readWebHeader blk s.received = some (pkgSize, headSize) := by
    rw [readWebHeader_take hpos hle, hv, hread]
  have hsum := (hs.sizes blk pkgSize headSize hpos hb hread').1
  rw [← readDataLen_take hread', hv] at hsum
  exact (headerFits_iff hread).mpr hsum pkgSize headSize hread

theorem web_safe (h : Sees long s v) :
    Throughout (webPass long) (WebPassSafe long) s ↔
      ∀ w, webFraming.Front v w → HeaderFits w := by
  -- along the frames that are cut off
  induction v using webFraming.drain_induction generalizing s with
  | none v hd =>
    simp only [webFraming.front_of_none hd, forall_eq]
    refine ⟨fun hs => headerFits_of_safe h (hs s .start), fun hfits => ?_⟩
    have hsafe := webPass_safe h hfits
    rw [throughout_of_no_again]
    · exact hsafe
    · intro t out hpass
      obtain ⟨n, hn, hle, -⟩ := hsafe.lowers t out hpass
      rcases webPass_cases h with ⟨out', hexit, -⟩ | ⟨p, k, -, -, hfault⟩ |
        ⟨n, k, data, out', hread, hle, -, -⟩
      · rw [hexit] at hpass
        cases hpass
      · rw [hfault] at hpass
        cases hpass
      · have hcov := hfits.covers hread
        have hlt := (Framing.split?_eq_none _).mp hd n
          (frameSize?_eq_some.mpr ⟨by omega, k, hread⟩)
        omega
  | some v f r hs ih =>
    obtain ⟨hsize, hv, hpos⟩ := webFraming.split?_some hs
    obtain ⟨-, headSize, hhead⟩ := frameSize?_eq_some.mp hsize
    simp only [webFraming.front_of_some hs, forall_eq_or_imp]
    rcases webPass_cases h with ⟨out, -, hnone⟩ | ⟨p, k, hread, hneg, -⟩ |
      ⟨n, k, data, out, hread, hle, hin, hagain⟩
    · rw [hs] at hnone
      cases hnone
    · rw [hhead, Option.some.injEq, Prod.mk.injEq] at hread
      omega
    · have hn : f.length = n := by
        rw [hhead, Option.some.injEq, Prod.mk.injEq] at hread
        omega
      subst hn
      have hsees := h.write_discard hle hin
      rw [hv, List.drop_left] at hsees
      rw [throughout_again hagain, ih hsees]
      exact and_congr_left fun _ => ⟨headerFits_of_safe h, webPass_safe h⟩

/-- **Web frame arithmetic is safe** as long as no announced length comes
near the range of an `int`. -/
theorem web_loop (s : SessionUv) (blk : Bytes) (hb : s.buffer (s.longPkgSize ≠ 0) = some blk)
    (hr : s.received ≤ blk.length) :
    (Throughout (webPass (s.longPkgSize ≠ 0)) (WebPassSafe (s.longPkgSize ≠ 0)) s ∧
      Ends (webPass (s.longPkgSize ≠ 0)) s) ↔
      ∀ w, webFraming.Front (blk.take s.received) w → HeaderFits w := by
  rw [← web_safe (sees_take hb hr)]
  refine ⟨fun h => h.1, fun h => ⟨h, ends_of_lowers (m := SessionUv.received) ?_ ?_⟩⟩
  · exact fun t ht => (h t ht).no_fault
  · exact fun t ht => (h t ht).lowers

/-- A masked frame without payload. -/
theorem web_loop_empty :
    Throughout (webPass false) (WebPassSafe false) (.holding .WEB_SOCKET [0x82, 0x80, 1, 2, 3, 4]) ∧
      Ends (webPass false) (.holding .WEB_SOCKET [0x82, 0x80, 1, 2, 3, 4]) := by
  have hview : (SessionUv.holding .WEB_SOCKET [0x82, 0x80, 1, 2, 3, 4]).view = _ :=
    view_holding (by decide)
  refine (web_loop (.holding .WEB_SOCKET [0x82, 0x80, 1, 2, 3, 4]) _ rfl
    (fits_holding (by decide))).mpr fun w hw => ?_
  rw [show ((SessionUv.holding .WEB_SOCKET [0x82, 0x80, 1, 2, 3, 4]).recvBuf.take _) = _ from hview,
    webFraming.front_of_some (f := [0x82, 0x80, 1, 2, 3, 4]) (r := []) (by decide),
    webFraming.front_of_none (by decide)] at hw
  rcases hw with rfl | rfl
  · have hheader : readWebHeader [0x82, 0x80, 1, 2, 3, 4] 6 = some (6, 6) := by decide
    exact (headerFits_iff hheader).mpr (by decide)
  · intro p k hread
    simp [readWebHeader] at hread

/-- A length of `2 ^ 31` makes the size negative. -/
theorem web_loop_negative :
    ¬ (Throughout (webPass false) (WebPassSafe false)
        (.holding .WEB_SOCKET [0x82, 0xff, 0x80, 0, 0, 0, 0, 0, 0, 0]) ∧
      Ends (webPass false) (.holding .WEB_SOCKET [0x82, 0xff, 0x80, 0, 0, 0, 0, 0, 0, 0])) := by
  rintro ⟨hsafe, -⟩
  have hsees := sees_take
    (SessionUv.holding .WEB_SOCKET [0x82, 0xff, 0x80, 0, 0, 0, 0, 0, 0, 0]).buffer_isSome
    (fits_holding (by decide))
  rw [show (SessionUv.holding .WEB_SOCKET _).pkgData.take _ = _ from view_holding (by decide)]
    at hsees
  have hfits := headerFits_of_safe hsees (hsafe _ .start) (-(2 ^ 31) + 14) 14 (by decide)
  exact absurd hfits (by decide)

end LibuvServer.Netbus
