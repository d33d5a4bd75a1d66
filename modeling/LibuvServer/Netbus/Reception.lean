import LibuvServer.Netbus.NetBus
import Mathlib.Tactic.Common

/-!
# What both parsers keep

TCP and WebSocket reception differ in how a header is read and in what is
done with a frame; the handling of the two blocks is the same. This module
states it once, over the framing that reads the headers.

`Stored` ties `received`, `longPkg` and `longPkgSize` to the bytes not yet
handed on, and `Ready` adds that no complete frame is among them. A read
takes `Ready` to `Stored` (`uvTcpBuffmem_ready`, `Offered.store`), a parser
takes `Stored` back to `Ready` and hands on exactly the frames that
`Framing.drain` finds (`iterate_drain`).
-/

namespace LibuvServer.Netbus

open LibuvServer.Lib

variable {F : Framing UInt8} {s s' : SessionUv} {long : Bool} {n : Nat}

/-- The received bytes are in the block in use. A large block holds the
front of one frame, as long as the block, that does not fit `recvBuf`. -/
structure Stored (F : Framing UInt8) (s : SessionUv) : Prop where
  fits : s.received ≤ s.pkgData.length
  short : s.longPkg = none → s.longPkgSize = 0
  size : ∀ blk, s.longPkg = some blk → blk.length = s.longPkgSize
  large : ∀ blk, s.longPkg = some blk → RECVBUF < s.longPkgSize
  frame : ∀ blk, s.longPkg = some blk → F.size? s.view = some s.longPkgSize
  filled : ∀ blk, s.longPkg = some blk → RECVBUF ≤ s.received

/-- `Stored`, with every complete frame handed on. -/
structure Ready (F : Framing UInt8) (s : SessionUv) : Prop extends Stored F s where
  drained : F.split? s.view = none

/-- Without a large block only the fixed buffer matters. -/
theorem Stored.of_none (hl : s.longPkg = none) (hz : s.longPkgSize = 0)
    (hr : s.received ≤ RECVBUF) : Stored F s where
  fits := by
    rw [SessionUv.pkgData, hl, Option.getD_none, s.recvBuf_size]
    exact hr
  short := fun _ => hz
  size := fun _ h => by rw [hl] at h; cases h
  large := fun _ h => by rw [hl] at h; cases h
  frame := fun _ h => by rw [hl] at h; cases h
  filled := fun _ h => by rw [hl] at h; cases h

theorem ready_create (F : Framing UInt8) (t : SocketType) : Ready F (SessionUv.create t) where
  toStored := .of_none rfl rfl (Nat.zero_le _)
  drained := by
    rw [SessionUv.create_view, Framing.split?_eq_none]
    exact fun n hn => F.pos hn

theorem SessionUv.pkgData_of_none (h : s.longPkg = none) : s.pkgData = s.recvBuf := by
  simp [SessionUv.pkgData, h]

theorem SessionUv.pkgData_of_some {blk : Bytes} (h : s.longPkg = some blk) :
    s.pkgData = blk := by
  simp [SessionUv.pkgData, h]

theorem Stored.view_length (h : Stored F s) : s.view.length = s.received := by
  rw [SessionUv.view, List.length_take]
  exact Nat.min_eq_left h.fits

theorem Stored.received_le (h : Stored F s) (hl : s.longPkg = none) :
    s.received ≤ RECVBUF := by
  have := h.fits
  rwa [SessionUv.pkgData_of_none hl, s.recvBuf_size] at this

theorem Stored.received_le_long (h : Stored F s) {blk : Bytes} (hl : s.longPkg = some blk) :
    s.received ≤ s.longPkgSize := by
  have := h.fits
  rwa [SessionUv.pkgData_of_some hl, h.size blk hl] at this

/-- Both parsers choose the block in use. -/
theorem SessionUv.buffer_isSome (s : SessionUv) :
    s.buffer s.longPkg.isSome = some s.pkgData := by
  cases hl : s.longPkg with
  | none => simp [SessionUv.buffer, SessionUv.pkgData, hl]
  | some blk => simp [SessionUv.buffer, SessionUv.pkgData, hl]

theorem Stored.longPkgSize_ne_zero (h : Stored F s) :
    decide (s.longPkgSize ≠ 0) = s.longPkg.isSome := by
  cases hl : s.longPkg with
  | none => simp [h.short hl]
  | some blk =>
    have := h.large blk hl
    have hne : s.longPkgSize ≠ 0 := by omega
    simp [hne]

/-- A byte of the buffer within what was received is a byte of the view. -/
theorem byteAt_view {i : Nat} (hi : i < s.received) :
    byteAt s.view i = byteAt s.pkgData i := by
  simp [byteAt, SessionUv.view, List.getD_eq_getElem?_getD, List.getElem?_take_of_lt hi]

theorem slice_pkgData_eq (h : n ≤ s.received) (k : Nat) :
    slice s.pkgData k (n - k) = (s.view.take n).drop k := by
  rw [SessionUv.view, List.take_take, Nat.min_eq_left h, drop_take_eq_slice]

/-- A session with nothing left over holds no large block. -/
theorem Ready.empty (h : Ready F s) (hv : s.view = []) :
    s.received = 0 ∧ s.longPkg = none := by
  have hr : s.received = 0 := by rw [← h.view_length, hv]; rfl
  refine ⟨hr, ?_⟩
  cases hl : s.longPkg with
  | none => rfl
  | some blk =>
    have := h.filled blk hl
    rw [hr] at this
    exact absurd this (by decide)

/-! ## Taking a frame off the block -/

theorem buffer_eq_pkgData (h : s.buffer long = some s.pkgData) :
    (long = true ∧ s.longPkg = some s.pkgData) ∨ (long = false ∧ s.pkgData = s.recvBuf) := by
  cases long with
  | true => exact .inl ⟨rfl, by simpa [SessionUv.buffer] using h⟩
  | false =>
    refine .inr ⟨rfl, ?_⟩
    simpa [SessionUv.buffer, eq_comm] using h

/-- `s'` is `s` with the first `n` bytes taken off the block in use. -/
structure Taken (F : Framing UInt8) (long : Bool) (s : SessionUv) (n : Nat) (s' : SessionUv) :
    Prop where
  stored : Stored F s'
  view : s'.view = s.view.drop n
  received : s'.received = s.received - n
  buffer : s'.received = 0 ∨ s'.buffer long = some s'.pkgData
  socketType : s'.socketType = s.socketType
  wsShake : s'.wsShake = s.wsShake

theorem SessionUv.write_nil (s : SessionUv) (long : Bool) (off : Nat) :
    s.write long off [] = s := by
  have hid : ∀ block : Bytes, overwrite block off [] = block := by
    intro block
    simp [overwrite]
  obtain ⟨recvBuf, received, socketType, longPkg, longPkgSize, wsShake, hsize⟩ := s
  cases long <;> simp [SessionUv.write, hid]

theorem SessionUv.releaseLong_of_none (h : s.longPkg = none) : s.releaseLong = s := by
  simp [SessionUv.releaseLong, h]

/-- A large block is gone with its one frame, whatever was written to it. -/
theorem Stored.discard_long (h : Stored F s) (long : Bool) {blk : Bytes} (hl : s.longPkg = some blk)
    (hn : F.size? s.view = some n) (hle : n ≤ s.received) (off : Nat) (data : Bytes) :
    Taken F long s n ((s.write long off data).discard long n) := by
  -- the block is as long as its frame, so the frame was all of it
  have hsize : some s.longPkgSize = some n := by rw [← h.frame blk hl, hn]
  cases hsize
  have hall : s.received = s.longPkgSize := Nat.le_antisymm (h.received_le_long hl) hle
  have hmove : (s.write long off data).moveDown long s.longPkgSize = s.write long off data := by
    rw [SessionUv.moveDown, if_neg (by rw [SessionUv.write_received]; omega)]
  have hsome : (s.write long off data).longPkg.isSome = true := by
    cases long <;> simp [SessionUv.write, hl]
  have hd : (s.write long off data).discard long s.longPkgSize =
      { s.write long off data with received := 0, longPkg := none, longPkgSize := 0 } := by
    simp [SessionUv.discard, hmove, SessionUv.releaseLong, hsome, hall]
  have hview : s.view.drop s.longPkgSize = [] :=
    List.drop_eq_nil_of_le (Nat.le_of_eq (h.view_length.trans hall))
  refine ⟨?_, ?_, ?_, .inl ?_, ?_, ?_⟩
  · rw [hd]
    exact .of_none rfl rfl (Nat.zero_le _)
  · rw [hview, hd, SessionUv.view, List.take_zero]
  · rw [SessionUv.discard_received, SessionUv.write_received]
  · rw [hd]
  · rw [SessionUv.discard_socketType, SessionUv.write_socketType]
  · rw [SessionUv.discard_wsShake, SessionUv.write_wsShake]

/-- What came after the frame moves to the front of the fixed buffer. -/
theorem Stored.discard_short (h : Stored F s) (hl : s.longPkg = none)
    (hle : n ≤ s.received) : Taken F false s n (s.discard false n) := by
  have hfits := h.fits
  have hdata : s.pkgData = s.recvBuf := SessionUv.pkgData_of_none hl
  have hmove : (s.moveDown false n).longPkg = none := by
    unfold SessionUv.moveDown
    split
    · simpa [SessionUv.write] using hl
    · exact hl
  have hsz : (s.moveDown false n).longPkgSize = 0 := by
    unfold SessionUv.moveDown
    split
    · rw [SessionUv.write_longPkgSize, h.short hl]
    · exact h.short hl
  have hd : s.discard false n = { s.moveDown false n with received := s.received - n } :=
    SessionUv.releaseLong_of_none hmove
  have hnone : (s.discard false n).longPkg = none := by rw [hd]; exact hmove
  have hrec : (s.discard false n).received ≤ RECVBUF := by
    have := h.received_le hl
    rw [SessionUv.discard_received]
    omega
  refine ⟨.of_none hnone (by rw [hd]; exact hsz) hrec, ?_, s.discard_received false n, .inr ?_,
    s.discard_socketType false n, s.discard_wsShake false n⟩
  · rw [SessionUv.view, SessionUv.pkgData_of_none hnone, SessionUv.discard_received, hd,
      SessionUv.view, hdata]
    simp only [SessionUv.moveDown]
    rw [hdata] at hfits
    split
    · rw [List.drop_take]
      exact take_overwrite_zero (by simp; omega) (by simp [SessionUv.buffer, slice]; omega)
    · have hz : s.received - n = 0 := by omega
      rw [hz, List.take_zero, List.drop_eq_nil_of_le]
      rw [List.length_take]
      omega
  · rw [SessionUv.pkgData_of_none hnone]
    rfl

/-- **One frame is taken off**, after bytes inside it were rewritten in place. -/
theorem Stored.discard (h : Stored F s) (hb : s.buffer long = some s.pkgData)
    (hn : F.size? s.view = some n) (hle : n ≤ s.received) (off : Nat) (data : Bytes)
    (hin : data = [] ∨ off + data.length ≤ n) :
    Taken F long s n ((s.write long off data).discard long n) := by
  cases hl : s.longPkg with
  | some blk => exact h.discard_long long hl hn hle off data
  | none =>
    have hlong : long = false := by
      rcases buffer_eq_pkgData hb with ⟨-, h'⟩ | ⟨h', -⟩
      · rw [hl] at h'
        cases h'
      · exact h'
    subst hlong
    rcases hin with rfl | hin
    · rw [SessionUv.write_nil]
      exact h.discard_short hl hle
    · -- the rewritten bytes all leave with the frame
      have hdata : s.pkgData = s.recvBuf := SessionUv.pkgData_of_none hl
      have hnone : (s.write false off data).longPkg = none := by
        simpa [SessionUv.write] using hl
      have hbuf : (s.write false off data).recvBuf = overwrite s.recvBuf off data := rfl
      have hstored : Stored F (s.write false off data) :=
        .of_none hnone (by rw [SessionUv.write_longPkgSize, h.short hl])
          (by rw [SessionUv.write_received]; exact h.received_le hl)
      have ht := hstored.discard_short (n := n) hnone (by rwa [SessionUv.write_received])
      have hfits := h.fits
      rw [hdata] at hfits
      refine ⟨ht.stored, ?_, ?_, ht.buffer, ?_, ?_⟩
      · rw [ht.view, SessionUv.view, SessionUv.pkgData_of_none hnone, hbuf,
          SessionUv.write_received, List.drop_take, drop_overwrite (by omega) hin,
          SessionUv.view, hdata, List.drop_take]
      · rw [ht.received, SessionUv.write_received]
      · rw [ht.socketType, SessionUv.write_socketType]
      · rw [ht.wsShake, SessionUv.write_wsShake]

/-! ## The loop -/

/-- **A parser hands on exactly the frames that have arrived.** `emit` is
what it calls for one frame, `good` what it asks of the frames, `halt` what
it calls where it stops. -/
theorem iterate_drain {pass : SessionUv → Pass SessionUv Call} {emit : Bytes → List Call}
    (good : Bytes → Prop) {halt : List Call} {rest : Bytes}
    (hagain : ∀ t m, Stored F t → t.buffer long = some t.pkgData → F.size? t.view = some m →
      m ≤ t.received → good (t.view.take m) →
      ∃ t', pass t = .again t' (emit (t.view.take m)) ∧ Taken F long t m t')
    (hexit : ∀ t, Stored F t → (t.received = 0 ∨ t.buffer long = some t.pkgData) →
      t.view = rest → pass t = .exit t halt)
    (h : Stored F s) (hb : s.received = 0 ∨ s.buffer long = some s.pkgData)
    (hgood : ∀ f ∈ (F.drain s.view).1, good f)
    (hrest : (F.drain s.view).2 = rest) {fuel : Nat} (hfuel : s.received < fuel) :
    ∃ s', iterate pass fuel s = .ended s' ((F.drain s.view).1.flatMap emit ++ halt) ∧
      Stored F s' ∧ s'.view = rest ∧ s'.socketType = s.socketType ∧
      s'.wsShake = s.wsShake := by
  induction fuel generalizing s with
  | zero => omega
  | succ fuel ih =>
    cases hs : F.split? s.view with
    | none =>
      rw [F.drain_of_none hs] at hrest
      refine ⟨s, ?_, h, hrest, rfl, rfl⟩
      rw [iterate_exit (hexit s h hb hrest), F.drain_of_none hs]
      rfl
    | some p =>
      obtain ⟨f, r⟩ := p
      obtain ⟨hsize, hview, hpos⟩ := F.split?_some hs
      have hle : f.length ≤ s.received := by
        rw [← h.view_length, hview, List.length_append]
        omega
      have htake : s.view.take f.length = f := by rw [hview, List.take_left]
      have hdrop : s.view.drop f.length = r := by rw [hview, List.drop_left]
      rw [F.drain_of_some hs] at hrest hgood
      obtain ⟨t, hpass, ht⟩ := hagain s f.length h (hb.resolve_left (by omega)) hsize hle
        (by rw [htake]; exact hgood f (by simp))
      have hview' : t.view = r := by rw [ht.view, hdrop]
      obtain ⟨s', hrun, hs', hv', ht', hw'⟩ :=
        ih ht.stored ht.buffer (by rw [hview']; exact fun g hg => hgood g (by simp [hg]))
          (by rw [hview']; exact hrest) (by rw [ht.received]; omega)
      refine ⟨s', ?_, hs', hv', by rw [ht', ht.socketType], by rw [hw', ht.wsShake]⟩
      rw [iterate_again hpass, hrun, hview', htake, F.drain_of_some hs, Outcome.after_ended]
      simp

/-! ## Offering a buffer and filling it -/

/-- The buffer offered lies inside the block that holds the received bytes
and continues them. -/
structure Offered (F : Framing UInt8) (s : SessionUv) (buf : UvBuf) : Prop where
  stored : Stored F s
  offset : buf.offset = s.received
  pos : 0 < buf.len
  inside : buf.offset + buf.len = s.pkgData.length
  ref : buf.ref = .longPkg ↔ s.longPkg.isSome

theorem uvTcpBuffmem_keeps {buf : UvBuf} (h : uvTcpBuffmem s = some (s', buf)) :
    s'.recvBuf = s.recvBuf ∧ s'.received = s.received ∧ s'.socketType = s.socketType ∧
      s'.wsShake = s.wsShake := by
  unfold uvTcpBuffmem at h
  split at h
  · cases h
    exact ⟨rfl, rfl, rfl, rfl⟩
  · split at h
    · cases h
      exact ⟨rfl, rfl, rfl, rfl⟩
    · split at h
      · cases h
      · cases h
        exact ⟨rfl, rfl, rfl, rfl⟩

/-- While `recvBuf` is not full, the rest of it is offered. -/
theorem uvTcpBuffmem_recvBuf (h : Stored F s) (hl : s.longPkg = none)
    (hr : s.received < RECVBUF) :
    uvTcpBuffmem s = some (s, ⟨.recvBuf, s.received, RECVBUF - s.received⟩) ∧
      Offered F s ⟨.recvBuf, s.received, RECVBUF - s.received⟩ := by
  refine ⟨by rw [uvTcpBuffmem, if_pos hr], h, rfl, ?_, ?_, ?_⟩
  · simp only
    omega
  · rw [SessionUv.pkgData_of_none hl, s.recvBuf_size]
    simp only
    omega
  · simp [hl]

/-- The rest of a large frame goes where its beginning went. -/
theorem uvTcpBuffmem_long (h : Ready F s) (hr : ¬ s.received < RECVBUF) {blk : Bytes}
    (hl : s.longPkg = some blk) : ∃ buf, uvTcpBuffmem s = some (s, buf) ∧ Offered F s buf := by
  have hlt : s.received < s.longPkgSize := by
    rw [← h.view_length]
    exact (Framing.split?_eq_none F).mp h.drained _ (h.frame blk hl)
  rw [uvTcpBuffmem, if_neg hr, hl]
  refine ⟨_, rfl, ⟨h.toStored, rfl, ?_, ?_, ?_⟩⟩
  · simp only
    omega
  · rw [SessionUv.pkgData_of_some hl, h.size blk hl]
    simp only
    omega
  · simp [hl]

/-- A block is made for a frame that is larger than the full buffer. -/
theorem uvTcpBuffmem_grow (h : Ready F s) (hfull : s.received = RECVBUF)
    (hl : s.longPkg = none) {n : Nat} (hn : F.size? s.view = some n) (ha : announcedSize s = n) :
    ∃ s' buf, uvTcpBuffmem s = some (s', buf) ∧ Offered F s' buf ∧ s'.view = s.view ∧
      s'.received = s.received ∧ s'.socketType = s.socketType ∧ s'.wsShake = s.wsShake := by
  have hlt : s.received < n := by
    rw [← h.view_length]
    exact (Framing.split?_eq_none F).mp h.drained n hn
  have hsize : (announcedSize s).toNat = n := by omega
  have hlen : (s.recvBuf.take s.received ++ List.replicate (n - s.received) 0).length = n := by
    simp only [List.length_append, List.length_take, List.length_replicate, s.recvBuf_size]
    omega
  -- what was received is copied to the front of the block
  have hview : (s.recvBuf.take s.received ++
      List.replicate (n - s.received) (0 : UInt8)).take s.received = s.view := by
    have hk : (s.recvBuf.take s.received).length = s.received := by
      rw [List.length_take, s.recvBuf_size]
      omega
    rw [List.take_append_of_le_length (by omega), List.take_take, Nat.min_self,
      SessionUv.view, SessionUv.pkgData_of_none hl]
  rw [uvTcpBuffmem, if_neg (by omega), hl]
  simp only
  rw [if_neg (by omega), hsize]
  refine ⟨_, _, rfl, ⟨⟨?_, ?_, ?_, ?_, ?_, ?_⟩, rfl, ?_, ?_, ?_⟩, ?_, rfl, rfl, rfl⟩
  · rw [SessionUv.pkgData_of_some rfl, hlen]
    exact Nat.le_of_lt hlt
  · exact fun h' => by cases h'
  · exact fun blk h' => by cases h'; exact hlen
  · exact fun blk h' => by simp only; omega
  · rintro blk h'
    rw [SessionUv.view, SessionUv.pkgData_of_some rfl, hview]
    exact hn
  · exact fun blk h' => by simp only; omega
  · simp only
    omega
  · rw [SessionUv.pkgData_of_some rfl, hlen]
    simp only
    omega
  · simp
  · rw [SessionUv.view, SessionUv.pkgData_of_some rfl, hview]

/-- **A buffer can be offered.** It does not matter whether the frame at the
front fits `recvBuf`, as long as its announced size is known when `recvBuf`
is full. -/
theorem uvTcpBuffmem_ready (h : Ready F s)
    (hgrow : s.received = RECVBUF → s.longPkg = none →
      ∃ n, F.size? s.view = some n ∧ announcedSize s = n) :
    ∃ s' buf, uvTcpBuffmem s = some (s', buf) ∧ Offered F s' buf ∧ s'.view = s.view ∧
      s'.received = s.received ∧ s'.socketType = s.socketType ∧ s'.wsShake = s.wsShake := by
  by_cases hr : s.received < RECVBUF
  · have hl : s.longPkg = none := by
      cases hl : s.longPkg with
      | none => rfl
      | some blk => exact absurd (h.filled blk hl) (by omega)
    obtain ⟨hbuf, hoff⟩ := uvTcpBuffmem_recvBuf h.toStored hl hr
    exact ⟨s, _, hbuf, hoff, rfl, rfl, rfl, rfl⟩
  · cases hl : s.longPkg with
    | some blk =>
      obtain ⟨buf, hbuf, hoff⟩ := uvTcpBuffmem_long h hr hl
      exact ⟨s, buf, hbuf, hoff, rfl, rfl, rfl, rfl⟩
    | none =>
      have hle := h.received_le hl
      have hfull : s.received = RECVBUF := by omega
      obtain ⟨n, hn, ha⟩ := hgrow hfull hl
      exact uvTcpBuffmem_grow h hfull hl hn ha

/-- The session after `data` was read into the offered buffer. -/
def SessionUv.filled (s : SessionUv) (buf : UvBuf) (data : Bytes) : SessionUv :=
  { s.store buf data with received := (s.store buf data).received + data.length }

@[simp] theorem SessionUv.filled_received (s : SessionUv) (buf : UvBuf) (data : Bytes) :
    (s.filled buf data).received = s.received + data.length := by
  simp [SessionUv.filled, SessionUv.store]

@[simp] theorem SessionUv.filled_socketType (s : SessionUv) (buf : UvBuf) (data : Bytes) :
    (s.filled buf data).socketType = s.socketType := by
  simp [SessionUv.filled, SessionUv.store]

@[simp] theorem SessionUv.filled_wsShake (s : SessionUv) (buf : UvBuf) (data : Bytes) :
    (s.filled buf data).wsShake = s.wsShake := by
  simp [SessionUv.filled, SessionUv.store]

@[simp] theorem SessionUv.filled_longPkgSize (s : SessionUv) (buf : UvBuf) (data : Bytes) :
    (s.filled buf data).longPkgSize = s.longPkgSize := by
  simp [SessionUv.filled, SessionUv.store]

theorem uvReadData_store {lib : HttpLib} {buf : UvBuf} {data : Bytes} :
    uvReadData lib (s.store buf data) data.length = readData lib (s.filled buf data) := by
  rw [uvReadData, if_neg (by omega)]
  rfl

/-- **A read appends.** -/
theorem Offered.store {buf : UvBuf} (h : Offered F s buf) {data : Bytes}
    (hd : (data.length : Int) ≤ buf.len) :
    Stored F (s.filled buf data) ∧ (s.filled buf data).view = s.view ++ data ∧
      (s.filled buf data).longPkg.isSome = s.longPkg.isSome := by
  have hin := h.inside
  have hoff := h.offset
  have hst := h.stored
  have hroom : s.received + data.length ≤ s.pkgData.length := by omega
  have happ : (overwrite s.pkgData s.received data).take (s.received + data.length) =
      s.view ++ data := take_overwrite hroom
  cases hl : s.longPkg with
  | none =>
    have href : (decide (buf.ref = .longPkg)) = false := by
      simpa [hl] using h.ref
    have hdata : s.pkgData = s.recvBuf := SessionUv.pkgData_of_none hl
    have hlong : (s.filled buf data).longPkg = none := by
      simp [SessionUv.filled, SessionUv.store, SessionUv.write, href, hl]
    have hbuf : (s.filled buf data).recvBuf = overwrite s.pkgData s.received data := by
      simp [SessionUv.filled, SessionUv.store, SessionUv.write, href, hdata, hoff]
    have hview : (s.filled buf data).view = s.view ++ data := by
      rw [SessionUv.view, SessionUv.pkgData_of_none hlong, hbuf, SessionUv.filled_received]
      exact happ
    have hrec : (s.filled buf data).received ≤ RECVBUF := by
      rwa [SessionUv.filled_received, ← s.recvBuf_size, ← hdata]
    refine ⟨.of_none hlong (by rw [SessionUv.filled_longPkgSize, hst.short hl]) hrec, hview, ?_⟩
    · simp [hlong]
  | some blk =>
    have href : (decide (buf.ref = .longPkg)) = true := by
      simpa [hl] using h.ref
    have hdata : s.pkgData = blk := SessionUv.pkgData_of_some hl
    have hlong : (s.filled buf data).longPkg = some (overwrite blk s.received data) := by
      simp [SessionUv.filled, SessionUv.store, SessionUv.write, href, hl, hoff]
    have hsz := s.filled_longPkgSize buf data
    have hview : (s.filled buf data).view = s.view ++ data := by
      rw [SessionUv.view, SessionUv.pkgData_of_some hlong, ← hdata, SessionUv.filled_received]
      exact happ
    refine ⟨⟨?_, fun h' => ?_, fun _ h' => ?_, fun _ _ => ?_, fun _ _ => ?_, fun _ _ => ?_⟩,
      hview, ?_⟩
    · rw [SessionUv.pkgData_of_some hlong, length_overwrite, ← hdata, SessionUv.filled_received]
      exact hroom
    · rw [hlong] at h'; cases h'
    · rw [hlong] at h'
      cases h'
      rw [length_overwrite, hsz, hst.size blk hl]
    · rw [hsz]
      exact hst.large blk hl
    · rw [hview, hsz]
      exact F.stable data (hst.frame blk hl)
    · have := hst.filled blk hl
      rw [SessionUv.filled_received]
      omega
    · simp [hlong]

/-! ## Runs of reads -/

section Runs

variable {lib : HttpLib} {emit : Bytes → List Call} {good ok : Bytes → Prop}
  {kind : SessionUv → Prop}

/-- One read of a kind of session, as its parser does it. `good` is what the
parser asks of the frames, `ok` what it asks of the bytes left over. -/
def ReadsAs (F : Framing UInt8) (lib : HttpLib) (emit : Bytes → List Call)
    (good ok : Bytes → Prop) (kind : SessionUv → Prop) : Prop :=
  ∀ t data, Ready F t → kind t → (data.length : Int) ≤ offered t → ok t.view →
    (∀ f ∈ (F.drain (t.view ++ data)).1, good f) → ok (F.drain (t.view ++ data)).2 →
    ∃ t', deliver lib t data = .ended t' ((F.drain (t.view ++ data)).1.flatMap emit) ∧
      Ready F t' ∧ kind t' ∧ t'.view = (F.drain (t.view ++ data)).2

/-- **Reads of any sizes hand on what one read of everything would.** -/
theorem receive_drain (step : ReadsAs F lib emit good ok kind) {reads : List Bytes}
    (h : Ready F s) (hk : kind s) (hfit : Fits lib s reads)
    (hgood : ∀ f ∈ (F.drain (s.view ++ reads.flatten)).1, good f)
    (hok : ∀ pre, pre <+: reads → ok (F.drain (s.view ++ pre.flatten)).2) :
    ∃ s', receive lib s reads =
        .ended s' ((F.drain (s.view ++ reads.flatten)).1.flatMap emit) ∧
      Ready F s' ∧ kind s' ∧ s'.view = (F.drain (s.view ++ reads.flatten)).2 := by
  induction reads generalizing s with
  | nil =>
    refine ⟨s, ?_, h, hk, ?_⟩
    · simp [F.drain_of_none h.drained]
    · simp [F.drain_of_none h.drained]
  | cons data reads ih =>
    have happ : ∀ w : Bytes, F.drain (s.view ++ (data ++ w)) =
        ((F.drain (s.view ++ data)).1 ++ (F.drain ((F.drain (s.view ++ data)).2 ++ w)).1,
          (F.drain ((F.drain (s.view ++ data)).2 ++ w)).2) := by
      intro w
      rw [← List.append_assoc, F.drain_append]
    rw [List.flatten_cons, happ] at hgood
    have hnow : ok s.view := by
      simpa [F.drain_of_none h.drained] using hok [] (by simp)
    have hnext : ok (F.drain (s.view ++ data)).2 := by
      simpa using hok [data] (by simp)
    obtain ⟨s₁, hrun₁, h₁, hk₁, hv₁⟩ :=
      step s data h hk hfit.1 hnow (fun f hf => hgood f (by simp [hf])) hnext
    rw [← hv₁] at happ hgood
    obtain ⟨s₂, hrun₂, h₂, hk₂, hv₂⟩ := ih h₁ hk₁ (hfit.2 s₁ _ hrun₁)
      (fun f hf => hgood f (by simp [hf])) (by
        intro pre hpre
        have := hok (data :: pre) ((List.prefix_cons_inj data).mpr hpre)
        rwa [List.flatten_cons, happ] at this)
    refine ⟨s₂, ?_, h₂, hk₂, ?_⟩
    · rw [receive_cons, hrun₁, Outcome.ended_andThen, hrun₂, Outcome.after_ended, List.flatten_cons,
        happ, List.flatMap_append]
    · rw [hv₂, List.flatten_cons, happ]

/-- There is always room for one more byte, so any stream can be read byte
by byte. -/
theorem fits_bytes (step : ReadsAs F lib emit good ok kind)
    (room : ∀ t, Ready F t → kind t → ok t.view → 1 ≤ offered t)
    {stream : Bytes} (h : Ready F s) (hk : kind s)
    (hgood : ∀ f ∈ (F.drain (s.view ++ stream)).1, good f)
    (hok : ∀ pre, pre <+: stream → ok (F.drain (s.view ++ pre)).2) :
    Fits lib s (stream.map fun b => [b]) := by
  induction stream generalizing s with
  | nil => exact trivial
  | cons b stream ih =>
    have happ : ∀ w : Bytes, F.drain (s.view ++ b :: w) =
        ((F.drain (s.view ++ [b])).1 ++ (F.drain ((F.drain (s.view ++ [b])).2 ++ w)).1,
          (F.drain ((F.drain (s.view ++ [b])).2 ++ w)).2) := by
      intro w
      rw [show s.view ++ b :: w = (s.view ++ [b]) ++ w by simp, F.drain_append]
    rw [happ] at hgood
    have hnow : ok s.view := by
      simpa [F.drain_of_none h.drained] using hok [] (by simp)
    have hnext : ok (F.drain (s.view ++ [b])).2 := hok [b] (by simp)
    have hroom := room s h hk hnow
    obtain ⟨s₁, hrun₁, h₁, hk₁, hv₁⟩ :=
      step s [b] h hk hroom hnow (fun f hf => hgood f (by simp [hf])) hnext
    rw [← hv₁] at happ hgood
    refine ⟨hroom, fun s' out hrun => ?_⟩
    rw [hrun₁] at hrun
    cases hrun
    refine ih h₁ hk₁ (fun f hf => hgood f (by simp [hf])) (fun pre hpre => ?_)
    have := hok (b :: pre) ((List.prefix_cons_inj b).mpr hpre)
    rwa [happ] at this

end Runs

end LibuvServer.Netbus
