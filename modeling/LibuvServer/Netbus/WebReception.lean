import LibuvServer.Netbus.Reception
import Mathlib.Tactic.Common

/-!
# Reception on a web session

What one pass of `webDataParser` does on any bytes, and the handshake before
it: until the request is complete everything is collected in `recvBuf`, and
after it the session is empty.
-/

namespace LibuvServer.Netbus

open LibuvServer.Lib WebProtocol

variable {s : SessionUv} {long : Bool} {n headSize : Nat}

theorem Stored.readWebHeader_view {F : Framing UInt8} (h : Stored F s) (hr : 0 < s.received) :
    readWebHeader s.pkgData s.received = readWebHeader s.view s.view.length :=
  readWebHeader_take hr h.fits

/-- The payload a pass unmasks in place. -/
def unmasked (pkgData : Bytes) (n headSize : Nat) : Bytes :=
  parserRecvData (slice pkgData headSize (n - headSize)) (slice pkgData (headSize - 4) 4)

/-- What a pass stores stays inside the frame. -/
theorem unmasked_inside (pkgData : Bytes) (n headSize : Nat) :
    unmasked pkgData n headSize = [] ∨ headSize + (unmasked pkgData n headSize).length ≤ n := by
  by_cases hle : headSize ≤ n
  · right
    rw [unmasked, length_parserRecvData, slice, List.length_take]
    omega
  · left
    have hz : n - headSize = 0 := by omega
    simp [unmasked, slice, hz, parserRecvData]

/-- Storing what is there already changes nothing. -/
theorem SessionUv.write_eq_self {blk data : Bytes} {off : Nat} (hb : s.buffer long = some blk)
    (hid : overwrite blk off data = blk) : s.write long off data = s := by
  obtain ⟨recvBuf, received, socketType, longPkg, longPkgSize, wsShake, hsize⟩ := s
  cases long with
  | true =>
    have hl : longPkg = some blk := hb
    subst hl
    simp [SessionUv.write, hid]
  | false =>
    have hr : recvBuf = blk := Option.some.inj hb
    subst hr
    simp [SessionUv.write, hid]

/-- Taking nothing off leaves everything where it is. -/
theorem discard_zero {F : Framing UInt8} (h : Stored F s) (hb : s.buffer long = some s.pkgData)
    (hr : 0 < s.received) : s.discard long 0 = s := by
  have hfits := h.fits
  have hid : overwrite s.pkgData 0 (slice s.pkgData 0 s.received) = s.pkgData := by
    have hlen : (s.pkgData.take s.received).length = s.received := by
      rw [List.length_take]
      exact Nat.min_eq_left hfits
    rw [slice, List.drop_zero, overwrite_eq (by rw [hlen]; omega), hlen]
    simp
  have hmove : s.moveDown long 0 = s := by
    rw [SessionUv.moveDown, if_pos hr, hb, Option.getD_some, Nat.sub_zero]
    exact SessionUv.write_eq_self hb hid
  rw [SessionUv.discard, hmove, SessionUv.releaseLong, if_neg]
  · rfl
  · intro hz
    have hzero : s.received - 0 = 0 := hz.1
    omega

/-- **A pass over an accepted header.** The frame is unmasked in place and
handed on; everything after it is kept. -/
theorem webPass_header (h : Stored webFraming s) (hb : s.buffer long = some s.pkgData)
    (hr : readWebHeader s.view s.view.length = some ((n : Int), headSize)) (hpos : 0 < n)
    (hle : n ≤ s.received) :
    ∃ s', webPass long s = .again s'
        [.recCommand (unmasked s.pkgData n headSize) ((n : Int) - headSize)] ∧
      Taken webFraming long s n s' := by
  have hsize : webFraming.size? s.view = some n := frameSize?_eq_some.mpr ⟨hpos, headSize, hr⟩
  refine ⟨_, ?_, h.discard hb hsize hle headSize (unmasked s.pkgData n headSize)
    (unmasked_inside _ _ _)⟩
  have hfits := h.fits
  have hop := readWebHeader_opcode hr
  rw [byteAt_view (by omega)] at hop
  rw [← h.readWebHeader_view (by omega)] at hr
  have hlen : ((n : Int) - headSize).toNat = n - headSize := by omega
  simp only [webPass, hb, hr, Int.toNat_natCast, hlen]
  rw [if_neg (by omega), if_neg (by omega), if_neg (by omega), if_neg (by omega),
    if_neg (by omega)]
  rfl

/-- What `webDataParser` calls where it stops: a close frame closes. -/
def webHalt (v : Bytes) : List Call := if byteAt v 0 = 0x88 then [.close] else []

/-- **A pass that stops**, when no complete frame is left and no header
announces less than one byte. -/
theorem webPass_exit (h : Stored webFraming s)
    (hb : s.received = 0 ∨ s.buffer long = some s.pkgData)
    (hd : webFraming.split? s.view = none)
    (hz : ∀ p k, readWebHeader s.view s.view.length = some (p, k) → 0 < p) :
    webPass long s = .exit s (webHalt s.view) := by
  rw [webPass]
  by_cases hr : s.received = 0
  · have hnil : s.view = [] := List.eq_nil_of_length_eq_zero (by rw [h.view_length, hr])
    rw [if_pos hr, hnil]
    rfl
  · have hfits := h.fits
    rw [if_neg hr, hb.resolve_left hr]
    simp only
    rw [if_neg (by omega), webHalt, byteAt_view (by omega)]
    by_cases hclose : byteAt s.pkgData 0 = 0x88
    · rw [if_pos hclose, if_pos hclose]
    · rw [if_neg hclose, if_neg hclose, h.readWebHeader_view (by omega)]
      cases hw : readWebHeader s.view s.view.length with
      | none => rfl
      | some q =>
        obtain ⟨p, k⟩ := q
        have hp : 0 < p := hz p k hw
        have hlt := (Framing.split?_eq_none _).mp hd p.toNat
          (frameSize?_eq_some.mpr ⟨by omega, k, by rw [hw]; congr 2; omega⟩)
        rw [h.view_length] at hlt
        simp only
        rw [if_pos (by omega)]

/-! ## The handshake -/

/-- A web session that collects its request in `recvBuf`. -/
structure Shaking (s : SessionUv) : Prop where
  socketType : s.socketType = .WEB_SOCKET
  wsShake : s.wsShake = false
  longPkg : s.longPkg = none
  longPkgSize : s.longPkgSize = 0
  within : s.received < RECVBUF

/-- A web session whose handshake is done. -/
structure Shaken (s : SessionUv) : Prop where
  socketType : s.socketType = .WEB_SOCKET
  wsShake : s.wsShake = true

theorem shaking_create : Shaking (.create .WEB_SOCKET) := ⟨rfl, rfl, rfl, rfl, by decide⟩

theorem Shaking.stored (h : Shaking s) (F : Framing UInt8) : Stored F s :=
  .of_none h.longPkg h.longPkgSize (Nat.le_of_lt h.within)

/-- A finished handshake leaves an empty session. -/
theorem ready_shaken (F : Framing UInt8) (hl : s.longPkg = none) (hz : s.longPkgSize = 0) :
    Ready F s.shaken where
  toStored := .of_none hl hz (Nat.zero_le _)
  drained := by
    rw [show s.shaken.view = [] from List.take_zero, Framing.split?_eq_none]
    exact fun n hn => F.pos hn

theorem readData_request {lib : HttpLib} (ht : s.socketType = .WEB_SOCKET)
    (hw : s.wsShake = false) (hr : s.received ≤ RECVBUF) :
    readData lib s =
      match webserShakeHand lib (s.recvBuf.take s.received) with
      | some reply => .ended s.shaken [.sendData reply]
      | none => .ended s [] := by
  rw [readData, ht]
  simp only
  exact (if_neg (by simp [hw])).trans (if_neg (by omega))

/-- The session after `data` was appended to what `recvBuf` holds. -/
def SessionUv.collect (s : SessionUv) (data : Bytes) : SessionUv :=
  s.filled ⟨.recvBuf, s.received, RECVBUF - s.received⟩ data

namespace Shaking

@[simp] theorem collect_received (s : SessionUv) (data : Bytes) :
    (s.collect data).received = s.received + data.length := rfl

theorem collect_view (h : Shaking s) {data : Bytes} (hd : s.received + data.length ≤ RECVBUF) :
    (s.collect data).view = s.view ++ data := by
  have hoff := (uvTcpBuffmem_recvBuf (h.stored webFraming) h.longPkg h.within).2
  have hroom : (data.length : Int) ≤ RECVBUF - s.received := by omega
  exact (hoff.store hroom).2.1

/-- A full `recvBuf` is all that was received. -/
theorem collect_recvBuf (h : Shaking s) {data : Bytes} (hd : s.received + data.length = RECVBUF) :
    (s.collect data).recvBuf = s.view ++ data := by
  have hnone : (s.collect data).longPkg = none := h.longPkg
  have hrec : (s.collect data).received = (s.collect data).recvBuf.length := by
    rw [(s.collect data).recvBuf_size, ← hd, collect_received]
  rw [← h.collect_view (Nat.le_of_eq hd), SessionUv.view, SessionUv.pkgData_of_none hnone, hrec,
    List.take_length]

theorem collect (h : Shaking s) {data : Bytes} (hd : s.received + data.length < RECVBUF) :
    Shaking (s.collect data) :=
  ⟨h.socketType, h.wsShake, h.longPkg, h.longPkgSize, hd⟩

/-- **A read during the handshake.** The reply goes out as soon as the bytes
received so far hold a complete request. -/
theorem deliver_eq (lib : HttpLib) (h : Shaking s) {data : Bytes}
    (hd : s.received + data.length ≤ RECVBUF) :
    deliver lib s data =
      match webserShakeHand lib (s.view ++ data) with
      | some reply => .ended (s.collect data).shaken [.sendData reply]
      | none => .ended (s.collect data) [] := by
  have hbuf := (uvTcpBuffmem_recvBuf (h.stored webFraming) h.longPkg h.within).1
  have hview : (s.collect data).recvBuf.take (s.collect data).received = s.view ++ data := by
    have hnone : (s.collect data).longPkg = none := h.longPkg
    rw [← h.collect_view hd, SessionUv.view, SessionUv.pkgData_of_none hnone]
  simp only [deliver, hbuf, uvReadData_store]
  have hrec : (s.collect data).received ≤ RECVBUF := hd
  rw [← SessionUv.collect, readData_request (s := s.collect data) h.socketType h.wsShake hrec,
    hview]

end Shaking

/-! ## After the handshake -/

theorem readData_web {lib : HttpLib} (hk : Shaken s) : readData lib s = webDataParser s := by
  rw [readData, hk.socketType]
  simp only
  rw [if_pos hk.wsShake]

/-- A buffer is offered unless `recvBuf` is full of bytes that announce no
package. -/
theorem uvTcpBuffmem_web (h : Ready webFraming s) (hk : Shaken s)
    (hsize : RECVBUF ≤ s.view.length → ∃ n, webFraming.size? s.view = some n) :
    ∃ s' buf, uvTcpBuffmem s = some (s', buf) ∧ Offered webFraming s' buf ∧
      s'.view = s.view ∧ Shaken s' := by
  have hgrow : s.received = RECVBUF → s.longPkg = none →
      ∃ n, webFraming.size? s.view = some n ∧ announcedSize s = n := by
    intro hr hl
    obtain ⟨n, hn⟩ := hsize (by rw [h.view_length]; exact Nat.le_of_eq hr.symm)
    obtain ⟨-, k, hread⟩ := frameSize?_eq_some.mp hn
    have hpos : 0 < s.received := by rw [hr]; decide
    refine ⟨n, hn, ?_⟩
    rw [announcedSize, if_pos ⟨hk.socketType, hk.wsShake⟩, ← SessionUv.pkgData_of_none hl,
      h.readWebHeader_view hpos, hread]
  obtain ⟨s', buf, hbuf, hoff, hv, -, ht, hw⟩ := uvTcpBuffmem_ready h hgrow
  exact ⟨s', buf, hbuf, hoff, hv, ⟨ht.trans hk.socketType, hw.trans hk.wsShake⟩⟩

end LibuvServer.Netbus
