import LibuvServer.Netbus.ParseLoops
import LibuvServer.Netbus.WebBuffers
import Mathlib.Tactic.Common

/-!
# What a read hands on

Whatever bytes a peer sends: a read that ends has called what the frames cut
off the received bytes ask for, one frame after another. Where a pass makes
no progress, or would leave its block, the read does not end.
-/

namespace LibuvServer.Netbus

open LibuvServer.Lib WebProtocol TcpProtocol

variable {s s' : SessionUv} {long : Bool} {lib : HttpLib} {data : Bytes} {out : List Call}

/-- What `webDataParser` calls for the frame at the front of `v`. The header
alone says how long the payload is, also where the sum of the two wrapped. -/
def webCallsAt (v : Bytes) : List Call :=
  match readWebHeader v v.length with
  | some (pkgSize, headSize) =>
    [.recCommand (unmasked v pkgSize.toNat headSize) (pkgSize - headSize)]
  | none => []

/-- What the frames ask for that are complete once `data` has come. -/
def frameCalls (s : SessionUv) (data : Bytes) : List Call :=
  match s.socketType with
  | .TCP_SOCKET => (tcpFraming.drain (s.view ++ data)).1.flatMap tcpCalls
  | .WEB_SOCKET =>
    if s.wsShake then
      (webFraming.cuts (s.view ++ data)).flatMap (fun c => webCallsAt (c.1 ++ c.2)) ++
        webHalt (webFraming.drain (s.view ++ data)).2
    else []

/-! ## The loops -/

section Loop

variable {F : Framing UInt8} {pass : SessionUv → Pass SessionUv Call}

theorem iterate_same (hpass : pass s = .again s out) {fuel : Nat} {out' : List Call} :
    iterate pass fuel s ≠ .ended s' out' := by
  intro hrun
  induction fuel generalizing out' with
  | zero => cases hrun
  | succ fuel ih =>
    rw [iterate_again hpass] at hrun
    obtain ⟨out₂, hrest, -⟩ := Outcome.after_eq_ended hrun
    exact ih hrest

/-- **A loop that ends** has cut off every complete frame. `emit` is what a
pass calls for a frame in front of the bytes that follow it, `halt` what is
called where the loop is left. -/
theorem iterate_cuts (emit : Bytes × Bytes → List Call) (halt : Bytes → List Call)
    (hagain : ∀ t f r, Stored F t → t.buffer long = some t.pkgData →
      F.split? t.view = some (f, r) →
      ∃ t', pass t = .again t' (emit (f, r)) ∧ Taken F long t f.length t')
    (hstop : ∀ t, Stored F t → (t.received = 0 ∨ t.buffer long = some t.pkgData) →
      F.split? t.view = none →
      pass t = .exit t (halt t.view) ∨ pass t = .fault ∨ ∃ o, pass t = .again t o)
    (h : Stored F s) (hb : s.received = 0 ∨ s.buffer long = some s.pkgData) {fuel : Nat}
    (hrun : iterate pass fuel s = .ended s' out) :
    out = (F.cuts s.view).flatMap emit ++ halt (F.drain s.view).2 ∧ Ready F s' ∧
      s'.socketType = s.socketType ∧ s'.wsShake = s.wsShake := by
  -- on the passes; each takes one frame off until none is complete
  induction fuel generalizing s out with
  | zero => cases hrun
  | succ fuel ih =>
    cases hs : F.split? s.view with
    | none =>
      rcases hstop s h hb hs with hexit | hfault | ⟨o, hsame⟩
      · rw [iterate_exit hexit] at hrun
        cases hrun
        rw [F.cuts_of_none hs, F.drain_of_none hs]
        exact ⟨rfl, ⟨h, hs⟩, rfl, rfl⟩
      · rw [iterate_fault hfault] at hrun
        cases hrun
      · exact absurd hrun (iterate_same hsame)
    | some p =>
      obtain ⟨f, r⟩ := p
      obtain ⟨-, hview, hpos⟩ := F.split?_some hs
      have hrec : 0 < s.received := by
        rw [← h.view_length, hview, List.length_append]
        omega
      obtain ⟨t, hpass, ht⟩ := hagain s f r h (hb.resolve_left (by omega)) hs
      rw [iterate_again hpass] at hrun
      obtain ⟨out₂, hrest, rfl⟩ := Outcome.after_eq_ended hrun
      obtain ⟨rfl, hready, htype, hshake⟩ := ih ht.stored ht.buffer hrest
      have hview' : t.view = r := by rw [ht.view, hview, List.drop_left]
      refine ⟨?_, hready, htype.trans ht.socketType, hshake.trans ht.wsShake⟩
      rw [hview', F.cuts_of_some hs, F.drain_of_some hs, List.flatMap_cons, List.append_assoc]

end Loop

/-- **`tcpDataParser`** on any bytes. -/
theorem tcpDataParser_ended (h : Stored tcpFraming s) (hrun : tcpDataParser s = .ended s' out) :
    out = (tcpFraming.drain s.view).1.flatMap tcpCalls ∧ Ready tcpFraming s' ∧
      s'.socketType = s.socketType := by
  rw [tcpDataParser] at hrun
  have hcuts := iterate_cuts (F := tcpFraming) (fun c => tcpCalls c.1) (fun _ => []) ?_ ?_ h
    (.inr s.buffer_isSome) hrun
  · obtain ⟨hout, hready, htype, -⟩ := hcuts
    rw [List.append_nil, tcpFraming.cuts_flatMap_fst] at hout
    exact ⟨hout, hready, htype⟩
  · intro t f r ht hb hs
    obtain ⟨hsize, hview, -⟩ := tcpFraming.split?_some hs
    have hle : f.length ≤ t.received := by
      rw [← ht.view_length, hview, List.length_append]
      omega
    obtain ⟨t', hpass, htaken⟩ := tcpPass_again ht hb hsize hle
    rw [show t.view.take f.length = f by rw [hview, List.take_left]] at hpass
    exact ⟨t', hpass, htaken⟩
  · intro t ht hb hs
    have hsees : Sees s.longPkg.isSome t t.view := ⟨ht.view_length.symm, fun hpos =>
      ⟨t.pkgData, hb.resolve_left (Nat.ne_of_gt hpos), ht.fits, rfl⟩⟩
    rcases tcpPass_cases hsees with ⟨hexit, -⟩ | ⟨o, hsame, htwo, hle, -⟩
    · exact .inl hexit
    · -- only a header of zero announces no frame and lets the loop go on
      have hzero : header t.view = 0 := by
        by_contra hne
        have hlt := (Framing.split?_eq_none _).mp hs (header t.view)
          (frameSize?_eq_some.mpr ⟨htwo, rfl, by omega⟩)
        omega
      have hpos : 0 < t.received := by
        rw [← ht.view_length]
        omega
      rw [hzero, discard_zero ht (hb.resolve_left (Nat.ne_of_gt hpos)) hpos] at hsame
      exact .inr (.inr ⟨o, hsame⟩)

/-- Within the received bytes the block and the view are the same. -/
theorem slice_view {k l : Nat} (h : k + l ≤ s.received) :
    slice s.view k l = slice s.pkgData k l := by
  rw [slice, slice, SessionUv.view, List.drop_take, List.take_take, Nat.min_eq_left (by omega)]

theorem unmasked_view {n headSize : Nat} (hfour : 4 ≤ headSize) (hle : n ≤ s.received) :
    unmasked s.view n headSize = unmasked s.pkgData n headSize := by
  by_cases hin : headSize ≤ n
  · rw [unmasked, unmasked, slice_view (by omega), slice_view (by omega)]
  · have hnone : n - headSize = 0 := by omega
    simp [unmasked, slice, hnone, WebProtocol.parserRecvData]

/-- A negative size makes `memmove` read in front of the block. -/
theorem webPass_negative {p : Int} {k : Nat} (h : Stored webFraming s)
    (hb : s.buffer long = some s.pkgData)
    (hread : readWebHeader s.view s.view.length = some (p, k)) (hneg : p < 0) :
    webPass long s = .fault := by
  have hpos : 0 < s.received := by
    rw [← h.view_length]
    refine List.length_pos_of_ne_nil fun hnil => ?_
    simp [hnil, readWebHeader] at hread
  have hfits := h.fits
  have hop := readWebHeader_opcode hread
  rw [byteAt_view hpos] at hop
  rw [← h.readWebHeader_view hpos] at hread
  simp only [webPass, hb, hread]
  rw [if_neg (by omega), if_neg (by omega), if_neg (by omega), if_neg (by omega),
    if_pos hneg]

/-- **`webDataParser`** on any bytes. -/
theorem webDataParser_ended (h : Stored webFraming s) (hrun : webDataParser s = .ended s' out) :
    out = (webFraming.cuts s.view).flatMap (fun c => webCallsAt (c.1 ++ c.2)) ++
        webHalt (webFraming.drain s.view).2 ∧
      Ready webFraming s' ∧ s'.socketType = s.socketType ∧ s'.wsShake = s.wsShake := by
  rw [webDataParser, h.longPkgSize_ne_zero] at hrun
  refine iterate_cuts (F := webFraming) (fun c => webCallsAt (c.1 ++ c.2)) webHalt ?_ ?_ h
    (.inr s.buffer_isSome) hrun
  · intro t f r ht hb hs
    obtain ⟨hsize, hview, hpos⟩ := webFraming.split?_some hs
    obtain ⟨-, headSize, hread⟩ := frameSize?_eq_some.mp hsize
    have hle : f.length ≤ t.received := by
      rw [← ht.view_length, hview, List.length_append]
      omega
    obtain ⟨t', hpass, htaken⟩ := webPass_header ht hb hread hpos hle
    refine ⟨t', ?_, htaken⟩
    have hsix := (readWebHeader_sizes hread).2
    rw [← unmasked_view (by omega) hle] at hpass
    rw [← hview, webCallsAt, hread]
    exact hpass
  · intro t ht hb hs
    by_cases hpos : ∀ p k, readWebHeader t.view t.view.length = some (p, k) → 0 < p
    · exact .inl (webPass_exit ht hb hs hpos)
    · -- a header that announces less than one byte
      simp only [not_forall] at hpos
      obtain ⟨p, k, hread, hle⟩ := hpos
      have hrec : t.received ≠ 0 := by
        intro hr
        have hnil : t.view = [] := List.eq_nil_of_length_eq_zero (by rw [ht.view_length, hr])
        simp [hnil, readWebHeader] at hread
      rcases Int.lt_or_eq_of_le (Int.not_lt.mp hle) with hneg | rfl
      · exact .inr (.inl (webPass_negative ht (hb.resolve_left hrec) hread hneg))
      · exact .inr (.inr ⟨_, webPass_zero ht (hb.resolve_left hrec) hread⟩)

/-! ## One read -/

/-- A session between two reads, whatever it has received. -/
inductive Between (lib : HttpLib) (s : SessionUv) : Prop where
  | packages (ht : s.socketType = .TCP_SOCKET) (h : Ready tcpFraming s)
  | request (h : Shaking s ∨ Stuck lib s)
  | frames (hk : Shaken s) (h : Ready webFraming s)

theorem between_create (lib : HttpLib) (t : SocketType) : Between lib (.create t) := by
  cases t with
  | TCP_SOCKET => exact .packages rfl (ready_create _ _)
  | WEB_SOCKET => exact .request (.inl shaking_create)

/-- A buffer that is offered when `recvBuf` is full has been asked for by a
header. -/
theorem offered_of_full {F : Framing UInt8} {p : SessionUv × UvBuf} (h : Ready F s)
    (hbuf : uvTcpBuffmem s = some p)
    (hsize : s.received = RECVBUF → s.longPkg = none → (RECVBUF : Int) ≤ announcedSize s →
      ∃ n, F.size? s.view = some n ∧ announcedSize s = n) :
    Offered F p.1 p.2 ∧ p.1.view = s.view ∧ p.1.socketType = s.socketType ∧
      p.1.wsShake = s.wsShake := by
  have hgrow : s.received = RECVBUF → s.longPkg = none →
      ∃ n, F.size? s.view = some n ∧ announcedSize s = n := by
    intro hr hl
    refine hsize hr hl ?_
    by_contra hlt
    rw [uvTcpBuffmem, if_neg (by omega), hl] at hbuf
    simp only at hbuf
    rw [if_pos (by omega)] at hbuf
    cases hbuf
  obtain ⟨s', buf, hbuf', hoff, hview, -, htype, hshake⟩ := uvTcpBuffmem_ready h hgrow
  rw [hbuf, Option.some.injEq] at hbuf'
  rw [hbuf']
  exact ⟨hoff, hview, htype, hshake⟩

theorem offered_tcp_full {p : SessionUv × UvBuf} (h : Ready tcpFraming s)
    (ht : s.socketType = .TCP_SOCKET) (hbuf : uvTcpBuffmem s = some p) :
    Offered tcpFraming p.1 p.2 ∧ p.1.view = s.view ∧ p.1.socketType = s.socketType ∧
      p.1.wsShake = s.wsShake := by
  refine offered_of_full h hbuf fun hr hl hle => ?_
  have htwo : 2 ≤ s.received := by
    rw [hr]
    decide
  have hvlen := h.view_length
  have hheader : header s.recvBuf = header s.view := by
    rw [header, header, byteAt_view (by omega), byteAt_view (by omega),
      SessionUv.pkgData_of_none hl]
  have hannounced : announcedSize s = header s.view := by
    rw [announcedSize, if_neg (by simp [ht]), readTcpHeader_eq, if_neg (by omega), hheader]
  refine ⟨header s.view, frameSize?_eq_some.mpr ⟨by omega, rfl, ?_⟩, hannounced⟩
  have hbig : 0 < RECVBUF := by decide
  omega

theorem offered_web_full {p : SessionUv × UvBuf} (h : Ready webFraming s) (hk : Shaken s)
    (hbuf : uvTcpBuffmem s = some p) :
    Offered webFraming p.1 p.2 ∧ p.1.view = s.view ∧ p.1.socketType = s.socketType ∧
      p.1.wsShake = s.wsShake := by
  refine offered_of_full h hbuf fun hr hl hle => ?_
  have hpos : 0 < s.received := by
    rw [hr]
    decide
  have hbig : 0 < RECVBUF := by decide
  rw [announcedSize, if_pos ⟨hk.socketType, hk.wsShake⟩, ← SessionUv.pkgData_of_none hl,
    h.readWebHeader_view hpos] at hle ⊢
  cases hread : readWebHeader s.view s.view.length with
  | none =>
    rw [hread] at hle
    simp only at hle
    omega
  | some q =>
    obtain ⟨n, k⟩ := q
    rw [hread] at hle
    simp only at hle ⊢
    obtain ⟨n, rfl⟩ : ∃ m : Nat, n = m := ⟨n.toNat, by omega⟩
    exact ⟨n, frameSize?_eq_some.mpr ⟨by omega, k, hread⟩, rfl⟩

/-- During the handshake only the reply goes out. -/
theorem deliver_request (ht : s.socketType = .WEB_SOCKET) (hw : s.wsShake = false)
    (hrun : deliver lib s data = .ended s' out) :
    out = [] ∨ ∃ reply, out = [.sendData reply] := by
  rw [deliver] at hrun
  cases hbuf : uvTcpBuffmem s with
  | none =>
    rw [hbuf] at hrun
    cases hrun
  | some p =>
    obtain ⟨t, buf⟩ := p
    obtain ⟨-, -, htype, hshake⟩ := uvTcpBuffmem_keeps hbuf
    rw [hbuf] at hrun
    simp only [uvReadData_store, readData, SessionUv.filled_socketType, htype, ht,
      SessionUv.filled_wsShake, hshake, hw, Bool.false_eq_true, if_false] at hrun
    split at hrun
    · cases hrun
    · split at hrun
      · cases hrun
        exact .inr ⟨_, rfl⟩
      · cases hrun
        exact .inl rfl

/-- **A read that ends** has handed on the frames that its bytes completed,
and the session is again between two reads. -/
theorem deliver_ended (h : Between lib s) (hd : (data.length : Int) ≤ offered s)
    (hrun : deliver lib s data = .ended s' out) :
    Between lib s' ∧ (out = frameCalls s data ∨
      frameCalls s data = [] ∧ ∃ reply, out = [.sendData reply]) := by
  cases h with
  | request h =>
    have htype : s.socketType = .WEB_SOCKET ∧ s.wsShake = false :=
      h.elim (fun h => ⟨h.socketType, h.wsShake⟩) (fun h => ⟨h.socketType, h.wsShake⟩)
    have hnone : frameCalls s data = [] := by
      rw [frameCalls, htype.1, htype.2]
      rfl
    refine ⟨?_, ?_⟩
    · rcases h with h | h
      · rcases h.step hd hrun with ⟨-, h'⟩ | hf
        · exact .request h'
        · exact .frames hf.toShaken hf.ready
      · exact .request (.inr (h.step hrun))
    · rcases deliver_request htype.1 htype.2 hrun with rfl | hreply
      · exact .inl hnone.symm
      · exact .inr ⟨hnone, hreply⟩
  | packages ht h =>
    rw [deliver] at hrun
    cases hbuf : uvTcpBuffmem s with
    | none =>
      rw [hbuf] at hrun
      cases hrun
    | some p =>
      obtain ⟨hoff, hview, htype, -⟩ := offered_tcp_full h ht hbuf
      have hlen : (data.length : Int) ≤ p.2.len := by simpa [offered, hbuf] using hd
      obtain ⟨hst, hv, -⟩ := hoff.store hlen
      have hkind : (p.1.filled p.2 data).socketType = .TCP_SOCKET := by simp [htype, ht]
      rw [hbuf] at hrun
      simp only [uvReadData_store, readData, hkind] at hrun
      obtain ⟨hout, hready, htype'⟩ := tcpDataParser_ended hst hrun
      refine ⟨.packages (htype'.trans hkind) hready, .inl ?_⟩
      rw [hout, hv, hview, frameCalls, ht]
  | frames hk h =>
    rw [deliver] at hrun
    cases hbuf : uvTcpBuffmem s with
    | none =>
      rw [hbuf] at hrun
      cases hrun
    | some p =>
      obtain ⟨hoff, hview, htype, hshake⟩ := offered_web_full h hk hbuf
      have hlen : (data.length : Int) ≤ p.2.len := by simpa [offered, hbuf] using hd
      obtain ⟨hst, hv, -⟩ := hoff.store hlen
      have hkind : Shaken (p.1.filled p.2 data) :=
        ⟨by simp [htype, hk.socketType], by simp [hshake, hk.wsShake]⟩
      rw [hbuf] at hrun
      simp only [uvReadData_store, readData_web hkind] at hrun
      obtain ⟨hout, hready, htype', hshake'⟩ := webDataParser_ended hst hrun
      refine ⟨.frames ⟨htype'.trans hkind.socketType, hshake'.trans hkind.wsShake⟩ hready,
        .inl ?_⟩
      rw [hout, hv, hview, frameCalls, hk.socketType, hk.wsShake]
      rfl

end LibuvServer.Netbus
