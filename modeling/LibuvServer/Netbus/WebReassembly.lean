import LibuvServer.Netbus.WebReception
import Mathlib.Tactic.Common

/-!
# WebSocket reassembly

After the handshake `webDataParser` unmasks the frames of a stream of client
frames in place and hands on their payloads one by one, whatever the sizes of
the reads.
-/

namespace LibuvServer.Netbus

open LibuvServer.Lib WebProtocol

variable {s : SessionUv} {long : Bool} {n : Nat}

/-- What `webDataParser` calls for one frame. -/
def webCalls (frame : Bytes) : List Call :=
  match readWebHeader frame frame.length with
  | some (pkgSize, headSize) =>
    [.recCommand (unmasked frame frame.length headSize) (pkgSize - headSize)]
  | none => []

/-- The frames of well-behaved clients. -/
def FromClient (frame : Bytes) : Prop := ∃ f : ClientFrame, frame = f.encode

theorem unmasked_encode (f : ClientFrame) :
    unmasked f.encode f.encode.length f.headSize = f.payload := by
  rw [unmasked, f.mask_encode, ← drop_take_eq_slice, List.take_length, f.drop_headSize_encode,
    parserRecvData_twice]

theorem webCalls_encode (f : ClientFrame) : webCalls f.encode = [handOn f.payload] := by
  have hlen : ((f.encode.length : Int) - f.headSize) = f.payload.length := by
    rw [f.length_encode]
    omega
  simp only [webCalls, f.readWebHeader_encode, unmasked_encode, hlen, handOn]

/-! ## The parser -/

theorem webPass_again (h : Stored webFraming s) (hb : s.buffer long = some s.pkgData)
    (hle : n ≤ s.received) (hf : FromClient (s.view.take n))
    (hn : webFraming.size? s.view = some n) :
    ∃ s', webPass long s = .again s' (webCalls (s.view.take n)) ∧
      Taken webFraming long s n s' := by
  obtain ⟨f, hf⟩ := hf
  obtain ⟨hpos, headSize, hread⟩ := frameSize?_eq_some.mp hn
  obtain ⟨s', hpass, htaken⟩ := webPass_header h hb hread hpos hle
  refine ⟨s', ?_, htaken⟩
  have hlen : f.encode.length = n := by
    rw [← hf, List.length_take, h.view_length]
    exact Nat.min_eq_left hle
  -- the header of the view is the header of its first frame
  have hsame : some ((n : Int), headSize) = some ((n : Int), f.headSize) := by
    rw [← hread, ← List.take_append_drop n s.view, hf,
      readWebHeader_append f.readWebHeader_encode, hlen]
  cases hsame
  have hmask : 4 ≤ f.headSize ∧ f.headSize ≤ n := by
    have := f.length_encode
    have h6 : 6 ≤ f.headSize := by
      rw [ClientFrame.headSize]
      split <;> omega
    omega
  have hpayload : unmasked s.pkgData n f.headSize = f.payload := by
    rw [← unmasked_encode, hlen, ← hf, unmasked, unmasked, slice_pkgData_eq hle,
      ← drop_take_eq_slice, List.take_take, Nat.min_self]
    congr 1
    rw [slice, slice, SessionUv.view, List.take_take, Nat.min_eq_left hle, List.drop_take,
      List.take_take, Nat.min_eq_left (by omega)]
  rw [hpass, hf, webCalls_encode, hpayload, handOn]
  congr 2
  have := f.length_encode
  simp only [Call.recCommand.injEq, true_and]
  omega

/-- What is left over is no close frame, announces something and tells how
much once it fills `recvBuf`. -/
structure Pending (v : Bytes) : Prop where
  opcode : byteAt v 0 ≠ 0x88
  positive : ∀ p k, readWebHeader v v.length = some (p, k) → 0 < p
  size : RECVBUF ≤ v.length → ∃ n, webFraming.size? v = some n

/-- `webDataParser` hands on the complete frames and keeps the rest. -/
theorem webDataParser_drain (h : Stored webFraming s) (hk : Shaken s)
    (hgood : ∀ f ∈ (webFraming.drain s.view).1, FromClient f)
    (hrest : Pending (webFraming.drain s.view).2) :
    ∃ s', webDataParser s = .ended s' ((webFraming.drain s.view).1.flatMap webCalls) ∧
      Ready webFraming s' ∧ Shaken s' ∧ s'.view = (webFraming.drain s.view).2 := by
  have hsplit := webFraming.drain_rest s.view
  have hhalt : webHalt (webFraming.drain s.view).2 = [] := if_neg hrest.opcode
  obtain ⟨s', hrun, hs', hv, ht, hw⟩ :=
    iterate_drain FromClient
      (fun _ _ ht hb hm hle hf => webPass_again ht hb hle hf hm)
      (fun _ ht hb hv => hv ▸
        webPass_exit ht hb (by rw [hv]; exact hsplit) (by rw [hv]; exact hrest.positive))
      h (.inr s.buffer_isSome) hgood rfl (Nat.lt_succ_self s.received)
  refine ⟨s', ?_, ⟨hs', by rwa [hv]⟩, ⟨ht.trans hk.socketType, hw.trans hk.wsShake⟩, hv⟩
  rw [webDataParser, h.longPkgSize_ne_zero, hrun, hhalt, List.append_nil]

/-- One read after the handshake. -/
theorem deliver_web (lib : HttpLib) :
    ReadsAs webFraming lib webCalls FromClient Pending Shaken := by
  intro s data h hk hd hnow hgood hnext
  obtain ⟨s₁, buf, hbuf, hoff, hv₁, hk₁⟩ := uvTcpBuffmem_web h hk hnow.size
  have hlen : (data.length : Int) ≤ buf.len := by simpa [offered, hbuf] using hd
  obtain ⟨hst, hv₂, -⟩ := hoff.store hlen
  rw [hv₁] at hv₂
  have hk₂ : Shaken (s₁.filled buf data) :=
    ⟨by simpa using hk₁.socketType, by simpa using hk₁.wsShake⟩
  rw [← hv₂] at hgood hnext ⊢
  obtain ⟨s', hrun, hready, hk', hv'⟩ := webDataParser_drain hst hk₂ hgood hnext
  refine ⟨s', ?_, hready, hk', hv'⟩
  simp only [deliver, hbuf, uvReadData_store, readData_web hk₂, hrun]

theorem offered_web (h : Ready webFraming s) (hk : Shaken s) (hp : Pending s.view) :
    1 ≤ offered s := by
  obtain ⟨s', buf, hbuf, hoff, -, -⟩ := uvTcpBuffmem_web h hk hp.size
  have hpos := hoff.pos
  simp only [offered, hbuf]
  omega

/-! ## Streams of client frames -/

/-- The front of a client frame. -/
theorem pending_short {f : ClientFrame} {v : Bytes} (hv : v <+: f.encode) : Pending v := by
  obtain ⟨w, hw⟩ := hv
  have hpos : 0 < f.encode.length := by
    rw [f.length_encode, ClientFrame.headSize]
    split <;> omega
  refine ⟨?_, ?_, ?_⟩
  · rcases v.eq_nil_or_concat with rfl | hne
    · decide
    · have hlen : 0 < v.length := by
        obtain ⟨u, b, rfl⟩ := hne
        simp
      have hop : byteAt v 0 = f.opcode.toNat := by
        rw [← byteAt_append hlen w, hw]
        rfl
      rcases f.opcode_toNat with h | h <;> omega
  · intro p k hread
    have hfull := readWebHeader_append hread w
    rw [hw, f.readWebHeader_encode] at hfull
    cases hfull
    omega
  · intro hfull
    have hten : 10 ≤ v.length := Nat.le_trans (by decide) hfull
    refine ⟨f.encode.length, frameSize?_eq_some.mpr ⟨hpos, f.headSize, ?_⟩⟩
    rw [readWebHeader_enough hten w, hw, f.readWebHeader_encode]

theorem pending_stream {frames : List ClientFrame} {v : Bytes}
    (hv : v <+: (frames.map ClientFrame.encode).flatten) : Pending (webFraming.drain v).2 := by
  rcases webFraming.drain_arrived_rest (fun f _ => f.encode_isFrame) hv with hnil | ⟨f, -, hpre⟩
  · rw [hnil]
    refine ⟨by decide, ?_, ?_⟩
    · intro p k hread
      simp [readWebHeader] at hread
    · intro h
      exact absurd h (by decide)
  · exact pending_short hpre

theorem flatMap_webCalls (frames : List ClientFrame) :
    (frames.map ClientFrame.encode).flatMap webCalls = frames.map fun f => handOn f.payload := by
  induction frames with
  | nil => rfl
  | cons f fs ih =>
    rw [List.map_cons, List.flatMap_cons, webCalls_encode, ih]
    rfl

/-- A session after its handshake, over the front of a stream of frames. -/
theorem receive_frames (lib : HttpLib) (h : Ready webFraming s) (hk : Shaken s)
    (hnil : s.view = []) (frames : List ClientFrame) {reads : List Bytes}
    (hreads : reads.flatten <+: (frames.map ClientFrame.encode).flatten) (hfit : Fits lib s reads) :
    ∃ s', receive lib s reads =
        .ended s' ((arrived ClientFrame.encode frames reads.flatten.length).map
          fun f => handOn f.payload) ∧
      Ready webFraming s' ∧ s'.view = (webFraming.drain reads.flatten).2 := by
  have hdrain := webFraming.drain_arrived (fun f _ => f.encode_isFrame) hreads
  have hgood : ∀ f ∈ (webFraming.drain (s.view ++ reads.flatten)).1, FromClient f := by
    rw [hnil, List.nil_append, hdrain]
    intro f hf
    obtain ⟨g, -, rfl⟩ := List.mem_map.mp hf
    exact ⟨g, rfl⟩
  have hok : ∀ pre, pre <+: reads → Pending (webFraming.drain (s.view ++ pre.flatten)).2 := by
    rintro pre ⟨post, rfl⟩
    rw [List.flatten_append] at hreads
    rw [hnil, List.nil_append]
    exact pending_stream ((List.prefix_append _ _).trans hreads)
  obtain ⟨s', hrun, hready, -, hv⟩ := receive_drain (deliver_web lib) h hk hfit hgood hok
  rw [hnil, List.nil_append] at hrun hv
  exact ⟨s', by rw [hrun, hdrain, flatMap_webCalls], hready, hv⟩

/-- A stream of frames can be read byte by byte. -/
theorem fits_frames (lib : HttpLib) (h : Ready webFraming s) (hk : Shaken s) (hnil : s.view = [])
    (frames : List ClientFrame) :
    Fits lib s ((frames.map ClientFrame.encode).flatten.map fun b => [b]) := by
  refine fits_bytes (deliver_web lib) (fun _ ht hkt hp => offered_web ht hkt hp) h hk ?_ ?_
  · rw [hnil, List.nil_append, webFraming.drain_stream (fun f _ => f.encode_isFrame)]
    intro f hf
    obtain ⟨g, -, rfl⟩ := List.mem_map.mp hf
    exact ⟨g, rfl⟩
  · intro pre hpre
    rw [hnil, List.nil_append]
    exact pending_stream hpre

/-! ## From the handshake on -/

/-- A web session whose request is not complete, after some reads. -/
inductive Collecting (lib : HttpLib) : SessionUv → Prop where
  | create : Collecting lib (.create .WEB_SOCKET)
  | read {s s' : SessionUv} {data : Bytes} {out : List Call} :
      Collecting lib s → (data.length : Int) ≤ offered s →
      deliver lib s data = .ended s' out → s'.wsShake = false → Collecting lib s'

/-- A web session whose handshake completed within `RECVBUF` received bytes. -/
def Handshaken (lib : HttpLib) (s : SessionUv) : Prop :=
  ∃ (s₀ : SessionUv) (data : Bytes) (out : List Call),
    Collecting lib s₀ ∧ (data.length : Int) ≤ offered s₀ ∧
    s₀.received + data.length ≤ RECVBUF ∧
    deliver lib s₀ data = .ended s out ∧ s.wsShake = true

/-- A web session whose request filled `recvBuf` without being complete. -/
structure Stuck (lib : HttpLib) (s : SessionUv) : Prop where
  socketType : s.socketType = .WEB_SOCKET
  wsShake : s.wsShake = false
  full : s.received = RECVBUF
  incomplete : webserShakeHand lib s.recvBuf = none

/-- A session whose handshake just completed. -/
structure Fresh (s : SessionUv) : Prop extends Shaken s where
  ready : Ready webFraming s
  empty : s.view = []

theorem offered_shaking (h : Shaking s) : offered s = RECVBUF - s.received := by
  have hbuf := (uvTcpBuffmem_recvBuf (h.stored webFraming) h.longPkg h.within).1
  simp only [offered, hbuf]

/-- A read during the handshake ends it or leaves the request incomplete. -/
theorem Shaking.step {lib : HttpLib} {s' : SessionUv} {data : Bytes} {out : List Call}
    (h : Shaking s) (hd : (data.length : Int) ≤ offered s)
    (hrun : deliver lib s data = .ended s' out) :
    (s'.wsShake = false ∧ (Shaking s' ∨ Stuck lib s')) ∨ Fresh s' := by
  have hwithin := h.within
  have hle : s.received + data.length ≤ RECVBUF := by
    rw [offered_shaking h] at hd
    omega
  rw [h.deliver_eq lib hle] at hrun
  cases hshake : webserShakeHand lib (s.view ++ data) with
  | some reply =>
    rw [hshake] at hrun
    cases hrun
    exact .inr ⟨⟨h.socketType, rfl⟩, ready_shaken _ h.longPkg h.longPkgSize, List.take_zero⟩
  | none =>
    rw [hshake] at hrun
    cases hrun
    refine .inl ⟨h.wsShake, ?_⟩
    by_cases hlt : s.received + data.length < RECVBUF
    · exact .inl (h.collect hlt)
    · have hfull : s.received + data.length = RECVBUF := by omega
      exact .inr ⟨h.socketType, h.wsShake, hfull, by rw [h.collect_recvBuf hfull, hshake]⟩

/-- Nothing more can be read into a full buffer, and the request stays
incomplete. -/
theorem Stuck.step {lib : HttpLib} {s' : SessionUv} {data : Bytes} {out : List Call}
    (h : Stuck lib s) (hrun : deliver lib s data = .ended s' out) : Stuck lib s' := by
  rw [deliver] at hrun
  cases hbuf : uvTcpBuffmem s with
  | none =>
    rw [hbuf] at hrun
    cases hrun
  | some p =>
    obtain ⟨t, buf⟩ := p
    obtain ⟨hrecv, hlen, htype, hshake⟩ := uvTcpBuffmem_keeps hbuf
    have ht : t.socketType = .WEB_SOCKET := htype.trans h.socketType
    have hw : t.wsShake = false := hshake.trans h.wsShake
    have hfull : t.received = RECVBUF := hlen.trans h.full
    rw [hbuf] at hrun
    simp only [uvReadData_store] at hrun
    by_cases hnil : data = []
    · subst hnil
      have hsame : t.filled buf [] = t := by
        rw [SessionUv.filled, SessionUv.store, SessionUv.write_nil]
        rfl
      have hall : t.recvBuf.take t.received = s.recvBuf := by
        rw [hfull, ← t.recvBuf_size, List.take_length, hrecv]
      rw [hsame, readData_request ht hw (Nat.le_of_eq hfull), hall, h.incomplete] at hrun
      cases hrun
      exact ⟨ht, hw, hfull, by rw [hrecv, h.incomplete]⟩
    · -- the request would be read past the end of `recvBuf`
      have hpos := List.length_pos_of_ne_nil hnil
      have htype' : (t.filled buf data).socketType = .WEB_SOCKET := by simpa using ht
      rw [readData, htype'] at hrun
      simp only [SessionUv.filled_wsShake, hw, SessionUv.filled_received, hfull] at hrun
      rw [if_neg Bool.false_ne_true, if_pos (by omega)] at hrun
      cases hrun

theorem Collecting.shaking {lib : HttpLib} (h : Collecting lib s) : Shaking s ∨ Stuck lib s := by
  induction h with
  | create => exact .inl shaking_create
  | @read s s' data out _ hd hrun hw ih =>
    rcases ih with hs | hs
    · rcases hs.step hd hrun with ⟨-, h'⟩ | hf
      · exact h'
      · rw [hf.wsShake] at hw
        cases hw
    · exact .inr (hs.step hrun)

theorem Handshaken.fresh {lib : HttpLib} (h : Handshaken lib s) : Fresh s := by
  obtain ⟨s₀, data, out, hcol, hd, -, hrun, hw⟩ := h
  rcases hcol.shaking with hs | hs
  · rcases hs.step hd hrun with ⟨hw', -⟩ | hf
    · rw [hw] at hw'
      cases hw'
    · exact hf
  · have hw' := (hs.step hrun).wsShake
    rw [hw] at hw'
    cases hw'

/-- **WebSocket reassembly does not depend on how the stream is cut.** -/
theorem web_reassembly (lib : HttpLib) (s : SessionUv) (hs : Handshaken lib s)
    (frames : List ClientFrame) (reads : List Bytes)
    (hreads : reads.flatten <+: (frames.map ClientFrame.encode).flatten)
    (hfit : Fits lib s reads) :
    ∃ s', receive lib s reads =
        .ended s' ((arrived ClientFrame.encode frames reads.flatten.length).map
          fun f => handOn f.payload) ∧
      (reads.flatten = (frames.map ClientFrame.encode).flatten →
        arrived ClientFrame.encode frames reads.flatten.length = frames ∧
          s'.received = 0 ∧ s'.longPkg = none) := by
  obtain ⟨hk, hready, hnil⟩ := hs.fresh
  obtain ⟨s', hrun, hready', hv⟩ := receive_frames lib hready hk hnil frames hreads hfit
  refine ⟨s', hrun, fun hall => ⟨arrived_all ?_, ?_⟩⟩
  · exact Nat.le_of_eq (congrArg List.length hall).symm
  · rw [hall, webFraming.drain_stream (fun f _ => f.encode_isFrame)] at hv
    exact hready'.empty hv

/-- A request with the key alone. -/
def sampleRequest : Bytes :=
  strBytes "GET / HTTP/1.1\r\nSec-WebSocket-Key: dGhlIHNhbXBsZSBub25jZQ==\r\n\r\n"

/-- The vendored packages on `sampleRequest`. -/
def sampleLib : HttpLib where
  execute body :=
    if body = sampleRequest then
      [.headerField (strBytes "Sec-WebSocket-Key"),
        .headerValue (strBytes "dGhlIHNhbXBsZSBub25jZQ=="), .messageComplete]
    else []
  cryptSha1 _ := [0xb3, 0x7a, 0x4f, 0x2c, 0xc0, 0x62, 0x4f, 0x16, 0x90, 0xf6, 0x46, 0x06, 0xcf,
    0x38, 0x59, 0x45, 0xb2, 0xbe, 0xc4, 0xea]
  base64Encode _ := strBytes "s3pPLMBiTxaQ9kYGzzhZRbK+xOo="

theorem length_sampleRequest :
    (SessionUv.create .WEB_SOCKET).received + sampleRequest.length ≤ RECVBUF := by
  decide +kernel

theorem webserShakeHand_sample : ∃ reply,
    webserShakeHand sampleLib ((SessionUv.create .WEB_SOCKET).view ++ sampleRequest) =
      some reply := by
  simp [webserShakeHand, sampleLib, onWebEvent, strncmpEq]

/-- The session once the request is answered. -/
def sampleSession : SessionUv := ((SessionUv.create .WEB_SOCKET).collect sampleRequest).shaken

theorem offered_sampleRequest :
    (sampleRequest.length : Int) ≤ offered (.create .WEB_SOCKET) := by
  have hlen := length_sampleRequest
  rw [offered_shaking shaking_create]
  omega

theorem deliver_sampleRequest :
    ∃ out, deliver sampleLib (.create .WEB_SOCKET) sampleRequest = .ended sampleSession out := by
  obtain ⟨reply, hreply⟩ := webserShakeHand_sample
  have hrun := shaking_create.deliver_eq sampleLib length_sampleRequest
  rw [hreply] at hrun
  exact ⟨_, hrun⟩

theorem handshaken_sample : Handshaken sampleLib sampleSession := by
  obtain ⟨out, hrun⟩ := deliver_sampleRequest
  exact ⟨.create .WEB_SOCKET, sampleRequest, out, .create, offered_sampleRequest,
    length_sampleRequest, hrun, rfl⟩

theorem opcode_binary : (0x82 : UInt8) = 0x81 ∨ (0x82 : UInt8) = 0x82 := .inr rfl

/-- Two frames, one of them empty. -/
def sampleFrames : List ClientFrame :=
  [⟨0x81, [1, 2, 3, 4], [0x68, 0x69], by decide, rfl, by decide⟩,
    ⟨0x82, [5, 6, 7, 8], [], by decide, rfl, by decide⟩]

/-- The two frames, read byte by byte after the handshake. -/
theorem web_reassembly_two :
    ∃ s', receive sampleLib sampleSession [[0x81], [0x82], [1], [2], [3], [4], [0x69], [0x6b],
          [0x82], [0x80], [5], [6], [7], [8]] = .ended s' [handOn [0x68, 0x69], handOn []] ∧
      s'.received = 0 ∧ s'.longPkg = none := by
  have hall : ([[0x81], [0x82], [1], [2], [3], [4], [0x69], [0x6b],
      [0x82], [0x80], [5], [6], [7], [8]] : List Bytes).flatten =
      (sampleFrames.map ClientFrame.encode).flatten := by decide
  obtain ⟨hk, hready, hnil⟩ := handshaken_sample.fresh
  have hfit := fits_frames sampleLib hready hk hnil sampleFrames
  obtain ⟨s', hrun, hend⟩ := web_reassembly sampleLib sampleSession handshaken_sample sampleFrames
    [[0x81], [0x82], [1], [2], [3], [4], [0x69], [0x6b], [0x82], [0x80], [5], [6], [7], [8]]
    (hall ▸ List.prefix_rfl) hfit
  obtain ⟨harr, hempty⟩ := hend hall
  rw [harr] at hrun
  exact ⟨s', hrun, hempty⟩

end LibuvServer.Netbus
