import LibuvServer.Netbus.ParseLoops
import LibuvServer.Netbus.WebBuffers
import Mathlib.Tactic.Common

/-!
# The receive buffers of a TCP session

A package that does not fit `recvBuf` goes on in a block of its own, whose
size comes from the peer. The sizes hold because the parser leaves a full
`recvBuf` only when the package at its front is longer, so they hold as long
as no header says zero: such a package never leaves the buffer.
-/

namespace LibuvServer.Netbus

open LibuvServer.Lib TcpProtocol

variable {s t : SessionUv} {long : Bool} {v : Bytes}

/-- The buffer that `tcpDataParser` looks at. -/
def tcpExamined (s : SessionUv) : BufRef := if s.longPkg.isSome then .longPkg else .recvBuf

/-- The size of the buffer in use. -/
def SessionUv.capacity (s : SessionUv) : Nat :=
  if s.longPkg.isSome then s.longPkgSize else RECVBUF

/-- The header read where the loop stands is not zero. -/
def HeaderRead (long : Bool) (s : SessionUv) : Prop :=
  ∀ pkgData pkgSize headSize, s.buffer long = some pkgData →
    readTcpHeader pkgData s.received = some (pkgSize, headSize) → pkgSize ≠ 0

/-- No header that `tcpDataParser` comes to is zero. -/
def HeadersNonzero (s : SessionUv) : Prop :=
  Throughout (tcpPass s.longPkg.isSome) (HeaderRead s.longPkg.isSome) s

/-- The states of a TCP session over reads of any bytes, none of whose
headers is zero, and over failing reads. -/
inductive TcpReached (lib : HttpLib) : SessionUv → Prop where
  | create : TcpReached lib (.create .TCP_SOCKET)
  | read {s s₁ s' : SessionUv} {buf : UvBuf} {data : Bytes} {out : List Call} :
      TcpReached lib s → uvTcpBuffmem s = some (s₁, buf) → (data.length : Int) ≤ buf.len →
      HeadersNonzero (s₁.filled buf data) →
      uvReadData lib (s₁.store buf data) data.length = .ended s' out → TcpReached lib s'
  | failed {s s₁ s' : SessionUv} {buf : UvBuf} {nread : Int} {out : List Call} :
      TcpReached lib s → uvTcpBuffmem s = some (s₁, buf) → nread < 0 →
      uvReadData lib s₁ nread = .ended s' out → TcpReached lib s'

/-- No more was received than fits. A large block is one frame long, which
is what its first two bytes say. -/
structure Contained (s : SessionUv) : Prop where
  received : s.received ≤ s.capacity
  large : ∀ blk, s.longPkg = some blk → RECVBUF < s.longPkgSize ∧
    blk.length = s.longPkgSize ∧ header blk = s.longPkgSize

/-- What the next `uv_tcpBuffmem`, the read into its buffer and the parser
do. The first part is about a block made for it, the last about every pass. -/
structure TcpBuffersAgree (s s₁ : SessionUv) (buf : UvBuf) : Prop where
  created : s.longPkg = none → ∀ blk, s₁.longPkg = some blk →
    RECVBUF < s₁.longPkgSize ∧ s.received ≤ blk.length
  pos : 0 < buf.len
  inBounds : InBounds s₁ buf
  contained : Contained s₁
  filled : ∀ data : Bytes, (data.length : Int) ≤ buf.len →
    Contained (s₁.filled buf data) ∧ buf.ref = tcpExamined (s₁.filled buf data) ∧
      ∃ blk, (s₁.filled buf data).block (tcpExamined (s₁.filled buf data)) = some blk ∧
        slice blk buf.offset data.length = data
  parsed : ∀ data : Bytes, (data.length : Int) ≤ buf.len →
    HeadersNonzero (s₁.filled buf data) →
    Throughout (tcpPass (s₁.filled buf data).longPkg.isSome)
      (fun t => Contained t ∧ tcpPass (s₁.filled buf data).longPkg.isSome t ≠ .fault)
      (s₁.filled buf data)

/-! ## One pass -/

theorem HeaderRead.header_ne (h : HeaderRead long s) (hs : Sees long s v) (htwo : 2 ≤ v.length) :
    header v ≠ 0 := by
  have hrec := hs.received
  obtain ⟨blk, hb, hr, hv⟩ := hs.block (by omega)
  have hread : readTcpHeader blk s.received = some (header blk, 2) := by
    rw [readTcpHeader_eq, if_neg (by omega)]
  have hne := h blk _ _ hb hread
  rwa [← hv, header_of_take hr (by omega)]

/-- A pass that reads no zero makes progress. -/
theorem headerRead_iff (hs : Sees long s v) :
    HeaderRead long s ↔ Lowers (tcpPass long) SessionUv.received s := by
  have hrec := hs.received
  constructor
  · intro h t out hpass
    rcases tcpPass_cases hs with ⟨hexit, -⟩ | ⟨out', hagain, htwo, hle, -⟩
    · rw [hexit] at hpass
      cases hpass
    · rw [hagain] at hpass
      cases hpass
      have hne := h.header_ne hs htwo
      exact ⟨header v, by omega, by omega, SessionUv.discard_received _ _ _⟩
  · intro h blk pkgSize headSize hb hread
    rw [readTcpHeader_eq] at hread
    split at hread
    · cases hread
    · rename_i htwo
      cases hread
      obtain ⟨blk', hb', hr, hv⟩ := hs.block (by omega)
      rw [hb, Option.some.injEq] at hb'
      rw [hb', ← header_of_take hr (by omega), hv]
      rcases tcpPass_cases hs with ⟨-, -, hz⟩ | ⟨out', hagain, -, hle, -⟩
      · exact hz (by omega)
      · obtain ⟨k, hk, hkle, hlow⟩ := h _ _ hagain
        rw [SessionUv.discard_received] at hlow
        omega

/-- What is left where the parser stops decides whether a zero is met. -/
theorem headersNonzero_iff (hs : Sees s.longPkg.isSome s v) :
    HeadersNonzero s ↔ HeaderNonzero (tcpFraming.drain v).2 := by
  rw [← tcp_lowers hs]
  refine forall₂_congr fun t ht => ?_
  obtain ⟨w, hw⟩ := tcpPass_sees hs t ht
  exact headerRead_iff hw

/-- What every pass of `tcpDataParser` keeps. -/
structure TcpParsing (long : Bool) (s : SessionUv) : Prop where
  stored : Stored tcpFraming s
  buffer : s.received = 0 ∨ s.buffer long = some s.pkgData

theorem TcpParsing.sees (h : TcpParsing long s) : Sees long s s.view where
  received := h.stored.view_length.symm
  block hpos := ⟨s.pkgData, h.buffer.resolve_left (by omega), h.stored.fits, rfl⟩

/-- **One pass** takes a frame off, or stops. -/
theorem TcpParsing.pass (h : TcpParsing long s) (hread : HeaderRead long s) :
    tcpPass long s = .exit s [] ∨
      ∃ s' out, tcpPass long s = .again s' out ∧ TcpParsing long s' := by
  rcases tcpPass_cases h.sees with ⟨hexit, -⟩ | ⟨out, hagain, htwo, hle, -⟩
  · exact .inl hexit
  · right
    have hlen := h.stored.view_length
    have hne := hread.header_ne h.sees htwo
    have hsize : tcpFraming.size? s.view = some (header s.view) :=
      frameSize?_eq_some.mpr ⟨htwo, rfl, by omega⟩
    have hb : s.buffer long = some s.pkgData := h.buffer.resolve_left (by omega)
    obtain ⟨s', hpass, htaken⟩ := tcpPass_again h.stored hb hsize (by omega)
    exact ⟨s', _, hpass, htaken.stored, htaken.buffer⟩

/-! ## What the invariant of reception says -/

theorem Contained.of_stored (h : Stored tcpFraming s) : Contained s where
  received := by
    rw [SessionUv.capacity]
    cases hl : s.longPkg with
    | none =>
      rw [if_neg (by simp)]
      exact h.received_le hl
    | some blk =>
      rw [if_pos (by rfl)]
      exact h.received_le_long hl
  large := by
    intro blk hl
    have hframe := h.frame blk hl
    have hfull := h.filled blk hl
    obtain ⟨-, hhead, -⟩ := frameSize?_eq_some.mp hframe
    have htwo : 2 ≤ s.received := by
      have hbuf : RECVBUF = 4096 := rfl
      omega
    refine ⟨h.large blk hl, h.size blk hl, ?_⟩
    rw [← hhead, header, header, byteAt_view (by omega), byteAt_view (by omega),
      SessionUv.pkgData_of_some hl]

theorem Offered.examined_filled {buf : UvBuf} (h : Offered tcpFraming s buf) {data : Bytes}
    (hd : (data.length : Int) ≤ buf.len) : buf.ref = tcpExamined (s.filled buf data) := by
  have href := h.ref
  rw [tcpExamined, (h.store hd).2.2]
  cases hl : s.longPkg with
  | some blk => exact href.mpr (by rw [hl]; rfl)
  | none =>
    rw [if_neg (by simp)]
    cases hr : buf.ref with
    | recvBuf => rfl
    | longPkg => exact absurd (href.mp hr) (by simp [hl])

theorem SessionUv.block_filled (s : SessionUv) (buf : UvBuf) (data : Bytes) (r : BufRef) :
    (s.filled buf data).block r = (s.store buf data).block r := by
  cases r <;> rfl

/-- Every pass over what was read stays in the block. -/
theorem parsed_contained (h : Stored tcpFraming s) (hread : HeadersNonzero s) :
    Throughout (tcpPass s.longPkg.isSome)
      (fun t => Contained t ∧ tcpPass s.longPkg.isSome t ≠ .fault) s := by
  have hparsing : Throughout (tcpPass s.longPkg.isSome) (TcpParsing s.longPkg.isSome) s := by
    refine Throughout.invariant hread (fun t t' out hnz hp hpass => ?_) ⟨h, .inr s.buffer_isSome⟩
    rcases hp.pass hnz with hexit | ⟨u, out', hagain, hu⟩
    · rw [hexit] at hpass
      cases hpass
    · rw [hagain] at hpass
      cases hpass
      exact hu
  intro t ht
  have hp := hparsing t ht
  refine ⟨.of_stored hp.stored, ?_⟩
  rcases hp.pass (hread t ht) with hexit | ⟨u, out', hagain, -⟩
  · rw [hexit]
    simp
  · rw [hagain]
    simp

/-! ## Runs -/

/-- What holds between two reads. -/
structure TcpWaiting (s : SessionUv) : Prop where
  socketType : s.socketType = .TCP_SOCKET
  ready : Ready tcpFraming s
  headerNonzero : HeaderNonzero s.view

theorem TcpWaiting.buffersAgree (h : TcpWaiting s) :
    ∃ s₁ buf, uvTcpBuffmem s = some (s₁, buf) ∧ TcpBuffersAgree s s₁ buf := by
  obtain ⟨s₁, buf, hbuf, hoff, -, -⟩ := uvTcpBuffmem_tcp h.ready h.socketType h.headerNonzero
  obtain ⟨-, hrec, -⟩ := uvTcpBuffmem_keeps hbuf
  have hst := hoff.stored
  refine ⟨s₁, buf, hbuf, ?_, hoff.pos, hoff.inBounds, .of_stored hst, fun data hd => ?_,
    fun data hd hread => parsed_contained (hoff.store hd).1 hread⟩
  · intro _ blk hl
    refine ⟨hst.large blk hl, ?_⟩
    rw [← hrec, hst.size blk hl]
    exact hst.received_le_long hl
  · have href := hoff.examined_filled hd
    refine ⟨.of_stored (hoff.store hd).1, href, _, ?_, hoff.slice_store hd⟩
    rw [← href, SessionUv.block_filled, hoff.block_store data]

theorem TcpWaiting.read {lib : HttpLib} {s₁ s' : SessionUv} {buf : UvBuf} {data : Bytes}
    {out : List Call} (h : TcpWaiting s) (hbuf : uvTcpBuffmem s = some (s₁, buf))
    (hd : (data.length : Int) ≤ buf.len) (hread : HeadersNonzero (s₁.filled buf data))
    (hrun : uvReadData lib (s₁.store buf data) data.length = .ended s' out) : TcpWaiting s' := by
  obtain ⟨t, buf', hbuf', hoff, -, hkind⟩ :=
    uvTcpBuffmem_tcp h.ready h.socketType h.headerNonzero
  rw [hbuf] at hbuf'
  cases hbuf'
  have hst := (hoff.store hd).1
  have hparsing : TcpParsing (s₁.filled buf data).longPkg.isSome (s₁.filled buf data) :=
    ⟨hst, .inr (SessionUv.buffer_isSome _)⟩
  have hnz := (headersNonzero_iff hparsing.sees).mp hread
  obtain ⟨t, hend, hready, hview, htype⟩ := tcpDataParser_drain hst hnz
  have hkind' : (s₁.filled buf data).socketType = .TCP_SOCKET := by simpa using hkind
  rw [uvReadData_store, readData, hkind'] at hrun
  simp only [hend] at hrun
  cases hrun
  exact ⟨htype.trans hkind', hready, by rwa [hview]⟩

theorem TcpWaiting.failed {lib : HttpLib} {s₁ s' : SessionUv} {buf : UvBuf} {nread : Int}
    {out : List Call} (h : TcpWaiting s) (hbuf : uvTcpBuffmem s = some (s₁, buf)) (hn : nread < 0)
    (hrun : uvReadData lib s₁ nread = .ended s' out) : TcpWaiting s' := by
  rw [uvReadData, if_pos hn] at hrun
  cases hrun
  obtain ⟨t, buf', hbuf', hoff, hview, hkind⟩ :=
    uvTcpBuffmem_tcp h.ready h.socketType h.headerNonzero
  rw [hbuf] at hbuf'
  cases hbuf'
  refine ⟨hkind, ⟨hoff.stored, ?_⟩, ?_⟩
  · rw [hview]
    exact h.ready.drained
  · rw [hview]
    exact h.headerNonzero

theorem TcpReached.waiting {lib : HttpLib} (h : TcpReached lib s) : TcpWaiting s := by
  induction h with
  | create => exact ⟨rfl, ready_create _ _, fun h => absurd h (by simp)⟩
  | read _ hbuf hd hread hrun ih => exact ih.read hbuf hd hread hrun
  | failed _ hbuf hn hrun ih => exact ih.failed hbuf hn hrun

/-- **TCP receive buffers stay in bounds** over every stream of bytes in
which no header is zero. -/
theorem tcp_buffers (lib : HttpLib) (s : SessionUv) (h : TcpReached lib s) :
    Contained s ∧ ∃ s₁ buf, uvTcpBuffmem s = some (s₁, buf) ∧ TcpBuffersAgree s s₁ buf :=
  ⟨.of_stored h.waiting.ready.toStored, h.waiting.buffersAgree⟩

/-- The first bytes of a package of 8192, as many as `recvBuf` holds. -/
def largeFront : Bytes := 0 :: 32 :: List.replicate 4094 0

theorem length_largeFront : largeFront.length = RECVBUF := by
  rw [largeFront, List.length_cons, List.length_cons, List.length_replicate]
  rfl

/-- `recvBuf` is full, and a block is made for the package. -/
theorem tcp_buffers_large :
    ∃ s, TcpReached noHttp s ∧ s.received = RECVBUF ∧
      Contained s ∧ ∃ s₁ buf, uvTcpBuffmem s = some (s₁, buf) ∧ TcpBuffersAgree s s₁ buf := by
  obtain ⟨hbuf, hoff⟩ := uvTcpBuffmem_recvBuf (ready_create tcpFraming .TCP_SOCKET).toStored rfl
    (show (SessionUv.create .TCP_SOCKET).received < RECVBUF by decide)
  have hd : (largeFront.length : Int) ≤ RECVBUF - (SessionUv.create .TCP_SOCKET).received := by
    rw [length_largeFront]
    exact Int.le_refl _
  obtain ⟨hst, hview, -⟩ := hoff.store hd
  rw [SessionUv.create_view, List.nil_append] at hview
  have hhead : header largeFront = 8192 := rfl
  -- the package is incomplete, so the parser stops at once
  have hsplit : tcpFraming.split? largeFront = none := by
    refine tcp_split?_none (.inr ?_)
    rw [hhead, length_largeFront]
    decide
  have hnz : HeaderNonzero (tcpFraming.drain largeFront).2 := by
    rw [tcpFraming.drain_of_none hsplit]
    intro _
    rw [hhead]
    decide
  have hparsing : TcpParsing ((SessionUv.create .TCP_SOCKET).filled _ largeFront).longPkg.isSome
      ((SessionUv.create .TCP_SOCKET).filled _ largeFront) :=
    ⟨hst, .inr (SessionUv.buffer_isSome _)⟩
  have hread := (headersNonzero_iff hparsing.sees).mpr (by rwa [hview])
  obtain ⟨s', hend, hready, hview', -⟩ := tcpDataParser_drain hst (by rwa [hview])
  rw [hview, tcpFraming.drain_of_none hsplit] at hview'
  have hreached : TcpReached noHttp s' :=
    .read .create hbuf hd hread (uvReadData_store.trans hend)
  refine ⟨s', hreached, ?_, tcp_buffers noHttp s' hreached⟩
  rw [← hready.view_length, hview', length_largeFront]

end LibuvServer.Netbus
