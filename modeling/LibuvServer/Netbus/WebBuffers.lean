import LibuvServer.Netbus.WebReassembly
import Mathlib.Tactic.Common

/-!
# The receive buffers of a web session

Which buffer is offered, which is filled and which is looked at, over every
stream of bytes. `Keeps` is what a read has to leave behind for the choices
to agree: a request that is complete before `recvBuf` is full, and after the
handshake a front that announces a package whenever `recvBuf` is full.
-/

namespace LibuvServer.Netbus

open LibuvServer.Lib WebProtocol

variable {s : SessionUv} {long : Bool}

/-- The buffer that `webserShakeHand` or `webDataParser` looks at. -/
def examined (s : SessionUv) : BufRef :=
  if s.wsShake ∧ s.longPkgSize ≠ 0 then .longPkg else .recvBuf

/-- The block a buffer lies in. -/
def SessionUv.block (s : SessionUv) : BufRef → Option Bytes
  | .recvBuf => some s.recvBuf
  | .longPkg => s.longPkg

/-- A buffer lies inside `recvBuf` or inside the large block. -/
def InBounds (s : SessionUv) (buf : UvBuf) : Prop :=
  match buf.ref with
  | .recvBuf => buf.offset + buf.len ≤ RECVBUF
  | .longPkg => ∃ blk, s.longPkg = some blk ∧ blk.length = s.longPkgSize ∧
      buf.offset + buf.len ≤ s.longPkgSize

/-- What the next `uv_tcpBuffmem` and the read into its buffer do: the bytes
copied into a new large block fit, the buffer is a non-empty place in one of
the two blocks, and what is stored there is where it is looked for. -/
def BuffersAgree (s : SessionUv) : Prop :=
  ∃ s' buf, uvTcpBuffmem s = some (s', buf) ∧
    (s.longPkg = none → ∀ blk, s'.longPkg = some blk → s.received ≤ blk.length) ∧
    0 < buf.len ∧ InBounds s' buf ∧ buf.ref = examined s' ∧
    ∀ data : Bytes, (data.length : Int) ≤ buf.len →
      ∃ blk, (s'.store buf data).block (examined s') = some blk ∧
        slice blk buf.offset data.length = data

/-- The states of a web session over reads that meet `step`, and over failing
ones. -/
inductive Reached (lib : HttpLib) (step : SessionUv → Bytes → Prop) : SessionUv → Prop where
  | create : Reached lib step (.create .WEB_SOCKET)
  | read {s s' : SessionUv} {data : Bytes} {out : List Call} :
      Reached lib step s → (data.length : Int) ≤ offered s → step s data →
      deliver lib s data = .ended s' out → Reached lib step s'
  | failed {s s' s'' : SessionUv} {buf : UvBuf} {nread : Int} {out : List Call} :
      Reached lib step s → uvTcpBuffmem s = some (s', buf) → nread < 0 →
      uvReadData lib s' nread = .ended s'' out → Reached lib step s''

/-- The bytes a parser leaves when it has to wait for more. -/
def leftover (s : SessionUv) (data : Bytes) : Bytes := (webFraming.drain (s.view ++ data)).2

/-- What a read has to keep. Before the handshake, `recvBuf` is not full
unless the request is complete. After it, no header announces a negative
size, and one is accepted when `recvBuf` is full. -/
def Keeps (lib : HttpLib) (s : SessionUv) (data : Bytes) : Prop :=
  if s.wsShake then
    (∀ p k, readWebHeader (leftover s data) (leftover s data).length = some (p, k) → 0 ≤ p) ∧
      (RECVBUF ≤ (leftover s data).length →
        (readWebHeader (leftover s data) (leftover s data).length).isSome)
  else
    (webserShakeHand lib (s.view ++ data)).isSome ∨ s.received + data.length < RECVBUF

/-! ## Offered buffers -/

section Offered

variable {F : Framing UInt8} {buf : UvBuf}

theorem Offered.block (h : Offered F s buf) : s.block buf.ref = some s.pkgData := by
  have href := h.ref
  cases hr : buf.ref with
  | recvBuf =>
    have hl : s.longPkg = none := by
      rw [hr] at href
      simpa using href
    rw [SessionUv.block, SessionUv.pkgData_of_none hl]
  | longPkg =>
    obtain ⟨blk, hl⟩ := Option.isSome_iff_exists.mp (href.mp hr)
    rw [SessionUv.block, SessionUv.pkgData_of_some hl, hl]

theorem Offered.inBounds (h : Offered F s buf) : InBounds s buf := by
  have hin := h.inside
  have hblock := h.block
  unfold InBounds
  split
  · rename_i hr
    rw [hr, SessionUv.block, Option.some.injEq] at hblock
    rw [← hblock, s.recvBuf_size] at hin
    exact Int.le_of_eq hin
  · rename_i hr
    rw [hr, SessionUv.block] at hblock
    have hsize := h.stored.size _ hblock
    rw [hsize] at hin
    exact ⟨_, hblock, hsize, Int.le_of_eq hin⟩

/-- A read stores in the block its buffer lies in. -/
theorem Offered.block_store (h : Offered F s buf) (data : Bytes) :
    (s.store buf data).block buf.ref = some (overwrite s.pkgData buf.offset data) := by
  have hblock := h.block
  cases hr : buf.ref with
  | recvBuf =>
    rw [hr, SessionUv.block, Option.some.injEq] at hblock
    simp [SessionUv.store, SessionUv.block, SessionUv.write, hr, hblock]
  | longPkg =>
    rw [hr, SessionUv.block] at hblock
    simp [SessionUv.store, SessionUv.block, SessionUv.write, hr, hblock]

theorem Offered.slice_store (h : Offered F s buf) {data : Bytes}
    (hd : (data.length : Int) ≤ buf.len) :
    slice (overwrite s.pkgData buf.offset data) buf.offset data.length = data := by
  have hin := h.inside
  exact slice_overwrite (by omega)

end Offered

/-! ## The parser on any bytes -/

/-- A header that announces nothing leaves the session as it is. -/
theorem webPass_zero {k : Nat} (h : Stored webFraming s) (hb : s.buffer long = some s.pkgData)
    (hread : readWebHeader s.view s.view.length = some (0, k)) :
    webPass long s = .again s [.recCommand [] (-k)] := by
  have hpos : 0 < s.received := by
    rw [← h.view_length]
    refine List.length_pos_of_ne_nil fun hnil => ?_
    simp [hnil, readWebHeader] at hread
  have hfits := h.fits
  have hop := readWebHeader_opcode hread
  rw [byteAt_view hpos] at hop
  rw [← h.readWebHeader_view hpos] at hread
  have hlen : ((0 : Int) - k).toNat = 0 := by omega
  have hnil : slice s.pkgData k 0 = [] := List.take_zero
  simp only [webPass, hb, hread, hlen, hnil]
  rw [if_neg (by omega), if_neg (by omega), if_neg (by omega), if_neg (by omega),
    if_neg (by omega), show parserRecvData [] (slice s.pkgData (k - 4) 4) = [] from rfl,
    SessionUv.write_nil, Int.toNat_zero, discard_zero h hb hpos, Int.zero_sub]

/-- What every pass of `webDataParser` keeps: the bytes it will stop at. -/
structure Parsing (long : Bool) (rest : Bytes) (s : SessionUv) : Prop where
  stored : Stored webFraming s
  buffer : s.received = 0 ∨ s.buffer long = some s.pkgData
  shaken : Shaken s
  rest : (webFraming.drain s.view).2 = rest

/-- **One pass** takes a frame off, spins on a header of zero, or stops. -/
theorem Parsing.pass {rest : Bytes} (h : Parsing long rest s)
    (hneg : ∀ p k, readWebHeader rest rest.length = some (p, k) → 0 ≤ p) :
    (∃ s' out, webPass long s = .again s' out ∧ Parsing long rest s') ∨
      ∃ out, webPass long s = .exit s out ∧ webFraming.split? s.view = none ∧
        ∀ p k, readWebHeader rest rest.length = some (p, k) → 0 < p := by
  have hst := h.stored
  have hrest := h.rest
  cases hs : webFraming.split? s.view with
  | some q =>
    left
    obtain ⟨f, r⟩ := q
    obtain ⟨hsize, hview, hpos⟩ := webFraming.split?_some hs
    obtain ⟨-, k, hread⟩ := frameSize?_eq_some.mp hsize
    have hle : f.length ≤ s.received := by
      rw [← hst.view_length, hview, List.length_append]
      omega
    have hb : s.buffer long = some s.pkgData := h.buffer.resolve_left (by omega)
    obtain ⟨s', hpass, ht⟩ := webPass_header hst hb hread hpos hle
    refine ⟨s', _, hpass, ht.stored, ht.buffer, ?_, ?_⟩
    · exact ⟨ht.socketType.trans h.shaken.socketType, ht.wsShake.trans h.shaken.wsShake⟩
    · rw [ht.view, hview, List.drop_left, ← hrest, webFraming.drain_of_some hs]
  | none =>
    rw [webFraming.drain_of_none hs] at hrest
    simp only at hrest
    -- a header of zero takes nothing off, and the next pass finds it again
    by_cases hzero : ∃ k, readWebHeader rest rest.length = some (0, k)
    · left
      obtain ⟨k, hread⟩ := hzero
      rw [← hrest] at hread
      have hpos : s.received ≠ 0 := by
        intro hr
        have hnil : s.view = [] := List.eq_nil_of_length_eq_zero (by rw [hst.view_length, hr])
        simp [hnil, readWebHeader] at hread
      exact ⟨s, _, webPass_zero hst (h.buffer.resolve_left hpos) hread, h⟩
    · right
      have hpos : ∀ p k, readWebHeader rest rest.length = some (p, k) → 0 < p := by
        intro p k hread
        have hge := hneg p k hread
        have hne : p ≠ 0 := by
          rintro rfl
          exact hzero ⟨k, hread⟩
        omega
      exact ⟨_, webPass_exit hst h.buffer hs (by rw [hrest]; exact hpos), rfl, hpos⟩

/-- `webDataParser` stays inside its block, and where it ends nothing but the
front of one frame is left. -/
theorem webDataParser_safe (h : Stored webFraming s) (hk : Shaken s)
    (hneg : ∀ p k, readWebHeader (webFraming.drain s.view).2 (webFraming.drain s.view).2.length =
      some (p, k) → 0 ≤ p) :
    webDataParser s ≠ .faulted ∧
      ∀ s' out, webDataParser s = .ended s' out →
        Shaken s' ∧ Ready webFraming s' ∧ s'.view = (webFraming.drain s.view).2 ∧
          ∀ p k, readWebHeader s'.view s'.view.length = some (p, k) → 0 < p := by
  have hstart : Parsing s.longPkg.isSome (webFraming.drain s.view).2 s :=
    ⟨h, .inr s.buffer_isSome, hk, rfl⟩
  have hagain : ∀ t t' out, Parsing s.longPkg.isSome (webFraming.drain s.view).2 t →
      webPass s.longPkg.isSome t = .again t' out →
      Parsing s.longPkg.isSome (webFraming.drain s.view).2 t' := by
    intro t t' out ht hpass
    rcases ht.pass hneg with ⟨u, out', hpass', hu⟩ | ⟨out', hpass', -⟩
    · rw [hpass'] at hpass
      cases hpass
      exact hu
    · rw [hpass'] at hpass
      cases hpass
  rw [webDataParser, h.longPkgSize_ne_zero]
  refine ⟨iterate_no_fault hagain ?_ hstart, fun s' out hrun => ?_⟩
  · intro t ht hpass
    rcases ht.pass hneg with ⟨u, out', hpass', -⟩ | ⟨out', hpass', -⟩ <;>
      · rw [hpass'] at hpass
        cases hpass
  · refine iterate_invariant (Q := fun t => Shaken t ∧ Ready webFraming t ∧
      t.view = (webFraming.drain s.view).2 ∧
        ∀ p k, readWebHeader t.view t.view.length = some (p, k) → 0 < p) hagain ?_ hstart hrun
    intro t t' out ht hpass
    rcases ht.pass hneg with ⟨u, out', hpass', -⟩ | ⟨out', hpass', hsplit, hpos⟩
    · rw [hpass'] at hpass
      cases hpass
    · rw [hpass'] at hpass
      cases hpass
      have hview : t.view = (webFraming.drain s.view).2 := by
        rw [← ht.rest, webFraming.drain_of_none hsplit]
      exact ⟨ht.shaken, ⟨ht.stored, hsplit⟩, hview, by rw [hview]; exact hpos⟩

/-! ## Runs -/

/-- What holds between two reads that keep what `Keeps` says. -/
inductive Waiting (s : SessionUv) : Prop where
  | request (h : Shaking s)
  | frames (hk : Shaken s) (h : Ready webFraming s)
      (size : RECVBUF ≤ s.view.length → ∃ n, webFraming.size? s.view = some n)

theorem Waiting.offers (h : Waiting s) :
    ∃ s' buf, uvTcpBuffmem s = some (s', buf) ∧ Offered webFraming s' buf ∧ s'.view = s.view ∧
      s'.received = s.received ∧ s'.wsShake = s.wsShake ∧ (s.wsShake = false → s' = s) := by
  cases h with
  | request h =>
    obtain ⟨hbuf, hoff⟩ := uvTcpBuffmem_recvBuf (h.stored webFraming) h.longPkg h.within
    exact ⟨s, _, hbuf, hoff, rfl, rfl, rfl, fun _ => rfl⟩
  | frames hk h size =>
    obtain ⟨s', buf, hbuf, hoff, hv, -⟩ := uvTcpBuffmem_web h hk size
    obtain ⟨-, hrec, -, hw⟩ := uvTcpBuffmem_keeps hbuf
    refine ⟨s', buf, hbuf, hoff, hv, hrec, hw, fun hfalse => ?_⟩
    rw [hk.wsShake] at hfalse
    cases hfalse

/-- **The two sides agree** between two such reads. -/
theorem Waiting.buffersAgree (h : Waiting s) : BuffersAgree s := by
  obtain ⟨s', buf, hbuf, hoff, hview, hrec, hshake, hsame⟩ := h.offers
  have hst := hoff.stored
  have hin := hoff.inside
  have hshaking : s.wsShake = false → s'.longPkg = none := by
    intro hfalse
    rw [hsame hfalse]
    cases h with
    | request h => exact h.longPkg
    | frames hk _ _ =>
      rw [hk.wsShake] at hfalse
      cases hfalse
  -- the block in use is the one that is looked at
  have href : buf.ref = examined s' := by
    rw [examined]
    cases hl : s'.longPkg with
    | none =>
      have hne : buf.ref ≠ .longPkg := by
        rw [Ne, hoff.ref, hl]
        simp
      rw [if_neg (fun hc => hc.2 (hst.short hl))]
      cases hr : buf.ref with
      | recvBuf => rfl
      | longPkg => exact absurd hr hne
    | some blk =>
      have hlarge := hst.large blk hl
      have hw : s'.wsShake = true := by
        cases hc : s'.wsShake with
        | true => rfl
        | false =>
          rw [hshaking (hshake ▸ hc)] at hl
          cases hl
      rw [if_pos ⟨hw, by omega⟩]
      exact hoff.ref.mpr (by rw [hl]; rfl)
  refine ⟨s', buf, hbuf, ?_, hoff.pos, hoff.inBounds, href, fun data hd => ?_⟩
  · intro _ blk hl
    rw [← hrec, hst.size blk hl]
    exact hst.received_le_long hl
  · rw [← href]
    exact ⟨_, hoff.block_store data, hoff.slice_store hd⟩

/-- **A read that keeps what it has to** does not touch memory outside the
buffers, and the session waits again. -/
theorem Waiting.deliver {lib : HttpLib} {data : Bytes} (h : Waiting s)
    (hd : (data.length : Int) ≤ offered s) (hkeep : Keeps lib s data) :
    deliver lib s data ≠ .faulted ∧
      ∀ s' out, deliver lib s data = .ended s' out → Waiting s' := by
  cases h with
  | request h =>
    have hwithin := h.within
    rw [offered_shaking h] at hd
    rw [Keeps, if_neg (by simp [h.wsShake])] at hkeep
    rw [h.deliver_eq lib (by omega)]
    cases hshake : webserShakeHand lib (s.view ++ data) with
    | some reply =>
      refine ⟨by simp, fun s' out hrun => ?_⟩
      cases hrun
      have hnil : (s.collect data).shaken.view = [] := List.take_zero
      refine .frames ⟨h.socketType, rfl⟩ (ready_shaken _ h.longPkg h.longPkgSize) fun hfull => ?_
      rw [hnil] at hfull
      exact absurd hfull (by decide)
    | none =>
      rw [hshake] at hkeep
      refine ⟨by simp, fun s' out hrun => ?_⟩
      cases hrun
      exact .request (h.collect (hkeep.resolve_left (by simp)))
  | frames hk h size =>
    obtain ⟨s₁, buf, hbuf, hoff, hv₁, hk₁⟩ := uvTcpBuffmem_web h hk size
    have hlen : (data.length : Int) ≤ buf.len := by simpa [offered, hbuf] using hd
    obtain ⟨hst, hv₂, -⟩ := hoff.store hlen
    rw [hv₁] at hv₂
    have hk₂ : Shaken (s₁.filled buf data) :=
      ⟨by simpa using hk₁.socketType, by simpa using hk₁.wsShake⟩
    rw [Keeps, if_pos hk.wsShake, leftover, ← hv₂] at hkeep
    obtain ⟨hneg, hsize⟩ := hkeep
    obtain ⟨hsafe, hend⟩ := webDataParser_safe hst hk₂ hneg
    simp only [Netbus.deliver, hbuf, uvReadData_store, readData_web hk₂]
    refine ⟨hsafe, fun s' out hrun => ?_⟩
    obtain ⟨hk', hready, hview, hpos⟩ := hend s' out hrun
    refine .frames hk' hready fun hfull => ?_
    obtain ⟨⟨p, k⟩, hread⟩ := Option.isSome_iff_exists.mp (hsize (by rwa [← hview]))
    rw [← hview] at hread
    have hp := hpos p k hread
    refine ⟨p.toNat, frameSize?_eq_some.mpr ⟨by omega, k, ?_⟩⟩
    rw [hread, Int.toNat_of_nonneg (by omega)]

theorem Waiting.failed {lib : HttpLib} {s' s'' : SessionUv} {buf : UvBuf} {nread : Int}
    {out : List Call} (h : Waiting s) (hbuf : uvTcpBuffmem s = some (s', buf)) (hn : nread < 0)
    (hrun : uvReadData lib s' nread = .ended s'' out) : Waiting s'' := by
  rw [uvReadData, if_pos hn] at hrun
  cases hrun
  obtain ⟨t, buf', hbuf', hoff, hview, -, hshake, hsame⟩ := h.offers
  rw [hbuf] at hbuf'
  cases hbuf'
  cases h with
  | request h =>
    rw [hsame h.wsShake]
    exact .request h
  | frames hk h size =>
    obtain ⟨-, -, htype, -⟩ := uvTcpBuffmem_keeps hbuf
    refine .frames ⟨htype.trans hk.socketType, hshake.trans hk.wsShake⟩
      ⟨hoff.stored, by rw [hview]; exact h.drained⟩ (by rw [hview]; exact size)

theorem Reached.waiting {lib : HttpLib} (h : Reached lib (Keeps lib) s) : Waiting s := by
  induction h with
  | create => exact .request shaking_create
  | read _ hd hkeep hrun ih => exact (ih.deliver hd hkeep).2 _ _ hrun
  | failed _ hbuf hn hrun ih => exact ih.failed hbuf hn hrun

/-- **Web receive buffers stay in bounds**, and the two sides agree on which
one is in use, in every state reached over reads that keep what they have to. -/
theorem web_buffers (lib : HttpLib) (s : SessionUv) (h : Reached lib (Keeps lib) s) :
    BuffersAgree s ∧ ∀ data : Bytes, (data.length : Int) ≤ offered s → Keeps lib s data →
      deliver lib s data ≠ .faulted :=
  ⟨h.waiting.buffersAgree, fun _ hd hkeep => (h.waiting.deliver hd hkeep).1⟩

/-- More than `recvBuf` holds. -/
def largePayload : Bytes := List.replicate 5000 0

theorem length_largePayload : largePayload.length = 5000 := List.length_replicate

theorem largePayload_le : largePayload.length ≤ 65535 := by
  rw [length_largePayload]
  decide

theorem largeFrame_mask : ([1, 2, 3, 4] : Bytes).length = 4 := rfl

/-- A frame that does not fit `recvBuf`. -/
def largeFrame : ClientFrame :=
  ⟨0x82, [1, 2, 3, 4], largePayload, opcode_binary, largeFrame_mask, largePayload_le⟩

theorem length_largeFrame : largeFrame.encode.length = 5008 := by
  rw [largeFrame.length_encode, ClientFrame.headSize,
    show largeFrame.payload.length = 5000 from length_largePayload]
  rfl

theorem Pending.keeps {lib : HttpLib} {data : Bytes} (hk : Shaken s)
    (h : Pending (leftover s data)) : Keeps lib s data := by
  rw [Keeps, if_pos hk.wsShake]
  refine ⟨fun p k hread => Int.le_of_lt (h.positive p k hread), fun hfull => ?_⟩
  obtain ⟨n, hn⟩ := h.size hfull
  obtain ⟨-, k, hread⟩ := frameSize?_eq_some.mp hn
  rw [hread]
  rfl

/-- A read that stays inside a frame is kept. -/
theorem deliver_front (lib : HttpLib) {f : ClientFrame} {data : Bytes} (h : Ready webFraming s)
    (hk : Shaken s) (hd : (data.length : Int) ≤ offered s) (hv : s.view ++ data <+: f.encode)
    (hlt : (s.view ++ data).length < f.encode.length) :
    ∃ s', deliver lib s data = .ended s' [] ∧ Keeps lib s data ∧ Ready webFraming s' ∧
      Shaken s' ∧ s'.view = s.view ++ data := by
  have hdrain : webFraming.drain (s.view ++ data) = ([], s.view ++ data) :=
    webFraming.drain_of_none (f.encode_isFrame.split?_short hv hlt)
  have hrest : Pending (webFraming.drain (s.view ++ data)).2 := by
    rw [hdrain]
    exact pending_short hv
  obtain ⟨s', hrun, hready, hk', hview⟩ := deliver_web lib s data h hk hd
    (pending_short ((List.prefix_append _ _).trans hv)) (by rw [hdrain]; simp) hrest
  rw [hdrain] at hrun hview
  exact ⟨s', hrun, hrest.keeps hk, hready, hk', hview⟩

/-- A frame that does not fit is read as far as `recvBuf` goes, and then on. -/
theorem web_buffers_sample : ∃ s, Reached sampleLib (Keeps sampleLib) s ∧
    s.longPkg.isSome = true ∧ BuffersAgree s := by
  obtain ⟨reply, hreply⟩ := webserShakeHand_sample
  obtain ⟨out, hrun⟩ := deliver_sampleRequest
  have hkeep : Keeps sampleLib (.create .WEB_SOCKET) sampleRequest := by
    rw [Keeps, if_neg (by simp [shaking_create.wsShake]), hreply]
    exact .inl rfl
  have hreached : Reached sampleLib (Keeps sampleLib) sampleSession :=
    .read .create offered_sampleRequest hkeep hrun
  obtain ⟨hk, hready, hnil⟩ := handshaken_sample.fresh
  have hlong := length_largeFrame
  have hbuf : RECVBUF = 4096 := rfl
  -- the front that fills `recvBuf`
  obtain ⟨hzero, hnone⟩ := hready.empty hnil
  have hroom := (uvTcpBuffmem_recvBuf hready.toStored hnone (by omega)).1
  have hfront : (largeFrame.encode.take RECVBUF).length = RECVBUF := by
    rw [List.length_take]
    omega
  have hfits : ((largeFrame.encode.take RECVBUF).length : Int) ≤ offered sampleSession := by
    simp only [offered, hroom]
    omega
  obtain ⟨s₁, hrun₁, hkeep₁, hready₁, hk₁, hview₁⟩ := deliver_front sampleLib hready hk hfits
    (by rw [hnil, List.nil_append]; exact List.take_prefix RECVBUF largeFrame.encode)
    (by rw [hnil, List.nil_append]; omega)
  rw [hnil, List.nil_append] at hview₁
  have hreached₁ : Reached sampleLib (Keeps sampleLib) s₁ :=
    .read hreached hfits hkeep₁ hrun₁
  -- one byte more
  have hpre : s₁.view ++ (largeFrame.encode.drop RECVBUF).take 1 <+: largeFrame.encode := by
    rw [hview₁, ← List.take_add]
    exact List.take_prefix _ _
  have hone : ((largeFrame.encode.drop RECVBUF).take 1).length = 1 := by
    rw [List.length_take, List.length_drop]
    omega
  have hoff := offered_web hready₁ hk₁ (pending_short ((List.prefix_append _ _).trans hpre))
  obtain ⟨s₂, hrun₂, hkeep₂, hready₂, -, hview₂⟩ := deliver_front sampleLib hready₁ hk₁
    (by omega) hpre (by rw [List.length_append, hview₁]; omega)
  have hreached₂ : Reached sampleLib (Keeps sampleLib) s₂ :=
    .read hreached₁ (by omega) hkeep₂ hrun₂
  refine ⟨s₂, hreached₂, ?_, (web_buffers sampleLib s₂ hreached₂).1⟩
  rw [Option.isSome_iff_ne_none]
  intro hl
  have hle := hready₂.received_le hl
  rw [← hready₂.view_length, hview₂, List.length_append, hview₁] at hle
  omega

/-- The vendored packages on bytes that are no HTTP at all. -/
def noHttp : HttpLib := ⟨fun _ => [], fun _ => [], fun _ => []⟩

/-- `RECVBUF` zero bytes before any handshake: the block for the rest of the
request is malloc'ed with size zero, and the bytes so far are copied into it. -/
theorem web_buffers_full :
    ∃ s, Reached noHttp (fun _ _ => True) s ∧ uvTcpBuffmem s = none ∧ ¬ BuffersAgree s := by
  have hlen : (List.replicate RECVBUF (0 : UInt8)).length = RECVBUF := List.length_replicate
  have hfit : (SessionUv.create .WEB_SOCKET).received +
      (List.replicate RECVBUF (0 : UInt8)).length ≤ RECVBUF := by
    rw [hlen]
    exact Nat.le_of_eq (Nat.zero_add _)
  have hrun := shaking_create.deliver_eq noHttp hfit
  have hreached : Reached noHttp (fun _ _ => True)
      ((SessionUv.create .WEB_SOCKET).collect (List.replicate RECVBUF 0)) := by
    refine .read .create ?_ trivial hrun
    rw [offered_shaking shaking_create]
    omega
  have hnone : uvTcpBuffmem ((SessionUv.create .WEB_SOCKET).collect (List.replicate RECVBUF 0)) =
      none := by
    have hfull : (SessionUv.create .WEB_SOCKET).received +
        (List.replicate RECVBUF (0 : UInt8)).length = RECVBUF := by
      rw [hlen]
      exact Nat.zero_add _
    have hrec : ((SessionUv.create .WEB_SOCKET).collect
        (List.replicate RECVBUF 0)).received = RECVBUF := by
      rw [Shaking.collect_received, hfull]
    have hbytes := shaking_create.collect_recvBuf hfull
    rw [SessionUv.create_view, List.nil_append] at hbytes
    have hzero : ∀ i, byteAt (List.replicate RECVBUF (0 : UInt8)) i = 0 := by
      intro i
      by_cases hi : i < RECVBUF <;> simp [byteAt, hi]
    have hsize : announcedSize ((SessionUv.create .WEB_SOCKET).collect
        (List.replicate RECVBUF 0)) = 0 := by
      rw [announcedSize, if_neg (by simp [SessionUv.collect, SessionUv.create]), hrec, hbytes,
        TcpProtocol.readTcpHeader_eq, if_neg (by decide), TcpProtocol.header, hzero, hzero]
      rfl
    have hlong : ((SessionUv.create .WEB_SOCKET).collect
        (List.replicate RECVBUF 0)).longPkg = none := rfl
    rw [uvTcpBuffmem, if_neg (by omega), hlong, hsize, hrec]
    rfl
  refine ⟨_, hreached, hnone, ?_⟩
  rintro ⟨s', buf, hbuf, -⟩
  rw [hnone] at hbuf
  cases hbuf

end LibuvServer.Netbus
