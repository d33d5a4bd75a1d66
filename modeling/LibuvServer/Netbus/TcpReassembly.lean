import LibuvServer.Netbus.Reception
import Mathlib.Tactic.Common

/-!
# TCP reassembly

`tcpDataParser` hands on the frames that `tcpFraming` finds in the received
bytes, and reads of any sizes hand on the payloads of a stream of packages
one by one, as their frames become complete.
-/

namespace LibuvServer.Netbus

open LibuvServer.Lib TcpProtocol

variable {s : SessionUv} {long : Bool} {n : Nat}

/-- What `tcpDataParser` calls for one frame. A frame no longer than its own
header closes the session and still reaches `RecCommand`. -/
def tcpCalls (frame : Bytes) : List Call :=
  (if frame.length ≤ 2 then [.close] else []) ++
    [.recCommand (frame.drop 2) (frame.length - 2)]

theorem tcpCalls_parserRecvData {payload : Bytes} (h : 1 ≤ payload.length) :
    tcpCalls (parserRecvData payload) = [handOn payload] := by
  have hlong : ¬ payload.length + 2 ≤ 2 := by omega
  rw [tcpCalls, length_parserRecvData, if_neg hlong, drop_parserRecvData, handOn]
  simp

/-- A header of zero announces no frame and stops no loop. -/
def HeaderNonzero (v : Bytes) : Prop := 2 ≤ v.length → header v ≠ 0

/-! ## One pass -/

theorem tcpPass_again (h : Stored tcpFraming s) (hb : s.buffer long = some s.pkgData)
    (hn : tcpFraming.size? s.view = some n) (hle : n ≤ s.received) :
    ∃ s', tcpPass long s = .again s' (tcpCalls (s.view.take n)) ∧ Taken tcpFraming long s n s' := by
  have htaken := h.discard hb hn hle 0 [] (.inl rfl)
  rw [SessionUv.write_nil] at htaken
  refine ⟨s.discard long n, ?_, htaken⟩
  obtain ⟨htwo, hhead, hpos⟩ := frameSize?_eq_some.mp hn
  rw [h.view_length] at htwo
  have hheader : header s.pkgData = n := by
    rw [← hhead, header, header, byteAt_view (by omega), byteAt_view (by omega)]
  have hfits := h.fits
  have hlen : (s.view.take n).length = n := by
    rw [List.length_take, h.view_length]
    omega
  simp only [tcpPass, hb, readTcpHeader_eq, hheader]
  rw [if_neg (by omega), if_neg (by omega), if_neg (by omega)]
  simp only
  rw [if_neg (by omega), tcpCalls, hlen]
  have hcut : ((n : Int) - (2 : Nat)).toNat = n - 2 := by omega
  rw [hcut, slice_pkgData_eq hle]
  rfl

theorem tcpPass_exit (h : Stored tcpFraming s)
    (hb : s.received = 0 ∨ s.buffer long = some s.pkgData)
    (hd : tcpFraming.split? s.view = none) (hz : HeaderNonzero s.view) :
    tcpPass long s = .exit s [] := by
  rw [tcpPass]
  by_cases hr : s.received = 0
  · rw [if_pos hr]
  · have hfits := h.fits
    rw [if_neg hr, hb.resolve_left hr]
    simp only
    rw [if_neg (by omega), readTcpHeader_eq]
    by_cases htwo : s.received < 2
    · rw [if_pos htwo]
    · rw [if_neg htwo]
      have hheader : header s.pkgData = header s.view := by
        rw [header, header, byteAt_view (by omega), byteAt_view (by omega)]
      have hvlen := h.view_length
      have hne : header s.view ≠ 0 := hz (by omega)
      have hlt := (Framing.split?_eq_none _).mp hd (header s.view)
        (frameSize?_eq_some.mpr ⟨by omega, rfl, by omega⟩)
      simp only [hheader]
      rw [if_pos (by omega)]

/-! ## The parser -/

/-- `tcpDataParser` hands on the complete frames and keeps the rest. -/
theorem tcpDataParser_drain (h : Stored tcpFraming s)
    (hz : HeaderNonzero (tcpFraming.drain s.view).2) :
    ∃ s', tcpDataParser s = .ended s' ((tcpFraming.drain s.view).1.flatMap tcpCalls) ∧
      Ready tcpFraming s' ∧ s'.view = (tcpFraming.drain s.view).2 ∧
      s'.socketType = s.socketType := by
  have hsplit := tcpFraming.drain_rest s.view
  obtain ⟨s', hrun, hs', hv, ht, -⟩ :=
    iterate_drain (fun _ => True)
      (fun _ _ ht hb hm hle _ => tcpPass_again ht hb hm hle)
      (fun _ ht hb hv => tcpPass_exit ht hb (by rwa [hv]) (by rwa [hv]))
      h (.inr s.buffer_isSome) (fun _ _ => trivial) rfl (Nat.lt_succ_self s.received)
  refine ⟨s', ?_, ⟨hs', by rwa [hv]⟩, hv, ht⟩
  rw [tcpDataParser, hrun, List.append_nil]

/-- A buffer is offered to a TCP session whose header is not zero. -/
theorem uvTcpBuffmem_tcp (h : Ready tcpFraming s) (hk : s.socketType = .TCP_SOCKET)
    (hz : HeaderNonzero s.view) :
    ∃ s' buf, uvTcpBuffmem s = some (s', buf) ∧ Offered tcpFraming s' buf ∧
      s'.view = s.view ∧ s'.socketType = .TCP_SOCKET := by
  have hgrow : s.received = RECVBUF → s.longPkg = none →
      ∃ n, tcpFraming.size? s.view = some n ∧ announcedSize s = n := by
    intro hr hl
    have htwo : 2 ≤ s.received := by rw [hr]; decide
    have hvlen := h.view_length
    refine ⟨header s.view, frameSize?_eq_some.mpr ⟨by omega, rfl, ?_⟩, ?_⟩
    · exact Nat.pos_of_ne_zero (hz (by omega))
    · have hheader : header s.recvBuf = header s.view := by
        rw [header, header, byteAt_view (by omega), byteAt_view (by omega),
          SessionUv.pkgData_of_none hl]
      rw [announcedSize, if_neg (by simp [hk]), readTcpHeader_eq, if_neg (by omega), hheader]
  obtain ⟨s', buf, hbuf, hoff, hv, -, ht, -⟩ := uvTcpBuffmem_ready h hgrow
  exact ⟨s', buf, hbuf, hoff, hv, by rw [ht, hk]⟩

theorem offered_tcp (h : Ready tcpFraming s) (hk : s.socketType = .TCP_SOCKET)
    (hz : HeaderNonzero s.view) : 1 ≤ offered s := by
  obtain ⟨s', buf, hbuf, hoff, -, -⟩ := uvTcpBuffmem_tcp h hk hz
  have hpos := hoff.pos
  simp only [offered, hbuf]
  omega

/-- One read on a TCP session. -/
theorem deliver_tcp (lib : HttpLib) :
    ReadsAs tcpFraming lib tcpCalls (fun _ => True) HeaderNonzero
      (fun t => t.socketType = .TCP_SOCKET) := by
  intro s data h hk hd hz _ hz'
  obtain ⟨s₁, buf, hbuf, hoff, hv₁, hkind⟩ := uvTcpBuffmem_tcp h hk hz
  have hlen : (data.length : Int) ≤ buf.len := by simpa [offered, hbuf] using hd
  obtain ⟨hst, hv₂, -⟩ := hoff.store hlen
  rw [hv₁] at hv₂
  obtain ⟨s', hrun, hready, hv', ht'⟩ := tcpDataParser_drain hst (by rwa [hv₂])
  rw [hv₂] at hrun hv'
  refine ⟨s', ?_, hready, ht'.trans (by rw [SessionUv.filled_socketType, hkind]), hv'⟩
  have hkind' : (s₁.filled buf data).socketType = .TCP_SOCKET := by simpa using hkind
  simp only [deliver, hbuf, uvReadData_store, readData, hkind', hrun]

/-- Reads on a TCP session, over any bytes whose headers are not zero. -/
theorem receive_tcp {lib : HttpLib} {reads : List Bytes} (h : Ready tcpFraming s)
    (hk : s.socketType = .TCP_SOCKET) (hfit : Fits lib s reads)
    (hz : ∀ pre, pre <+: reads →
      HeaderNonzero (tcpFraming.drain (s.view ++ pre.flatten)).2) :
    ∃ s', receive lib s reads =
        .ended s' ((tcpFraming.drain (s.view ++ reads.flatten)).1.flatMap tcpCalls) ∧
      Ready tcpFraming s' ∧ s'.view = (tcpFraming.drain (s.view ++ reads.flatten)).2 := by
  obtain ⟨s', hrun, hready, -, hv⟩ :=
    receive_drain (deliver_tcp lib) h hk hfit (fun _ _ => trivial) hz
  exact ⟨s', hrun, hready, hv⟩

/-! ## What a header can announce -/

/-- The sixteen bits of a header count two bytes of their own. -/
def Announced (c : Call) : Prop := ∀ cmd len, c = .recCommand cmd len → len ≤ 65533

theorem tcpPass_announced {s' : SessionUv} {out : List Call} (hk : s.socketType = .TCP_SOCKET)
    (h : tcpPass long s = .again s' out) :
    s'.socketType = .TCP_SOCKET ∧ ∀ c ∈ out, Announced c := by
  unfold tcpPass at h
  split at h
  · cases h
  split at h
  · cases h
  rename_i pkgData _
  split at h
  · cases h
  rw [readTcpHeader_eq] at h
  split at h
  · cases h
  · rename_i pkgSize headSize hread
    split at h
    · cases h
    · split at hread
      · cases hread
      · cases hread
        cases h
        have hlt := header_lt pkgData
        refine ⟨by rw [SessionUv.discard_socketType, hk], fun c hc cmd len hcmd => ?_⟩
        subst hcmd
        rcases List.mem_append.mp hc with hclose | hcall
        · split at hclose
          · simp at hclose
          · cases hclose
        · simp only [List.mem_singleton, Call.recCommand.injEq] at hcall
          omega

theorem tcpPass_exits {s' : SessionUv} {out : List Call} (h : tcpPass long s = .exit s' out) :
    s' = s ∧ out = [] := by
  unfold tcpPass at h
  repeat' split at h
  all_goals cases h
  all_goals exact ⟨rfl, rfl⟩

/-- **No TCP session hands on more** than a header can announce. -/
theorem receive_announced {lib : HttpLib} {s' : SessionUv} {reads : List Bytes} {out : List Call}
    (hk : s.socketType = .TCP_SOCKET) (hrun : receive lib s reads = .ended s' out) :
    ∀ c ∈ out, Announced c := by
  refine (feed_emits (P := fun t => t.socketType = .TCP_SOCKET) ?_ hk hrun).2
  intro t data t' o ht hone
  unfold deliver at hone
  split at hone
  · cases hone
  · rename_i t₁ buf hbuf
    obtain ⟨-, -, htype, -⟩ := uvTcpBuffmem_keeps hbuf
    have hkind : (t₁.filled buf data).socketType = .TCP_SOCKET := by simpa [htype] using ht
    rw [uvReadData_store, readData, hkind] at hone
    refine iterate_emits (P := fun u => u.socketType = .TCP_SOCKET)
      (fun u u' o' hu hpass => tcpPass_announced hu hpass) ?_ hkind hone
    rintro u u' o' hu hpass
    obtain ⟨rfl, rfl⟩ := tcpPass_exits hpass
    exact ⟨hu, by simp⟩

/-! ## Streams of packages -/

/-- The payloads one package can carry without being empty. -/
def Sendable (payload : Bytes) : Prop := 1 ≤ payload.length ∧ payload.length ≤ 65533

theorem sendable_isFrame {payloads : List Bytes} (hp : ∀ p ∈ payloads, Sendable p) :
    ∀ p ∈ payloads, tcpFraming.IsFrame (parserRecvData p) :=
  fun p h => parserRecvData_isFrame (hp p h).2

theorem flatMap_tcpCalls {payloads : List Bytes} (hp : ∀ p ∈ payloads, 1 ≤ p.length) :
    (payloads.map parserRecvData).flatMap tcpCalls = payloads.map handOn := by
  induction payloads with
  | nil => rfl
  | cons p ps ih =>
    rw [List.map_cons, List.flatMap_cons, tcpCalls_parserRecvData (hp p (by simp)),
      ih (fun q hq => hp q (by simp [hq]))]
    rfl

/-- The front of a package, once its header is there, announces something. -/
theorem headerNonzero_short {payload v : Bytes} (h : payload.length ≤ 65533)
    (hv : v <+: parserRecvData payload) : HeaderNonzero v := by
  intro htwo
  obtain ⟨w, hw⟩ := hv
  have hhead : header (parserRecvData payload) = header v := by
    rw [← hw, header_append htwo]
  rw [← hhead, header_parserRecvData]
  omega

/-- No zero header is met on the front of a stream of packages. -/
theorem headerNonzero_stream {payloads : List Bytes} (hp : ∀ p ∈ payloads, Sendable p)
    {v : Bytes} (hv : v <+: (payloads.map parserRecvData).flatten) :
    HeaderNonzero (tcpFraming.drain ((SessionUv.create .TCP_SOCKET).view ++ v)).2 := by
  rw [SessionUv.create_view, List.nil_append]
  rcases tcpFraming.drain_arrived_rest (sendable_isFrame hp) hv with hnil | ⟨p, hmem, hrest⟩
  · rw [hnil]
    exact fun h => absurd h (by simp)
  · exact headerNonzero_short (hp p hmem).2 hrest

/-- A fresh TCP session over the front of a stream of packages. -/
theorem receive_packages (lib : HttpLib) {payloads : List Bytes}
    (hp : ∀ p ∈ payloads, Sendable p) {reads : List Bytes}
    (hreads : reads.flatten <+: (payloads.map parserRecvData).flatten)
    (hfit : Fits lib (.create .TCP_SOCKET) reads) :
    ∃ s, receive lib (.create .TCP_SOCKET) reads =
        .ended s ((arrived parserRecvData payloads reads.flatten.length).map handOn) ∧
      Ready tcpFraming s ∧ s.view = (tcpFraming.drain reads.flatten).2 := by
  have hz : ∀ pre, pre <+: reads →
      HeaderNonzero (tcpFraming.drain ((SessionUv.create .TCP_SOCKET).view ++ pre.flatten)).2 := by
    rintro pre ⟨post, rfl⟩
    rw [List.flatten_append] at hreads
    exact headerNonzero_stream hp ((List.prefix_append _ _).trans hreads)
  obtain ⟨s, hrun, hready, hv⟩ := receive_tcp (ready_create _ _) rfl hfit hz
  rw [SessionUv.create_view, List.nil_append] at hrun hv
  refine ⟨s, ?_, hready, hv⟩
  rw [hrun, tcpFraming.drain_arrived (sendable_isFrame hp) hreads, flatMap_tcpCalls]
  exact fun p hmem => (hp p ((arrived_isPrefix _ _).subset hmem)).1

/-- A stream of packages can be read byte by byte. -/
theorem fits_packages (lib : HttpLib) {payloads : List Bytes}
    (hp : ∀ p ∈ payloads, Sendable p) :
    Fits lib (.create .TCP_SOCKET)
      ((payloads.map parserRecvData).flatten.map fun b => [b]) :=
  fits_bytes (deliver_tcp lib) (fun _ ht hkt hzt => offered_tcp ht hkt hzt) (ready_create _ _)
    rfl (fun _ _ => trivial) (fun _ hpre => headerNonzero_stream hp hpre)

/-- **TCP reassembly does not depend on how the stream is cut.** -/
theorem tcp_reassembly (lib : HttpLib) (payloads : List Bytes)
    (hp : ∀ p ∈ payloads, 1 ≤ p.length ∧ p.length ≤ 65533) (reads : List Bytes)
    (hreads : reads.flatten <+: (payloads.map parserRecvData).flatten)
    (hfit : Fits lib (.create .TCP_SOCKET) reads) :
    ∃ s, receive lib (.create .TCP_SOCKET) reads =
        .ended s ((arrived parserRecvData payloads reads.flatten.length).map handOn) ∧
      (reads.flatten = (payloads.map parserRecvData).flatten →
        arrived parserRecvData payloads reads.flatten.length = payloads ∧
          s.received = 0 ∧ s.longPkg = none) := by
  obtain ⟨s, hrun, hready, hv⟩ := receive_packages lib hp hreads hfit
  refine ⟨s, hrun, fun hall => ⟨arrived_all ?_, ?_⟩⟩
  · exact Nat.le_of_eq (congrArg List.length hall).symm
  · rw [hall, tcpFraming.drain_stream (sendable_isFrame hp)] at hv
    exact hready.empty hv

/-- Two packages, read byte by byte. -/
theorem tcp_reassembly_two :
    ∃ s, receive ⟨fun _ => [], id, id⟩ (.create .TCP_SOCKET)
        [[3], [0], [7], [4], [0], [8], [9]] = .ended s [handOn [7], handOn [8, 9]] ∧
      s.received = 0 ∧ s.longPkg = none := by
  have hp : ∀ p ∈ ([[7], [8, 9]] : List Bytes), 1 ≤ p.length ∧ p.length ≤ 65533 := by decide
  have hall : ([[3], [0], [7], [4], [0], [8], [9]] : List Bytes).flatten
      = (([[7], [8, 9]] : List Bytes).map parserRecvData).flatten := by decide
  obtain ⟨s, hrun, hend⟩ := tcp_reassembly ⟨fun _ => [], id, id⟩ [[7], [8, 9]] hp
    [[3], [0], [7], [4], [0], [8], [9]] (hall ▸ List.prefix_rfl) (fits_packages _ hp)
  obtain ⟨harr, hempty⟩ := hend hall
  rw [harr] at hrun
  exact ⟨s, hrun, hempty⟩

end LibuvServer.Netbus
