import LibuvServer.Netbus.WebReassembly
import Mathlib.Tactic.Common

/-!
# Handshakes of many sessions

The parse flags, the key and the texts of a handshake are statics of
`netbus/webprotocol.cc`, one set for the whole process. Every session's reads
go through them, and a request that is not complete is parsed again from its
start at the next read. `deliver` is one read over the statics. What it does
to its session does not depend on them (`blind_deliver`): the flags are reset
before a parse, and the key is looked at only when the same parse has set it.
-/

namespace LibuvServer.Netbus.Handshakes

open LibuvServer.Lib WebProtocol

/-! ## The statics -/

/-- The size of `valueSecKey`, `keyMagic` and `sendClient`. -/
def STATIC_SIZE : Nat := 512

/-- The callbacks on the statics: `none` when a value and its terminator do
not fit `valueSecKey`. -/
def storeWebEvent (f : ShakeFlags) (e : HttpEvent) : Option ShakeFlags :=
  match e with
  | .headerValue at' =>
    if f.isSecKey = true ∧ STATIC_SIZE ≤ at'.length then none else some (onWebEvent f e)
  | _ => some (onWebEvent f e)

/-- What `webserShakeHand` resets before it parses: the key stays. -/
def resetFlags (f : ShakeFlags) : ShakeFlags :=
  { f with isSecKey := false, hasSecKey := false, isShakeEnd := false }

/-- `webProtocol::webserShakeHand` on the statics an earlier call has left:
the statics after it and the reply. `none` when a text does not fit its
static. -/
def webserShakeHand (lib : HttpLib) (f : ShakeFlags) (body : Bytes) :
    Option (ShakeFlags × Option Bytes) :=
  match (lib.execute body).foldlM storeWebEvent (resetFlags f) with
  | none => none
  | some f' =>
    if f'.hasSecKey && f'.isShakeEnd then
      let keyMagic := f'.valueSecKey ++ webMagic
      let sendClient := webAccept (lib.base64Encode (lib.cryptSha1 keyMagic))
      if keyMagic.length < STATIC_SIZE ∧ sendClient.length < STATIC_SIZE then
        some (f', some sendClient)
      else none
    else some (f', none)

/-- `uv_readData` on what has been received. -/
def readData (lib : HttpLib) (f : ShakeFlags) (s : SessionUv) :
    Outcome (ShakeFlags × SessionUv) Call :=
  if s.socketType = .WEB_SOCKET ∧ s.wsShake = false then
    -- the request is read past the end of `recvBuf`
    if RECVBUF < s.received then .faulted
    else
      match webserShakeHand lib f (s.recvBuf.take s.received) with
      | none => .faulted
      | some (f', some reply) => .ended (f', s.shaken) [.sendData reply]
      | some (f', none) => .ended (f', s) []
  else (Netbus.readData lib s).share f

/-- One read of `data` on a session of the process. -/
def deliver (lib : HttpLib) (f : ShakeFlags) (s : SessionUv) (data : Bytes) :
    Outcome (ShakeFlags × SessionUv) Call :=
  match uvTcpBuffmem s with
  | none => .faulted
  | some (s', buf) => readData lib f (s'.filled buf data)

/-! ## The statics do not show -/

variable {lib : HttpLib} {f g : ShakeFlags} {s : SessionUv} {body : Bytes}

/-- Two states of the statics that parse alike. -/
structure Agree (f g : ShakeFlags) : Prop where
  isSecKey : f.isSecKey = g.isSecKey
  hasSecKey : f.hasSecKey = g.hasSecKey
  isShakeEnd : f.isShakeEnd = g.isShakeEnd
  valueSecKey : f.hasSecKey = true → f.valueSecKey = g.valueSecKey

/-- The key an earlier call has left does not count. -/
theorem agree_resetFlags (f g : ShakeFlags) : Agree (resetFlags f) (resetFlags g) :=
  ⟨rfl, rfl, rfl, nofun⟩

theorem Agree.event (h : Agree f g) (e : HttpEvent) :
    Agree (onWebEvent f e) (onWebEvent g e) := by
  cases e with
  | headerField at' => exact ⟨rfl, h.hasSecKey, h.isShakeEnd, h.valueSecKey⟩
  | headerValue at' =>
    simp only [onWebEvent, h.isSecKey]
    split
    · exact ⟨rfl, rfl, h.isShakeEnd, fun _ => rfl⟩
    · exact h
  | messageComplete => exact ⟨h.isSecKey, h.hasSecKey, rfl, h.valueSecKey⟩

theorem Agree.store (h : Agree f g) (e : HttpEvent) :
    Option.Rel Agree (storeWebEvent f e) (storeWebEvent g e) := by
  cases e with
  | headerField at' => exact .some (h.event _)
  | headerValue at' =>
    simp only [storeWebEvent, h.isSecKey]
    split
    · exact .none
    · exact .some (h.event _)
  | messageComplete => exact .some (h.event _)

theorem Agree.parse (h : Agree f g) (es : List HttpEvent) :
    Option.Rel Agree (es.foldlM storeWebEvent f)
      (es.foldlM storeWebEvent g) := by
  -- on the events; after each of them the flags still agree, or both have faulted
  induction es generalizing f g with
  | nil => exact .some h
  | cons e es ih =>
    rw [List.foldlM_cons, List.foldlM_cons]
    have hone := h.store e
    revert hone
    cases storeWebEvent f e <;> cases storeWebEvent g e <;> intro hone
    · exact .none
    · cases hone
    · cases hone
    · cases hone with
      | some hone => exact ih hone

/-- **A handshake does not see the statics it finds.** -/
theorem webserShakeHand_blind (lib : HttpLib) (f g : ShakeFlags) (body : Bytes) :
    (webserShakeHand lib f body).map (·.2) = (webserShakeHand lib g body).map (·.2) := by
  have hparse := (agree_resetFlags f g).parse (lib.execute body)
  unfold webserShakeHand
  revert hparse
  generalize (lib.execute body).foldlM storeWebEvent (resetFlags f) = rf
  generalize (lib.execute body).foldlM storeWebEvent (resetFlags g) = rg
  intro hparse
  cases hparse with
  | none => rfl
  | @some f' g' h =>
    simp only [h.hasSecKey, h.isShakeEnd]
    by_cases hdone : (g'.hasSecKey && g'.isShakeEnd) = true
    · have hkey : f'.valueSecKey = g'.valueSecKey :=
        h.valueSecKey (h.hasSecKey.trans (Bool.and_eq_true _ _ ▸ hdone).1)
      simp only [hdone, if_true, hkey]
      split <;> rfl
    · simp only [hdone]
      rfl

theorem readData_blind (lib : HttpLib) (f g : ShakeFlags) (s : SessionUv) :
    (readData lib f s).forget = (readData lib g s).forget := by
  unfold readData
  split
  · split
    · rfl
    · have hreply := webserShakeHand_blind lib f g (s.recvBuf.take s.received)
      revert hreply
      generalize webserShakeHand lib f (s.recvBuf.take s.received) = rf
      generalize webserShakeHand lib g (s.recvBuf.take s.received) = rg
      intro hreply
      cases rf with
      | none =>
        cases rg with
        | none => rfl
        | some q => cases hreply
      | some p =>
        cases rg with
        | none => cases hreply
        | some q =>
          obtain ⟨f', reply⟩ := p
          obtain ⟨g', reply'⟩ := q
          cases hreply
          cases reply <;> rfl
  · rw [Outcome.forget_share, Outcome.forget_share]

/-- **A read does not see the statics it finds.** -/
theorem blind_deliver (lib : HttpLib) : Blind (deliver lib) := by
  intro f g s data
  unfold deliver
  split
  · rfl
  · exact readData_blind lib f g _

/-! ## Requests -/

/-- What the handshake relies on from the vendored packages: the size of a
SHA-1 digest and of its Base64 text. -/
structure Sized (lib : HttpLib) : Prop where
  sha1 : ∀ m, (lib.cryptSha1 m).length = 20
  base64 : ∀ d, d.length = 20 → (lib.base64Encode d).length = 28

/-- The longest value that leaves room for `webMagic` in `keyMagic`. -/
def VALUE_SIZE : Nat := 475

/-- The header of the key comes with its value. -/
def OffersKey (es : List HttpEvent) : Prop :=
  ∃ pre key post,
    es = pre ++ .headerField (strBytes "Sec-WebSocket-Key") :: .headerValue key :: post

/-- A handshake request, and what `http_parser` makes of it and of its front:
the end is reported exactly when all of it is there. -/
structure Request (lib : HttpLib) (r : Bytes) : Prop where
  nonempty : r ≠ []
  short : r.length ≤ RECVBUF
  values : ∀ p, p <+: r → ∀ v, .headerValue v ∈ lib.execute p → v.length ≤ VALUE_SIZE
  key : OffersKey (lib.execute r)
  complete : ∀ p, p <+: r → (.messageComplete ∈ lib.execute p ↔ p = r)

variable {es : List HttpEvent} {r p data : Bytes}

theorem length_webMagic : webMagic.length = 36 := by decide +kernel

theorem length_webAccept (key : Bytes) : (webAccept key).length = 124 + key.length := by
  have hempty : (webAccept []).length = 124 := by decide +kernel
  simp only [webAccept, List.length_append, List.length_nil] at hempty ⊢
  omega

/-- Short values fit `valueSecKey`. -/
theorem foldlM_short (hv : ∀ v, .headerValue v ∈ es → v.length ≤ VALUE_SIZE) (f : ShakeFlags) :
    es.foldlM storeWebEvent f = some (es.foldl onWebEvent f) := by
  induction es generalizing f with
  | nil => rfl
  | cons e es ih =>
    have hone : storeWebEvent f e = some (onWebEvent f e) := by
      cases e with
      | headerField at' => rfl
      | headerValue at' =>
        have hlen : at'.length ≤ 475 := hv at' (by simp)
        have hfit : ¬ (f.isSecKey = true ∧ STATIC_SIZE ≤ at'.length) := by
          rw [STATIC_SIZE]
          omega
        exact if_neg hfit
      | messageComplete => rfl
    rw [List.foldlM_cons, hone, List.foldl_cons]
    exact ih (fun v hmem => hv v (by simp [hmem])) _

theorem length_valueSecKey (hv : ∀ v, .headerValue v ∈ es → v.length ≤ VALUE_SIZE)
    (hf : f.valueSecKey.length ≤ VALUE_SIZE) :
    (es.foldl onWebEvent f).valueSecKey.length ≤ VALUE_SIZE := by
  induction es generalizing f with
  | nil => exact hf
  | cons e es ih =>
    refine ih (fun v hmem => hv v (by simp [hmem])) ?_
    cases e with
    | headerField at' => exact hf
    | headerValue at' =>
      simp only [onWebEvent]
      split
      · exact Nat.le_trans (List.takeWhile_prefix _).length_le (hv at' (by simp))
      · exact hf
    | messageComplete => exact hf

/-- With short values nothing leaves the statics. -/
theorem webserShakeHand_short (hlib : Sized lib)
    (hv : ∀ v, .headerValue v ∈ lib.execute body → v.length ≤ VALUE_SIZE) :
    (webserShakeHand lib {} body).map (·.2) = some (WebProtocol.webserShakeHand lib body) := by
  have hkey := length_valueSecKey (f := {}) hv (Nat.zero_le _)
  have hreset : resetFlags {} = {} := rfl
  rw [webserShakeHand, hreset, foldlM_short hv, WebProtocol.webserShakeHand]
  generalize (lib.execute body).foldl onWebEvent {} = f' at hkey ⊢
  by_cases hdone : (f'.hasSecKey && f'.isShakeEnd) = true
  · have hmagic : (f'.valueSecKey ++ webMagic).length < STATIC_SIZE := by
      rw [List.length_append, length_webMagic, STATIC_SIZE]
      unfold VALUE_SIZE at hkey
      omega
    have hsend : ∀ m, (webAccept (lib.base64Encode (lib.cryptSha1 m))).length < STATIC_SIZE := by
      intro m
      rw [length_webAccept, hlib.base64 _ (hlib.sha1 m)]
      decide
    simp only [hdone, if_true, if_pos (And.intro hmagic (hsend _))]
    rfl
  · simp only [hdone]
    rfl

theorem foldl_isShakeEnd (es : List HttpEvent) (f : ShakeFlags) :
    (es.foldl onWebEvent f).isShakeEnd = true ↔
      f.isShakeEnd = true ∨ .messageComplete ∈ es := by
  induction es generalizing f with
  | nil => simp
  | cons e es ih =>
    rw [List.foldl_cons, ih]
    cases e with
    | headerField at' => simp [onWebEvent]
    | headerValue at' =>
      simp only [onWebEvent, List.mem_cons, reduceCtorEq, false_or]
      split <;> rfl
    | messageComplete => simp [onWebEvent]

/-- A key that was seen stays seen. -/
theorem foldl_hasSecKey (es : List HttpEvent) (hf : f.hasSecKey = true) :
    (es.foldl onWebEvent f).hasSecKey = true := by
  induction es generalizing f with
  | nil => exact hf
  | cons e es ih =>
    refine ih ?_
    cases e with
    | headerField at' => exact hf
    | headerValue at' =>
      simp only [onWebEvent]
      split
      · rfl
      · exact hf
    | messageComplete => exact hf

theorem OffersKey.hasSecKey (h : OffersKey es) (f : ShakeFlags) :
    (es.foldl onWebEvent f).hasSecKey = true := by
  obtain ⟨pre, key, post, rfl⟩ := h
  rw [List.foldl_append, List.foldl_cons, List.foldl_cons]
  refine foldl_hasSecKey post ?_
  simp [onWebEvent, strncmpEq]

/-- The whole request is answered. -/
theorem Request.reply (h : Request lib r) :
    ∃ reply, WebProtocol.webserShakeHand lib r = some reply := by
  have hend := (foldl_isShakeEnd (lib.execute r) {}).mpr
    (.inr ((h.complete r List.prefix_rfl).mpr rfl))
  exact ⟨_, if_pos (by rw [h.key.hasSecKey, hend]; rfl)⟩

/-- The front of a request is not. -/
theorem Request.wait (h : Request lib r) (hp : p <+: r) (hne : p ≠ r) :
    WebProtocol.webserShakeHand lib p = none := by
  have hend : ¬ ((lib.execute p).foldl onWebEvent {}).isShakeEnd = true := by
    rw [foldl_isShakeEnd, h.complete p hp]
    simp [hne]
  exact if_neg (by simp [hend])

/-! ## One session -/

/-- A read in a process of its own. -/
def alone (lib : HttpLib) (s : SessionUv) (data : Bytes) : Outcome SessionUv Call :=
  (deliver lib {} s data).forget

theorem readData_short (hlib : Sized lib)
    (hv : ∀ v, .headerValue v ∈ lib.execute (s.recvBuf.take s.received) →
      v.length ≤ VALUE_SIZE) :
    (readData lib {} s).forget = Netbus.readData lib s := by
  unfold readData
  split
  · rename_i hweb
    split
    · rename_i hfull
      rw [Netbus.readData, hweb.1]
      simp only [hweb.2, if_pos hfull]
      rfl
    · rename_i hfit
      have hreply := webserShakeHand_short hlib hv
      rw [readData_request hweb.1 hweb.2 (by omega)]
      revert hreply
      cases webserShakeHand lib {} (s.recvBuf.take s.received) with
      | none =>
        intro hreply
        cases hreply
      | some q =>
        obtain ⟨f', reply⟩ := q
        intro hreply
        rw [← Option.some.inj hreply]
        cases reply <;> rfl
  · rw [Outcome.forget_share]

/-- During the handshake a session alone reads as `deliver_eq` says. -/
theorem alone_shaking (hlib : Sized lib) (h : Shaking s)
    (hd : s.received + data.length ≤ RECVBUF)
    (hv : ∀ v, .headerValue v ∈ lib.execute (s.view ++ data) → v.length ≤ VALUE_SIZE) :
    alone lib s data =
      match WebProtocol.webserShakeHand lib (s.view ++ data) with
      | some reply => .ended (s.collect data).shaken [.sendData reply]
      | none => .ended (s.collect data) [] := by
  have hbuf := (uvTcpBuffmem_recvBuf (h.stored webFraming) h.longPkg h.within).1
  have hview : (s.collect data).recvBuf.take (s.collect data).received = s.view ++ data := by
    have hnone : (s.collect data).longPkg = none := h.longPkg
    rw [← h.collect_view hd, SessionUv.view, SessionUv.pkgData_of_none hnone]
  have hread := readData_short (s := s.collect data) hlib (by rwa [hview])
  rw [readData_request (s := s.collect data) h.socketType h.wsShake hd, hview] at hread
  simp only [alone, deliver, hbuf]
  exact hread

/-- An empty read changes nothing once the handshake is done. -/
theorem alone_fresh (h : Fresh s) : alone lib s [] = .ended s [] := by
  have hempty := (h.ready.empty h.empty).1
  have hbuf : uvTcpBuffmem s = some (s, ⟨.recvBuf, s.received, RECVBUF - s.received⟩) := by
    rw [uvTcpBuffmem, if_pos (by rw [hempty]; decide)]
  have hsame : s.filled ⟨.recvBuf, s.received, RECVBUF - s.received⟩ [] = s := by
    rw [SessionUv.filled, SessionUv.store, SessionUv.write_nil]
    rfl
  have hparse : webDataParser s = .ended s [] := by
    rw [webDataParser, hempty]
    exact iterate_exit (by rw [webPass, if_pos hempty])
  rw [alone, deliver, hbuf]
  simp only
  rw [hsame, readData, if_neg (by simp [h.wsShake]), Outcome.forget_share, readData_web h.toShaken,
    hparse]

theorem feed_fresh (h : Fresh s) {reads : List Bytes} (hnil : reads.flatten = []) :
    feed (alone lib) s reads = .ended s [] := by
  induction reads with
  | nil => rfl
  | cons data reads ih =>
    obtain ⟨rfl, hrest⟩ := List.append_eq_nil_iff.mp hnil
    rw [feed, alone_fresh h, Outcome.ended_andThen, ih hrest]
    rfl

/-- **One handshake.** The request is answered by the read that completes it,
and nothing is sent before or after. -/
theorem feed_request (hlib : Sized lib) (h : Request lib r) {reply : Bytes}
    (hreply : WebProtocol.webserShakeHand lib r = some reply) (hs : Shaking s)
    (hwait : s.view ≠ r) {reads : List Bytes} (hcut : s.view ++ reads.flatten <+: r) :
    ∃ s' out, feed (alone lib) s reads = .ended s' out ∧
      (s.view ++ reads.flatten = r → s'.wsShake = true ∧ out = [.sendData reply]) ∧
      (s.view ++ reads.flatten ≠ r → s'.wsShake = false ∧ out = []) := by
  induction reads generalizing s with
  | nil =>
    refine ⟨s, [], rfl, fun hall => ?_, fun _ => ⟨hs.wsShake, rfl⟩⟩
    rw [List.flatten_nil, List.append_nil] at hall
    exact absurd hall hwait
  | cons data reads ih =>
    rw [List.flatten_cons, ← List.append_assoc] at hcut ⊢
    have hpre : s.view ++ data <+: r := (List.prefix_append _ _).trans hcut
    have hlen : s.received + data.length ≤ r.length := by
      rw [← (hs.stored webFraming).view_length, ← List.length_append]
      exact hpre.length_le
    have hshort := h.short
    have hone := alone_shaking hlib hs (by omega) (h.values _ hpre)
    have hview : (s.collect data).view = s.view ++ data := hs.collect_view (by omega)
    by_cases hall : s.view ++ data = r
    · -- nothing of the request is left for the reads that follow
      have hnil : reads.flatten = [] := by
        have hle := hcut.length_le
        rw [hall, List.length_append] at hle
        exact List.eq_nil_of_length_eq_zero (by omega)
      rw [hall, hreply] at hone
      have hfresh : Fresh (s.collect data).shaken :=
        ⟨⟨hs.socketType, rfl⟩, ready_shaken _ hs.longPkg hs.longPkgSize, List.take_zero⟩
      rw [feed, hone, hall, hnil, List.append_nil]
      simp only [Outcome.ended_andThen, feed_fresh hfresh hnil, Outcome.after_ended]
      exact ⟨_, _, rfl, fun _ => ⟨rfl, rfl⟩, fun hne => absurd rfl hne⟩
    · -- the request is not complete: the session collects and waits
      rw [h.wait hpre hall] at hone
      have hlt : s.received + data.length < RECVBUF := by
        have hne : (s.view ++ data).length ≠ r.length := fun heq =>
          hall (hpre.eq_of_length heq)
        rw [List.length_append, (hs.stored webFraming).view_length] at hne
        omega
      obtain ⟨s', out, hrun, hdone, hmore⟩ :=
        ih (hs.collect hlt) (by rwa [hview]) (by rwa [hview])
      rw [hview] at hdone hmore
      refine ⟨s', out, ?_, hdone, hmore⟩
      rw [feed, hone]
      simp only [Outcome.ended_andThen, hrun, Outcome.after_ended, List.nil_append]

/-! ## Any number of sessions -/

/-- **Handshakes do not interfere.** The statics may hold anything at first,
and the reads of the sessions come in any order. After every read, a session
has been answered if and only if its own request is complete, once, with the
reply that this request gets in a process of its own. -/
theorem handshakes {ι : Type*} [DecidableEq ι] {lib : HttpLib} (hlib : Sized lib)
    {request : ι → Bytes} (hreq : ∀ i, Request lib (request i)) (flags : ShakeFlags)
    (reads : List (ι × Bytes)) (hcut : ∀ i, (partOf i reads).flatten <+: request i) :
    ∃ flags' sessions out,
      interleaveShared (deliver lib) flags (fun _ => .create .WEB_SOCKET) reads =
        .ended (flags', sessions) out ∧
      ∀ i, ∃ reply, WebProtocol.webserShakeHand lib (request i) = some reply ∧
        ((partOf i reads).flatten = request i →
          (sessions i).wsShake = true ∧ partOf i out = [.sendData reply]) ∧
        ((partOf i reads).flatten ≠ request i →
          (sessions i).wsShake = false ∧ partOf i out = []) := by
  have hone : ∀ i, ∃ reply s' out, WebProtocol.webserShakeHand lib (request i) = some reply ∧
      feed (alone lib) (.create .WEB_SOCKET) (partOf i reads) = .ended s' out ∧
      ((partOf i reads).flatten = request i → s'.wsShake = true ∧ out = [.sendData reply]) ∧
      ((partOf i reads).flatten ≠ request i → s'.wsShake = false ∧ out = []) := by
    intro i
    obtain ⟨reply, hreply⟩ := (hreq i).reply
    have hwait : (SessionUv.create .WEB_SOCKET).view ≠ request i :=
      fun heq => (hreq i).nonempty heq.symm
    obtain ⟨s', out, hrun, hdone, hmore⟩ :=
      feed_request hlib (hreq i) hreply shaking_create hwait (hcut i)
    exact ⟨reply, s', out, hreply, hrun, hdone, hmore⟩
  -- with statics of its own, each session runs as if the others were not there
  obtain ⟨sessions, out, hrun, heach⟩ := interleave_ended
    (s := fun _ => SessionUv.create .WEB_SOCKET) fun i =>
      let ⟨_, s', out, _, hfeed, _⟩ := hone i
      ⟨s', out, hfeed⟩
  -- and statics in common make no difference
  have hshared := interleaveShared_forget (blind_deliver lib) {} flags
    (fun _ => SessionUv.create .WEB_SOCKET) reads
  obtain ⟨flags', hended⟩ := Outcome.forget_eq_ended (hshared.trans hrun)
  refine ⟨flags', sessions, out, hended, fun i => ?_⟩
  obtain ⟨reply, s', out', hreply, hfeed, hdone, hmore⟩ := hone i
  rw [heach i] at hfeed
  cases hfeed
  exact ⟨reply, hreply, hdone, hmore⟩

/-- The keys of two clients. -/
def pairKey : Bool → Bytes
  | false => strBytes "dGhlIHNhbXBsZSBub25jZQ=="
  | true => strBytes "x3JJHMbDL1EzLkh9GBhXDw=="

def pairRequest (i : Bool) : Bytes :=
  strBytes "GET / HTTP/1.1\r\nSec-WebSocket-Key: " ++ pairKey i ++ strBytes "\r\n\r\n"

/-- The vendored packages on the two requests. -/
def pairLib : HttpLib where
  execute body :=
    match [false, true].find? fun i => body = pairRequest i with
    | some i => [.headerField (strBytes "Sec-WebSocket-Key"), .headerValue (pairKey i),
        .messageComplete]
    | none => []
  cryptSha1 m :=
    if m = pairKey false ++ webMagic then
      [0xb3, 0x7a, 0x4f, 0x2c, 0xc0, 0x62, 0x4f, 0x16, 0x90, 0xf6, 0x46, 0x06, 0xcf, 0x38, 0x59,
        0x45, 0xb2, 0xbe, 0xc4, 0xea]
    else
      [0x1d, 0x29, 0xab, 0x73, 0x4b, 0x0c, 0x95, 0x85, 0x24, 0x00, 0x69, 0xa6, 0xe4, 0xe3, 0xe9,
        0x1b, 0x61, 0xda, 0x19, 0x69]
  base64Encode d :=
    if d.head? = some 0xb3 then strBytes "s3pPLMBiTxaQ9kYGzzhZRbK+xOo="
    else strBytes "HSmrc0sMlYUkAGmm5OPpG2HaGWk="

theorem sized_pairLib : Sized pairLib := by
  refine ⟨fun m => ?_, fun d _ => ?_⟩
  · simp only [pairLib]
    split <;> rfl
  · simp only [pairLib]
    split <;> decide +kernel

/-- What is parsed of the front of a request. -/
theorem execute_pairLib {i : Bool} (hp : p <+: pairRequest i) :
    (p = pairRequest i ∧ pairLib.execute p = [.headerField (strBytes "Sec-WebSocket-Key"),
      .headerValue (pairKey i), .messageComplete]) ∨
    (p ≠ pairRequest i ∧ pairLib.execute p = []) := by
  have hlen : ∀ j, (pairRequest j).length = 63 := by decide +kernel
  by_cases hall : p = pairRequest i
  · subst hall
    have hfind : ([false, true].find? fun j => pairRequest i = pairRequest j) = some i := by
      revert i
      decide +kernel
    exact .inl ⟨rfl, by simp only [pairLib, hfind]⟩
  · have hfind : ([false, true].find? fun j => p = pairRequest j) = none := by
      rw [List.find?_eq_none]
      intro j _ hj
      have hj : p = pairRequest j := of_decide_eq_true hj
      exact hall (hp.eq_of_length (by rw [hj, hlen, hlen]))
    exact .inr ⟨hall, by simp only [pairLib, hfind]⟩

theorem request_pairLib (i : Bool) : Request pairLib (pairRequest i) where
  nonempty := by revert i; decide +kernel
  short := by revert i; decide +kernel
  values := by
    intro p hp v hv
    rcases execute_pairLib hp with ⟨-, hrun⟩ | ⟨-, hrun⟩
    · rw [hrun] at hv
      simp only [List.mem_cons, reduceCtorEq, HttpEvent.headerValue.injEq, List.not_mem_nil,
        false_or, or_false] at hv
      have hlen : ∀ j, (pairKey j).length ≤ VALUE_SIZE := by decide +kernel
      rw [hv]
      exact hlen i
    · rw [hrun] at hv
      cases hv
  key := by
    rcases execute_pairLib (i := i) List.prefix_rfl with ⟨-, hrun⟩ | ⟨hne, -⟩
    · exact ⟨[], pairKey i, [.messageComplete], hrun⟩
    · exact absurd rfl hne
  complete := by
    intro p hp
    rcases execute_pairLib hp with ⟨hall, hrun⟩ | ⟨hne, hrun⟩
    · rw [hrun]
      simp [hall]
    · rw [hrun]
      simp [hne]

/-- The second client's whole request comes between the two reads of the
first one's. -/
theorem handshakes_two :
    ∃ flags' sessions out,
      interleaveShared (deliver pairLib) {} (fun _ => .create .WEB_SOCKET)
          [(false, (pairRequest false).take 16), (true, pairRequest true),
            (false, (pairRequest false).drop 16)] = .ended (flags', sessions) out ∧
        partOf false out = [.sendData (webAccept (strBytes "s3pPLMBiTxaQ9kYGzzhZRbK+xOo="))] ∧
        partOf true out = [.sendData (webAccept (strBytes "HSmrc0sMlYUkAGmm5OPpG2HaGWk="))] := by
  have hall : ∀ i, (partOf i [(false, (pairRequest false).take 16), (true, pairRequest true),
      (false, (pairRequest false).drop 16)]).flatten = pairRequest i := by
    intro i
    cases i <;> simp [partOf]
  obtain ⟨flags', sessions, out, hrun, heach⟩ := handshakes sized_pairLib request_pairLib {}
    [(false, (pairRequest false).take 16), (true, pairRequest true),
      (false, (pairRequest false).drop 16)] fun i => hall i ▸ List.prefix_rfl
  refine ⟨flags', sessions, out, hrun, ?_, ?_⟩
  · obtain ⟨reply, hreply, hdone, -⟩ := heach false
    have hshake : WebProtocol.webserShakeHand pairLib (pairRequest false) =
        some (webAccept (strBytes "s3pPLMBiTxaQ9kYGzzhZRbK+xOo=")) := by decide +kernel
    rw [(hdone (hall false)).2, Option.some.inj (hreply.symm.trans hshake)]
  · obtain ⟨reply, hreply, hdone, -⟩ := heach true
    have hshake : WebProtocol.webserShakeHand pairLib (pairRequest true) =
        some (webAccept (strBytes "HSmrc0sMlYUkAGmm5OPpG2HaGWk=")) := by decide +kernel
    rw [(hdone (hall true)).2, Option.some.inj (hreply.symm.trans hshake)]

end LibuvServer.Netbus.Handshakes
