import LibuvServer.Encryption.AcceptKeys
import LibuvServer.Http.RequestTexts
import Mathlib.Tactic.Common

/-!
# Requests in pieces

The handshake parses again all that has come of a request, at every read. Of the
front of a request the parser reports a front of the headers and at most a piece
of the next name or value, and never the end. So what is assumed of the parser
where sessions shake hands holds of the parser there is.
-/

namespace LibuvServer.Http

open LibuvServer.Lib LibuvServer.Netbus LibuvServer.Netbus.WebProtocol
open LibuvServer.Netbus.Handshakes LibuvServer.Encryption
open LibuvServer.Lib.Base64 (standard)

/-! ## More bytes -/

/-- Callbacks stay, and a value that is being collected gets longer until it is
reported. -/
structure Vars.Grown (v w : Vars Bytes) : Prop where
  events : v.events <+: w.events
  value : ∀ m, v.header_value_mark = some m →
    (∃ x, w.header_value_mark = some (m ++ x)) ∨ ∃ x, .headerValue (m ++ x) ∈ w.events

theorem Vars.Grown.refl (v : Vars Bytes) : v.Grown v :=
  ⟨List.prefix_refl _, fun m hm => .inl ⟨[], by rw [hm, List.append_nil]⟩⟩

theorem Vars.Grown.trans {u v w : Vars Bytes} (h : u.Grown v) (h' : v.Grown w) : u.Grown w := by
  refine ⟨h.events.trans h'.events, fun m hm => ?_⟩
  rcases h.value m hm with ⟨x, hx⟩ | ⟨x, hx⟩
  · rcases h'.value _ hx with ⟨y, hy⟩ | ⟨y, hy⟩
    · exact .inl ⟨x ++ y, by rw [hy, List.append_assoc]⟩
    · exact .inr ⟨x ++ y, by rwa [List.append_assoc] at hy⟩
  · exact .inr ⟨x, h'.events.subset hx⟩

theorem countByte_same (v : Vars Bytes) : v.countByte.events = v.events ∧
    v.countByte.header_value_mark = v.header_value_mark := by
  unfold Vars.countByte
  split <;> exact ⟨rfl, rfl⟩

theorem feed_grown {v w : Vars Bytes} {ch : UInt8} (h : feed v ch = .next w) : v.Grown w := by
  have hlater := byteTurn_later collected ch v.countByte
  obtain ⟨hevents, hvalue⟩ := countByte_same v
  unfold feed at h
  cases hturn : byteTurn collected ch v.countByte with
  | next u =>
    rw [hturn] at h hlater
    cases h
    refine ⟨hevents ▸ hlater.events, fun m hm => ?_⟩
    rcases hlater.value m (hvalue.trans hm) with hkept | htold
    · exact .inl ⟨[ch], congrArg (Option.map (· ++ [ch])) hkept⟩
    · exact .inr ⟨[], (List.append_nil m).symm ▸ htold⟩
  | ret u | error e u | faulted =>
    rw [hturn] at h
    cases h

theorem fed_grown {v w : Vars Bytes} {bytes : Bytes} (h : fed v bytes = some w) : v.Grown w := by
  induction bytes generalizing v with
  | nil =>
    cases h
    exact .refl _
  | cons ch p ih =>
    rw [fed] at h
    cases hfeed : feed v ch with
    | next u =>
      rw [hfeed] at h
      exact (feed_grown hfeed).trans (ih h)
    | ret u | error e u | faulted =>
      rw [hfeed] at h
      cases h

theorem fed_split {v w : Vars Bytes} {a b : Bytes} (h : fed v (a ++ b) = some w) :
    ∃ u, fed v a = some u ∧ fed u b = some w := by
  induction a generalizing v with
  | nil => exact ⟨v, rfl, h⟩
  | cons ch a ih =>
    rw [List.cons_append, fed] at h
    cases hfeed : feed v ch with
    | next u =>
      rw [hfeed] at h
      obtain ⟨u', hu', hw⟩ := ih h
      refine ⟨u', ?_, hw⟩
      rw [fed, hfeed]
      exact hu'
    | ret u | error e u | faulted =>
      rw [hfeed] at h
      cases h

/-! ## The front of a request -/

/-- The callbacks of a call. -/
def httpEvents (body : Bytes) : List HttpEvent := (httpParserExecute body).events

/-- What the end of the data adds. -/
theorem mem_atEnd {v : Vars Bytes} {e : HttpEvent} (h : e ∈ (atEnd collected v).events) :
    e ∈ v.events ∨ (∃ m, e = .headerField m) ∨
      ∃ m, v.header_value_mark = some m ∧ e = .headerValue m := by
  unfold atEnd at h
  split at h
  · simp only [Executed.events, Vars.callField, Vars.callValue, List.mem_append,
      Option.mem_toList, Option.map_eq_some_iff] at h
    rcases h with (h | ⟨m, -, rfl⟩) | ⟨m, hm, rfl⟩
    · exact .inl h
    · exact .inr (.inl ⟨m, rfl⟩)
    · exact .inr (.inr ⟨m, hm, rfl⟩)
  · exact absurd h List.not_mem_nil

/-- A front of a request that is not all of it. -/
theorem prefix_front {r : RequestText} {p : Bytes} (hp : p <+: r.text) (hne : p ≠ r.text) :
    p <+: r.front ++ [CR] := by
  have htext : r.text = r.front ++ [CR] ++ [LF] := by
    rw [r.text_eq, List.append_assoc]
    rfl
  rw [htext] at hp hne
  exact (List.prefix_concat_iff.mp hp).resolve_left hne

variable {r : RequestText}

/-- **The front of a request** reports no end, and a piece of a value that is
reported with the whole. -/
theorem mem_front (h : r.Ok) (hshort : r.text.length ≤ HTTP_MAX_HEADER_SIZE) {p : Bytes}
    (hp : p <+: r.text) (hne : p ≠ r.text) {e : HttpEvent} (he : e ∈ httpEvents p) :
    e ∈ r.headerEvents ∨ (∃ m, e = .headerField m) ∨
      ∃ m x, e = .headerValue m ∧ .headerValue (m ++ x) ∈ r.headerEvents := by
  obtain ⟨w, hfed, hw⟩ := (leads_front h).append leads_lastCR {} rfl
  obtain ⟨rest, hrest⟩ := prefix_front hp hne
  rw [← hrest] at hfed
  obtain ⟨u, hu, hmore⟩ := fed_split hfed
  have hgrown := fed_grown hmore
  have hexec : httpParserExecute p = atEnd collected u := by
    rw [execute_bytewise (Nat.le_trans hp.length_le hshort), ← List.append_nil p,
      feedAll_append hu]
    rfl
  rw [httpEvents, hexec] at he
  rcases mem_atEnd he with he | he | ⟨m, hm, rfl⟩
  · exact .inl (hw.events ▸ hgrown.events.subset he)
  · exact .inr (.inl he)
  · rcases hgrown.value m hm with ⟨x, hx⟩ | ⟨x, hx⟩
    · rw [hw.value] at hx
      cases hx
    · exact .inr (.inr ⟨m, x, rfl, hw.events ▸ hx⟩)

/-! ## Handshakes -/

/-- A request the handshake is made for. -/
structure RequestText.Shakes (r : RequestText) : Prop extends r.Ok where
  short : r.text.length ≤ RECVBUF
  values : ∀ line ∈ r.lines, line.value.length ≤ VALUE_SIZE
  key : ∃ line ∈ r.lines, line.name = keyName

theorem RequestText.Shakes.fits (h : r.Shakes) : r.text.length ≤ HTTP_MAX_HEADER_SIZE :=
  Nat.le_trans h.short (by decide)

theorem RequestText.Shakes.events (h : r.Shakes) :
    httpEvents r.text = Handshakes.events r.headers := by
  rw [httpEvents, execute_bytewise h.fits, feedAll_request h.toOk]
  rfl

theorem mem_headerEvents {e : HttpEvent} (h : e ∈ r.headerEvents) :
    ∃ line ∈ r.lines, e = .headerField line.name ∨ e = .headerValue line.value := by
  obtain ⟨line, hline, he⟩ := List.mem_flatMap.mp h
  refine ⟨line, hline, ?_⟩
  simpa only [List.mem_cons, List.not_mem_nil, or_false] using he

theorem RequestText.Shakes.offers (h : r.Shakes) : OffersKey (Handshakes.events r.headers) := by
  obtain ⟨line, hline, hname⟩ := h.key
  obtain ⟨before, after, hlines⟩ := List.append_of_mem hline
  refine ⟨before.flatMap fun line => [.headerField line.name, .headerValue line.value], line.value,
    (after.flatMap fun line => [.headerField line.name, .headerValue line.value]) ++
      [.messageComplete], ?_⟩
  rw [r.events_headers, RequestText.headerEvents, hlines, List.flatMap_append, List.flatMap_cons,
    hname, List.append_assoc, List.append_assoc]
  rfl

/-- What is assumed of the parser where sessions shake hands. -/
theorem RequestText.Shakes.request (h : r.Shakes) (stack : SHA1_CTX) :
    Request (encryptionLib httpEvents stack) r.text where
  nonempty := by
    rw [r.text_eq]
    exact List.append_ne_nil_of_right_ne_nil _ (List.cons_ne_nil _ _)
  short := h.short
  values := by
    intro p hp v hv
    have hlong : ∀ x, HttpEvent.headerValue (v ++ x) ∈ r.headerEvents → v.length ≤ VALUE_SIZE := by
      intro x hx
      obtain ⟨line, hline, he | he⟩ := mem_headerEvents hx
      · cases he
      · injection he with he
        have hle := h.values line hline
        rw [← he, List.length_append] at hle
        exact Nat.le_trans (Nat.le_add_right _ _) hle
    by_cases hall : p = r.text
    · subst hall
      rw [show (encryptionLib httpEvents stack).execute = httpEvents from rfl, h.events,
        r.events_headers] at hv
      rcases List.mem_append.mp hv with hv | hv
      · exact hlong [] ((List.append_nil v).symm ▸ hv)
      · cases hv with
        | tail _ hv => cases hv
    · rcases mem_front h.toOk h.fits hp hall hv with hv | ⟨m, hm⟩ | ⟨m, x, hm, hx⟩
      · exact hlong [] ((List.append_nil v).symm ▸ hv)
      · cases hm
      · cases hm
        exact hlong x hx
  key := by
    rw [show (encryptionLib httpEvents stack).execute = httpEvents from rfl, h.events]
    exact h.offers
  complete := by
    intro p hp
    rw [show (encryptionLib httpEvents stack).execute = httpEvents from rfl]
    constructor
    · intro hmem
      by_contra hne
      rcases mem_front h.toOk h.fits hp hne hmem with hmem | ⟨m, hm⟩ | ⟨m, x, hm, hx⟩
      · obtain ⟨line, -, he | he⟩ := mem_headerEvents hmem <;> cases he
      · cases hm
      · cases hm
    · rintro rfl
      rw [h.events, r.events_headers]
      exact List.mem_append_right _ List.mem_cons_self

/-- The last value that is taken for the key is one. -/
theorem RequestText.Shakes.taken (h : r.Shakes) :
    ∃ p, (Handshakes.taken r.headers).getLast? = some p ∧ KeyTaken r.headers (cString p.2) := by
  have hvalues : ∀ p ∈ Handshakes.taken r.headers, p.2.length ≤ VALUE_SIZE := by
    intro p hp
    obtain ⟨line, hline, rfl⟩ := List.mem_map.mp (List.mem_of_mem_filter hp)
    exact h.values line hline
  obtain ⟨line, hline, hname⟩ := h.key
  have hmem : (line.name, line.value) ∈ Handshakes.taken r.headers := by
    refine List.mem_filter.mpr ⟨List.mem_map.mpr ⟨line, hline, rfl⟩, ?_⟩
    rw [hname, strncmpEq, List.take_length, decide_eq_true rfl]
  cases hlast : (Handshakes.taken r.headers).getLast? with
  | none =>
    rw [List.getLast?_eq_none_iff] at hlast
    rw [hlast] at hmem
    exact absurd hmem List.not_mem_nil
  | some p =>
    refine ⟨p, rfl, fun q hq => ?_, ⟨p, hlast, rfl⟩, ?_⟩
    · exact Nat.lt_of_le_of_lt (hvalues q hq) (by decide)
    · exact Nat.le_trans (List.takeWhile_prefix _).length_le
        (hvalues p (List.mem_of_getLast? hlast))

/-- The reply to a request, from a process of its own. -/
theorem RequestText.Shakes.reply (h : r.Shakes) (stack : SHA1_CTX) :
    ∃ p, (Handshakes.taken r.headers).getLast? = some p ∧
      WebProtocol.webserShakeHand (encryptionLib httpEvents stack) r.text =
        some (webAccept (standard.encode (Sha1.digest (cString p.2 ++ webMagic)))) := by
  obtain ⟨p, hlast, htaken⟩ := h.taken
  refine ⟨p, hlast, ?_⟩
  obtain ⟨f', hrun, -⟩ := htaken.answers sized_encryptionLib
    (show (encryptionLib httpEvents stack).execute r.text = _ from h.events) {}
  have hshort := webserShakeHand_short sized_encryptionLib
    ((h.request stack).values r.text List.prefix_rfl)
  have hlen : (cString p.2 ++ webMagic).length < 2 ^ 29 := by
    have hle := htaken.short
    rw [List.length_append, length_webMagic]
    unfold VALUE_SIZE at hle
    omega
  have haccept : (encryptionLib httpEvents stack).base64Encode
      ((encryptionLib httpEvents stack).cryptSha1 (cString p.2 ++ webMagic)) =
        standard.encode (Sha1.digest (cString p.2 ++ webMagic)) := encryptionLib_accept hlen
  rw [hrun, haccept] at hshort
  exact (Option.some.inj hshort).symm

variable {ι : Type*} [DecidableEq ι]

/-- **Handshakes are served.** The clients' requests come in pieces and in any
order, to the parser, the digest and the text of it as they are. After every
read a session has been answered if and only if its request is complete: once,
with the accept key of the last value that is taken for the key. -/
theorem handshakes_served {request : ι → RequestText} (hreq : ∀ i, (request i).Shakes)
    (stack : SHA1_CTX) (flags : ShakeFlags) (reads : List (ι × Bytes))
    (hcut : ∀ i, (partOf i reads).flatten <+: (request i).text) :
    ∃ flags' sessions out,
      interleaveShared (Handshakes.deliver (encryptionLib httpEvents stack)) flags
          (fun _ => .create .WEB_SOCKET) reads = .ended (flags', sessions) out ∧
        ∀ i, ∃ p, (Handshakes.taken (request i).headers).getLast? = some p ∧
          ((partOf i reads).flatten = (request i).text → (sessions i).wsShake = true ∧
            partOf i out = [.sendData
              (webAccept (standard.encode (Sha1.digest (cString p.2 ++ webMagic))))]) ∧
          ((partOf i reads).flatten ≠ (request i).text →
            (sessions i).wsShake = false ∧ partOf i out = []) := by
  have hone : ∀ i, ∃ p s' out, (Handshakes.taken (request i).headers).getLast? = some p ∧
      Lib.feed (alone (encryptionLib httpEvents stack)) (.create .WEB_SOCKET) (partOf i reads) =
        .ended s' out ∧
      ((partOf i reads).flatten = (request i).text → s'.wsShake = true ∧ out = [.sendData
        (webAccept (standard.encode (Sha1.digest (cString p.2 ++ webMagic))))]) ∧
      ((partOf i reads).flatten ≠ (request i).text → s'.wsShake = false ∧ out = []) := by
    intro i
    obtain ⟨p, hlast, hreply⟩ := (hreq i).reply stack
    have hshakes := (hreq i).request stack
    have hwait : (SessionUv.create .WEB_SOCKET).view ≠ (request i).text :=
      fun heq => hshakes.nonempty heq.symm
    obtain ⟨s', out, hrun, hdone, hmore⟩ :=
      feed_request sized_encryptionLib hshakes hreply shaking_create hwait (hcut i)
    exact ⟨p, s', out, hlast, hrun, hdone, hmore⟩
  have hfeeds : ∀ i, ∃ s' out, Lib.feed (alone (encryptionLib httpEvents stack))
      (.create .WEB_SOCKET) (partOf i reads) = .ended s' out := by
    intro i
    obtain ⟨_, s', out, _, hfeed, _⟩ := hone i
    exact ⟨s', out, hfeed⟩
  -- with statics of its own, each session runs as if the others were not there
  obtain ⟨sessions, out, hrun, heach⟩ := interleave_ended
    (s := fun _ => SessionUv.create .WEB_SOCKET) hfeeds
  have hshared := interleaveShared_forget (blind_deliver (encryptionLib httpEvents stack)) {} flags
    (fun _ => SessionUv.create .WEB_SOCKET) reads
  obtain ⟨flags', hended⟩ := Outcome.forget_eq_ended (hshared.trans hrun)
  refine ⟨flags', sessions, out, hended, fun i => ?_⟩
  obtain ⟨p, s', out', hlast, hfeed, hdone, hmore⟩ := hone i
  rw [heach i] at hfeed
  cases hfeed
  exact ⟨p, hlast, hdone, hmore⟩

/-- Two clients, and all of the first one's request with a piece of the other's
between its pieces. -/
def twoTexts (i : Bool) : RequestText :=
  if i then { sampleText with lines := [⟨keyName, [], strBytes "x3JJHMbDL1EzLkh9GBhXDw=="⟩] }
  else sampleText

def twoReads : List (Bool × Bytes) :=
  [(false, sampleText.text.take 30), (true, (twoTexts true).text.take 50),
    (false, sampleText.text.drop 30)]

theorem handshakes_served_two : ∃ flags' sessions out,
    interleaveShared (Handshakes.deliver (encryptionLib httpEvents usedStack)) {}
        (fun _ => .create .WEB_SOCKET) twoReads = .ended (flags', sessions) out ∧
      partOf false out = [.sendData (webAccept (standard.encode (Sha1.digest
        (strBytes "dGhlIHNhbXBsZSBub25jZQ==" ++ webMagic))))] ∧
      (sessions true).wsShake = false ∧ partOf true out = [] := by
  have hshakes : ∀ i, (twoTexts i).Shakes := by
    intro i
    cases i with
    | false => exact ⟨by decide +kernel, by decide +kernel, by decide +kernel, by decide +kernel⟩
    | true => exact ⟨by decide +kernel, by decide +kernel, by decide +kernel, by decide +kernel⟩
  have hall : (partOf false twoReads).flatten = (twoTexts false).text := by decide +kernel
  have hpiece : (partOf true twoReads).flatten = (twoTexts true).text.take 50 := by decide +kernel
  have hcut : ∀ i, (partOf i twoReads).flatten <+: (twoTexts i).text := by
    intro i
    cases i with
    | false => exact hall ▸ List.prefix_rfl
    | true => exact hpiece ▸ List.take_prefix ..
  obtain ⟨flags', sessions, out, hrun, heach⟩ :=
    handshakes_served hshakes usedStack {} twoReads hcut
  refine ⟨flags', sessions, out, hrun, ?_, ?_⟩
  · obtain ⟨p, hlast, hdone, -⟩ := heach false
    have hkey : (Handshakes.taken (twoTexts false).headers).getLast? =
        some (keyName, strBytes "dGhlIHNhbXBsZSBub25jZQ==") := by decide +kernel
    have hp : cString p.2 = strBytes "dGhlIHNhbXBsZSBub25jZQ==" := by
      rw [Option.some.inj (hlast.symm.trans hkey)]
      decide +kernel
    rw [(hdone hall).2, hp]
  · obtain ⟨p, -, -, hmore⟩ := heach true
    exact hmore (by decide +kernel)

end LibuvServer.Http
