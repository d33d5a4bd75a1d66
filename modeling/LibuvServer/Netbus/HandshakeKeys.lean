import LibuvServer.Netbus.Handshakes
import Mathlib.Tactic.Common

/-!
# The key of a handshake

Which header of a request the handshake answers. `onWebHeaderFiled` compares
as many bytes as the name has, so every beginning of the key's name passes,
and a name in other letter case does not. The last value that comes after
such a name is the key; all of them go through `valueSecKey`.
-/

namespace LibuvServer.Netbus.Handshakes

open LibuvServer.Lib WebProtocol

/-- A header's name and value. -/
abbrev Header := Bytes × Bytes

def keyName : Bytes := strBytes "Sec-WebSocket-Key"

/-- The callbacks for a complete request whose headers are reported whole and
in order. -/
def events (headers : List Header) : List HttpEvent :=
  (headers.flatMap fun h => [.headerField h.1, .headerValue h.2]) ++ [.messageComplete]

def lowerCase (c : UInt8) : UInt8 := if 65 ≤ c ∧ c ≤ 90 then c + 32 else c

/-- The name of the key as HTTP compares names. -/
def isKeyName (name : Bytes) : Bool := name.map lowerCase = keyName.map lowerCase

/-- A complete request that fits `recvBuf`, with one header for the key. -/
structure KeyRequest (lib : HttpLib) (body : Bytes) (headers : List Header) (v : Bytes) :
    Prop where
  short : body.length ≤ RECVBUF
  execute : lib.execute body = events headers
  key : ∃ name, headers.filter (fun h => isKeyName h.1) = [(name, v)]

/-- The handshake succeeds with the key `v`, whatever an earlier one has left
in the statics, and nothing leaves them. -/
def AnswersKey (lib : HttpLib) (body v : Bytes) : Prop :=
  ∀ f, ∃ f', webserShakeHand lib f body =
    some (f', some (webAccept (lib.base64Encode (lib.cryptSha1 (v ++ webMagic))))) ∧
      f'.valueSecKey = v

/-- The headers whose value is taken for the key. -/
def taken (headers : List Header) : List Header := headers.filter fun h => strncmpEq h.1 keyName

variable {lib : HttpLib} {f f' : ShakeFlags} {headers : List Header} {body v : Bytes}

/-! ## Parsing the headers -/

/-- The value the statics hold after some headers. -/
def lastValue (headers : List Header) (old : Bytes) : Bytes :=
  ((taken headers).getLast?.map fun h => cString h.2).getD old

theorem taken_cons_of_pos {h : Header} (hs : strncmpEq h.1 keyName = true) :
    taken (h :: headers) = h :: taken headers := List.filter_cons_of_pos hs

theorem taken_cons_of_neg {h : Header} (hs : strncmpEq h.1 keyName = false) :
    taken (h :: headers) = taken headers := List.filter_cons_of_neg (by simp [hs])

theorem lastValue_cons_of_pos {h : Header} (hs : strncmpEq h.1 keyName = true) (old : Bytes) :
    lastValue (h :: headers) old = lastValue headers (cString h.2) := by
  rw [lastValue, lastValue, taken_cons_of_pos hs, List.getLast?_cons]
  cases (taken headers).getLast? <;> rfl

/-- One header that is not taken only lowers the flag. -/
theorem storeWebEvent_other {h : Header} (hs : strncmpEq h.1 keyName = false) :
    [HttpEvent.headerField h.1, .headerValue h.2].foldlM storeWebEvent f =
      some { f with isSecKey := false } := by
  rw [keyName] at hs
  simp [storeWebEvent, onWebEvent, hs]

/-- One header that is taken is stored, if it fits. -/
theorem storeWebEvent_taken {h : Header} (hs : strncmpEq h.1 keyName = true) :
    [HttpEvent.headerField h.1, .headerValue h.2].foldlM storeWebEvent f =
      if h.2.length < STATIC_SIZE then
        some { f with isSecKey := true, hasSecKey := true, valueSecKey := cString h.2 }
      else none := by
  rw [keyName] at hs
  by_cases hfit : h.2.length < STATIC_SIZE
  · simp [storeWebEvent, onWebEvent, hs, hfit]
  · simp [storeWebEvent, onWebEvent, hs, hfit]

/-- **Headers that fit** leave the last value that was taken. -/
theorem parse_headers (hfit : ∀ h ∈ taken headers, h.2.length < STATIC_SIZE) (f : ShakeFlags) :
    ∃ f', (headers.flatMap fun h => [.headerField h.1, .headerValue h.2]).foldlM storeWebEvent f =
        some f' ∧ f'.hasSecKey = (f.hasSecKey || !(taken headers).isEmpty) ∧
      f'.valueSecKey = lastValue headers f.valueSecKey := by
  induction headers generalizing f with
  | nil => exact ⟨f, rfl, by simp [taken], rfl⟩
  | cons h headers ih =>
    rw [List.flatMap_cons, List.foldlM_append]
    cases hs : strncmpEq h.1 keyName with
    | true =>
      rw [taken_cons_of_pos hs] at hfit ⊢
      rw [storeWebEvent_taken hs, if_pos (hfit h (by simp)), lastValue_cons_of_pos hs]
      obtain ⟨f', hrun, hhas, hval⟩ := ih (fun p hp => hfit p (by simp [hp]))
        { f with isSecKey := true, hasSecKey := true, valueSecKey := cString h.2 }
      exact ⟨f', hrun, by rw [hhas]; simp, hval⟩
    | false =>
      rw [taken_cons_of_neg hs] at hfit ⊢
      rw [storeWebEvent_other hs, lastValue, taken_cons_of_neg hs]
      exact ih hfit { f with isSecKey := false }

/-- A taken value that does not fit leaves `valueSecKey`. -/
theorem parse_long {h : Header} (hmem : h ∈ taken headers) (hlong : STATIC_SIZE ≤ h.2.length)
    (f : ShakeFlags) :
    (headers.flatMap fun h => [.headerField h.1, .headerValue h.2]).foldlM storeWebEvent f =
      none := by
  induction headers generalizing f with
  | nil => simp [taken] at hmem
  | cons p headers ih =>
    rw [List.flatMap_cons, List.foldlM_append]
    cases hs : strncmpEq p.1 keyName with
    | true =>
      rw [taken_cons_of_pos hs] at hmem
      rw [storeWebEvent_taken hs]
      rcases List.mem_cons.mp hmem with rfl | hmem
      · rw [if_neg (Nat.not_lt.mpr hlong)]
        rfl
      · split
        · exact ih hmem _
        · rfl
    | false =>
      rw [taken_cons_of_neg hs] at hmem
      rw [storeWebEvent_other hs]
      exact ih hmem _

/-! ## The answer -/

/-- The handshake on a complete request, once its headers are parsed. -/
theorem webserShakeHand_events (hexec : lib.execute body = events headers) (f : ShakeFlags) :
    webserShakeHand lib f body =
      match (headers.flatMap fun h => [.headerField h.1, .headerValue h.2]).foldlM storeWebEvent
        (resetFlags f) with
      | none => none
      | some f' =>
        if f'.hasSecKey then
          if (f'.valueSecKey ++ webMagic).length < STATIC_SIZE ∧
              (webAccept (lib.base64Encode (lib.cryptSha1 (f'.valueSecKey ++ webMagic)))).length <
                STATIC_SIZE then
            some ({ f' with isShakeEnd := true },
              some (webAccept (lib.base64Encode (lib.cryptSha1 (f'.valueSecKey ++ webMagic)))))
          else none
        else some ({ f' with isShakeEnd := true }, none) := by
  rw [webserShakeHand, hexec, events, List.foldlM_append]
  cases (headers.flatMap fun h => [HttpEvent.headerField h.1, .headerValue h.2]).foldlM
    storeWebEvent (resetFlags f) with
  | none => rfl
  | some f' =>
    simp [storeWebEvent, onWebEvent]

/-- The condition on the headers and the key. -/
structure KeyTaken (headers : List Header) (v : Bytes) : Prop where
  /-- Every value that is copied fits `valueSecKey`. -/
  fits : ∀ h ∈ taken headers, h.2.length < STATIC_SIZE
  /-- The last one is the key. -/
  last : ∃ h, (taken headers).getLast? = some h ∧ cString h.2 = v
  /-- The key and `webMagic` fit `keyMagic`. -/
  short : v.length ≤ VALUE_SIZE

theorem KeyTaken.answers (hlib : Sized lib) (hexec : lib.execute body = events headers)
    (h : KeyTaken headers v) : AnswersKey lib body v := by
  intro f
  obtain ⟨p, hlast, hv⟩ := h.last
  obtain ⟨f', hrun, hhas, hval⟩ := parse_headers h.fits (resetFlags f)
  have hkey : f'.valueSecKey = v := by
    rw [hval, lastValue, hlast, ← hv]
    rfl
  have hset : f'.hasSecKey = true := by
    have hmem := List.mem_of_getLast? hlast
    rw [hhas, List.isEmpty_eq_false_iff.mpr (List.ne_nil_of_mem hmem)]
    exact Bool.or_true _
  have hmagic : (v ++ webMagic).length < STATIC_SIZE := by
    have hshort := h.short
    rw [List.length_append, length_webMagic, STATIC_SIZE]
    unfold VALUE_SIZE at hshort
    omega
  have hsend : (webAccept (lib.base64Encode (lib.cryptSha1 (v ++ webMagic)))).length <
      STATIC_SIZE := by
    rw [length_webAccept, hlib.base64 _ (hlib.sha1 _)]
    decide
  refine ⟨{ f' with isShakeEnd := true }, ?_, hkey⟩
  rw [webserShakeHand_events hexec, hrun]
  simp only [hset, hkey, if_true, if_pos (And.intro hmagic hsend)]

theorem AnswersKey.taken (hexec : lib.execute body = events headers) (h : AnswersKey lib body v) :
    KeyTaken headers v := by
  obtain ⟨f', hrun, hkey⟩ := h {}
  rw [webserShakeHand_events hexec] at hrun
  have hfits : ∀ h ∈ Handshakes.taken headers, h.2.length < STATIC_SIZE := by
    intro p hp
    by_contra hlong
    rw [parse_long hp (by omega)] at hrun
    cases hrun
  obtain ⟨g, hparse, hhas, hval⟩ := parse_headers hfits (resetFlags {})
  rw [hparse] at hrun
  simp only at hrun
  split at hrun
  · rename_i hset
    split at hrun
    · rename_i hroom
      rw [Option.some.injEq, Prod.mk.injEq] at hrun
      obtain ⟨rfl, -⟩ := hrun
      change g.valueSecKey = v at hkey
      cases hlast : (Handshakes.taken headers).getLast? with
      | none =>
        -- nothing was taken, so no key is there
        rw [List.getLast?_eq_none_iff] at hlast
        rw [hhas, hlast] at hset
        cases hset
      | some p =>
        rw [lastValue, hlast] at hval
        refine ⟨hfits, ⟨p, hlast, hval.symm.trans hkey⟩, ?_⟩
        have hmagic := hroom.1
        rw [hkey, List.length_append, length_webMagic, STATIC_SIZE] at hmagic
        unfold VALUE_SIZE
        omega
    · cases hrun
  · cases hrun

/-- **The handshake answers the key's header** exactly when it is the last
header whose name begins the key's name, and nothing copied on the way is
too long. -/
theorem handshake_key (hlib : Sized lib) (h : KeyRequest lib body headers v) :
    AnswersKey lib body v ↔ KeyTaken headers v :=
  ⟨fun ha => ha.taken h.execute, fun hk => hk.answers hlib h.execute⟩

/-! ## Requests with a key -/

/-- The text of a request. -/
def requestText (headers : List Header) : Bytes :=
  strBytes "GET / HTTP/1.1\r\n" ++
    (headers.flatMap fun h => h.1 ++ strBytes ": " ++ h.2 ++ strBytes "\r\n") ++ strBytes "\r\n"

/-- The vendored packages on one request and two keys. -/
def requestLib (headers : List Header) : HttpLib where
  execute body := if body = requestText headers then events headers else []
  cryptSha1 m :=
    if m = strBytes "dGhlIHNhbXBsZSBub25jZQ==" ++ webMagic then
      [0xb3, 0x7a, 0x4f, 0x2c, 0xc0, 0x62, 0x4f, 0x16, 0x90, 0xf6, 0x46, 0x06, 0xcf, 0x38, 0x59,
        0x45, 0xb2, 0xbe, 0xc4, 0xea]
    else
      [0x25, 0x5c, 0x64, 0x9a, 0xd2, 0x85, 0x8c, 0x37, 0x08, 0xfc, 0xf9, 0xbf, 0x00, 0x63, 0xc4,
        0x29, 0x23, 0x7a, 0xc1, 0x3f]
  base64Encode d :=
    if d.head? = some 0xb3 then strBytes "s3pPLMBiTxaQ9kYGzzhZRbK+xOo="
    else strBytes "JVxkmtKFjDcI/Pm/AGPEKSN6wT8="

theorem sized_requestLib (headers : List Header) : Sized (requestLib headers) := by
  refine ⟨fun m => ?_, fun d _ => ?_⟩
  · simp only [requestLib]
    split <;> rfl
  · simp only [requestLib]
    split <;> decide +kernel

/-- The key after a header whose name begins like it. -/
def keyLast : List Header :=
  [(strBytes "Sec", strBytes "x"), (keyName, strBytes "dGhlIHNhbXBsZSBub25jZQ==")]

/-- The key before such a header. -/
def keyFirst : List Header :=
  [(keyName, strBytes "dGhlIHNhbXBsZSBub25jZQ=="), (strBytes "Sec", strBytes "x")]

theorem keyRequest_keyLast : KeyRequest (requestLib keyLast) (requestText keyLast) keyLast
    (strBytes "dGhlIHNhbXBsZSBub25jZQ==") where
  short := by decide +kernel
  execute := if_pos rfl
  key := ⟨keyName, by decide +kernel⟩

theorem keyRequest_keyFirst : KeyRequest (requestLib keyFirst) (requestText keyFirst) keyFirst
    (strBytes "dGhlIHNhbXBsZSBub25jZQ==") where
  short := by decide +kernel
  execute := if_pos rfl
  key := ⟨keyName, by decide +kernel⟩

/-- The key is answered where it comes last. -/
theorem handshake_key_last : AnswersKey (requestLib keyLast) (requestText keyLast)
    (strBytes "dGhlIHNhbXBsZSBub25jZQ==") := by
  refine (handshake_key (sized_requestLib keyLast) keyRequest_keyLast).mpr ⟨?_, ?_, ?_⟩
  · decide +kernel
  · exact ⟨(keyName, strBytes "dGhlIHNhbXBsZSBub25jZQ=="), by decide +kernel, by decide +kernel⟩
  · decide +kernel

/-- Where it comes first, the value of the other header is answered. -/
theorem handshake_key_other :
    KeyRequest (requestLib keyFirst) (requestText keyFirst) keyFirst
        (strBytes "dGhlIHNhbXBsZSBub25jZQ==") ∧
      ¬ AnswersKey (requestLib keyFirst) (requestText keyFirst)
        (strBytes "dGhlIHNhbXBsZSBub25jZQ==") := by
  refine ⟨keyRequest_keyFirst, fun h => ?_⟩
  have hreply : (webserShakeHand (requestLib keyFirst) {} (requestText keyFirst)).map (·.2) =
      some (some (webAccept (strBytes "JVxkmtKFjDcI/Pm/AGPEKSN6wT8="))) := by
    decide +kernel
  obtain ⟨f', hrun, -⟩ := h {}
  rw [hrun] at hreply
  have hsame : webAccept ((requestLib keyFirst).base64Encode ((requestLib keyFirst).cryptSha1
      (strBytes "dGhlIHNhbXBsZSBub25jZQ==" ++ webMagic))) =
        webAccept (strBytes "JVxkmtKFjDcI/Pm/AGPEKSN6wT8=") :=
    Option.some.inj (Option.some.inj hreply)
  revert hsame
  decide +kernel

end LibuvServer.Netbus.Handshakes
