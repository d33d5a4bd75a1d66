import LibuvServer.Encryption.Digests
import LibuvServer.Encryption.Texts
import LibuvServer.Netbus.HandshakeKeys
import Mathlib.Tactic.Common

/-!
# Accept keys

The handshake with SHA-1 and Base64 as they are computed. What other modules
assume of the two holds of them, and every key is answered with its own accept
key: the Base64 text of the SHA-1 digest of the key and `webMagic`.
-/

namespace LibuvServer.Encryption

open LibuvServer.Lib LibuvServer.Netbus LibuvServer.Netbus.WebProtocol
open LibuvServer.Netbus.Handshakes
open LibuvServer.Lib.Base64 (standard)

/-- The C string at the front of a block. -/
def cText (block : RawBlock UInt8) : Bytes := cString (block.cells.map fun cell => cell.getD 0)

/-- `http_parser` with the encryption that is vendored beside it; `stack` is
what the context of `crypt_sha1` finds in its place. -/
def encryptionLib (execute : Bytes → List HttpEvent) (stack : SHA1_CTX) : HttpLib where
  execute := execute
  cryptSha1 m := cryptSha1 m stack
  base64Encode d := cText (base64Encode d).1

theorem length_cryptSha1 (m : Bytes) (stack : SHA1_CTX) : (cryptSha1 m stack).length = 20 := by
  rw [cryptSha1, satSha1Final, List.length_map, List.length_range]

/-- What is encoded is printed up to its terminator. -/
theorem cText_encode {text : Bytes} (hsz : (text.length + 2) / 3 * 4 + 1 < 2 ^ 31) :
    cText (base64Encode text).1 = standard.encode text := by
  obtain ⟨-, -, hcells⟩ := base64Encode_eq hsz
  have hfront := congrArg (List.map fun cell : Option UInt8 => cell.getD 0) hcells
  rw [List.map_take, List.map_map] at hfront
  have hprinted : ∀ b ∈ standard.encode text, decide (b ≠ 0) = true := by
    intro b hb
    refine decide_eq_true ?_
    rintro rfl
    exact absurd (known_encode hb) (by decide)
  rw [cText, cString, ← List.take_append_drop ((standard.encode text).length + 1)
    ((base64Encode text).1.cells.map _), hfront, show ((fun cell : Option UInt8 => cell.getD 0) ∘
      some) = id from rfl, List.map_id, List.append_assoc, List.takeWhile_append_of_pos hprinted,
    List.singleton_append, List.takeWhile_cons_of_neg (by decide), List.append_nil]

section Answers

variable {execute : Bytes → List HttpEvent} {stack : SHA1_CTX} {body : Bytes}
  {headers : List Header}

theorem encryptionLib_base64Encode (d : Bytes) :
    (encryptionLib execute stack).base64Encode d = cText (base64Encode d).1 := by
  rw [encryptionLib]

theorem encryptionLib_cryptSha1 (m : Bytes) :
    (encryptionLib execute stack).cryptSha1 m = cryptSha1 m stack := by
  rw [encryptionLib]

theorem encode_digest {d : Bytes} (hd : d.length = 20) :
    (encryptionLib execute stack).base64Encode d = standard.encode d := by
  have hsz : (d.length + 2) / 3 * 4 + 1 < 2 ^ 31 := by
    rw [hd]
    decide
  rw [encryptionLib_base64Encode, cText_encode hsz]

/-- **The sizes** other modules rely on. -/
theorem sized_encryptionLib : Sized (encryptionLib execute stack) where
  sha1 m := by rw [encryptionLib_cryptSha1, length_cryptSha1]
  base64 d hd := by rw [encode_digest hd, standard.length_encode, hd]

/-- Both together, on a text that is not too long. -/
theorem encryptionLib_accept {m : Bytes} (hm : m.length < 2 ^ 29) :
    (encryptionLib execute stack).base64Encode ((encryptionLib execute stack).cryptSha1 m) =
      standard.encode (Sha1.digest m) := by
  have hdigest : cryptSha1 m stack = Sha1.digest m := ((Holds.init stack).update hm).final
  rw [encryptionLib_cryptSha1, hdigest, encode_digest (Sha1.length_digest m)]

/-- **Accept keys.** A complete request is answered just when the last value
that was taken for the key fits where it is copied, and with the accept key of
that value, whatever the statics and the stack hold. -/
theorem accept_keys (hexec : execute body = events headers) (f : ShakeFlags) (reply : Bytes) :
    (∃ f', webserShakeHand (encryptionLib execute stack) f body = some (f', some reply)) ↔
      ∃ v, KeyTaken headers v ∧
        reply = webAccept (standard.encode (Sha1.digest (v ++ webMagic))) := by
  have haccept : ∀ v : Bytes, v.length ≤ VALUE_SIZE → (encryptionLib execute stack).base64Encode
      ((encryptionLib execute stack).cryptSha1 (v ++ webMagic)) =
        standard.encode (Sha1.digest (v ++ webMagic)) := by
    intro v hv
    refine encryptionLib_accept ?_
    rw [List.length_append, length_webMagic]
    unfold VALUE_SIZE at hv
    omega
  have hevents : (encryptionLib execute stack).execute body = events headers := hexec
  constructor
  · rintro ⟨f', hrun⟩
    rw [webserShakeHand_events hevents] at hrun
    have hfits : ∀ h ∈ taken headers, h.2.length < STATIC_SIZE := by
      intro h hmem
      by_contra hlong
      rw [parse_long hmem (Nat.not_lt.mp hlong)] at hrun
      cases hrun
    obtain ⟨g, hparse, hhas, hval⟩ := parse_headers hfits (resetFlags f)
    simp only [hparse] at hrun
    split at hrun
    · rename_i hset
      split at hrun
      · rename_i hroom
        cases hlast : (taken headers).getLast? with
        | none =>
          -- nothing was taken, so the flag is what it was reset to
          rw [List.getLast?_eq_none_iff] at hlast
          rw [hhas, hlast] at hset
          cases hset
        | some h =>
          rw [lastValue, hlast] at hval
          have hmagic := hroom.1
          rw [List.length_append, length_webMagic, STATIC_SIZE] at hmagic
          have hshort : g.valueSecKey.length ≤ VALUE_SIZE := by
            unfold VALUE_SIZE
            omega
          refine ⟨g.valueSecKey, ⟨hfits, ⟨h, hlast, hval.symm⟩, hshort⟩, ?_⟩
          rw [← haccept _ hshort]
          injection hrun with hpair
          injection hpair with _ hreply
          injection hreply with hreply
          exact hreply.symm
      · cases hrun
    · cases hrun
  · rintro ⟨v, hv, rfl⟩
    obtain ⟨f', hrun, -⟩ := hv.answers sized_encryptionLib hevents f
    rw [haccept v hv.short] at hrun
    exact ⟨f', hrun⟩

end Answers

/-- A request with two headers that are taken, over a stack that holds no zeros. -/
theorem accept_keys_last : ∃ f', webserShakeHand
    (encryptionLib (fun _ => events keyLast) usedStack) {} (requestText keyLast) = some (f', some
      (webAccept (standard.encode (Sha1.digest
        (strBytes "dGhlIHNhbXBsZSBub25jZQ==" ++ webMagic))))) := by
  have htaken : KeyTaken keyLast (strBytes "dGhlIHNhbXBsZSBub25jZQ==") := by
    refine ⟨by decide +kernel, ?_, by decide +kernel⟩
    exact ⟨(keyName, strBytes "dGhlIHNhbXBsZSBub25jZQ=="), by decide +kernel, by decide +kernel⟩
  exact (accept_keys rfl {} _).mpr ⟨_, htaken, rfl⟩

end LibuvServer.Encryption
