import LibuvServer.Lib.Block
import LibuvServer.Netbus.TcpProtocol
import Mathlib.Tactic.Common

/-!
# The receiving side of a session

`Session_uv` as far as reception goes: the fixed receive buffer, the block
malloc'ed for a package larger than it, and how much of the one in use is
filled. The services' side of a session is in the gateway modules.
-/

namespace LibuvServer.Netbus

open LibuvServer.Lib

/-- The size of every session's receive buffer. -/
def RECVBUF : Nat := 4096

inductive SocketType where
  | TCP_SOCKET
  | WEB_SOCKET
  deriving DecidableEq

/-- The fields of `Session_uv` that reception reads and writes. -/
structure SessionUv where
  recvBuf : Bytes
  received : Nat
  socketType : SocketType
  /-- The large-package block, whose length is what was asked of `malloc`. -/
  longPkg : Option Bytes
  longPkgSize : Nat
  wsShake : Bool
  recvBuf_size : recvBuf.length = RECVBUF

/-- The calls reception makes into the rest of the program. -/
inductive Call where
  | recCommand (cmd : Bytes) (len : Int)
  | close
  | sendData (body : Bytes)
  deriving DecidableEq

/-- A buffer offered to libuv: a place in one of the two blocks and the
length handed to `uv_buf_init`. -/
inductive BufRef where
  | recvBuf
  | longPkg
  deriving DecidableEq

structure UvBuf where
  ref : BufRef
  offset : Nat
  len : Int
  deriving DecidableEq

namespace SessionUv

/-- `Session_uv::create`, with the socket type set by the caller. -/
def create (socketType : SocketType) : SessionUv where
  recvBuf := List.replicate RECVBUF 0
  received := 0
  socketType := socketType
  longPkg := none
  longPkgSize := 0
  wsShake := false
  recvBuf_size := List.length_replicate

/-- The block a parser works on, as chosen before its loop. After the large
block is freed the choice dangles. -/
def buffer (s : SessionUv) (long : Bool) : Option Bytes :=
  if long then s.longPkg else some s.recvBuf

/-- Store `data` at offset `off` of the chosen block. -/
def write (s : SessionUv) (long : Bool) (off : Nat) (data : Bytes) : SessionUv :=
  if long then { s with longPkg := s.longPkg.map (overwrite · off data) }
  else { s with
    recvBuf := overwrite s.recvBuf off data
    recvBuf_size := by rw [length_overwrite, s.recvBuf_size] }

/-- `memmove` of the bytes after the package to the front. -/
def moveDown (s : SessionUv) (long : Bool) (pkgSize : Nat) : SessionUv :=
  if pkgSize < s.received then
    s.write long 0 (slice ((s.buffer long).getD []) pkgSize (s.received - pkgSize))
  else s

/-- Free the large block once it is empty. -/
def releaseLong (s : SessionUv) : SessionUv :=
  if s.received = 0 ∧ s.longPkg.isSome then { s with longPkg := none, longPkgSize := 0 } else s

/-- The end of a parser pass: the package is taken off the block. -/
def discard (s : SessionUv) (long : Bool) (pkgSize : Nat) : SessionUv :=
  releaseLong { s.moveDown long pkgSize with received := s.received - pkgSize }

/-- The handshake succeeded: what was received is dropped. -/
def shaken (s : SessionUv) : SessionUv := { s with wsShake := true, received := 0 }

/-- The block in use. -/
def pkgData (s : SessionUv) : Bytes := s.longPkg.getD s.recvBuf

/-- The bytes received and not yet handed on. -/
def view (s : SessionUv) : Bytes := s.pkgData.take s.received

@[simp] theorem create_view (t : SocketType) : (create t).view = [] := rfl

@[simp] theorem write_received (s : SessionUv) (long : Bool) (off : Nat) (data : Bytes) :
    (s.write long off data).received = s.received := by
  cases long <;> rfl

@[simp] theorem write_socketType (s : SessionUv) (long : Bool) (off : Nat) (data : Bytes) :
    (s.write long off data).socketType = s.socketType := by
  cases long <;> rfl

@[simp] theorem write_wsShake (s : SessionUv) (long : Bool) (off : Nat) (data : Bytes) :
    (s.write long off data).wsShake = s.wsShake := by
  cases long <;> rfl

@[simp] theorem write_longPkgSize (s : SessionUv) (long : Bool) (off : Nat) (data : Bytes) :
    (s.write long off data).longPkgSize = s.longPkgSize := by
  cases long <;> rfl

@[simp] theorem releaseLong_received (s : SessionUv) :
    s.releaseLong.received = s.received := by
  unfold releaseLong
  split <;> rfl

@[simp] theorem releaseLong_socketType (s : SessionUv) :
    s.releaseLong.socketType = s.socketType := by
  unfold releaseLong
  split <;> rfl

@[simp] theorem releaseLong_wsShake (s : SessionUv) :
    s.releaseLong.wsShake = s.wsShake := by
  unfold releaseLong
  split <;> rfl

@[simp] theorem discard_received (s : SessionUv) (long : Bool) (n : Nat) :
    (s.discard long n).received = s.received - n := by
  simp [discard]

@[simp] theorem discard_socketType (s : SessionUv) (long : Bool) (n : Nat) :
    (s.discard long n).socketType = s.socketType := by
  simp only [discard, releaseLong_socketType, moveDown]
  split <;> simp

@[simp] theorem discard_wsShake (s : SessionUv) (long : Bool) (n : Nat) :
    (s.discard long n).wsShake = s.wsShake := by
  simp only [discard, releaseLong_wsShake, moveDown]
  split <;> simp

end SessionUv

end LibuvServer.Netbus
