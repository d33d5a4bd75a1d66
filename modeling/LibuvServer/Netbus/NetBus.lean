import LibuvServer.Lib.Interleave
import LibuvServer.Netbus.SessionUv
import LibuvServer.Netbus.WebProtocol
import Mathlib.Tactic.Common

/-!
# Reading from a socket

`netbus/netbus.cc`: the buffer offered before a read, the read callback and
the two parsers. A pass of a parser that would touch memory outside the
block it works on is a fault of the loop; calls into the services are
emitted in order.
-/

namespace LibuvServer.Netbus

open LibuvServer.Lib

/-! ## The parsers -/

/-- One pass of `tcpDataParser`'s loop over the block chosen before it. -/
def tcpPass (long : Bool) (s : SessionUv) : Pass SessionUv Call :=
  if s.received = 0 then .exit s []
  else
    match s.buffer long with
    | none => .fault
    | some pkgData =>
      if pkgData.length < s.received then .fault
      else
        match TcpProtocol.readTcpHeader pkgData s.received with
        | none => .exit s []
        | some (pkgSize, headSize) =>
          if s.received < pkgSize then .exit s []
          else
            -- a package shorter than its header closes the session and goes on
            let closing := if pkgSize ≤ headSize then [Call.close] else []
            let len : Int := pkgSize - headSize
            .again (s.discard long pkgSize)
              (closing ++ [.recCommand (slice pkgData headSize len.toNat) len])

/-- `tcpDataParser`. A pass that goes on lowers `received` by the package
size; a header of zero lowers it by nothing and the loop never ends, so one
pass more than `received` decides. -/
def tcpDataParser (s : SessionUv) : Outcome SessionUv Call :=
  iterate (tcpPass s.longPkg.isSome) (s.received + 1) s

/-- One pass of `webDataParser`'s loop over the block chosen before it. -/
def webPass (long : Bool) (s : SessionUv) : Pass SessionUv Call :=
  if s.received = 0 then .exit s []
  else
    match s.buffer long with
    | none => .fault
    | some pkgData =>
      if pkgData.length < s.received then .fault
      else if byteAt pkgData 0 = 0x88 then .exit s [.close]
      else
        match WebProtocol.readWebHeader pkgData s.received with
        | none => .exit s []
        | some (pkgSize, headSize) =>
          if (s.received : Int) < pkgSize then .exit s []
          -- a negative size makes `memmove` read in front of the block
          else if pkgSize < 0 then .fault
          else
            let len : Int := pkgSize - headSize
            let mask := slice pkgData (headSize - 4) 4
            let rawData := WebProtocol.parserRecvData (slice pkgData headSize len.toNat) mask
            .again ((s.write long headSize rawData).discard long pkgSize.toNat)
              [.recCommand rawData len]

/-- `webDataParser`. -/
def webDataParser (s : SessionUv) : Outcome SessionUv Call :=
  iterate (webPass (s.longPkgSize ≠ 0)) (s.received + 1) s

/-! ## The callbacks of a TCP handle -/

/-- The package size `uv_tcpBuffmem` takes from a full receive buffer. The
web header leaves it at its initial zero when it is not accepted. -/
def announcedSize (s : SessionUv) : Int :=
  if s.socketType = .WEB_SOCKET ∧ s.wsShake then
    match WebProtocol.readWebHeader s.recvBuf s.received with
    | some (pkgSize, _) => pkgSize
    | none => 0
  else
    match TcpProtocol.readTcpHeader s.recvBuf s.received with
    | some (pkgSize, _) => pkgSize
    | none => 0

/-- `uv_tcpBuffmem`: the session, perhaps with a new large block, and the
buffer offered. `none` when the received bytes do not fit the new block.
What `malloc` leaves in the rest of the block is not specified; zeros here. -/
def uvTcpBuffmem (s : SessionUv) : Option (SessionUv × UvBuf) :=
  if s.received < RECVBUF then
    some (s, ⟨.recvBuf, s.received, RECVBUF - s.received⟩)
  else
    match s.longPkg with
    | some _ => some (s, ⟨.longPkg, s.received, s.longPkgSize - s.received⟩)
    | none =>
      if announcedSize s < s.received then none
      else
        let size := (announcedSize s).toNat
        some ({ s with
            longPkg := some (s.recvBuf.take s.received ++
              List.replicate (size - s.received) 0)
            longPkgSize := size },
          ⟨.longPkg, s.received, size - s.received⟩)

/-- libuv stores what it read in the buffer it was offered. -/
def SessionUv.store (s : SessionUv) (buf : UvBuf) (data : Bytes) : SessionUv :=
  s.write (buf.ref = .longPkg) buf.offset data

/-- `uv_readData` on what has been received. -/
def readData (lib : HttpLib) (s : SessionUv) : Outcome SessionUv Call :=
  match s.socketType with
  | .WEB_SOCKET =>
    if s.wsShake then webDataParser s
    -- the request is read past the end of `recvBuf`
    else if RECVBUF < s.received then .faulted
    else
      match WebProtocol.webserShakeHand lib (s.recvBuf.take s.received) with
      | some reply => .ended s.shaken [.sendData reply]
      | none => .ended s []
  | .TCP_SOCKET => tcpDataParser s

/-- `uv_readData`: a negative `nread` says that the peer is gone. -/
def uvReadData (lib : HttpLib) (s : SessionUv) (nread : Int) : Outcome SessionUv Call :=
  if nread < 0 then .ended s [.close]
  else readData lib { s with received := s.received + nread.toNat }

/-- The call that hands on one payload. -/
def handOn (payload : Bytes) : Call := .recCommand payload payload.length

/-- One read of `data`: a buffer is offered, filled and looked at. -/
def deliver (lib : HttpLib) (s : SessionUv) (data : Bytes) : Outcome SessionUv Call :=
  match uvTcpBuffmem s with
  | none => .faulted
  | some (s', buf) => uvReadData lib (s'.store buf data) data.length

/-- The length of the buffer offered next. -/
def offered (s : SessionUv) : Int :=
  match uvTcpBuffmem s with
  | none => 0
  | some (_, buf) => buf.len

/-- Successive reads. -/
def receive (lib : HttpLib) : SessionUv → List Bytes → Outcome SessionUv Call :=
  feed (deliver lib)

@[simp] theorem receive_nil (lib : HttpLib) (s : SessionUv) : receive lib s [] = .ended s [] := rfl

theorem receive_cons (lib : HttpLib) (s : SessionUv) (data : Bytes) (reads : List Bytes) :
    receive lib s (data :: reads) =
      (deliver lib s data).andThen fun s' => receive lib s' reads := rfl

/-- Every read is no longer than the buffer offered at that moment. -/
def Fits (lib : HttpLib) : SessionUv → List Bytes → Prop
  | _, [] => True
  | s, data :: reads => (data.length : Int) ≤ offered s ∧
      ∀ s' out, deliver lib s data = .ended s' out → Fits lib s' reads

end LibuvServer.Netbus
