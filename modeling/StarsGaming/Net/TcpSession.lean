import StarsGaming.Net.Buffer

/-!
# The read states and the encoder of a TCP session

A session reads a length prefix, a header of that length and a body of the
length the header names, each with one `async_read` into its receive buffer,
and deals the message before it asks for the next prefix.  The handler of a
read runs with the bytes in place or with an error.
-/

namespace StarsGaming.Net

open Foundation

structure Host (P : Protobuf) where
  msgMaker : MessageMaker P
  bigEndian : Bool

/-- An `async_read` whose handler has not run. -/
inductive AsyncRead where
  | headLen
  | head (size : Nat)
  | body (offset size : Nat)
  deriving DecidableEq

namespace AsyncRead

def offset : AsyncRead → Nat
  | headLen => 0
  | head _ => headLenSize
  | body offset _ => offset

def size : AsyncRead → Nat
  | headLen => headLenSize
  | head size => size
  | body _ size => size

end AsyncRead

/--
The receiving half of a session.  `dealt` is what the dealer was handed, oldest
first, and `issued` the range of every read; no handler looks at either.
-/
structure TcpSession (P : Protobuf) where
  isOpen : Bool
  recvMsgBuf : MsgBuffer
  curHeader : Header
  reading : Option AsyncRead
  dealt : List (TcpMsg P)
  issued : List (Nat × Nat)

/-- An `int` where a `size_t` is expected. -/
def sizeOfInt (n : Int) : Nat :=
  (n % 2 ^ 64).toNat

/-- A message the session makes up itself, with no field set in its body. -/
def notice {P : Protobuf} (msg : SystemMsg) : TcpMsg P where
  header :=
    { Header.empty with cmdtype := msg.cmd, type := MsgType.notifyRequest }
  pbmessage := ⟨.request msg, P.new _⟩

namespace TcpSession

variable {P : Protobuf} (host : Host P)

def new (mem : Memory) : TcpSession P :=
  ⟨true, .new mem, .empty, none, [], []⟩

def deal (msg : TcpMsg P) (s : TcpSession P) : TcpSession P :=
  { s with dealt := s.dealt ++ [msg] }

def doClose (s : TcpSession P) : TcpSession P :=
  if s.isOpen then deal (notice .sessionClose) { s with isOpen := false }
  else s

def asyncRead (r : AsyncRead) (s : TcpSession P) : TcpSession P :=
  { s with
    reading := some r
    issued := (r.offset, r.size) :: s.issued }

def doReadHeadLen (s : TcpSession P) : TcpSession P :=
  s.asyncRead .headLen

def doReadHead (s : TcpSession P) : TcpSession P :=
  let buf := s.recvMsgBuf.decodeHeaderLength host.bigEndian
  let s := { s with recvMsgBuf := buf }
  if buf.headerLength > msgBufSize then s.doClose
  else s.asyncRead (.head (sizeOfInt buf.headerLength))

def decodeHeader (buf : MsgBuffer) : Option (Header × MsgBuffer) := do
  let (header, buf) ← buf.decodeHeader P.header
  if buf.bufferLength > msgBufSize then none
  else if header.checkResult ^^^ header.checkSum ≠ 0 then none
  else some (header, buf)

def doReadBody (s : TcpSession P) : TcpSession P :=
  match decodeHeader (P := P) s.recvMsgBuf with
  | none => s.doClose
  | some (header, buf) =>
      asyncRead (.body buf.bodyOffset (sizeOfInt buf.bodyLength))
        { s with recvMsgBuf := buf, curHeader := header }

def makeMsg (s : TcpSession P) : Option (TcpMsg P) := do
  let kind ← host.msgMaker.makeMessage s.curHeader.type s.curHeader.cmdtype
  let pbmsg ← s.recvMsgBuf.decodeMessage kind
  some ⟨s.curHeader, pbmsg⟩

def onReadHeadLenComplete (err : Bool) (s : TcpSession P) : TcpSession P :=
  if err then s.doClose else s.doReadHead host

def onReadHeadComplete (err : Bool) (s : TcpSession P) : TcpSession P :=
  if err then s.doClose else s.doReadBody

def onReadComplete (err : Bool) (s : TcpSession P) : TcpSession P :=
  if err then s.doClose
  else
    match s.makeMsg host with
    | some msg => (s.deal msg).doReadHeadLen
    | none => s.doClose

def onRead (err : Bool) : AsyncRead → TcpSession P → TcpSession P
  | .headLen => onReadHeadLenComplete host err
  | .head _ => onReadHeadComplete err
  | .body _ _ => onReadComplete host err

def fill (r : AsyncRead) (bytes : List Byte) (s : TcpSession P) :
    TcpSession P :=
  { s with
    reading := none
    recvMsgBuf :=
      { s.recvMsgBuf with
        mBuffer := s.recvMsgBuf.mBuffer.write r.offset bytes } }

def readDone (bytes : List Byte) (s : TcpSession P) : TcpSession P :=
  match s.reading with
  | none => s
  | some r => onRead host false r (s.fill r bytes)

def readFailed (s : TcpSession P) : TcpSession P :=
  match s.reading with
  | none => s
  | some r => onRead host true r { s with reading := none }

end TcpSession

/-! ## Encoding -/

/-- The header as `encode` leaves it in the message. -/
def stamp {P : Protobuf} (msg : TcpMsg P) : TcpMsg P :=
  let header := { msg.header with length := byteSize msg.pbmessage.bytes }
  { msg with header := { header with checkResult := header.checkSum } }

def encode {P : Protobuf} (bigEndian : Bool) (msg : TcpMsg P)
    (buf : MsgBuffer) : Bool × TcpMsg P × MsgBuffer :=
  let msg := stamp msg
  let buf := buf.encodeHeaderLength bigEndian
    (byteSize (P.header.serialize msg.header))
  match buf.encodeHeader P.header msg.header with
  | (false, buf) => (false, msg, buf)
  | (true, buf) =>
      let (ok, buf) := buf.encodeMessage msg.pbmessage
      (ok, msg, buf)

end StarsGaming.Net
