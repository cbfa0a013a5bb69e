import StarsGaming.Foundation.Feed
import StarsGaming.Net.Proto
import StarsGaming.Net.TcpSession

/-!
# Framing

The frames that one session encodes into its send buffer, sent one behind the
other, are read back by another session's read states as the same messages,
whatever chunks they arrive in and whatever byte order the two hosts have.
-/

namespace StarsGaming.Net

open Foundation

variable {P : Protobuf}

/-! ## Lengths -/

theorem sizeOfInt_natCast {n : Nat} (h : n < 2 ^ 64) :
    sizeOfInt (n : Int) = n := by
  rw [sizeOfInt]
  omega

theorem toInt_byteSize {bytes : List Byte} (h : bytes.length < 2 ^ 31) :
    (byteSize bytes).toInt = bytes.length :=
  toInt_ofNat_of_lt h

theorem MsgBuffer.bufferLength_eq {buf : MsgBuffer}
    {header body : List Byte} (hheader : buf.mHeaderLength = byteSize header)
    (hbody : buf.mMsgLength = byteSize body)
    (hlt : headLenSize + header.length + body.length < 2 ^ 31) :
    buf.bufferLength = (headLenSize + header.length + body.length : Nat) := by
  rw [bufferLength, hheader, hbody, byteSize, byteSize, ← BitVec.ofNat_add,
    ← BitVec.ofNat_add]
  exact toInt_ofNat_of_lt hlt

/-! ## The receiver as a feeder -/

namespace TcpSession

def Ready (s : TcpSession P) : Prop :=
  s.isOpen = true ∧ s.reading = some .headLen

def readRank : Option AsyncRead → Nat
  | some (.head _) => 2
  | some (.body _ _) => 1
  | _ => 0

@[simp] theorem reading_doClose (s : TcpSession P) :
    s.doClose.reading = s.reading := by
  rw [doClose]
  split <;> rfl

theorem readRank_onRead (host : Host P) (r : AsyncRead) {s : TcpSession P}
    (h : s.reading = none) :
    readRank (s.onRead host false r).reading <
      3 * r.size + readRank (some r) := by
  cases r with
  | headLen =>
      simp only [onRead, onReadHeadLenComplete, doReadHead,
        Bool.false_eq_true, if_false]
      split
      · simp [h, readRank, AsyncRead.size, headLenSize]
      · simp [asyncRead, readRank, AsyncRead.size, headLenSize]
  | head size =>
      simp only [onRead, onReadHeadComplete, doReadBody,
        Bool.false_eq_true, if_false]
      split
      · simp [h, readRank]
      · simp [asyncRead, readRank]
  | body offset size =>
      simp only [onRead, onReadComplete, Bool.false_eq_true, if_false]
      split
      · simp [doReadHeadLen, asyncRead, readRank]
      · simp [h, readRank]

end TcpSession

/--
An open session takes exactly the bytes of its pending read; a header or a
body of no bytes is taken at once.
-/
def receiver (host : Host P) : Feeder (TcpSession P) Byte where
  want s := if s.isOpen then s.reading.map AsyncRead.size else none
  take := TcpSession.readDone host
  weight := 3
  rank s := TcpSession.readRank s.reading
  rank_take {s n bytes} hwant _ := by
    split at hwant
    next =>
      obtain ⟨r, hr, rfl⟩ := Option.map_eq_some_iff.mp hwant
      rw [TcpSession.readDone, hr]
      exact TcpSession.readRank_onRead host r rfl
    next => cases hwant

theorem drain_readDone {host : Host P} {s : TcpSession P} {r : AsyncRead}
    {bytes : List Byte} (hopen : s.isOpen = true) (hr : s.reading = some r)
    (hsize : r.size = bytes.length) (rest : List Byte) :
    (receiver host).drain s (bytes ++ rest) =
      (receiver host).drain (s.readDone host bytes) rest := by
  apply Feeder.drain_append_of_want
  simp [receiver, hopen, hr, hsize]

theorem TcpSession.Ready.drain_nil {s : TcpSession P} (hs : s.Ready)
    (host : Host P) : (receiver host).drain s [] = (s, []) := by
  apply Feeder.drain_of_short (n := headLenSize)
  · simp [receiver, hs.1, hs.2, AsyncRead.size]
  · decide

/-! ## One frame -/

namespace TcpSession

variable {host : Host P} {s : TcpSession P}

theorem readDone_headLen (hr : s.reading = some .headLen) {w : BitVec 32}
    (hw : w.toInt ≤ msgBufSize) :
    s.readDone host (storeWord true w) =
      asyncRead (.head (sizeOfInt w.toInt))
        { s with
          recvMsgBuf :=
            { s.recvMsgBuf with
              mHeaderLength := w
              mBuffer := s.recvMsgBuf.mBuffer.write 0 (storeWord true w) } } := by
  have hle : ¬w.toInt > msgBufSize := by omega
  simp only [readDone, hr, onRead, onReadHeadLenComplete, doReadHead,
    Bool.false_eq_true, if_false, fill, AsyncRead.offset,
    MsgBuffer.decodeHeaderLength, MsgBuffer.headerLength, read_storeWord,
    ntoh32_loadWord, hle]
  rfl

theorem readDone_head {n : Nat} (hr : s.reading = some (.head n))
    {header : Header} (hcheck : header.checkResult = header.checkSum)
    (hlen : s.recvMsgBuf.mHeaderLength =
      byteSize (P.header.serialize header))
    {body : List Byte} (hbody : header.length = byteSize body)
    (hfit : headLenSize + (P.header.serialize header).length +
      body.length ≤ msgBufSize) :
    s.readDone host (P.header.serialize header) =
      asyncRead
        (.body (headLenSize + (P.header.serialize header).length)
          body.length)
        { s with
          curHeader := header
          recvMsgBuf :=
            { s.recvMsgBuf with
              mMsgLength := header.length
              mBuffer := s.recvMsgBuf.mBuffer.write headLenSize
                (P.header.serialize header) } } := by
  have hmax : msgBufSize < 2 ^ 31 := by decide
  have hparse : parseFromArray P.header
      (s.recvMsgBuf.mBuffer.write headLenSize (P.header.serialize header))
      headLenSize s.recvMsgBuf.mHeaderLength = some header := by
    rw [hlen]
    apply parseFromArray_serialize (by omega)
    exact Memory.read_write _ _ _
  let buf : MsgBuffer :=
    { s.recvMsgBuf with
      mMsgLength := header.length
      mBuffer := s.recvMsgBuf.mBuffer.write headLenSize
        (P.header.serialize header) }
  have hlength : buf.bufferLength = (headLenSize +
      (P.header.serialize header).length + body.length : Nat) :=
    MsgBuffer.bufferLength_eq hlen hbody (by omega)
  have hdecode : decodeHeader (P := P)
      (s.fill (.head n) (P.header.serialize header)).recvMsgBuf =
        some (header, buf) := by
    have hle : ¬buf.bufferLength > msgBufSize := by omega
    have hsum : ¬header.checkResult ^^^ header.checkSum ≠ 0 := by
      rw [hcheck, BitVec.xor_self]
      exact fun h => h rfl
    simp only [decodeHeader, MsgBuffer.decodeHeader, fill, AsyncRead.offset,
      hparse, Option.map_some, Option.bind_eq_bind, Option.bind_some]
    exact (if_neg hle).trans (if_neg hsum)
  have hoffset : buf.bodyOffset =
      headLenSize + (P.header.serialize header).length := by
    rw [MsgBuffer.bodyOffset]
    exact congrArg _ ((congrArg BitVec.toNat hlen).trans
      (toNat_byteSize (by omega)))
  have hsize : sizeOfInt buf.bodyLength = body.length := by
    rw [MsgBuffer.bodyLength]
    change sizeOfInt header.length.toInt = _
    rw [hbody, toInt_byteSize (by omega), sizeOfInt_natCast (by omega)]
  simp only [readDone, hr, onRead, onReadHeadComplete, doReadBody,
    Bool.false_eq_true, if_false, hdecode, hoffset, hsize]
  rfl

theorem readDone_body {offset n : Nat}
    (hr : s.reading = some (.body offset n)) {msg : PbMessage P}
    (hmake : host.msgMaker.makeMessage s.curHeader.type s.curHeader.cmdtype =
      some msg.kind)
    (hoffset : s.recvMsgBuf.bodyOffset = offset)
    (hlen : s.recvMsgBuf.mMsgLength = byteSize msg.bytes)
    (hfit : msg.bytes.length < 2 ^ 31) :
    s.readDone host msg.bytes =
      asyncRead .headLen (deal ⟨s.curHeader, msg⟩
        { s with
          recvMsgBuf :=
            { s.recvMsgBuf with
              mBuffer := s.recvMsgBuf.mBuffer.write offset msg.bytes } }) := by
  have hparse : parseFromArray (P.codec msg.kind)
      (s.recvMsgBuf.mBuffer.write offset msg.bytes) offset
      (byteSize msg.bytes) = some msg.body := by
    apply parseFromArray_serialize hfit
    exact Memory.read_write _ _ _
  have hbody : (s.fill (.body offset n) msg.bytes).recvMsgBuf.decodeMessage
      msg.kind = some msg := by
    change (parseFromArray (P.codec msg.kind)
      (s.recvMsgBuf.mBuffer.write offset msg.bytes)
      s.recvMsgBuf.bodyOffset s.recvMsgBuf.mMsgLength).map _ = _
    rw [hoffset, hlen, hparse]
    rfl
  have hmsg : (s.fill (.body offset n) msg.bytes).makeMsg host =
      some ⟨s.curHeader, msg⟩ := by
    rw [makeMsg]
    change (host.msgMaker.makeMessage s.curHeader.type
      s.curHeader.cmdtype).bind _ = _
    rw [hmake, Option.bind_some, hbody]
    rfl
  simp only [readDone, hr, onRead, onReadComplete, Bool.false_eq_true,
    if_false, hmsg]
  rfl

end TcpSession

/-! ## Streams -/

def headerBytes (msg : TcpMsg P) : List Byte :=
  P.header.serialize (stamp msg).header

def frameSize (msg : TcpMsg P) : Nat :=
  headLenSize + (headerBytes msg).length + msg.pbmessage.bytes.length

def frameBytes (msg : TcpMsg P) : List Byte :=
  storeWord true (byteSize (headerBytes msg)) ++
    (headerBytes msg ++ msg.pbmessage.bytes)

/-- What `async_write` is given after a message was encoded. -/
def frame (bigEndian : Bool) (msg : TcpMsg P) (buf : MsgBuffer) :
    List Byte × MsgBuffer :=
  let buf := (encode bigEndian msg buf).2.2
  (buf.mBuffer.read 0 (sizeOfInt buf.bufferLength), buf)

def stream (bigEndian : Bool) : MsgBuffer → List (TcpMsg P) → List Byte
  | _, [] => []
  | buf, msg :: msgs =>
      let (bytes, buf) := frame bigEndian msg buf
      bytes ++ stream bigEndian buf msgs

/-- The receiving host makes messages of this body for this header. -/
def Registered (host : Host P) (msg : TcpMsg P) : Prop :=
  host.msgMaker.makeMessage msg.header.type msg.header.cmdtype =
    some msg.pbmessage.kind

theorem encode_of_lt (bigEndian : Bool) {msg : TcpMsg P} (buf : MsgBuffer)
    (hheader : (headerBytes msg).length < 2 ^ 31)
    (hbody : msg.pbmessage.bytes.length < 2 ^ 31) :
    encode bigEndian msg buf =
      (true, stamp msg,
        MsgBuffer.store (headLenSize + (headerBytes msg).length)
          msg.pbmessage.bytes
          (MsgBuffer.store headLenSize (headerBytes msg)
            { buf.encodeHeaderLength bigEndian (byteSize (headerBytes msg))
              with mMsgLength := byteSize msg.pbmessage.bytes })) := by
  have hheader' : (P.header.serialize (stamp msg).header).length < 2 ^ 31 :=
    hheader
  have hbody' : (stamp msg).pbmessage.bytes.length < 2 ^ 31 := hbody
  simp only [encode, MsgBuffer.encodeHeader_of_lt _ hheader',
    MsgBuffer.encodeMessage_of_lt _ hbody']
  have hoffset : (headLenSize + (byteSize (headerBytes msg)).toNat) =
      headLenSize + (headerBytes msg).length := by
    rw [toNat_byteSize hheader]
  rw [← hoffset]
  rfl

theorem frame_fst (bigEndian : Bool) {msg : TcpMsg P} (buf : MsgBuffer)
    (hfit : frameSize msg ≤ msgBufSize) :
    (frame bigEndian msg buf).1 = frameBytes msg := by
  have hmax : msgBufSize < 2 ^ 31 := by decide
  rw [frameSize] at hfit
  rw [frame, encode_of_lt bigEndian buf (by omega) (by omega)]
  rw [MsgBuffer.bufferLength_eq rfl rfl (by omega),
    sizeOfInt_natCast (by omega), Memory.read_add, Memory.read_add]
  simp only [MsgBuffer.store, MsgBuffer.encodeHeaderLength, Nat.zero_add,
    storeWord_hton32]
  rw [Memory.read_write,
    Memory.read_write_of_disjoint _ (.inl (by omega)),
    Memory.read_write_of_disjoint _ (.inl (by omega)),
    Memory.read_write_of_disjoint _ (.inl le_rfl), Memory.read_write,
    read_storeWord, List.append_assoc]
  rfl

theorem drain_frame {host : Host P} {s : TcpSession P} (hs : s.Ready)
    (bigEndian : Bool) (buf : MsgBuffer) {msg : TcpMsg P}
    (hreg : Registered host msg) (hfit : frameSize msg ≤ msgBufSize)
    (rest : List Byte) :
    ∃ s' : TcpSession P, s'.Ready ∧ s'.dealt = s.dealt ++ [stamp msg] ∧
      (receiver host).drain s ((frame bigEndian msg buf).1 ++ rest) =
        (receiver host).drain s' rest := by
  obtain ⟨hopen, hreading⟩ := hs
  have hmax : msgBufSize < 2 ^ 31 := by decide
  have hsize : headLenSize + (headerBytes msg).length +
      msg.pbmessage.bytes.length ≤ msgBufSize := hfit
  have hprefix : (byteSize (headerBytes msg)).toInt ≤ msgBufSize := by
    rw [toInt_byteSize (by omega)]
    omega
  have hheadSize : sizeOfInt (byteSize (headerBytes msg)).toInt =
      (headerBytes msg).length := by
    rw [toInt_byteSize (by omega), sizeOfInt_natCast (by omega)]
  -- the prefix, the header and the body are each taken by one read
  obtain ⟨first, hfirst, hopen₁, hreading₁, hlen₁, hdealt₁⟩ :
      ∃ t : TcpSession P,
        s.readDone host (storeWord true (byteSize (headerBytes msg))) = t ∧
        t.isOpen = true ∧
        t.reading = some (.head (headerBytes msg).length) ∧
        t.recvMsgBuf.mHeaderLength = byteSize (headerBytes msg) ∧
        t.dealt = s.dealt :=
    ⟨_, TcpSession.readDone_headLen hreading hprefix, hopen,
      congrArg _ (congrArg _ hheadSize), rfl, rfl⟩
  obtain ⟨second, hsecond, hopen₂, hreading₂, hheader₂, hlen₂, hmsg₂,
      hdealt₂⟩ :
      ∃ t : TcpSession P, first.readDone host (headerBytes msg) = t ∧
        t.isOpen = true ∧
        t.reading = some (.body (headLenSize + (headerBytes msg).length)
          msg.pbmessage.bytes.length) ∧
        t.curHeader = (stamp msg).header ∧
        t.recvMsgBuf.mHeaderLength = byteSize (headerBytes msg) ∧
        t.recvMsgBuf.mMsgLength = byteSize msg.pbmessage.bytes ∧
        t.dealt = first.dealt :=
    ⟨_, TcpSession.readDone_head hreading₁ rfl hlen₁ rfl hfit, hopen₁, rfl,
      rfl, hlen₁, rfl, rfl⟩
  obtain ⟨third, hthird, hready₃, hdealt₃⟩ :
      ∃ t : TcpSession P, second.readDone host msg.pbmessage.bytes = t ∧
        t.Ready ∧
        t.dealt = second.dealt ++ [⟨second.curHeader, msg.pbmessage⟩] := by
    have hmake : host.msgMaker.makeMessage second.curHeader.type
        second.curHeader.cmdtype = some msg.pbmessage.kind := by
      rw [hheader₂]
      exact hreg
    have hoffset : second.recvMsgBuf.bodyOffset =
        headLenSize + (headerBytes msg).length := by
      rw [MsgBuffer.bodyOffset, hlen₂, toNat_byteSize (by omega)]
    exact ⟨_, TcpSession.readDone_body hreading₂ hmake hoffset hmsg₂
      (by omega), ⟨hopen₂, rfl⟩, rfl⟩
  refine ⟨third, hready₃, ?_, ?_⟩
  · rw [hdealt₃, hdealt₂, hdealt₁, hheader₂]
    rfl
  · rw [frame_fst bigEndian buf hfit, frameBytes, List.append_assoc,
      List.append_assoc,
      drain_readDone hopen hreading (length_storeWord _ _).symm, hfirst,
      drain_readDone hopen₁ hreading₁ rfl, hsecond,
      drain_readDone hopen₂ hreading₂ rfl, hthird]

theorem drain_stream {host : Host P} {s : TcpSession P} (hs : s.Ready)
    (bigEndian : Bool) (buf : MsgBuffer) {msgs : List (TcpMsg P)}
    (hreg : ∀ msg ∈ msgs, Registered host msg)
    (hfit : ∀ msg ∈ msgs, frameSize msg ≤ msgBufSize) :
    ∃ s' : TcpSession P, s'.Ready ∧
      s'.dealt = s.dealt ++ msgs.map stamp ∧
      (receiver host).drain s (stream bigEndian buf msgs) = (s', []) := by
  induction msgs generalizing s buf with
  | nil =>
      exact ⟨s, hs, by simp, hs.drain_nil host⟩
  | cons msg msgs ih =>
      rw [List.forall_mem_cons] at hreg hfit
      rw [stream]
      obtain ⟨first, hfirst, hdealt, hdrain⟩ := drain_frame hs bigEndian buf
        hreg.1 hfit.1
        (stream bigEndian (frame bigEndian msg buf).2 msgs)
      obtain ⟨last, hlast, hdealt', hdrain'⟩ :=
        ih hfirst (frame bigEndian msg buf).2 hreg.2 hfit.2
      refine ⟨last, hlast, ?_, hdrain.trans hdrain'⟩
      rw [hdealt', hdealt, List.map_cons, List.append_assoc,
        List.singleton_append]

/--
Every message that fits the buffer and is registered with the receiver arrives
as `encode` left it, in order and however the bytes are cut, and the receiver
waits for the next prefix with nothing left over.
-/
theorem framing_round_trip (host : Host P) (bigEndian : Bool)
    (sendBuf : MsgBuffer) (msgs : List (TcpMsg P))
    (hreg : ∀ msg ∈ msgs, Registered host msg)
    (hfit : ∀ msg ∈ msgs, frameSize msg ≤ msgBufSize)
    (s : TcpSession P) (hs : s.Ready) (chunks : List (List Byte))
    (hchunks : chunks.flatten = stream bigEndian sendBuf msgs) :
    ∃ s' : TcpSession P,
      chunks.foldl (receiver host).feed (s, []) = (s', []) ∧
      s'.Ready ∧ s'.dealt = s.dealt ++ msgs.map stamp := by
  obtain ⟨s', hs', hdealt, hdrain⟩ :=
    drain_stream hs bigEndian sendBuf hreg hfit
  refine ⟨s', ?_, hs', hdealt⟩
  rw [← hs.drain_nil host, Feeder.foldl_feed, List.nil_append, hchunks, hdrain]

def sampleMsgs : List (TcpMsg systemProtobuf) :=
  [⟨{ Header.empty with cmdtype := 1, type := MsgType.heartbeatRequest },
      ⟨.request .heartbeat, Fields.empty⟩⟩,
    ⟨{ Header.empty with
        cmdtype := 5, type := MsgType.asynRequest, sequenceid := 300,
        length := 0xffffffff, responseResult := 0xfffffff9 },
      ⟨.request .commRpc, Fields.text [0x7b, 0x7d]⟩⟩]

theorem sampleMsgs_round_trip :
    ∃ s : TcpSession systemProtobuf,
      ((stream true (.new fun _ => 0) sampleMsgs).map fun b => [b]).foldl
        (receiver ⟨.new, false⟩).feed
        ((TcpSession.new fun _ => 0xff).doReadHeadLen, []) = (s, []) ∧
      s.Ready ∧ s.dealt = sampleMsgs.map stamp := by
  apply framing_round_trip ⟨.new, false⟩ true (.new fun _ => 0) sampleMsgs
  · simp only [sampleMsgs, List.forall_mem_cons]
    exact ⟨rfl, rfl, List.forall_mem_nil _⟩
  · simp only [sampleMsgs, List.forall_mem_cons]
    exact ⟨by decide +kernel, by decide +kernel, List.forall_mem_nil _⟩
  · exact ⟨rfl, rfl⟩
  · rw [← List.flatMap_def, List.flatMap_singleton']

end StarsGaming.Net
