import StarsGaming.Net.Proto
import StarsGaming.Net.TcpSession

/-!
# Messages over the broker

A session over the broker sends a message as one AMQP message whose body has the
layout of a frame.  What it does on success and on failure of the last encoder
is the wrong way round, and what is received and decoded is given to nobody.
-/

namespace StarsGaming.Net

open Foundation

structure AmqpMessage where
  exchange : List Byte
  routkey : List Byte
  body : List Byte

/--
`published` is what the channel was given, `dealt` what the dealer was handed;
no function looks at either.
-/
structure MqSession (P : Protobuf) where
  sendMsgBuf : MsgBuffer
  hasChannel : Bool
  published : List AmqpMessage
  dealt : List (MqMsg P)

namespace MqSession

variable {P : Protobuf} (host : Host P)

def publish (header : MqHeader) (s : MqSession P) : MqSession P :=
  if s.hasChannel then
    let buf := s.sendMsgBuf
    { s with
      published := s.published ++ [{
        exchange := header.recvExchange
        routkey := header.recvRoutkey
        body := buf.mBuffer.read 0 (sizeOfInt buf.bufferLength) }] }
  else s

/-- The sizes are added as `int`. -/
def doWrite (msg : MqMsg P) (s : MqSession P) : MqSession P :=
  let headerSize := byteSize (P.mqHeader.serialize msg.header)
  if (headerSize + byteSize msg.pbmessage.bytes).toInt > mqBufSize then s
  else
    let buf := s.sendMsgBuf.encodeHeaderLength host.bigEndian headerSize
    match buf.encodeHeader P.mqHeader msg.header with
    | (false, buf) => { s with sendMsgBuf := buf }
    | (true, buf) =>
        match buf.encodeMessage msg.pbmessage with
        -- an encoder that succeeds is taken for one that failed
        | (true, buf) => { s with sendMsgBuf := buf }
        | (false, buf) => publish msg.header { s with sendMsgBuf := buf }

/-- What the body of a message says, with `mem` behind its pointer. -/
def decodeData (mem : Memory) (bodySize : Nat) : Option (MqMsg P) := do
  let buf : MsgBuffer := ⟨0, BitVec.ofNat 32 bodySize, mem, []⟩
  let buf := buf.decodeHeaderLength host.bigEndian
  let (header, buf) ← buf.decodeHeader P.mqHeader
  let kind ← host.msgMaker.makeMessage header.type header.cmdtype
  let pbmsg ← buf.decodeMessage kind
  some ⟨header, pbmsg⟩

/-- The message is put together and dropped. -/
def recvData (mem : Memory) (bodySize : Nat) (s : MqSession P) :
    Bool × MqSession P :=
  match decodeData host mem bodySize with
  | none => (false, s)
  | some _ => (true, s)

end MqSession

def SameFields (a b : MqHeader) : Prop :=
  { a with length := 0 } = { b with length := 0 }

/--
One AMQP message is published, and whoever receives its body deals the message.
-/
def MqDelivers {P : Protobuf} (sending receiving : Host P)
    (sender receiver : MqSession P) (msg : MqMsg P) : Prop :=
  ∃ amqp, (sender.doWrite sending msg).published = sender.published ++ [amqp] ∧
    ∃ received : MqMsg P, SameFields received.header msg.header ∧
      received.pbmessage = msg.pbmessage ∧
      ∀ mem : Memory, mem.read 0 amqp.body.length = amqp.body →
        (receiver.recvData receiving mem amqp.body.length).2.dealt =
          receiver.dealt ++ [received]

namespace MqSession

variable {P : Protobuf} {host : Host P}

def encoded (bigEndian : Bool) (msg : MqMsg P) (buf : MsgBuffer) :
    MsgBuffer :=
  let header := P.mqHeader.serialize msg.header
  let buf := buf.encodeHeaderLength bigEndian (byteSize header)
  let buf := MsgBuffer.store headLenSize header
    { buf with mMsgLength := msg.header.length }
  buf.store buf.bodyOffset msg.pbmessage.bytes

section Fitting

variable {msg : MqMsg P}
  (h : (P.mqHeader.serialize msg.header).length +
    msg.pbmessage.bytes.length ≤ mqBufSize)

include h

theorem doWrite_of_fits (host : Host P) (s : MqSession P) :
    s.doWrite host msg =
      { s with sendMsgBuf := encoded host.bigEndian msg s.sendMsgBuf } := by
  have hmax : mqBufSize < 2 ^ 31 := by decide
  have hbody : msg.pbmessage.bytes.length < 2 ^ 31 := by omega
  have hheader : (P.mqHeader.serialize msg.header).length < 2 ^ 31 := by omega
  have hsize : ¬(byteSize (P.mqHeader.serialize msg.header) +
      byteSize msg.pbmessage.bytes).toInt > mqBufSize := by
    rw [byteSize, byteSize, ← BitVec.ofNat_add,
      toInt_ofNat_of_lt (by omega)]
    omega
  rw [doWrite]
  dsimp only
  rw [if_neg hsize, MsgBuffer.encodeHeader_of_lt _ hheader]
  dsimp only
  rw [MsgBuffer.encodeMessage_of_lt _ hbody]
  rfl

theorem decodeData_of_read {host : Host P} {mem : Memory}
    (hword : mem.read 0 headLenSize =
      storeWord true (byteSize (P.mqHeader.serialize msg.header)))
    (hheader : mem.read headLenSize
      (P.mqHeader.serialize msg.header).length =
        P.mqHeader.serialize msg.header)
    (hbody : mem.read
      (headLenSize + (P.mqHeader.serialize msg.header).length)
      msg.pbmessage.bytes.length = msg.pbmessage.bytes)
    (hlength : msg.header.length = byteSize msg.pbmessage.bytes)
    (hmake : host.msgMaker.makeMessage msg.header.type msg.header.cmdtype =
      some msg.pbmessage.kind) (bodySize : Nat) :
    decodeData host mem bodySize = some msg := by
  have hmax : mqBufSize < 2 ^ 31 := by decide
  have hparse := parseFromArray_serialize (by omega) hheader
  have hparse' : parseFromArray (P.codec msg.pbmessage.kind) mem
      (headLenSize + (P.mqHeader.serialize msg.header).length)
      (byteSize msg.pbmessage.bytes) = some msg.pbmessage.body :=
    parseFromArray_serialize (by
      change msg.pbmessage.bytes.length < 2 ^ 31
      omega) hbody
  simp only [decodeData, MsgBuffer.decodeHeaderLength, hword,
    ntoh32_loadWord, MsgBuffer.decodeHeader, hparse, Option.map_some,
    Option.bind_eq_bind, Option.bind_some, hmake, MsgBuffer.decodeMessage,
    MsgBuffer.bodyOffset, toNat_byteSize (show
      (P.mqHeader.serialize msg.header).length < 2 ^ 31 by omega)]
  change ((parseFromArray _ mem _ msg.header.length).map _).bind _ = _
  rw [hlength, hparse']
  rfl

/--
The layout is right: whoever reads the buffer can decode the message, if its
header names the length of the body.
-/
theorem decodeData_encoded (receiving : Host P) (bigEndian : Bool)
    (hlength : msg.header.length = byteSize msg.pbmessage.bytes)
    (hmake : receiving.msgMaker.makeMessage msg.header.type
      msg.header.cmdtype = some msg.pbmessage.kind)
    (buf : MsgBuffer) (bodySize : Nat) :
    decodeData receiving (encoded bigEndian msg buf).mBuffer bodySize =
      some msg := by
  have hmax : mqBufSize < 2 ^ 31 := by decide
  have hmem : (encoded bigEndian msg buf).mBuffer =
      ((buf.mBuffer.write 0
        (storeWord true (byteSize (P.mqHeader.serialize msg.header)))).write
        headLenSize (P.mqHeader.serialize msg.header)).write
        (headLenSize + (P.mqHeader.serialize msg.header).length)
        msg.pbmessage.bytes := by
    simp only [encoded, MsgBuffer.encodeHeaderLength, MsgBuffer.store,
      MsgBuffer.bodyOffset, storeWord_hton32, toNat_byteSize (show
        (P.mqHeader.serialize msg.header).length < 2 ^ 31 by omega)]
  rw [hmem]
  apply decodeData_of_read h _ _ _ hlength hmake
  · rw [Memory.read_write_of_disjoint _ (.inl (by omega)),
      Memory.read_write_of_disjoint _ (.inl (by omega)), read_storeWord]
  · rw [Memory.read_write_of_disjoint _ (.inl (by omega)),
      Memory.read_write]
  · exact Memory.read_write _ _ _

end Fitting

theorem dealt_recvData (mem : Memory) (bodySize : Nat) (s : MqSession P) :
    (s.recvData host mem bodySize).2.dealt = s.dealt := by
  rw [recvData]
  split <;> rfl

end MqSession

/-- No message that fits is published, and no message is ever dealt. -/
theorem mq_never_delivers {P : Protobuf} (sending receiving : Host P)
    (sender receiver : MqSession P) (msg : MqMsg P)
    (h : (P.mqHeader.serialize msg.header).length +
      msg.pbmessage.bytes.length ≤ mqBufSize) :
    ¬MqDelivers sending receiving sender receiver msg ∧
      (sender.doWrite sending msg).published = sender.published ∧
      ∀ mem bodySize,
        (receiver.recvData receiving mem bodySize).2.dealt = receiver.dealt := by
  have hpublished : (sender.doWrite sending msg).published =
      sender.published := by
    rw [MqSession.doWrite_of_fits h]
  refine ⟨?_, hpublished, ?_⟩
  · rintro ⟨amqp, hsent, _⟩
    rw [hpublished] at hsent
    exact List.cons_ne_nil _ _ (List.self_eq_append_right.mp hsent)
  · intro mem bodySize
    exact MqSession.dealt_recvData mem bodySize receiver

namespace MqSession

def sampleCall : MqMsg systemProtobuf where
  header :=
    { MqHeader.empty with
      cmdtype := SystemMsg.commRpc.cmd
      type := MsgType.asynRequest
      recvRoutkey := [0x6b]
      recvExchange := [0x65] }
  pbmessage := ⟨.request .commRpc, Fields.text [0x7b, 0x7d]⟩

def sampleHost : Host systemProtobuf := ⟨.new, false⟩

def sample : MqSession systemProtobuf :=
  ⟨.new fun _ => 0, true, [], []⟩

end MqSession

theorem sampleCall_not_published :
    (MqSession.sample.doWrite MqSession.sampleHost
      MqSession.sampleCall).published = [] :=
  (mq_never_delivers MqSession.sampleHost MqSession.sampleHost
    MqSession.sample MqSession.sample MqSession.sampleCall
    (by decide +kernel)).2.1

theorem sampleCall_not_delivered :
    ¬∀ (sending receiving : Host systemProtobuf)
      (sender receiver : MqSession systemProtobuf)
      (msg : MqMsg systemProtobuf), sender.hasChannel = true →
      (systemProtobuf.mqHeader.serialize msg.header).length +
        msg.pbmessage.bytes.length ≤ mqBufSize →
      receiving.msgMaker.makeMessage msg.header.type msg.header.cmdtype =
        some msg.pbmessage.kind →
      MqDelivers sending receiving sender receiver msg := by
  intro h
  obtain ⟨amqp, hsent, _⟩ := h MqSession.sampleHost MqSession.sampleHost
    MqSession.sample MqSession.sample MqSession.sampleCall rfl
    (by decide +kernel) rfl
  rw [MqSession.doWrite_of_fits (by decide +kernel)] at hsent
  exact List.cons_ne_nil _ _ hsent.symm

end StarsGaming.Net
