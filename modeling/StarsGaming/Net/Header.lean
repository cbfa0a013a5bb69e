import StarsGaming.Foundation.Wire

/-!
# Headers, message types and the message maker

Integers of a header keep the width of their protocol buffer type; `int` is a
word of 32 bits read as a signed number.  Protocol buffers themselves are a
parameter: which message types there are besides those of the system, and how
each is serialized.
-/

namespace StarsGaming.Net

open Foundation

def msgBufSize : Nat := 1024 * 128

def mqBufSize : Nat := 1024 * 1024 * 10

/-- The length prefix of a frame, `HEADER_LENGTH`. -/
def headLenSize : Nat := 4

/-! ## Headers -/

structure Header where
  cmdtype : BitVec 32
  type : BitVec 32
  sequenceid : BitVec 64
  length : BitVec 32
  checkResult : BitVec 64
  responseResult : BitVec 32
  deriving DecidableEq

structure MqHeader where
  cmdtype : BitVec 32
  type : BitVec 32
  sequenceid : BitVec 64
  length : BitVec 32
  checkResult : BitVec 32
  responseResult : BitVec 64
  sendRoutkey : List Byte
  recvRoutkey : List Byte
  sendExchange : List Byte
  recvExchange : List Byte
  deriving DecidableEq

def Header.empty : Header := ⟨0, 0, 0, 0, 0, 0⟩

def MqHeader.empty : MqHeader := ⟨0, 0, 0, 0, 0, 0, [], [], [], []⟩

/--
What the code written for both kinds of header uses of them.  A result code is
an `int`, which is widened with its sign where the field is wider.
-/
class HeaderType (H : Type) where
  empty : H
  cmdtype : H → BitVec 32
  type : H → BitVec 32
  sequenceid : H → BitVec 64
  length : H → BitVec 32
  responseResult : H → BitVec 64
  setCmdtype : BitVec 32 → H → H
  setType : BitVec 32 → H → H
  setSequenceid : BitVec 64 → H → H
  setResponseResult : BitVec 32 → H → H
  empty_sequenceid : sequenceid empty = 0
  empty_responseResult : responseResult empty = 0
  cmdtype_setCmdtype : ∀ v h, cmdtype (setCmdtype v h) = v
  cmdtype_setType : ∀ v h, cmdtype (setType v h) = cmdtype h
  cmdtype_setSequenceid : ∀ v h, cmdtype (setSequenceid v h) = cmdtype h
  type_setType : ∀ v h, type (setType v h) = v
  type_setSequenceid : ∀ v h, type (setSequenceid v h) = type h
  sequenceid_setCmdtype : ∀ v h, sequenceid (setCmdtype v h) = sequenceid h
  sequenceid_setType : ∀ v h, sequenceid (setType v h) = sequenceid h
  sequenceid_setSequenceid : ∀ v h, sequenceid (setSequenceid v h) = v
  responseResult_setCmdtype :
    ∀ v h, responseResult (setCmdtype v h) = responseResult h
  responseResult_setType :
    ∀ v h, responseResult (setType v h) = responseResult h
  responseResult_setSequenceid :
    ∀ v h, responseResult (setSequenceid v h) = responseResult h
  responseResult_setResponseResult :
    ∀ v h, responseResult (setResponseResult v h) = v.signExtend 64

attribute [simp] HeaderType.empty_sequenceid HeaderType.empty_responseResult
  HeaderType.cmdtype_setCmdtype HeaderType.cmdtype_setType
  HeaderType.cmdtype_setSequenceid HeaderType.type_setType
  HeaderType.type_setSequenceid HeaderType.sequenceid_setCmdtype
  HeaderType.sequenceid_setType HeaderType.sequenceid_setSequenceid
  HeaderType.responseResult_setCmdtype HeaderType.responseResult_setType
  HeaderType.responseResult_setSequenceid
  HeaderType.responseResult_setResponseResult

instance : HeaderType Header where
  empty := .empty
  cmdtype := Header.cmdtype
  type := Header.type
  sequenceid := Header.sequenceid
  length := Header.length
  responseResult h := h.responseResult.signExtend 64
  setCmdtype v h := { h with cmdtype := v }
  setType v h := { h with type := v }
  setSequenceid v h := { h with sequenceid := v }
  setResponseResult v h := { h with responseResult := v }
  empty_sequenceid := rfl
  empty_responseResult := by decide
  cmdtype_setCmdtype _ _ := rfl
  cmdtype_setType _ _ := rfl
  cmdtype_setSequenceid _ _ := rfl
  type_setType _ _ := rfl
  type_setSequenceid _ _ := rfl
  sequenceid_setCmdtype _ _ := rfl
  sequenceid_setType _ _ := rfl
  sequenceid_setSequenceid _ _ := rfl
  responseResult_setCmdtype _ _ := rfl
  responseResult_setType _ _ := rfl
  responseResult_setSequenceid _ _ := rfl
  responseResult_setResponseResult _ _ := rfl

instance : HeaderType MqHeader where
  empty := .empty
  cmdtype := MqHeader.cmdtype
  type := MqHeader.type
  sequenceid := MqHeader.sequenceid
  length := MqHeader.length
  responseResult := MqHeader.responseResult
  setCmdtype v h := { h with cmdtype := v }
  setType v h := { h with type := v }
  setSequenceid v h := { h with sequenceid := v }
  setResponseResult v h := { h with responseResult := v.signExtend 64 }
  empty_sequenceid := rfl
  empty_responseResult := rfl
  cmdtype_setCmdtype _ _ := rfl
  cmdtype_setType _ _ := rfl
  cmdtype_setSequenceid _ _ := rfl
  type_setType _ _ := rfl
  type_setSequenceid _ _ := rfl
  sequenceid_setCmdtype _ _ := rfl
  sequenceid_setType _ _ := rfl
  sequenceid_setSequenceid _ _ := rfl
  responseResult_setCmdtype _ _ := rfl
  responseResult_setType _ _ := rfl
  responseResult_setSequenceid _ _ := rfl
  responseResult_setResponseResult _ _ := rfl

/-- Signed fields are widened with their sign before they are joined. -/
def Header.checkSum (h : Header) : BitVec 64 :=
  (h.cmdtype ||| h.type).signExtend 64 ||| h.sequenceid |||
    h.length.signExtend 64 ||| h.responseResult.signExtend 64

/-! ## Types and commands -/

namespace MsgType

def requestMask : BitVec 32 := 0x4000
def responseMask : BitVec 32 := 0x8000
def synRequest : BitVec 32 := 0x4001
def synResponse : BitVec 32 := 0x8001
def asynRequest : BitVec 32 := 0x4002
def asynResponse : BitVec 32 := 0x8002
def heartbeatRequest : BitVec 32 := 0x4004
def heartbeatResponse : BitVec 32 := 0x8004
def notifyRequest : BitVec 32 := 0x4005

end MsgType

inductive SystemMsg where
  | heartbeat
  | commRpc
  | sessionSilent
  | sessionClose
  | shutdownSession
  | siteRegisterBus
  | siteToBusTransmit
  | busToSiteTransmit
  | streamOverCtrl
  | mqTransmit
  | sessionOpen
  deriving DecidableEq

namespace SystemMsg

def cmd : SystemMsg → BitVec 32
  | heartbeat => 1
  | sessionOpen => 2
  | sessionClose => 3
  | commRpc => 5
  | shutdownSession => 6
  | sessionSilent => 7
  | siteRegisterBus => 8
  | siteToBusTransmit => 9
  | busToSiteTransmit => 10
  | streamOverCtrl => 12
  | mqTransmit => 13

def all : List SystemMsg :=
  [heartbeat, commRpc, sessionSilent, sessionClose, shutdownSession,
    siteRegisterBus, siteToBusTransmit, busToSiteTransmit, streamOverCtrl,
    mqTransmit, sessionOpen]

end SystemMsg

/-! ## Protocol buffers -/

inductive Kind (App : Type) where
  | request (msg : SystemMsg)
  | response (msg : SystemMsg)
  | app (msg : App)

/--
The generated message classes.  `new` is the message with no field set; a
parser undoes the serializer of its class.
-/
structure Protobuf where
  App : Type
  Body : Kind App → Type
  new : ∀ kind, Body kind
  codec : ∀ kind, Codec (Body kind)
  header : Codec Header
  mqHeader : Codec MqHeader

structure PbMessage (P : Protobuf) where
  kind : Kind P.App
  body : P.Body kind

def PbMessage.bytes {P : Protobuf} (msg : PbMessage P) : List Byte :=
  (P.codec msg.kind).serialize msg.body

structure Message (H : Type) (P : Protobuf) where
  header : H
  pbmessage : PbMessage P

abbrev TcpMsg (P : Protobuf) := Message Header P

abbrev MqMsg (P : Protobuf) := Message MqHeader P

/-- `ByteSize()` is an `int`. -/
def byteSize (bytes : List Byte) : BitVec 32 :=
  BitVec.ofNat 32 bytes.length

/-- `SerializeToArray` writes nothing above two gigabytes or over the size. -/
def serializeToArray (bytes : List Byte) (size : BitVec 32) :
    Option (List Byte) :=
  if bytes.length < 2 ^ 31 ∧ (bytes.length : Int) ≤ size.toInt then
    some bytes
  else none

/-- `ParseFromArray` takes its size as an `int`. -/
def parseFromArray {α : Type} (codec : Codec α) (mem : Memory)
    (offset : Nat) (size : BitVec 32) : Option α :=
  if size.toInt < 0 then codec.misparse mem offset size.toInt
  else codec.parse (mem.read offset size.toNat)

theorem toInt_ofNat_of_lt {n : Nat} (h : n < 2 ^ 31) :
    (BitVec.ofNat 32 n).toInt = n := by
  rw [BitVec.toInt_eq_toNat_cond, BitVec.toNat_ofNat]
  have hmod : n % 2 ^ 32 = n := Nat.mod_eq_of_lt (by omega)
  rw [hmod, if_pos (by omega)]

theorem toNat_byteSize {bytes : List Byte} (h : bytes.length < 2 ^ 31) :
    (byteSize bytes).toNat = bytes.length := by
  rw [byteSize, BitVec.toNat_ofNat]
  exact Nat.mod_eq_of_lt (by omega)

theorem serializeToArray_byteSize (bytes : List Byte) :
    serializeToArray bytes (byteSize bytes) =
      if bytes.length < 2 ^ 31 then some bytes else none := by
  by_cases h : bytes.length < 2 ^ 31
  · have hsize : (bytes.length : Int) ≤ (byteSize bytes).toInt := by
      rw [byteSize, toInt_ofNat_of_lt h]
    rw [serializeToArray, if_pos ⟨h, hsize⟩, if_pos h]
  · rw [serializeToArray, if_neg fun hboth => h hboth.1, if_neg h]

theorem parseFromArray_serialize {α : Type} {codec : Codec α} {a : α}
    {mem : Memory} {offset : Nat}
    (hlen : (codec.serialize a).length < 2 ^ 31)
    (hread : mem.read offset (codec.serialize a).length =
      codec.serialize a) :
    parseFromArray codec mem offset (byteSize (codec.serialize a)) =
      some a := by
  have hpos : ¬(byteSize (codec.serialize a)).toInt < 0 := by
    rw [byteSize, toInt_ofNat_of_lt hlen]
    omega
  rw [parseFromArray, if_neg hpos, toNat_byteSize hlen, hread]
  exact codec.parse_serialize a

/-! ## The message maker -/

structure MessageMaker (P : Protobuf) where
  cmdRequest : BitVec 32 → Option (Kind P.App)
  cmdResponse : BitVec 32 → Option (Kind P.App)

namespace MessageMaker

variable {P : Protobuf}

def registerMessage (cmdType : BitVec 32) (request response : Kind P.App)
    (maker : MessageMaker P) : MessageMaker P where
  cmdRequest := Function.update maker.cmdRequest cmdType (some request)
  cmdResponse := Function.update maker.cmdResponse cmdType (some response)

def new : MessageMaker P :=
  SystemMsg.all.foldl (fun maker msg =>
    maker.registerMessage msg.cmd (.request msg) (.response msg))
    ⟨fun _ => none, fun _ => none⟩

def makeMessage (maker : MessageMaker P) (msgType cmdType : BitVec 32) :
    Option (Kind P.App) :=
  if msgType &&& MsgType.requestMask ≠ 0 then maker.cmdRequest cmdType
  else if msgType &&& MsgType.responseMask ≠ 0 then
    maker.cmdResponse cmdType
  else none

end MessageMaker

end StarsGaming.Net
