import StarsGaming.Net.Header

/-!
# Byte order and message buffers

A message buffer holds a length prefix, a header and a body one behind the
other.  Its two lengths are unsigned words; the accessors return `int` and the
pointers are computed from the words themselves.
-/

namespace StarsGaming.Net

open Foundation

/-! ## Byte order -/

def swap32 (l : BitVec 32) : BitVec 32 :=
  (l >>> 24) ||| ((l &&& 0x00ff0000) >>> 8) |||
    ((l &&& 0x0000ff00) <<< 8) ||| (l <<< 24)

def hton32 (bigEndian : Bool) (i : BitVec 32) : BitVec 32 :=
  if bigEndian then i else swap32 i

def ntoh32 (bigEndian : Bool) (i : BitVec 32) : BitVec 32 :=
  if bigEndian then i else swap32 i

def ofBytes (a b c d : Byte) : BitVec 32 :=
  a ++ b ++ c ++ d

def storeWord (bigEndian : Bool) (w : BitVec 32) : List Byte :=
  let bytes := [w.extractLsb' 24 8, w.extractLsb' 16 8,
    w.extractLsb' 8 8, w.extractLsb' 0 8]
  if bigEndian then bytes else bytes.reverse

def loadWord (bigEndian : Bool) : List Byte → BitVec 32
  | [a, b, c, d] =>
      if bigEndian then ofBytes a b c d else ofBytes d c b a
  | _ => 0

@[simp] theorem length_storeWord (bigEndian : Bool) (w : BitVec 32) :
    (storeWord bigEndian w).length = headLenSize := by
  cases bigEndian <;> rfl

theorem read_storeWord (mem : Memory) (bigEndian : Bool) (w : BitVec 32) :
    (mem.write 0 (storeWord bigEndian w)).read 0 headLenSize =
      storeWord bigEndian w := by
  rw [← length_storeWord bigEndian w]
  exact Memory.read_write _ _ _

theorem swap32_ofBytes (a b c d : Byte) :
    swap32 (ofBytes a b c d) = ofBytes d c b a := by
  apply BitVec.eq_of_getLsbD_eq
  intro i hi
  simp only [swap32, ofBytes, BitVec.getLsbD_or, BitVec.getLsbD_ushiftRight,
    BitVec.getLsbD_and, BitVec.getLsbD_shiftLeft, BitVec.getLsbD_append]
  interval_cases i <;> simp

theorem ofBytes_extract (w : BitVec 32) :
    ofBytes (w.extractLsb' 24 8) (w.extractLsb' 16 8)
      (w.extractLsb' 8 8) (w.extractLsb' 0 8) = w := by
  apply BitVec.eq_of_getLsbD_eq
  intro i hi
  simp only [ofBytes, BitVec.getLsbD_append, BitVec.getLsbD_extractLsb']
  interval_cases i <;> simp

theorem extract_ofBytes (a b c d : Byte) :
    (ofBytes a b c d).extractLsb' 24 8 = a ∧
      (ofBytes a b c d).extractLsb' 16 8 = b ∧
      (ofBytes a b c d).extractLsb' 8 8 = c ∧
      (ofBytes a b c d).extractLsb' 0 8 = d := by
  refine ⟨?_, ?_, ?_, ?_⟩ <;>
    (apply BitVec.eq_of_getLsbD_eq
     intro i hi
     simp only [ofBytes, BitVec.getLsbD_append, BitVec.getLsbD_extractLsb']
     interval_cases i <;> simp)

theorem storeWord_hton32 (bigEndian : Bool) (w : BitVec 32) :
    storeWord bigEndian (hton32 bigEndian w) = storeWord true w := by
  cases bigEndian with
  | true => rfl
  | false =>
      have hswap : swap32 w = ofBytes (w.extractLsb' 0 8)
          (w.extractLsb' 8 8) (w.extractLsb' 16 8) (w.extractLsb' 24 8) := by
        rw [← swap32_ofBytes, ofBytes_extract]
      obtain ⟨ha, hb, hc, hd⟩ := extract_ofBytes (w.extractLsb' 0 8)
        (w.extractLsb' 8 8) (w.extractLsb' 16 8) (w.extractLsb' 24 8)
      simp [storeWord, hton32, hswap, ha, hb, hc, hd]

theorem ntoh32_loadWord (bigEndian : Bool) (w : BitVec 32) :
    ntoh32 bigEndian (loadWord bigEndian (storeWord true w)) = w := by
  cases bigEndian with
  | true => exact ofBytes_extract w
  | false =>
      simp only [ntoh32, storeWord, loadWord, Bool.false_eq_true, if_false,
        if_true, swap32_ofBytes]
      exact ofBytes_extract w

/-! ## Buffers -/

/--
A buffer of either kind.  `stored` records the ranges written through the
buffer's own encoders, each with its offset and size; nothing reads it.
-/
structure MsgBuffer where
  mHeaderLength : BitVec 32
  mMsgLength : BitVec 32
  mBuffer : Memory
  stored : List (Nat × Nat)

namespace MsgBuffer

def new (mem : Memory) : MsgBuffer :=
  ⟨0, 0, mem, []⟩

def bufferLength (buf : MsgBuffer) : Int :=
  (BitVec.ofNat 32 headLenSize + buf.mHeaderLength + buf.mMsgLength).toInt

def headerLength (buf : MsgBuffer) : Int :=
  buf.mHeaderLength.toInt

def bodyLength (buf : MsgBuffer) : Int :=
  buf.mMsgLength.toInt

/-- The offset of `body_buffer()`. -/
def bodyOffset (buf : MsgBuffer) : Nat :=
  headLenSize + buf.mHeaderLength.toNat

def store (offset : Nat) (bytes : List Byte) (buf : MsgBuffer) :
    MsgBuffer :=
  { buf with
    mBuffer := buf.mBuffer.write offset bytes
    stored := (offset, bytes.length) :: buf.stored }

def encodeHeaderLength (bigEndian : Bool) (length : BitVec 32)
    (buf : MsgBuffer) : MsgBuffer :=
  store 0 (storeWord bigEndian (hton32 bigEndian length))
    { buf with mHeaderLength := length }

def encodeHeader {H : Type} [HeaderType H] (codec : Codec H) (header : H)
    (buf : MsgBuffer) : Bool × MsgBuffer :=
  let buf := { buf with mMsgLength := HeaderType.length header }
  let bytes := codec.serialize header
  match serializeToArray bytes (byteSize bytes) with
  | none => (false, buf)
  | some bytes => (true, buf.store headLenSize bytes)

def encodeMessage {P : Protobuf} (msg : PbMessage P) (buf : MsgBuffer) :
    Bool × MsgBuffer :=
  match serializeToArray msg.bytes (byteSize msg.bytes) with
  | none => (false, buf)
  | some bytes => (true, buf.store buf.bodyOffset bytes)

def decodeHeaderLength (bigEndian : Bool) (buf : MsgBuffer) : MsgBuffer :=
  { buf with
    mHeaderLength :=
      ntoh32 bigEndian (loadWord bigEndian (buf.mBuffer.read 0 headLenSize)) }

def decodeHeader {H : Type} [HeaderType H] (codec : Codec H)
    (buf : MsgBuffer) : Option (H × MsgBuffer) :=
  (parseFromArray codec buf.mBuffer headLenSize buf.mHeaderLength).map
    fun header => (header, { buf with mMsgLength := HeaderType.length header })

def decodeMessage {P : Protobuf} (kind : Kind P.App) (buf : MsgBuffer) :
    Option (PbMessage P) :=
  (parseFromArray (P.codec kind) buf.mBuffer buf.bodyOffset
    buf.mMsgLength).map fun body => ⟨kind, body⟩

/-! ### Specifications -/

section Specifications

variable {P : Protobuf} {H : Type} [HeaderType H] {codec : Codec H}
  {header : H} {msg : PbMessage P} (buf : MsgBuffer)

theorem encodeHeader_of_lt (h : (codec.serialize header).length < 2 ^ 31) :
    buf.encodeHeader codec header =
      (true, store headLenSize (codec.serialize header)
        { buf with mMsgLength := HeaderType.length header }) := by
  simp only [encodeHeader, serializeToArray_byteSize, if_pos h]

theorem encodeHeader_of_ge (h : ¬(codec.serialize header).length < 2 ^ 31) :
    buf.encodeHeader codec header =
      (false, { buf with mMsgLength := HeaderType.length header }) := by
  simp only [encodeHeader, serializeToArray_byteSize, if_neg h]

theorem encodeMessage_of_lt (h : msg.bytes.length < 2 ^ 31) :
    buf.encodeMessage msg = (true, buf.store buf.bodyOffset msg.bytes) := by
  simp only [encodeMessage, serializeToArray_byteSize, if_pos h]

theorem encodeMessage_of_ge (h : ¬msg.bytes.length < 2 ^ 31) :
    buf.encodeMessage msg = (false, buf) := by
  simp only [encodeMessage, serializeToArray_byteSize, if_neg h]

end Specifications

end MsgBuffer

end StarsGaming.Net
