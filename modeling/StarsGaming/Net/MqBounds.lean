import StarsGaming.Net.MqSession

/-!
# Bounds of a message from the broker

`MqSession::recv_data` reads a length prefix, a header and a body from an AMQP
body whose size it never looks at.  Next to the code's decoder stands one that
reads from the bytes of the body alone; the two agree on the bodies whose
lengths fit.
-/

namespace StarsGaming.Net

open Foundation

namespace MqSession

variable {P : Protobuf} (host : Host P)

/-! ## What is read -/

/--
`decodeData` with the ranges it reads, each given by its offset and by the size
that is handed over as `int`.
-/
def decodeReads (mem : Memory) (bodySize : Nat) :
    List (Nat × Int) × Option (MqMsg P) :=
  let buf : MsgBuffer := ⟨0, BitVec.ofNat 32 bodySize, mem, []⟩
  let buf := buf.decodeHeaderLength host.bigEndian
  let reads := [(0, (headLenSize : Int)), (headLenSize, buf.headerLength)]
  match buf.decodeHeader P.mqHeader with
  | none => (reads, none)
  | some (header, buf) =>
      match host.msgMaker.makeMessage header.type header.cmdtype with
      | none => (reads, none)
      | some kind =>
          (reads ++ [(buf.bodyOffset, buf.bodyLength)],
            (buf.decodeMessage kind).map (⟨header, ·⟩))

theorem decodeReads_snd (mem : Memory) (bodySize : Nat) :
    (decodeReads host mem bodySize).2 = decodeData host mem bodySize := by
  simp only [decodeReads, decodeData, Option.bind_eq_bind]
  cases MsgBuffer.decodeHeader P.mqHeader _ with
  | none => rfl
  | some decoded =>
      simp only [Option.bind_some]
      cases host.msgMaker.makeMessage decoded.1.type decoded.1.cmdtype with
      | none => rfl
      | some kind =>
          simp only [Option.bind_some]
          cases MsgBuffer.decodeMessage kind decoded.2 <;> rfl

/-- A size below zero is no range at all. -/
def InsideBody (bodySize : Nat) (range : Nat × Int) : Prop :=
  0 ≤ range.2 ∧ range.1 + range.2 ≤ bodySize

instance (bodySize : Nat) (range : Nat × Int) :
    Decidable (InsideBody bodySize range) :=
  inferInstanceAs (Decidable (_ ∧ _))

/-! ## What a body says -/

def prefixedLength (body : List Byte) : BitVec 32 :=
  ntoh32 host.bigEndian (loadWord host.bigEndian (body.take headLenSize))

def headerOf (body : List Byte) : Option MqHeader :=
  P.mqHeader.parse
    ((body.drop headLenSize).take (prefixedLength host body).toNat)

def part (body : List Byte) (offset : Nat) (size : BitVec 32) :
    Option (List Byte) :=
  if 0 ≤ size.toInt ∧ offset + size.toNat ≤ body.length then
    some ((body.drop offset).take size.toNat)
  else none

/-- A body is malformed if nothing can be read from its own bytes. -/
def parseBody (body : List Byte) : Option (MqMsg P) := do
  let _ ← part body 0 (BitVec.ofNat 32 headLenSize)
  let size := prefixedLength host body
  let bytes ← part body headLenSize size
  let header ← P.mqHeader.parse bytes
  let kind ← host.msgMaker.makeMessage header.type header.cmdtype
  let bytes ← part body (headLenSize + size.toNat) header.length
  let message ← (P.codec kind).parse bytes
  some ⟨header, ⟨kind, message⟩⟩

/--
The body has a prefix, the header that the prefix announces, and the message
that the header announces if it is a header of a known message.
-/
structure LengthsFit (body : List Byte) : Prop where
  word : headLenSize ≤ body.length
  header : 0 ≤ (prefixedLength host body).toInt ∧
    headLenSize + (prefixedLength host body).toNat ≤ body.length
  message : ∀ header kind, headerOf host body = some header →
    host.msgMaker.makeMessage header.type header.cmdtype = some kind →
      0 ≤ header.length.toInt ∧
        headLenSize + (prefixedLength host body).toNat +
          header.length.toNat ≤ body.length

/-! ## Memory and body -/

theorem read_eq_take {mem : Memory} {bodySize offset size : Nat}
    (hfits : offset + size ≤ bodySize) :
    mem.read offset size =
      ((mem.read 0 bodySize).drop offset).take size := by
  apply List.ext_getElem
  · simp only [Memory.length_read, List.length_take, List.length_drop]
    omega
  · intro i hi hi'
    simp [Memory.getElem_read]

theorem read_prefix {mem : Memory} {bodySize : Nat}
    (hword : headLenSize ≤ bodySize) :
    mem.read 0 headLenSize = (mem.read 0 bodySize).take headLenSize := by
  have hread := @read_eq_take mem bodySize 0 headLenSize (by omega)
  rwa [List.drop_zero] at hread

theorem part_read {mem : Memory} {bodySize offset : Nat} {size : BitVec 32}
    (hsize : 0 ≤ size.toInt) (hfits : offset + size.toNat ≤ bodySize) :
    part (mem.read 0 bodySize) offset size =
      some (mem.read offset size.toNat) := by
  rw [part, Memory.length_read, if_pos ⟨hsize, hfits⟩, read_eq_take hfits]

theorem insideBody_toInt {bodySize offset : Nat} {size : BitVec 32} :
    InsideBody bodySize (offset, size.toInt) ↔
      0 ≤ size.toInt ∧ offset + size.toNat ≤ bodySize := by
  have hcond := size.toInt_eq_toNat_cond
  rw [InsideBody]
  dsimp only
  split at hcond <;> omega

theorem parseFromArray_of_inside {α : Type} (codec : Codec α)
    {mem : Memory} {bodySize offset : Nat} {size : BitVec 32}
    (hsize : 0 ≤ size.toInt) (hfits : offset + size.toNat ≤ bodySize) :
    parseFromArray codec mem offset size =
      codec.parse (((mem.read 0 bodySize).drop offset).take size.toNat) := by
  rw [parseFromArray, if_neg (by omega), read_eq_take hfits]

section Fitting

variable {host} {mem : Memory} {bodySize : Nat}

theorem prefixedLength_read (hword : headLenSize ≤ bodySize) :
    ntoh32 host.bigEndian
        (loadWord host.bigEndian (mem.read 0 headLenSize)) =
      prefixedLength host (mem.read 0 bodySize) := by
  rw [prefixedLength, read_prefix hword]

theorem headerOf_read
    (hsize : 0 ≤ (prefixedLength host (mem.read 0 bodySize)).toInt)
    (hfits : headLenSize +
      (prefixedLength host (mem.read 0 bodySize)).toNat ≤ bodySize) :
    parseFromArray P.mqHeader mem headLenSize
        (prefixedLength host (mem.read 0 bodySize)) =
      headerOf host (mem.read 0 bodySize) :=
  parseFromArray_of_inside P.mqHeader hsize hfits

theorem decodeReads_of_header (hword : headLenSize ≤ bodySize)
    (hsize : 0 ≤ (prefixedLength host (mem.read 0 bodySize)).toInt)
    (hfits : headLenSize +
      (prefixedLength host (mem.read 0 bodySize)).toNat ≤ bodySize) :
    (∀ range ∈ (decodeReads host mem bodySize).1,
        InsideBody bodySize range) ↔
      ∀ header kind, headerOf host (mem.read 0 bodySize) = some header →
        host.msgMaker.makeMessage header.type header.cmdtype = some kind →
          0 ≤ header.length.toInt ∧
            headLenSize +
              (prefixedLength host (mem.read 0 bodySize)).toNat +
                header.length.toNat ≤ bodySize := by
  have hparse := headerOf_read hsize hfits
  have hfirst : InsideBody bodySize (0, (headLenSize : Int)) :=
    ⟨by omega, by simpa using hword⟩
  have hsecond := insideBody_toInt.mpr ⟨hsize, hfits⟩
  have hreads : ∀ range ∈ [(0, (headLenSize : Int)), (headLenSize,
      (prefixedLength host (mem.read 0 bodySize)).toInt)],
        InsideBody bodySize range :=
    List.forall_mem_cons.mpr ⟨hfirst, List.forall_mem_singleton.mpr hsecond⟩
  simp only [decodeReads, MsgBuffer.decodeHeaderLength, MsgBuffer.headerLength,
    MsgBuffer.decodeHeader, prefixedLength_read hword, hparse]
  cases hheader : headerOf host (mem.read 0 bodySize) with
  | none => exact iff_of_true hreads fun _ _ h => by cases h
  | some header =>
      simp only [Option.map_some]
      cases hmake : host.msgMaker.makeMessage header.type header.cmdtype with
      | none =>
          refine iff_of_true hreads ?_
          intro header' kind heq hkind
          cases heq
          exact absurd (hmake.symm.trans hkind) (by simp)
      | some kind =>
          dsimp only
          have hthird := @insideBody_toInt bodySize (headLenSize +
            (prefixedLength host (mem.read 0 bodySize)).toNat) header.length
          constructor
          · intro hall header' kind' heq _
            cases heq
            exact hthird.mp (hall _ (by
              simp [MsgBuffer.bodyOffset, MsgBuffer.bodyLength,
                HeaderType.length]))
          · intro hlast
            refine List.forall_mem_append.mpr ⟨hreads, ?_⟩
            exact List.forall_mem_singleton.mpr
              (hthird.mpr (hlast header kind rfl hmake))

theorem inside_prefix
    (hinside : ∀ range ∈ (decodeReads host mem bodySize).1,
      InsideBody bodySize range) :
    headLenSize ≤ bodySize ∧
      InsideBody bodySize (headLenSize,
        (ntoh32 host.bigEndian (loadWord host.bigEndian
          (mem.read 0 headLenSize))).toInt) := by
  simp only [decodeReads, MsgBuffer.decodeHeaderLength,
    MsgBuffer.headerLength] at hinside
  have hboth : InsideBody bodySize (0, (headLenSize : Int)) ∧
      InsideBody bodySize (headLenSize,
        (ntoh32 host.bigEndian (loadWord host.bigEndian
          (mem.read 0 headLenSize))).toInt) := by
    split at hinside
    · exact ⟨hinside _ (by simp), hinside _ (by simp)⟩
    · split at hinside
      · exact ⟨hinside _ (by simp), hinside _ (by simp)⟩
      · exact ⟨hinside _ (by simp), hinside _ (by simp)⟩
  refine ⟨?_, hboth.2⟩
  have hword := hboth.1.2
  dsimp only at hword
  omega

theorem decodeReads_inside_iff :
    (∀ range ∈ (decodeReads host mem bodySize).1,
        InsideBody bodySize range) ↔
      LengthsFit host (mem.read 0 bodySize) := by
  constructor
  · intro hinside
    obtain ⟨hword, hheader⟩ := inside_prefix hinside
    rw [prefixedLength_read hword, insideBody_toInt] at hheader
    refine ⟨by simpa using hword, by simpa using hheader, ?_⟩
    simpa using (decodeReads_of_header hword hheader.1 hheader.2).mp hinside
  · intro hfits
    have hword : headLenSize ≤ bodySize := by simpa using hfits.word
    have hheader := hfits.header
    rw [Memory.length_read] at hheader
    refine (decodeReads_of_header hword hheader.1 hheader.2).mpr ?_
    simpa using hfits.message

theorem decodeData_eq_parseBody
    (hfits : LengthsFit host (mem.read 0 bodySize)) :
    decodeData host mem bodySize = parseBody host (mem.read 0 bodySize) := by
  have hword : headLenSize ≤ bodySize := by simpa using hfits.word
  have hheader := hfits.header
  rw [Memory.length_read] at hheader
  have hparse := headerOf_read hheader.1 hheader.2
  have hfirst := @part_read mem bodySize 0 (BitVec.ofNat 32 headLenSize)
    (by decide) (by simpa [headLenSize] using hword)
  simp only [decodeData, parseBody, MsgBuffer.decodeHeaderLength,
    MsgBuffer.decodeHeader, prefixedLength_read hword, hparse, hfirst,
    part_read hheader.1 hheader.2, Option.bind_eq_bind, Option.bind_some,
    read_eq_take hheader.2]
  change (Option.map _ (headerOf host (mem.read 0 bodySize))).bind _ =
    (headerOf host (mem.read 0 bodySize)).bind _
  cases hsome : headerOf host (mem.read 0 bodySize) with
  | none => rfl
  | some header =>
      simp only [Option.map_some, Option.bind_some]
      cases hmake : host.msgMaker.makeMessage header.type header.cmdtype with
      | none => rfl
      | some kind =>
          have hlast := hfits.message header kind hsome hmake
          rw [Memory.length_read] at hlast
          simp only [Option.bind_some, part_read hlast.1 hlast.2,
            MsgBuffer.decodeMessage, MsgBuffer.bodyOffset]
          change (Option.map _ (parseFromArray _ mem _ header.length)).bind _
            = _
          rw [parseFromArray_of_inside _ hlast.1 hlast.2,
            ← read_eq_take hlast.2]
          cases (P.codec kind).parse _ <;> rfl

end Fitting

/-- Reads stay in the body and nothing is made of a malformed one. -/
def DecodesSafely (mem : Memory) (bodySize : Nat) (s : MqSession P) : Prop :=
  (∀ range ∈ (decodeReads host mem bodySize).1,
      InsideBody bodySize range) ∧
    (parseBody host (mem.read 0 bodySize) = none →
      (s.recvData host mem bodySize).1 = false)

/--
The ranges are those of the code's own decoding, which is safe for exactly the
bodies whose lengths fit.
-/
theorem recvData_safe_iff (mem : Memory) (bodySize : Nat)
    (s : MqSession P) :
    (decodeReads host mem bodySize).2 = decodeData host mem bodySize ∧
    (DecodesSafely host mem bodySize s ↔
      LengthsFit host (mem.read 0 bodySize)) := by
  refine ⟨decodeReads_snd host mem bodySize, ?_⟩
  rw [DecodesSafely, decodeReads_inside_iff]
  constructor
  · exact And.left
  · intro hfits
    refine ⟨hfits, fun hmalformed => ?_⟩
    rw [recvData, decodeData_eq_parseBody hfits, hmalformed]

/-- `sampleCall` with the length of its body in the header. -/
def measuredCall : MqMsg systemProtobuf :=
  { sampleCall with
    header :=
      { sampleCall.header with
        length := byteSize sampleCall.pbmessage.bytes } }

theorem empty_body_decoded :
    let mem := (encoded false measuredCall (.new fun _ => 0)).mBuffer
    (∃ range ∈ (decodeReads sampleHost mem 0).1, ¬ InsideBody 0 range) ∧
      parseBody sampleHost (mem.read 0 0) = none ∧
      (sample.recvData sampleHost mem 0).1 = true := by
  intro mem
  refine ⟨⟨(0, headLenSize), ?_, by decide⟩, rfl, ?_⟩
  · simp only [decodeReads]
    split
    · simp
    · split <;> simp
  · rw [recvData, decodeData_encoded (by decide +kernel) sampleHost false rfl
      rfl]

end MqSession

end StarsGaming.Net
