import StarsGaming.Net.Header

/-!
# The generated message classes

Headers and system messages in the wire format of protocol buffers.  Headers
leave out fields that hold their default; the optional fields of a system
message are present or not, so that such a message is the list of its fields.
-/

namespace StarsGaming.Net

open Foundation Wire

/-- `int32` fields are sent as sign-extended words of 64 bits. -/
def int32 (field : Nat) (v : BitVec 32) : List Record :=
  number field (v.signExtend 64).toNat

def uint64 (field : Nat) (v : BitVec 64) : List Record :=
  number field v.toNat

def getInt32 (records : List Record) (field : Nat) : BitVec 32 :=
  BitVec.ofNat 32 (getNumber records field)

def getUint64 (records : List Record) (field : Nat) : BitVec 64 :=
  BitVec.ofNat 64 (getNumber records field)

@[simp] theorem setWidth_signExtend (v : BitVec 32) :
    (v.signExtend 64).setWidth 32 = v := by
  apply BitVec.eq_of_getLsbD_eq
  intro i hi
  rw [BitVec.getLsbD_setWidth, BitVec.getLsbD_signExtend]
  simp [hi, show i < 64 by omega]

def Header.records (h : Header) : List Record :=
  int32 1 h.cmdtype ++ int32 2 h.type ++ uint64 3 h.sequenceid ++
    int32 4 h.length ++ uint64 5 h.checkResult ++ int32 6 h.responseResult

def Header.ofRecords (records : List Record) : Header where
  cmdtype := getInt32 records 1
  type := getInt32 records 2
  sequenceid := getUint64 records 3
  length := getInt32 records 4
  checkResult := getUint64 records 5
  responseResult := getInt32 records 6

def MqHeader.records (h : MqHeader) : List Record :=
  int32 1 h.cmdtype ++ int32 2 h.type ++ uint64 3 h.sequenceid ++
    int32 4 h.length ++ int32 5 h.checkResult ++ uint64 6 h.responseResult ++
    string 7 h.sendRoutkey ++ string 8 h.recvRoutkey ++
    string 9 h.sendExchange ++ string 10 h.recvExchange

def MqHeader.ofRecords (records : List Record) : MqHeader where
  cmdtype := getInt32 records 1
  type := getInt32 records 2
  sequenceid := getUint64 records 3
  length := getInt32 records 4
  checkResult := getInt32 records 5
  responseResult := getUint64 records 6
  sendRoutkey := getString records 7
  recvRoutkey := getString records 8
  sendExchange := getString records 9
  recvExchange := getString records 10

theorem Header.ofRecords_records (h : Header) : ofRecords h.records = h := by
  simp [ofRecords, records, getInt32, getUint64, getNumber, int32, uint64]

theorem MqHeader.ofRecords_records (h : MqHeader) :
    ofRecords h.records = h := by
  simp [ofRecords, records, getInt32, getUint64, getNumber, getString, int32,
    uint64]

theorem Header.plain_records {h : Header} {record : Record}
    (hmem : record ∈ h.records) : record.Plain := by
  simp only [records, List.mem_append] at hmem
  rcases hmem with ((((hmem | hmem) | hmem) | hmem) | hmem) | hmem
  all_goals exact plain_of_mem_number hmem

theorem MqHeader.plain_records {h : MqHeader} {record : Record}
    (hmem : record ∈ h.records) : record.Plain := by
  simp only [records, List.mem_append] at hmem
  rcases hmem with ((((((((hmem | hmem) | hmem) | hmem) | hmem) | hmem) |
    hmem) | hmem) | hmem) | hmem
  iterate 6 exact plain_of_mem_number hmem
  all_goals exact plain_of_mem_string hmem

def recordCodec {α : Type} (records : α → List Record)
    (ofRecords : List Record → Option α)
    (hinv : ∀ a, ofRecords (records a) = some a)
    (hplain : ∀ a, ∀ record ∈ records a, record.Plain) : Codec α where
  serialize a := (records a).flatMap putRecord
  parse bytes := (parseRecords bytes).bind ofRecords
  misparse _ _ _ := none
  parse_serialize a := by
    rw [parseRecords_putRecords (hplain a), Option.bind_some, hinv]

def headerCodec : Codec Header :=
  recordCodec Header.records (fun records => some (.ofRecords records))
    (fun h => congrArg some h.ofRecords_records) fun _ _ => Header.plain_records

def mqHeaderCodec : Codec MqHeader :=
  recordCodec MqHeader.records (fun records => some (.ofRecords records))
    (fun h => congrArg some h.ofRecords_records)
    fun _ _ => MqHeader.plain_records

/-! ## System messages -/

structure Fields where
  records : List Record
  plain : ∀ record ∈ records, record.Plain
  deriving DecidableEq

def Fields.empty : Fields :=
  ⟨[], List.forall_mem_nil _⟩

def Fields.text (content : List Byte) : Fields :=
  ⟨string 1 content, fun _ => plain_of_mem_string⟩

def fieldsCodec : Codec Fields :=
  recordCodec Fields.records
    (fun records =>
      if h : ∀ record ∈ records, record.Plain then some ⟨records, h⟩
      else none)
    (fun a => dif_pos a.plain) Fields.plain

def systemProtobuf : Protobuf where
  App := Empty
  Body := fun _ => Fields
  new := fun _ => .empty
  codec := fun _ => fieldsCodec
  header := headerCodec
  mqHeader := mqHeaderCodec

end StarsGaming.Net
