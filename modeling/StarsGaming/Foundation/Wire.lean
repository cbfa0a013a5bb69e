import StarsGaming.Foundation.Bytes

/-!
# Tagged records

The wire format of protocol buffers: a message is a sequence of records, each
a varint that holds a field number and a wire type, followed by a value of
that type.  Numbers travel in groups of seven bits, lowest group first.
-/

namespace StarsGaming.Foundation.Wire

/-! ## Varints -/

/-- At most `k + 1` groups of seven bits. -/
def putGroups : Nat → Nat → List Byte
  | 0, n => [BitVec.ofNat 8 n]
  | k + 1, n =>
      if n < 128 then [BitVec.ofNat 8 n]
      else BitVec.ofNat 8 (n % 128 + 128) :: putGroups k (n / 128)

def putVarint (n : Nat) : List Byte :=
  putGroups n.log2 n

def takeVarint : List Byte → Option (Nat × List Byte)
  | [] => none
  | b :: rest =>
      if b.toNat < 128 then some (b.toNat, rest)
      else (takeVarint rest).map fun (n, rest) =>
        (b.toNat - 128 + 128 * n, rest)

theorem takeVarint_putGroups (k n : Nat) (rest : List Byte)
    (h : n < 128 ^ (k + 1)) :
    takeVarint (putGroups k n ++ rest) = some (n, rest) := by
  induction k generalizing n with
  | zero =>
      have hn : n < 128 := by simpa using h
      have hmod : n % 256 = n := by omega
      simp [putGroups, takeVarint, hmod, hn]
  | succ k ih =>
      rw [putGroups]
      by_cases hn : n < 128
      · have hmod : n % 256 = n := by omega
        simp [takeVarint, hmod, hn]
      · have hdiv : n / 128 < 128 ^ (k + 1) := by
          apply Nat.div_lt_of_lt_mul
          rwa [Nat.pow_succ'] at h
        have hbyte : (n % 128 + 128) % 256 = n % 128 + 128 := by omega
        have hbig : ¬n % 128 + 128 < 128 := by omega
        simp [takeVarint, hn, hbyte, hbig, ih _ hdiv, Nat.mod_add_div]

@[simp] theorem takeVarint_putVarint (n : Nat) (rest : List Byte) :
    takeVarint (putVarint n ++ rest) = some (n, rest) := by
  apply takeVarint_putGroups
  calc
    n < 2 ^ (n.log2 + 1) := Nat.lt_log2_self
    _ ≤ 128 ^ (n.log2 + 1) := Nat.pow_le_pow_left (by decide) _

theorem putVarint_ne_nil (n : Nat) : putVarint n ≠ [] := by
  rw [putVarint]
  cases n.log2 with
  | zero => simp [putGroups]
  | succ k =>
      rw [putGroups]
      split <;> simp

/-! ## Records -/

inductive Value where
  | varint (n : Nat)
  | bytes (content : List Byte)
  | fixed (content : List Byte)
  deriving DecidableEq

structure Record where
  field : Nat
  value : Value
  deriving DecidableEq

/-- The first `size` bytes and what follows them. -/
def takeBytes (size : Nat) (bytes : List Byte) :
    Option (List Byte × List Byte) :=
  if size ≤ bytes.length then some (bytes.take size, bytes.drop size)
  else none

@[simp] theorem takeBytes_append (bytes rest : List Byte) :
    takeBytes bytes.length (bytes ++ rest) = some (bytes, rest) := by
  simp [takeBytes]

def takeValue (wireType : Nat) (bytes : List Byte) :
    Option (Value × List Byte) :=
  match wireType with
  | 0 => (takeVarint bytes).map fun (n, rest) => (.varint n, rest)
  | 1 => (takeBytes 8 bytes).map fun (b, rest) => (.fixed b, rest)
  | 2 => do
      let (size, bytes) ← takeVarint bytes
      let (content, rest) ← takeBytes size bytes
      some (.bytes content, rest)
  | 5 => (takeBytes 4 bytes).map fun (b, rest) => (.fixed b, rest)
  | _ => none

def takeRecord (bytes : List Byte) : Option (Record × List Byte) := do
  let (tag, bytes) ← takeVarint bytes
  let (value, rest) ← takeValue (tag % 8) bytes
  some (⟨tag / 8, value⟩, rest)

/-- Records until the bytes are used up, at most `fuel` of them. -/
def takeRecords : Nat → List Byte → Option (List Record)
  | _, [] => some []
  | 0, _ :: _ => none
  | fuel + 1, b :: bytes => do
      let (record, rest) ← takeRecord (b :: bytes)
      (takeRecords fuel rest).map (record :: ·)

def parseRecords (bytes : List Byte) : Option (List Record) :=
  takeRecords bytes.length bytes

def putNumber (field n : Nat) : List Byte :=
  putVarint (field * 8) ++ putVarint n

def putBytes (field : Nat) (content : List Byte) : List Byte :=
  putVarint (field * 8 + 2) ++ putVarint content.length ++ content

def putRecord : Record → List Byte
  | ⟨field, .varint n⟩ => putNumber field n
  | ⟨field, .bytes content⟩ => putBytes field content
  | ⟨_, .fixed _⟩ => []

def Record.Plain : Record → Bool
  | ⟨_, .fixed _⟩ => false
  | _ => true

theorem takeRecord_putRecord {record : Record} (h : record.Plain)
    (rest : List Byte) :
    takeRecord (putRecord record ++ rest) = some (record, rest) := by
  obtain ⟨field, value⟩ := record
  cases value with
  | varint n =>
      have htype : field * 8 % 8 = 0 := by omega
      simp [putRecord, putNumber, takeRecord, htype, takeValue]
  | bytes content =>
      have htype : (field * 8 + 2) % 8 = 2 := by omega
      have hfield : (field * 8 + 2) / 8 = field := by omega
      simp [putRecord, putBytes, takeRecord, htype, hfield, takeValue]
  | fixed content => cases h

theorem putRecord_ne_nil {record : Record} (h : record.Plain) :
    putRecord record ≠ [] := by
  obtain ⟨field, value⟩ := record
  cases value with
  | varint n => simp [putRecord, putNumber, putVarint_ne_nil]
  | bytes content => simp [putRecord, putBytes, putVarint_ne_nil]
  | fixed content => cases h

theorem takeRecords_putRecords {records : List Record}
    (h : ∀ record ∈ records, record.Plain) {fuel : Nat}
    (hfuel : (records.flatMap putRecord).length ≤ fuel) :
    takeRecords fuel (records.flatMap putRecord) = some records := by
  induction records generalizing fuel with
  | nil => simp [takeRecords]
  | cons record records ih =>
      have hplain := h record List.mem_cons_self
      obtain ⟨b, bytes, hb⟩ :=
        List.exists_cons_of_ne_nil (putRecord_ne_nil hplain)
      rw [List.flatMap_cons] at hfuel ⊢
      cases fuel with
      | zero => simp [hb] at hfuel
      | succ fuel =>
          have htake := takeRecord_putRecord hplain
            (records.flatMap putRecord)
          rw [hb, List.cons_append] at htake hfuel
          have hrest : takeRecords fuel (records.flatMap putRecord) =
              some records := by
            apply ih fun r hr => h r (List.mem_cons_of_mem _ hr)
            rw [List.length_cons, List.length_append] at hfuel
            omega
          simp [hb, takeRecords, htake, hrest]

theorem parseRecords_putRecords {records : List Record}
    (h : ∀ record ∈ records, record.Plain) :
    parseRecords (records.flatMap putRecord) = some records :=
  takeRecords_putRecords h le_rfl

/-! ## Fields -/

def number (field n : Nat) : List Record :=
  if n = 0 then [] else [⟨field, .varint n⟩]

def string (field : Nat) (content : List Byte) : List Record :=
  if content = [] then [] else [⟨field, .bytes content⟩]

def setNumber (field n : Nat) : Record → Nat
  | ⟨f, .varint m⟩ => if f = field then m else n
  | _ => n

def setString (field : Nat) (content : List Byte) : Record → List Byte
  | ⟨f, .bytes b⟩ => if f = field then b else content
  | _ => content

def getNumber (records : List Record) (field : Nat) : Nat :=
  records.foldl (setNumber field) 0

def getString (records : List Record) (field : Nat) : List Byte :=
  records.foldl (setString field) []

@[simp] theorem foldl_setNumber_number (field f n m : Nat) :
    (number f m).foldl (setNumber field) n =
      if f = field ∧ m ≠ 0 then m else n := by
  by_cases hm : m = 0 <;> simp [number, setNumber, hm]

@[simp] theorem foldl_setNumber_string (field f n : Nat)
    (content : List Byte) :
    (string f content).foldl (setNumber field) n = n := by
  by_cases hc : content = [] <;> simp [string, setNumber, hc]

@[simp] theorem foldl_setString_number (field f m : Nat)
    (content : List Byte) :
    (number f m).foldl (setString field) content = content := by
  by_cases hm : m = 0 <;> simp [number, setString, hm]

@[simp] theorem foldl_setString_string (field f : Nat)
    (content old : List Byte) :
    (string f content).foldl (setString field) old =
      if f = field ∧ content ≠ [] then content else old := by
  by_cases hc : content = [] <;> simp [string, setString, hc]

@[simp] theorem number_or_default (n : Nat) :
    (if n = 0 then 0 else n) = n := by
  split <;> omega

@[simp] theorem string_or_default (content : List Byte) :
    (if content = [] then [] else content) = content := by
  split
  next h => exact h.symm
  next => rfl

theorem plain_of_mem_number {field n : Nat} {record : Record}
    (h : record ∈ number field n) : record.Plain := by
  rw [number] at h
  split at h
  · cases h
  · rw [List.mem_singleton] at h
    simp [h, Record.Plain]

theorem plain_of_mem_string {field : Nat} {content : List Byte}
    {record : Record} (h : record ∈ string field content) :
    record.Plain := by
  rw [string] at h
  split at h
  · cases h
  · rw [List.mem_singleton] at h
    simp [h, Record.Plain]

end StarsGaming.Foundation.Wire
