import StarsGaming.Foundation.Bytes
import StarsGaming.Foundation.Entries

/-!
# Records in JSON and in Redis

A record class is a list of named fields, each with a type.  A record becomes a
JSON object; the object is stored as a hash whose values are all texts, and read
back as an array of fields and values that is given types by a template object.
Values that no record has (booleans, floating-point numbers, arrays, objects
inside objects) are left out.
-/

namespace StarsGaming.Lobby

open Foundation

/-! ## JSON -/

inductive Scalar where
  | null
  | string (s : List Byte)
  | numberInteger (i : Int)
  | numberUnsigned (n : Nat)
  deriving DecidableEq

inductive Json where
  | scalar (value : Scalar)
  | object (members : List (List Byte × Scalar))
  deriving DecidableEq

inductive JsonFault where
  /-- `type_error.302` -/
  | type
  /-- `type_error.305` -/
  | notObject
  /-- `assert` in the constant `operator[]` -/
  | missingKey
  /-- an access behind the end of an array -/
  | outOfRange
  deriving DecidableEq

namespace Json

def null : Json := .scalar .null

def isValid : Json → Bool
  | .scalar .null => false
  | _ => true

def isObject : Json → Bool
  | .object _ => true
  | .scalar _ => false

/-- `operator[]` of a constant. -/
def member (key : List Byte) : Json → Except JsonFault Scalar
  | .object members =>
      match members.lookup key with
      | some value => .ok value
      | none => .error .missingKey
  | .scalar _ => .error .notObject

/-- `operator[]` of a variable, which makes an object of null. -/
def setMember (key : List Byte) (value : Scalar) :
    Json → Except JsonFault Json
  | .object members => .ok (.object (assign key value members))
  | .scalar .null => .ok (.object [(key, value)])
  | .scalar _ => .error .notObject

end Json

/-! ## Record classes -/

inductive FieldType where
  | stringType
  | intType

namespace FieldType

abbrev FieldValue : FieldType → Type
  | .stringType => List Byte
  | .intType => BitVec 32

/-- The empty value of the type that `JsonType` names. -/
def template : FieldType → Scalar
  | .stringType => .string []
  | .intType => .numberInteger 0

def toScalar : (type : FieldType) → type.FieldValue → Scalar
  | .stringType, s => .string s
  | .intType, i => .numberInteger i.toInt

/-- `get`, which narrows a number. -/
def get : (type : FieldType) → Scalar → Except JsonFault type.FieldValue
  | .stringType, .string s => .ok s
  | .intType, .numberInteger i => .ok (BitVec.ofInt 32 i)
  | .intType, .numberUnsigned n => .ok (BitVec.ofNat 32 n)
  | _, _ => .error .type

end FieldType

structure Field (α : Type) where
  name : List Byte
  type : FieldType
  read : α → type.FieldValue
  write : type.FieldValue → α → α

section

variable {α : Type} (fields : List (Field α))

def jvTemp : Json :=
  .object (fields.map fun f => (f.name, f.type.template))

def toJson (x : α) : Json :=
  .object (fields.map fun f => (f.name, f.type.toScalar (f.read x)))

def fromJson (jv : Json) (x : α) : Except JsonFault α :=
  fields.foldlM (fun x f => do
    let value ← jv.member f.name
    let value ← f.type.get value
    return f.write value x) x

end

structure AccountInfo where
  account : List Byte
  userId : BitVec 32
  deriving DecidableEq

def AccountInfo.fields : List (Field AccountInfo) :=
  [⟨ascii "account", .stringType, account, fun v x => { x with account := v }⟩,
    ⟨ascii "user_id", .intType, userId, fun v x => { x with userId := v }⟩]

theorem AccountInfo.fields_ne_nil : AccountInfo.fields ≠ [] :=
  List.cons_ne_nil _ _

structure UserInfo where
  account : List Byte
  deviceCode : List Byte
  deviceName : List Byte
  appType : BitVec 32
  userId : BitVec 32
  userSex : BitVec 32
  userName : List Byte
  headerUrl : List Byte
  userLevel : BitVec 32
  userCurExp : BitVec 32
  needExp : BitVec 32
  lastLoginTime : BitVec 32
  lastOfflineTime : BitVec 32
  isRobot : BitVec 32
  deriving DecidableEq

namespace UserInfo

def fields : List (Field UserInfo) :=
  [⟨ascii "account", .stringType, account, fun v x => { x with account := v }⟩,
    ⟨ascii "device_code", .stringType, deviceCode,
      fun v x => { x with deviceCode := v }⟩,
    ⟨ascii "device_name", .stringType, deviceName,
      fun v x => { x with deviceName := v }⟩,
    ⟨ascii "app_type", .intType, appType, fun v x => { x with appType := v }⟩,
    ⟨ascii "user_id", .intType, userId, fun v x => { x with userId := v }⟩,
    ⟨ascii "user_sex", .intType, userSex, fun v x => { x with userSex := v }⟩,
    ⟨ascii "user_name", .stringType, userName,
      fun v x => { x with userName := v }⟩,
    ⟨ascii "header_url", .stringType, headerUrl,
      fun v x => { x with headerUrl := v }⟩,
    ⟨ascii "user_level", .intType, userLevel,
      fun v x => { x with userLevel := v }⟩,
    ⟨ascii "user_cur_exp", .intType, userCurExp,
      fun v x => { x with userCurExp := v }⟩,
    ⟨ascii "need_exp", .intType, needExp, fun v x => { x with needExp := v }⟩,
    ⟨ascii "last_login_time", .intType, lastLoginTime,
      fun v x => { x with lastLoginTime := v }⟩,
    ⟨ascii "last_offline_time", .intType, lastOfflineTime,
      fun v x => { x with lastOfflineTime := v }⟩,
    ⟨ascii "is_robot", .intType, isRobot, fun v x => { x with isRobot := v }⟩]

theorem fields_ne_nil : fields ≠ [] :=
  List.cons_ne_nil _ _

end UserInfo

/-! ## Hashes -/

/-- The text a value is stored as; there is none for other types. -/
def Scalar.text : Scalar → Option (List Byte)
  | .string s => some s
  | .numberInteger i => some (ascii (toString i))
  | .numberUnsigned n => some (ascii (toString n))
  | .null => none

/-- What `json_to_hash` sets, one field after the other. -/
def jsonToHash : Json → List (List Byte × List Byte)
  | .object members =>
      members.filterMap fun e => e.2.text.map fun text => (e.1, text)
  | .scalar _ => []

def hset (field value : List Byte) (hash : List (List Byte × List Byte)) :
    List (List Byte × List Byte) :=
  assign field value hash

def digits (text : List Byte) : Nat :=
  (text.takeWhile fun c => 0x30 ≤ c ∧ c ≤ 0x39).foldl
    (fun n c => 10 * n + (c.toNat - 0x30)) 0

/-- Numbers beyond 64 bits, which the standard leaves open, are not cut. -/
def atoll (text : List Byte) : Int :=
  let isSpace (c : Byte) : Bool := c = 0x20 ∨ (0x09 ≤ c ∧ c ≤ 0x0d)
  match text.dropWhile isSpace with
  | [] => 0
  | c :: rest =>
      if c = 0x2d then -(digits rest : Int)
      else if c = 0x2b then digits rest
      else digits (c :: rest)

def pairsToJson (temp : Json) :
    List (Option (List Byte)) → Json → Except JsonFault Json
  | [], out => .ok out
  | [none], out => .ok out
  | [some _], _ => .error .outOfRange
  | some strKey :: some _ :: rest, out => do
      -- the value is read from the place of the key
      let strValue := strKey
      let out ←
        match ← temp.member strKey with
        | .string _ => out.setMember strKey (.string strValue)
        | .numberInteger _ =>
            out.setMember strKey (.numberInteger (atoll strValue))
        | .numberUnsigned _ =>
            out.setMember strKey
              (.numberUnsigned (atoll strValue % 2 ^ 64).toNat)
        | .null => .ok out
      pairsToJson temp rest out
  | _ :: _ :: rest, out => pairsToJson temp rest out

/-- A template that is valid is refused. -/
def pairArrayToJson (ar : List (Option (List Byte))) (temp : Json) :
    Except JsonFault Json :=
  if temp.isValid ∨ ¬temp.isObject then .ok .null
  else pairsToJson temp ar .null

/-! ## Round trips -/

section

variable {α : Type} (fields : List (Field α))

def stored (x : α) : List (List Byte × List Byte) :=
  (jsonToHash (toJson fields x)).foldl (fun hash e => hset e.1 e.2 hash) []

/-- The reply to `HGETALL`. -/
def hgetall (hash : List (List Byte × List Byte)) : List (Option (List Byte)) :=
  hash.flatMap fun e => [some e.1, some e.2]

def load (ar : List (Option (List Byte))) (x : α) : Except JsonFault α := do
  let jv ← pairArrayToJson ar (jvTemp fields)
  fromJson fields jv x

theorem pairArrayToJson_jvTemp (ar : List (Option (List Byte))) :
    pairArrayToJson ar (jvTemp fields) = .ok .null := by
  rw [pairArrayToJson, if_pos (.inl rfl)]

theorem fromJson_null {fields : List (Field α)} (h : fields ≠ []) (x : α) :
    fromJson fields .null x = .error .notObject := by
  obtain ⟨f, rest, rfl⟩ := List.exists_cons_of_ne_nil h
  rfl

theorem load_eq_error {fields : List (Field α)} (h : fields ≠ [])
    (ar : List (Option (List Byte))) (x : α) :
    load fields ar x = .error .notObject := by
  rw [load, pairArrayToJson_jvTemp]
  exact fromJson_null h x

end

/-- No record is read back, in whatever order its fields come. -/
theorem records_never_read_back (order : List (List Byte × List Byte)) :
    (∀ x start : AccountInfo, order.Perm (stored AccountInfo.fields x) →
      load AccountInfo.fields (hgetall order) start ≠ .ok x) ∧
    ∀ x start : UserInfo, order.Perm (stored UserInfo.fields x) →
      load UserInfo.fields (hgetall order) start ≠ .ok x := by
  constructor
  · intro x start _ hload
    rw [load_eq_error AccountInfo.fields_ne_nil] at hload
    cases hload
  · intro x start _ hload
    rw [load_eq_error UserInfo.fields_ne_nil] at hload
    cases hload

def sampleAccount : AccountInfo := ⟨ascii "guest", 10000501⟩

theorem sampleAccount_not_read_back :
    ¬∀ (x start : AccountInfo) (order : List (List Byte × List Byte)),
      order.Perm (stored AccountInfo.fields x) →
        load AccountInfo.fields (hgetall order) start = .ok x := by
  intro h
  have hload := h sampleAccount sampleAccount _ (.refl _)
  rw [load_eq_error AccountInfo.fields_ne_nil] at hload
  cases hload

end StarsGaming.Lobby
