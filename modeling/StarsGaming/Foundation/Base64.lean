import StarsGaming.Foundation.Bytes

/-!
# Base64

Three bytes become four characters; one or two bytes that are left become four
characters of which the last ones only fill up.  Decoding goes through all groups
of four and cuts off as many bytes as the text has filling characters.
-/

namespace StarsGaming.Foundation.Base64

def tab : List Byte :=
  ascii "ABCDEFGHIJKLMNOPQRSTUVWXYZabcdefghijklmnopqrstuvwxyz0123456789+/"

/-- `=` -/
def fill : Byte := 0x3d

def char (code : Byte) : Byte :=
  tab.getD code.toNat 0

def chPos (ch : Byte) : Byte :=
  BitVec.ofNat 8 (tab.idxOf ch)

def code0 (a : Byte) : Byte := a >>> 2

def code1 (a b : Byte) : Byte := ((a <<< 4) &&& 0x3f) ||| (b >>> 4)

def code2 (b c : Byte) : Byte := ((b <<< 2) &&& 0x3f) ||| (c >>> 6)

def code3 (c : Byte) : Byte := c &&& 0x3f

def encode : List Byte → List Byte
  | [] => []
  | [a] => [char (code0 a), char (code1 a 0), fill, fill]
  | [a, b] => [char (code0 a), char (code1 a b), char (code2 b 0), fill]
  | a :: b :: c :: rest =>
      char (code0 a) :: char (code1 a b) :: char (code2 b c) ::
        char (code3 c) :: encode rest

/-- The bytes that are not written may be anything. -/
def unitDecode (s0 s1 s2 s3 : Byte) : List Byte :=
  if s3 ≠ fill then
    [(chPos s0 <<< 2) ||| (chPos s1 >>> 4),
      (chPos s1 <<< 4) ||| (chPos s2 >>> 2), (chPos s2 <<< 6) ||| chPos s3]
  else if s2 = fill then
    [(chPos s0 <<< 2) ||| (chPos s1 >>> 4), 0, 0]
  else
    [(chPos s0 <<< 2) ||| (chPos s1 >>> 4),
      (chPos s1 <<< 4) ||| (chPos s2 >>> 2), 0]

def units : List Byte → List Byte
  | s0 :: s1 :: s2 :: s3 :: rest => unitDecode s0 s1 s2 s3 ++ units rest
  | _ => []

def padding (src : List Byte) : Nat :=
  if src[src.length - 1]? = some fill then
    if src[src.length - 2]? = some fill then 2 else 1
  else 0

def decode (src : List Byte) : List Byte :=
  if src.length < 4 then []
  else (units src).take (src.length / 4 * 3 - padding src)

/-! ## Characters -/

theorem chPos_char {code : Byte} (h : code &&& 0x3f = code) :
    chPos (char code) = code := by
  have hlt : code.toNat < 64 := by
    rw [← h, BitVec.toNat_and]
    exact Nat.lt_of_le_of_lt Nat.and_le_right (by decide)
  have hall : ∀ i : Fin 64, chPos (char (BitVec.ofNat 8 i)) =
      BitVec.ofNat 8 i := by
    decide +kernel
  have hcode := hall ⟨code.toNat, hlt⟩
  rwa [BitVec.ofNat_toNat, BitVec.setWidth_eq] at hcode

theorem char_ne_fill (code : Byte) : char code ≠ fill := by
  rw [char, List.getD_eq_getElem?_getD]
  cases hget : tab[code.toNat]? with
  | none => decide
  | some ch =>
      have hfill : fill ∉ tab := by decide
      rintro rfl
      exact hfill (List.mem_of_getElem? hget)

section

variable (a b c : Byte)

theorem chPos_code0 : chPos (char (code0 a)) = code0 a := by
  apply chPos_char
  ext i hi
  interval_cases i <;> simp [code0]

theorem chPos_code1 : chPos (char (code1 a b)) = code1 a b := by
  apply chPos_char
  ext i hi
  interval_cases i <;> simp [code1]

theorem chPos_code2 : chPos (char (code2 b c)) = code2 b c := by
  apply chPos_char
  ext i hi
  interval_cases i <;> simp [code2]

theorem chPos_code3 : chPos (char (code3 c)) = code3 c := by
  apply chPos_char
  ext i hi
  interval_cases i <;> simp [code3]

theorem byte0_eq : (code0 a <<< 2) ||| (code1 a b >>> 4) = a := by
  ext i hi
  interval_cases i <;> simp [code0, code1]

theorem byte1_eq : (code1 a b <<< 4) ||| (code2 b c >>> 2) = b := by
  ext i hi
  interval_cases i <;> simp [code1, code2]

theorem byte2_eq : (code2 b c <<< 6) ||| code3 c = c := by
  ext i hi
  interval_cases i <;> simp [code2, code3]

end

/-! ## Round trips -/

def fillCount (bytes : List Byte) : Nat :=
  (3 - bytes.length % 3) % 3

theorem length_encode (bytes : List Byte) :
    (encode bytes).length = (bytes.length + 2) / 3 * 4 := by
  fun_induction encode bytes with
  | case1 => rfl
  | case2 a => simp
  | case3 a b => simp
  | case4 a b c rest ih =>
      simp only [List.length_cons, ih]
      omega

theorem units_encode (bytes : List Byte) :
    units (encode bytes) = bytes ++ List.replicate (fillCount bytes) 0 := by
  fun_induction encode bytes with
  | case1 => rfl
  | case2 a =>
      simp [units, unitDecode, chPos_code0, chPos_code1, byte0_eq, fillCount]
  | case3 a b =>
      simp [units, unitDecode, chPos_code0, chPos_code1, chPos_code2,
        byte0_eq, byte1_eq, char_ne_fill, fillCount]
  | case4 a b c rest ih =>
      have hfill : fillCount (a :: b :: c :: rest) = fillCount rest := by
        simp only [fillCount, List.length_cons]
        omega
      simp [units, unitDecode, chPos_code0, chPos_code1, chPos_code2,
        chPos_code3, byte0_eq, byte1_eq, byte2_eq, char_ne_fill, ih, hfill]

theorem padding_append (before : List Byte) {src : List Byte}
    (h : 2 ≤ src.length) :
    padding (before ++ src) = padding src := by
  have hget : ∀ k, 1 ≤ k → k ≤ 2 →
      (before ++ src)[(before ++ src).length - k]? =
        src[src.length - k]? := by
    intro k _ _
    rw [List.length_append, List.getElem?_append_right (by omega)]
    congr 1
    omega
  rw [padding, padding, hget 1 (by omega) (by omega),
    hget 2 (by omega) (by omega)]

theorem padding_encode (bytes : List Byte) :
    padding (encode bytes) = fillCount bytes := by
  fun_induction encode bytes with
  | case1 => rfl
  | case2 a => simp [padding, fillCount]
  | case3 a b => simp [padding, fillCount, char_ne_fill]
  | case4 a b c rest ih =>
      have hfill : fillCount (a :: b :: c :: rest) = fillCount rest := by
        simp only [fillCount, List.length_cons]
        omega
      cases rest with
      | nil => simp [encode, padding, char_ne_fill, fillCount]
      | cons d rest =>
          have hlength : 2 ≤ (encode (d :: rest)).length := by
            rw [length_encode, List.length_cons]
            omega
          rw [hfill, ← ih]
          exact padding_append [char (code0 a), char (code1 a b),
            char (code2 b c), char (code3 c)] hlength

theorem decode_encode (bytes : List Byte) :
    decode (encode bytes) = bytes := by
  rw [decode, length_encode, units_encode, padding_encode]
  split_ifs with hshort
  · have hnil : bytes.length = 0 := by omega
    exact (List.length_eq_zero_iff.mp hnil).symm
  · have hcut : (bytes.length + 2) / 3 * 4 / 4 * 3 - fillCount bytes =
        bytes.length := by
      rw [fillCount]
      omega
    rw [hcut, List.take_left]

example : decode (ascii "TWFuTQ==") = ascii "ManM" := by decide

end StarsGaming.Foundation.Base64
