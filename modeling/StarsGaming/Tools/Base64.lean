import Mathlib.Data.List.TakeWhile
import StarsGaming.Foundation.Base64
import StarsGaming.Foundation.Cells

/-!
# Base64 over buffers

The plain Base64 functions with the buffers they fill.  A character that is not
in the table has no position there: `strchr` returns a null pointer, and what
its distance from the table is depends on where the table was loaded.
-/

namespace StarsGaming.Tools

open Foundation Base64

inductive Writer where
  | base64
  | aes
  | terminator
  deriving DecidableEq, Repr

abbrev Buffer := List (Cell Writer)

/-! ## Encoding -/

/-- `Unit_Code` -/
def unitCode (a b c : Byte) : List Byte :=
  [char (code0 a), char (code1 a b), char (code2 b c), char (code3 c)]

/-- `Fill_Code`; with `none` only one byte is left. -/
def fillCode (a : Byte) : Option Byte → List Byte
  | some b => [char (code0 a), char (code1 a b), char (code2 b 0), fill]
  | none => [char (code0 a), char (code1 a 0), fill, fill]

/-- `Base64Encode` into a buffer; both pointers move on after a unit. -/
def base64EncodeTo : List Byte → Buffer → Option Buffer
  | [], dest => some dest
  | [a], dest => Cell.store .base64 (fillCode a none) dest
  | [a, b], dest => Cell.store .base64 (fillCode a (some b)) dest
  | a :: b :: c :: src, dest => do
      let dest ← Cell.store .base64 (unitCode a b c) dest
      let rest ← base64EncodeTo src (dest.drop 4)
      some (dest.take 4 ++ rest)

def encodeLength (length : Nat) : Nat :=
  (length / 3 + if length % 3 ≠ 0 then 1 else 0) * 4

/-- `Base64Encode` as a string; `heap` is what its buffer holds at first. -/
def base64Encode (heap : Nat → Byte) (src : List Byte) :
    Option (List Byte) := do
  let length := encodeLength src.length
  let buf ← base64EncodeTo src (Cell.alloc heap (length + 1))
  let buf ← Cell.poke .terminator length 0 buf
  let str ← Cell.cString buf
  some (Cell.values str)

/-! ## Decoding -/

/-- `Base64ChPos`; the zero behind the table is found as well. -/
def base64ChPos (nullPos ch : Byte) : Byte :=
  if ch ∈ tab ∨ ch = 0 then chPos ch else nullPos

/-- The characters of a unit that `Unit_Decode` looks up. -/
def unitLooked (s0 s1 s2 s3 : Byte) : List Byte :=
  if s3 ≠ fill then [s0, s1, s2, s3]
  else if s2 = fill then [s0, s1]
  else [s0, s1, s2]

/-- The bytes that `Unit_Decode` writes, at most three. -/
def unitBytes (nullPos s0 s1 s2 s3 : Byte) : List Byte :=
  let pos := base64ChPos nullPos
  if s3 ≠ fill then
    [(pos s0 <<< 2) ||| (pos s1 >>> 4), (pos s1 <<< 4) ||| (pos s2 >>> 2),
      (pos s2 <<< 6) ||| pos s3]
  else if s2 = fill then [(pos s0 <<< 2) ||| (pos s1 >>> 4)]
  else
    [(pos s0 <<< 2) ||| (pos s1 >>> 4), (pos s1 <<< 4) ||| (pos s2 >>> 2)]

def decodeUnits (nullPos : Byte) : Nat → List Byte → Buffer →
    Option (Buffer × List Byte)
  | 0, _, dest => some (dest, [])
  | count + 1, s0 :: s1 :: s2 :: s3 :: src, d0 :: d1 :: d2 :: dest => do
      let unit ← Cell.store .base64 (unitBytes nullPos s0 s1 s2 s3) [d0, d1, d2]
      let (rest, looked) ← decodeUnits nullPos count src dest
      some (unit ++ rest, unitLooked s0 s1 s2 s3 ++ looked)
  | _ + 1, _, _ => none

structure Decoded where
  buf : Buffer
  length : Nat
  looked : List Byte
  deriving DecidableEq, Repr

/-- `Base64Decode` into a buffer; short texts leave the length as it was. -/
def base64DecodeTo (nullPos : Byte) (length : Nat) (src : List Byte)
    (dest : Buffer) : Option Decoded :=
  if src.length < 4 then some ⟨dest, length, []⟩
  else do
    let (buf, looked) ← decodeUnits nullPos (src.length / 4) src dest
    some ⟨buf, src.length / 4 * 3 - padding src, looked⟩

/-- `Base64Decode` of a string into a buffer of its own. -/
def base64Decode (nullPos : Byte) (heap : Nat → Byte) (length : Nat)
    (strEn : List Byte) : Option Decoded :=
  if strEn = [] then some ⟨[], 0, []⟩
  else
    base64DecodeTo nullPos length strEn
      (Cell.alloc heap (strEn.length / 4 * 3))

/-! ## What is written -/

theorem encodeLength_eq (src : List Byte) :
    encodeLength src.length = (encode src).length := by
  rw [length_encode, encodeLength]
  split <;> omega

theorem base64EncodeTo_eq (src : List Byte) (dest : Buffer) :
    base64EncodeTo src dest = Cell.store .base64 (encode src) dest := by
  fun_induction base64EncodeTo src dest with
  | case1 dest => simp [encode, Cell.store, Cell.written]
  | case2 dest a => rfl
  | case3 dest a b => rfl
  | case4 a b c src dest ih =>
      have happend := Cell.store_append Writer.base64 (unitCode a b c)
        (encode src) dest
      change _ = Cell.store .base64 (unitCode a b c ++ encode src) dest
      rw [happend, Option.bind_eq_bind]
      congr 1
      funext done
      rw [ih]
      exact Option.map_eq_bind.symm

theorem base64EncodeTo_of_le {src : List Byte} {dest : Buffer}
    (h : encodeLength src.length ≤ dest.length) :
    base64EncodeTo src dest =
      some (Cell.written .base64 (encode src) ++
        dest.drop (encodeLength src.length)) := by
  rw [encodeLength_eq] at h ⊢
  rw [base64EncodeTo_eq, Cell.store_of_le _ h]

def IsCode (ch : Byte) : Prop :=
  ch ∈ tab ∨ ch = fill

theorem char_mem_tab {code : Byte} (h : code.toNat < 64) :
    char code ∈ tab := by
  have hlength : tab.length = 64 := by decide
  rw [char, List.getD_eq_getElem?_getD,
    List.getElem?_eq_getElem (by omega), Option.getD_some]
  exact List.getElem_mem _

theorem toNat_and_lt (code : Byte) : (code &&& 0x3f).toNat < 64 := by
  rw [BitVec.toNat_and]
  exact Nat.lt_of_le_of_lt Nat.and_le_right (by decide)

section

variable (a b c : Byte)

theorem code0_lt : (code0 a).toNat < 64 := by
  have hmask : code0 a = code0 a &&& 0x3f := by
    ext i hi
    interval_cases i <;> simp [code0]
  rw [hmask]
  exact toNat_and_lt _

theorem code1_lt : (code1 a b).toNat < 64 := by
  have hmask : code1 a b = code1 a b &&& 0x3f := by
    ext i hi
    interval_cases i <;> simp [code1]
  rw [hmask]
  exact toNat_and_lt _

theorem code2_lt : (code2 b c).toNat < 64 := by
  have hmask : code2 b c = code2 b c &&& 0x3f := by
    ext i hi
    interval_cases i <;> simp [code2]
  rw [hmask]
  exact toNat_and_lt _

theorem code3_lt : (code3 c).toNat < 64 :=
  toNat_and_lt c

end

theorem isCode_of_mem_encode {src : List Byte} {ch : Byte}
    (h : ch ∈ encode src) : IsCode ch := by
  fun_induction encode src with
  | case1 => cases h
  | case2 a =>
      simp only [List.mem_cons, List.not_mem_nil, or_false] at h
      rcases h with rfl | rfl | rfl | rfl
      · exact .inl (char_mem_tab (code0_lt a))
      · exact .inl (char_mem_tab (code1_lt a 0))
      · exact .inr rfl
      · exact .inr rfl
  | case3 a b =>
      simp only [List.mem_cons, List.not_mem_nil, or_false] at h
      rcases h with rfl | rfl | rfl | rfl
      · exact .inl (char_mem_tab (code0_lt a))
      · exact .inl (char_mem_tab (code1_lt a b))
      · exact .inl (char_mem_tab (code2_lt b 0))
      · exact .inr rfl
  | case4 a b c rest ih =>
      simp only [List.mem_cons] at h
      rcases h with rfl | rfl | rfl | rfl | h
      · exact .inl (char_mem_tab (code0_lt a))
      · exact .inl (char_mem_tab (code1_lt a b))
      · exact .inl (char_mem_tab (code2_lt b c))
      · exact .inl (char_mem_tab (code3_lt c))
      · exact ih h

theorem IsCode.ne_zero {ch : Byte} (h : IsCode ch) : ch ≠ 0 := by
  rintro rfl
  have hzero : ¬ ((0 : Byte) ∈ tab ∨ (0 : Byte) = fill) := by decide
  exact hzero h

theorem base64Encode_eq (heap : Nat → Byte) (src : List Byte) :
    base64Encode heap src = some (encode src) := by
  have hbuf : base64EncodeTo src
      (Cell.alloc heap (encodeLength src.length + 1)) =
        some (Cell.written .base64 (encode src) ++
          [⟨heap (encodeLength src.length), none⟩]) := by
    rw [base64EncodeTo_of_le (by simp), Cell.alloc_drop heap (by simp),
      Nat.add_sub_cancel_left]
    rfl
  have hlength : encodeLength src.length =
      (Cell.written Writer.base64 (encode src)).length := by
    rw [encodeLength_eq, Cell.length_written]
  have hkeep : ∀ ch ∈ encode src, decide (ch ≠ 0) = true :=
    fun ch hmem => decide_eq_true (isCode_of_mem_encode hmem).ne_zero
  have hstr := Cell.cString_poke_last Writer.terminator
    (Cell.written Writer.base64 (encode src))
    ⟨heap (encodeLength src.length), none⟩
  rw [← hlength] at hstr
  simp only [base64Encode, Option.bind_eq_bind, hbuf, Option.bind_some]
  rw [← Option.bind_assoc, hstr, Option.bind_some, Cell.values_takeWhile,
    Cell.values_written, List.takeWhile_eq_self_iff.mpr hkeep]

/-! ## What is read back -/

def consulted : List Byte → List Byte
  | s0 :: s1 :: s2 :: s3 :: rest => unitLooked s0 s1 s2 s3 ++ consulted rest
  | _ => []

def contents (nullPos : Byte) (heap : Nat → Byte) : List Byte → List Byte
  | s0 :: s1 :: s2 :: s3 :: rest =>
      let unit := unitBytes nullPos s0 s1 s2 s3
      (unit ++ [heap 0, heap 1, heap 2].drop unit.length) ++
        contents nullPos (fun i => heap (3 + i)) rest
  | _ => []

def cells (nullPos : Byte) (heap : Nat → Byte) : List Byte → Buffer
  | s0 :: s1 :: s2 :: s3 :: rest =>
      let unit := unitBytes nullPos s0 s1 s2 s3
      (Cell.written .base64 unit ++
          [⟨heap 0, none⟩, ⟨heap 1, none⟩, ⟨heap 2, none⟩].drop unit.length) ++
        cells nullPos (fun i => heap (3 + i)) rest
  | _ => []

def unitGaps (s2 s3 : Byte) : List Nat :=
  if s3 ≠ fill then [] else if s2 = fill then [1, 2] else [2]

def gaps : List Byte → List Nat
  | _ :: _ :: s2 :: s3 :: rest => unitGaps s2 s3 ++ (gaps rest).map (3 + ·)
  | _ => []

def bytesOf (nullPos : Byte) : List Byte → List Byte
  | s0 :: s1 :: s2 :: s3 :: rest =>
      let pos := base64ChPos nullPos
      [(pos s0 <<< 2) ||| (pos s1 >>> 4), (pos s1 <<< 4) ||| (pos s2 >>> 2),
        (pos s2 <<< 6) ||| pos s3] ++ bytesOf nullPos rest
  | _ => []

def decodedLength (length : Nat) (strEn : List Byte) : Nat :=
  if strEn = [] then 0
  else if strEn.length < 4 then length
  else strEn.length / 4 * 3 - padding strEn

theorem length_unitBytes_le (nullPos s0 s1 s2 s3 : Byte) :
    (unitBytes nullPos s0 s1 s2 s3).length ≤ 3 := by
  simp only [unitBytes]
  split_ifs <;> simp

theorem length_lt_of_no_unit {src : List Byte}
    (h : ∀ s0 s1 s2 s3 rest, src = s0 :: s1 :: s2 :: s3 :: rest → False) :
    src.length < 4 := by
  rcases src with _ | ⟨s0, _ | ⟨s1, _ | ⟨s2, _ | ⟨s3, rest⟩⟩⟩⟩
  · decide
  · simp
  · simp
  · simp
  · exact absurd rfl (h s0 s1 s2 s3 rest)

theorem length_contents (nullPos : Byte) (heap : Nat → Byte)
    (src : List Byte) :
    (contents nullPos heap src).length = src.length / 4 * 3 := by
  fun_induction contents nullPos heap src with
  | case1 heap s0 s1 s2 s3 rest unit ih =>
      have hunit : unit.length ≤ 3 :=
        length_unitBytes_le nullPos s0 s1 s2 s3
      simp only [List.length_append, List.length_drop, List.length_cons,
        List.length_nil, ih]
      omega
  | case2 src heap hshort =>
      rw [Nat.div_eq_of_lt (length_lt_of_no_unit hshort)]
      rfl

theorem values_cells (nullPos : Byte) (heap : Nat → Byte) (src : List Byte) :
    Cell.values (cells nullPos heap src) = contents nullPos heap src := by
  fun_induction contents nullPos heap src with
  | case1 heap s0 s1 s2 s3 rest unit ih =>
      rw [cells, Cell.values_append, Cell.values_append, Cell.values_written,
        ih]
      simp [Cell.values, List.map_drop, unit]
  | case2 src heap hshort =>
      rw [cells]
      · rfl
      · exact hshort

theorem decodeUnits_alloc (nullPos : Byte) (heap : Nat → Byte)
    (src : List Byte) :
    decodeUnits nullPos (src.length / 4) src
        (Cell.alloc heap (src.length / 4 * 3)) =
      some (cells nullPos heap src, consulted src) := by
  fun_induction cells nullPos heap src with
  | case1 heap s0 s1 s2 s3 rest unit ih =>
      have hunit : unit.length ≤ 3 :=
        length_unitBytes_le nullPos s0 s1 s2 s3
      have hcount : (s0 :: s1 :: s2 :: s3 :: rest).length / 4 =
          rest.length / 4 + 1 := by
        simp only [List.length_cons]
        omega
      have halloc : (Cell.alloc heap ((rest.length / 4 + 1) * 3) : Buffer) =
          ⟨heap 0, none⟩ :: ⟨heap 1, none⟩ :: ⟨heap 2, none⟩ ::
            Cell.alloc (fun i => heap (3 + i)) (rest.length / 4 * 3) := by
        rw [Nat.add_mul, Nat.one_mul, Nat.add_comm, Cell.alloc_add]
        rfl
      have hstore := @Cell.store_of_le _ Writer.base64 unit
        [⟨heap 0, none⟩, ⟨heap 1, none⟩, ⟨heap 2, none⟩] hunit
      rw [hcount, halloc]
      simp only [decodeUnits, Option.bind_eq_bind, ih, Option.bind_some]
      rw [hstore, Option.bind_some]
      rfl
  | case2 src heap hshort =>
      have hlt := length_lt_of_no_unit hshort
      rw [Nat.div_eq_of_lt hlt, consulted]
      · rfl
      · exact hshort

theorem base64Decode_eq (nullPos : Byte) (heap : Nat → Byte) (length : Nat)
    (strEn : List Byte) :
    base64Decode nullPos heap length strEn =
      some ⟨cells nullPos heap strEn, decodedLength length strEn,
        consulted strEn⟩ := by
  have hbuf := decodeUnits_alloc nullPos heap strEn
  rw [base64Decode, decodedLength]
  split_ifs with hempty hshort
  · rw [hempty]
    rfl
  · rw [Nat.div_eq_of_lt hshort, decodeUnits, Option.some.injEq,
      Prod.mk.injEq] at hbuf
    rw [base64DecodeTo, if_pos hshort, ← hbuf.2, ← hbuf.1,
      Nat.div_eq_of_lt hshort]
  · simp only [base64DecodeTo, if_neg hshort, hbuf, Option.bind_eq_bind,
      Option.bind_some]

/-! ## Gaps -/

theorem unitBytes_cases (nullPos s0 s1 s2 s3 : Byte) :
    ∃ b0 b1 b2, bytesOf nullPos [s0, s1, s2, s3] = [b0, b1, b2] ∧
      (unitBytes nullPos s0 s1 s2 s3 = [b0, b1, b2] ∧ unitGaps s2 s3 = [] ∨
        unitBytes nullPos s0 s1 s2 s3 = [b0] ∧ unitGaps s2 s3 = [1, 2] ∨
        unitBytes nullPos s0 s1 s2 s3 = [b0, b1] ∧
          unitGaps s2 s3 = [2]) := by
  refine ⟨_, _, _, rfl, ?_⟩
  simp only [unitBytes, unitGaps]
  split_ifs
  · exact .inl ⟨rfl, rfl⟩
  · exact .inr (.inl ⟨rfl, rfl⟩)
  · exact .inr (.inr ⟨rfl, rfl⟩)

/-- The front of the buffer is written if it ends before the first gap. -/
theorem written_iff_gaps (nullPos : Byte) (heap : Nat → Byte)
    (src : List Byte) (size : Nat) :
    (∀ cell ∈ (cells nullPos heap src).take size,
        cell.writer = some .base64) ↔
      ∀ place ∈ gaps src, size ≤ place := by
  fun_induction cells nullPos heap src generalizing size with
  | case1 heap s0 s1 s2 s3 rest unit ih =>
      have hrest := ih (size - 3)
      have hplaces : (∀ place ∈ gaps rest, size - 3 ≤ place) ↔
          ∀ place ∈ (gaps rest).map (3 + ·), size ≤ place := by
        rw [List.forall_mem_map]
        apply forall₂_congr
        intro place _
        omega
      rw [gaps, List.forall_mem_append, ← hplaces, ← hrest]
      obtain ⟨b0, b1, b2, -, ⟨hunit, hgaps⟩ | ⟨hunit, hgaps⟩ |
        ⟨hunit, hgaps⟩⟩ := unitBytes_cases nullPos s0 s1 s2 s3
      all_goals
        rw [hgaps, show unit = _ from hunit]
        rcases size with _ | _ | _ | size <;>
          simp [Cell.written]
  | case2 src heap hshort =>
      rw [gaps]
      · simp
      · exact hshort

/-- Before the first gap the buffer holds what the characters stand for. -/
theorem contents_of_gaps (nullPos : Byte) (heap : Nat → Byte)
    (src : List Byte) (size : Nat) (h : ∀ place ∈ gaps src, size ≤ place) :
    (contents nullPos heap src).take size =
      (bytesOf nullPos src).take size := by
  fun_induction contents nullPos heap src generalizing size with
  | case1 heap s0 s1 s2 s3 rest unit ih =>
      rw [gaps, List.forall_mem_append, List.forall_mem_map] at h
      have hrest := ih (size - 3) fun place hplace => by
        have := h.2 place hplace
        omega
      obtain ⟨b0, b1, b2, hbytes, ⟨hunit, hgaps⟩ | ⟨hunit, hgaps⟩ |
        ⟨hunit, hgaps⟩⟩ := unitBytes_cases nullPos s0 s1 s2 s3
      all_goals
        rw [hgaps] at h
        rw [show unit = _ from hunit]
        simp only [bytesOf, List.append_nil, List.cons.injEq] at hbytes
        simp only [bytesOf, hbytes]
        rcases size with _ | _ | _ | size <;>
          simp_all
  | case2 src heap hshort =>
      rw [bytesOf]
      exact hshort

/-! ## Round trip -/

theorem base64ChPos_char (nullPos : Byte) {code : Byte}
    (h : code.toNat < 64) :
    base64ChPos nullPos (char code) = chPos (char code) :=
  if_pos (.inl (char_mem_tab h))

theorem contents_encode (nullPos : Byte) (heap : Nat → Byte)
    (bytes : List Byte) :
    ∃ junk, contents nullPos heap (encode bytes) = bytes ++ junk := by
  fun_induction encode bytes generalizing heap with
  | case1 => exact ⟨[], rfl⟩
  | case2 a =>
      refine ⟨[heap 1, heap 2], ?_⟩
      simp [contents, unitBytes, base64ChPos_char, code0_lt, code1_lt,
        chPos_code0, chPos_code1, byte0_eq]
  | case3 a b =>
      refine ⟨[heap 2], ?_⟩
      simp [contents, unitBytes, base64ChPos_char, code0_lt, code1_lt,
        code2_lt, chPos_code0, chPos_code1, chPos_code2, byte0_eq, byte1_eq,
        char_ne_fill]
  | case4 a b c rest ih =>
      obtain ⟨junk, hjunk⟩ := ih fun i => heap (3 + i)
      refine ⟨junk, ?_⟩
      simp [contents, unitBytes, base64ChPos_char, code0_lt, code1_lt,
        code2_lt, code3_lt, chPos_code0, chPos_code1, chPos_code2,
        chPos_code3, byte0_eq, byte1_eq, byte2_eq, char_ne_fill, hjunk]

theorem decodedLength_encode (length : Nat) (bytes : List Byte) :
    decodedLength length (encode bytes) = bytes.length := by
  have hlength := length_encode bytes
  rw [decodedLength]
  split_ifs with hempty hshort
  · rw [hempty, List.length_nil] at hlength
    omega
  · have hnil : encode bytes = [] := by
      rw [← List.length_eq_zero_iff]
      omega
    exact absurd hnil hempty
  · rw [padding_encode, hlength, fillCount]
    omega

/--
The encoder writes its characters and nothing else, all of them letters of the
alphabet or padding, and decoding them gives back the bytes and their number.
-/
theorem base64_round_trip (src : List Byte) :
    (∀ dest : Buffer, 4 * ((src.length + 2) / 3) ≤ dest.length →
      ∃ text, base64EncodeTo src dest =
          some (Cell.written .base64 text ++
            dest.drop (4 * ((src.length + 2) / 3))) ∧
        text.length = 4 * ((src.length + 2) / 3) ∧
        ∀ ch ∈ text, ch ∈ tab ∨ ch = fill) ∧
    ∀ heap heap' nullPos length, ∃ text decoded,
      base64Encode heap src = some text ∧
        text.length = 4 * ((src.length + 2) / 3) ∧
        base64Decode nullPos heap' length text = some decoded ∧
        decoded.length = src.length ∧
        (Cell.values decoded.buf).take decoded.length = src := by
  have hlength : (encode src).length = 4 * ((src.length + 2) / 3) := by
    rw [length_encode, Nat.mul_comm]
  constructor
  · intro dest hroom
    rw [← hlength, ← encodeLength_eq] at hroom
    refine ⟨encode src, ?_, hlength, fun _ => isCode_of_mem_encode⟩
    rw [base64EncodeTo_of_le hroom, encodeLength_eq, hlength]
  · intro heap heap' nullPos length
    have hbuf := base64Decode_eq nullPos heap' length (encode src)
    obtain ⟨junk, hjunk⟩ := contents_encode nullPos heap' src
    have hdecoded := decodedLength_encode length src
    refine ⟨encode src, _, base64Encode_eq heap src, hlength, hbuf, hdecoded,
      ?_⟩
    rw [values_cells, hdecoded, hjunk, List.take_left]

end StarsGaming.Tools
