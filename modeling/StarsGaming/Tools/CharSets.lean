import StarsGaming.Foundation.Bytes

/-!
# Base64 with character sets

The other pair of Base64 functions chooses one of two alphabets.  Characters are
signed, so that a byte from `0x80` on spoils the bytes that are shifted in
before it; and the padding of the secret set is a letter of its alphabet.
-/

namespace StarsGaming.Tools

open Foundation

/-! ## Tables -/

structure CharSet where
  base64o : List Byte
  base64i : List Byte
  localEnd : Byte

/-- `-1` as a character. -/
abbrev noCode : Byte := 0xff

def table (entries : List Int) : List Byte :=
  entries.map (BitVec.ofInt 8)

def base64o : List Byte :=
  ascii "ABCDEFGHIJKLMNOPQRSTUVWXYZabcdefghijklmnopqrstuvwxyz0123456789+/"

def base64i : List Byte :=
  table [
    -1, -1, -1, -1, -1, -1, -1, -1, -1, -1, -1, -1, -1, -1, -1, -1,
    -1, -1, -1, -1, -1, -1, -1, -1, -1, -1, -1, -1, -1, -1, -1, -1,
    -1, -1, -1, -1, -1, -1, -1, -1, -1, -1, -1, 62, -1, -1, -1, 63,
    52, 53, 54, 55, 56, 57, 58, 59, 60, 61, -1, -1, -1, -1, -1, -1,
    -1, 0, 1, 2, 3, 4, 5, 6, 7, 8, 9, 10, 11, 12, 13, 14,
    15, 16, 17, 18, 19, 20, 21, 22, 23, 24, 25, -1, -1, -1, -1, -1,
    -1, 26, 27, 28, 29, 30, 31, 32, 33, 34, 35, 36, 37, 38, 39, 40,
    41, 42, 43, 44, 45, 46, 47, 48, 49, 50, 51, -1, -1, -1, -1, -1]

def base64oEx : List Byte :=
  ascii "Tiger_xu1984206bz#5%3$WwpIQ7*&[,]mNoYEs@!XUHBaZCqRtOcD<fGF+>.hjJ"

def base64iEx : List Byte :=
  table [
    -1, -1, -1, -1, -1, -1, -1, -1, -1, -1,
    -1, -1, -1, -1, -1, -1, -1, -1, -1, -1,
    -1, -1, -1, -1, -1, -1, -1, -1, -1, -1,
    -1, -1, -1, 40, -1, 17, 21, 19, 29, -1,
    -1, -1, 28, 58, 31, -1, 60, -1, 13, 8,
    12, 20, 11, 18, 14, 27, 10, 9, -1, -1,
    54, -1, 59, -1, 39, -1, 44, 47, 53, 37,
    57, 56, 43, 25, 63, -1, -1, -1, 34, 51,
    -1, 26, 49, -1, 0, 42, -1, 22, 41, 36,
    46, 30, -1, 32, -1, 5, -1, 45, 15, 52,
    -1, 3, 55, 2, 61, 1, 62, -1, -1, 33,
    -1, 35, 24, 48, 4, 38, 50, 7, -1, 23,
    6, -1, 16, -1, -1, -1, -1, -1]

/-- `BASE64_CH_SECRET` -/
abbrev chSecret : Int := 1

def charSet (chSet : Int) : CharSet :=
  if chSet = chSecret then ⟨base64oEx, base64iEx, 0x23⟩
  else ⟨base64o, base64i, 0x3d⟩

/-! ## Encoding -/

def shiftIn (m : BitVec 64) (ch : Byte) : BitVec 64 :=
  (m <<< 8) ||| ch.signExtend 64

def code (m : BitVec 64) (place : Nat) : Byte :=
  (m >>> place).setWidth 8 &&& 0x3f

def CharSet.char (set : CharSet) (m : BitVec 64) (place : Nat) : Byte :=
  set.base64o.getD (code m place).toNat 0

def encodeGroups (set : CharSet) : List Byte → List Byte
  | [] => []
  | [a] =>
      let m := shiftIn 0 a <<< 16
      [set.char m 18, set.char m 12, set.localEnd, set.localEnd]
  | [a, b] =>
      let m := shiftIn (shiftIn 0 a) b <<< 8
      [set.char m 18, set.char m 12, set.char m 6, set.localEnd]
  | a :: b :: c :: rest =>
      let m := shiftIn (shiftIn (a.signExtend 64) b) c
      set.char m 18 :: set.char m 12 :: set.char m 6 :: set.char m 0 ::
        encodeGroups set rest

/-- `Base64Encode` of a string and its length, an `int`. -/
def base64EncodeSet (chSet : Int) (s : List Byte) : List Byte :=
  encodeGroups (charSet chSet) s

/-! ## Decoding -/

inductive Phase where
  | c1
  | c2 (c1 : Byte)
  | c3 (c2 : Byte)
  | c4 (c3 : Byte)

/--
The loop over the text and the four loops in it, each of which reads one
character; `none` when a character is read that is not there or has no entry.
The second of the inner loops never repeats, for it tests the first code.
-/
def decodeLoop (set : CharSet) : Phase → List Byte → List Byte →
    Option (List Byte)
  | .c1, buf, [] => some buf
  | _, _, [] => none
  | .c1, buf, ch :: rest => do
      let c1 ← set.base64i[ch.toNat]?
      if c1 = noCode then
        if rest = [] then some [] else decodeLoop set .c1 buf rest
      else decodeLoop set (.c2 c1) buf rest
  | .c2 c1, buf, ch :: rest => do
      let c2 ← set.base64i[ch.toNat]?
      if c2 = noCode then some []
      else
        decodeLoop set (.c3 c2) (buf ++ [(c1 <<< 2) ||| ((c2 &&& 0x30) >>> 4)])
          rest
  | .c3 c2, buf, ch :: rest =>
      if ch = set.localEnd then some buf
      else do
        let c3 ← set.base64i[ch.toNat]?
        if c3 = noCode then
          if rest = [] then some [] else decodeLoop set (.c3 c2) buf rest
        else
          decodeLoop set (.c4 c3)
            (buf ++ [((c2 &&& 0xf) <<< 4) ||| ((c3 &&& 0x3c) >>> 2)]) rest
  | .c4 c3, buf, ch :: rest =>
      if ch = set.localEnd then some buf
      else do
        let c4 ← set.base64i[ch.toNat]?
        if c4 = noCode then
          if rest = [] then some [] else decodeLoop set (.c4 c3) buf rest
        else decodeLoop set .c1 (buf ++ [((c3 &&& 0x03) <<< 6) ||| c4]) rest

/-- The value that is returned and the bytes that `buf` and `length` give. -/
structure SetDecoded where
  result : Int
  buf : List Byte
  deriving DecidableEq, Repr

/--
`Base64Decode` of a text of fewer than `2 ^ 32` characters.  The padding ends
the function where something has been decoded already.
-/
def base64DecodeSet (chSet : Int) (strEn : List Byte) :
    Option SetDecoded :=
  let strLen := (BitVec.ofNat 32 strEn.length).toInt
  let buffLen := strLen.tdiv 4 * 3 + 1
  if buffLen ≤ 1 then some ⟨-1, []⟩
  else do
    let buf ← decodeLoop (charSet chSet) .c1 [] strEn
    some (if buf = [] then ⟨-1, []⟩ else ⟨0, buf⟩)

/-! ## Codes -/

theorem charSet_cases (chSet : Int) :
    (chSet = chSecret ∧ charSet chSet = charSet chSecret) ∨
      (chSet ≠ chSecret ∧ charSet chSet = charSet 0) := by
  by_cases hsecret : chSet = chSecret
  · exact .inl ⟨hsecret, hsecret ▸ rfl⟩
  · exact .inr ⟨hsecret, if_neg hsecret⟩

theorem base64i_base64o (chSet : Int) {c : Byte} (h : c.toNat < 64) :
    (charSet chSet).base64i[((charSet chSet).base64o.getD c.toNat
      0).toNat]? = some c := by
  have hall : ∀ set ∈ [charSet chSecret, charSet 0], ∀ i : Fin 64,
      set.base64i[(set.base64o.getD i 0).toNat]? =
        some (BitVec.ofNat 8 i) := by
    decide +kernel
  have hset : charSet chSet ∈ [charSet chSecret, charSet 0] := by
    rcases charSet_cases chSet with ⟨-, heq⟩ | ⟨-, heq⟩ <;> simp [heq]
  have hcode := hall (charSet chSet) hset ⟨c.toNat, h⟩
  rwa [BitVec.ofNat_toNat, BitVec.setWidth_eq] at hcode

theorem base64o_eq_localEnd_iff (chSet : Int) {c : Byte}
    (h : c.toNat < 64) :
    (charSet chSet).base64o.getD c.toNat 0 = (charSet chSet).localEnd ↔
      chSet = chSecret ∧ c = 17 := by
  have hsecret : ∀ i : Fin 64, (charSet chSecret).base64o.getD i 0 =
      (charSet chSecret).localEnd ↔ BitVec.ofNat 8 i = 17 := by
    decide +kernel
  have hdefault : ∀ i : Fin 64, (charSet 0).base64o.getD i 0 ≠
      (charSet 0).localEnd := by
    decide +kernel
  rcases charSet_cases chSet with ⟨hset, heq⟩ | ⟨hset, heq⟩
  · have hcode := hsecret ⟨c.toNat, h⟩
    rw [BitVec.ofNat_toNat, BitVec.setWidth_eq] at hcode
    rw [heq, hcode, and_iff_right hset]
  · rw [heq]
    exact iff_of_false (hdefault ⟨c.toNat, h⟩) fun hboth => hset hboth.1

theorem code_lt (m : BitVec 64) (place : Nat) :
    (code m place).toNat < 64 := by
  rw [code, BitVec.toNat_and]
  exact Nat.lt_of_le_of_lt Nat.and_le_right (by decide)

theorem code_ne_noCode (m : BitVec 64) (place : Nat) :
    code m place ≠ noCode := by
  intro heq
  have hlt := code_lt m place
  rw [heq] at hlt
  exact absurd hlt (by decide)

section

variable (m : BitVec 64)

theorem byte16_eq : (code m 18 <<< 2) ||| ((code m 12 &&& 0x30) >>> 4) =
    (m >>> 16).setWidth 8 := by
  ext i hi
  interval_cases i <;> simp [code]

theorem byte8_eq :
    ((code m 12 &&& 0xf) <<< 4) ||| ((code m 6 &&& 0x3c) >>> 2) =
      (m >>> 8).setWidth 8 := by
  ext i hi
  interval_cases i <;> simp [code]

theorem byte0_eq : ((code m 6 &&& 0x03) <<< 6) ||| code m 0 =
    m.setWidth 8 := by
  ext i hi
  interval_cases i <;> simp [code]

end

def signByte (ch : Byte) : Byte :=
  if 0x80 ≤ ch.toNat then 0xff else 0

theorem signByte_bit (ch : Byte) {i : Nat} (h : i < 8) :
    (signByte ch)[i] = ch.msb := by
  have hmsb := BitVec.msb_eq_decide ch
  rw [signByte, hmsb]
  split_ifs with hsign
  · rw [decide_eq_true hsign]
    interval_cases i <;> simp
  · rw [decide_eq_false hsign]
    interval_cases i <;> simp

section

variable (a b c : Byte)

theorem full_byte16 :
    (shiftIn (shiftIn (a.signExtend 64) b) c >>> 16).setWidth 8 =
      a ||| signByte b ||| signByte c := by
  ext i hi
  rw [BitVec.getElem_or, BitVec.getElem_or, signByte_bit b hi,
    signByte_bit c hi]
  interval_cases i <;> simp [shiftIn, BitVec.getElem_signExtend]

theorem full_byte8 :
    (shiftIn (shiftIn (a.signExtend 64) b) c >>> 8).setWidth 8 =
      b ||| signByte c := by
  ext i hi
  rw [BitVec.getElem_or, signByte_bit c hi]
  interval_cases i <;> simp [shiftIn, BitVec.getElem_signExtend]

theorem full_byte0 :
    (shiftIn (shiftIn (a.signExtend 64) b) c).setWidth 8 = c := by
  ext i hi
  interval_cases i <;> simp [shiftIn, BitVec.getElem_signExtend]

theorem full_code6 :
    code (shiftIn (shiftIn (a.signExtend 64) b) c) 6 =
      (((b ||| signByte c) <<< 2) ||| (c >>> 6)) &&& 0x3f := by
  rw [← full_byte8 a b c]
  ext i hi
  interval_cases i <;> simp [code, shiftIn, BitVec.getElem_signExtend]

theorem full_code0 :
    code (shiftIn (shiftIn (a.signExtend 64) b) c) 0 = c &&& 0x3f := by
  rw [code, BitVec.ushiftRight_zero, full_byte0]

theorem pair_byte16 :
    ((shiftIn (shiftIn 0 a) b <<< 8) >>> 16).setWidth 8 =
      a ||| signByte b := by
  ext i hi
  rw [BitVec.getElem_or, signByte_bit b hi]
  interval_cases i <;> simp [shiftIn, BitVec.getElem_signExtend]

theorem pair_byte8 :
    ((shiftIn (shiftIn 0 a) b <<< 8) >>> 8).setWidth 8 = b := by
  ext i hi
  interval_cases i <;> simp [shiftIn, BitVec.getElem_signExtend]

theorem pair_code6_ne :
    code (shiftIn (shiftIn 0 a) b <<< 8) 6 ≠ 17 := by
  intro heq
  have hbit := congrArg (fun c : Byte => c.getLsbD 0) heq
  simp [code, shiftIn] at hbit

theorem single_byte16 :
    ((shiftIn 0 a <<< 16) >>> 16).setWidth 8 = a := by
  ext i hi
  rw [BitVec.getElem_setWidth, BitVec.getLsbD_ushiftRight,
    BitVec.getLsbD_shiftLeft, shiftIn, BitVec.getLsbD_or,
    BitVec.getLsbD_signExtend]
  interval_cases i <;> simp

end

/-! ## What comes back -/

def readBack (chSet : Int) : List Byte → List Byte
  | [] => []
  | [a] => [a]
  | [a, b] => [a ||| signByte b, b]
  | a :: b :: c :: rest =>
      let m := shiftIn (shiftIn (a.signExtend 64) b) c
      if chSet = chSecret ∧ code m 6 = 17 then
        [a ||| signByte b ||| signByte c]
      else if chSet = chSecret ∧ code m 0 = 17 then
        [a ||| signByte b ||| signByte c, b ||| signByte c]
      else
        (a ||| signByte b ||| signByte c) :: (b ||| signByte c) :: c ::
          readBack chSet rest

section

variable (chSet : Int) (m : BitVec 64) (place : Nat) (buf rest : List Byte)

theorem decodeLoop_c1 :
    decodeLoop (charSet chSet) .c1 buf
        ((charSet chSet).char m place :: rest) =
      decodeLoop (charSet chSet) (.c2 (code m place)) buf rest := by
  rw [decodeLoop, CharSet.char, base64i_base64o chSet (code_lt m place),
    Option.bind_eq_bind, Option.bind_some, if_neg (code_ne_noCode m place)]

theorem decodeLoop_c2 (c1 : Byte) :
    decodeLoop (charSet chSet) (.c2 c1) buf
        ((charSet chSet).char m place :: rest) =
      decodeLoop (charSet chSet) (.c3 (code m place))
        (buf ++ [(c1 <<< 2) ||| ((code m place &&& 0x30) >>> 4)]) rest := by
  rw [decodeLoop, CharSet.char, base64i_base64o chSet (code_lt m place),
    Option.bind_eq_bind, Option.bind_some, if_neg (code_ne_noCode m place)]

theorem decodeLoop_c3 (c2 : Byte) :
    decodeLoop (charSet chSet) (.c3 c2) buf
        ((charSet chSet).char m place :: rest) =
      if chSet = chSecret ∧ code m place = 17 then some buf
      else decodeLoop (charSet chSet) (.c4 (code m place))
        (buf ++ [((c2 &&& 0xf) <<< 4) ||| ((code m place &&& 0x3c) >>> 2)])
        rest := by
  rw [decodeLoop, CharSet.char, base64i_base64o chSet (code_lt m place),
    Option.bind_eq_bind, Option.bind_some, if_neg (code_ne_noCode m place)]
  exact if_congr (base64o_eq_localEnd_iff chSet (code_lt m place)) rfl rfl

theorem decodeLoop_c4 (c3 : Byte) :
    decodeLoop (charSet chSet) (.c4 c3) buf
        ((charSet chSet).char m place :: rest) =
      if chSet = chSecret ∧ code m place = 17 then some buf
      else decodeLoop (charSet chSet) .c1
        (buf ++ [((c3 &&& 0x03) <<< 6) ||| code m place]) rest := by
  rw [decodeLoop, CharSet.char, base64i_base64o chSet (code_lt m place),
    Option.bind_eq_bind, Option.bind_some, if_neg (code_ne_noCode m place)]
  exact if_congr (base64o_eq_localEnd_iff chSet (code_lt m place)) rfl rfl

theorem decodeLoop_c3_end (c2 : Byte) :
    decodeLoop (charSet chSet) (.c3 c2) buf
      ((charSet chSet).localEnd :: rest) = some buf := by
  rw [decodeLoop, if_pos rfl]

theorem decodeLoop_c4_end (c3 : Byte) :
    decodeLoop (charSet chSet) (.c4 c3) buf
      ((charSet chSet).localEnd :: rest) = some buf := by
  rw [decodeLoop, if_pos rfl]

end

theorem decodeLoop_encodeGroups (chSet : Int) (s buf : List Byte) :
    decodeLoop (charSet chSet) .c1 buf (encodeGroups (charSet chSet) s) =
      some (buf ++ readBack chSet s) := by
  fun_induction readBack chSet s generalizing buf with
  | case1 => simp [encodeGroups, decodeLoop]
  | case2 a =>
      simp only [encodeGroups, decodeLoop_c1, decodeLoop_c2,
        decodeLoop_c3_end, byte16_eq, single_byte16]
  | case3 a b =>
      simp only [encodeGroups, decodeLoop_c1, decodeLoop_c2, decodeLoop_c3,
        decodeLoop_c4_end, byte16_eq, byte8_eq, pair_byte16, pair_byte8,
        pair_code6_ne, and_false, if_false, List.append_assoc,
        List.cons_append, List.nil_append]
  | case4 a b c rest m hend =>
      simp only [encodeGroups, decodeLoop_c1, decodeLoop_c2, decodeLoop_c3,
        byte16_eq, full_byte16]
      rw [if_pos hend]
  | case5 a b c rest m hnot hend =>
      simp only [encodeGroups, decodeLoop_c1, decodeLoop_c2, decodeLoop_c3,
        decodeLoop_c4, byte16_eq, byte8_eq, full_byte16, full_byte8]
      rw [if_neg hnot, if_pos hend]
      simp
  | case6 a b c rest m hnot hnot' ih =>
      simp only [encodeGroups, decodeLoop_c1, decodeLoop_c2, decodeLoop_c3,
        decodeLoop_c4, byte16_eq, byte8_eq, byte0_eq, full_byte16, full_byte8,
        full_byte0]
      rw [if_neg hnot, if_neg hnot', ih]
      simp

/-! ## Which strings survive -/

/-- A byte from `0x80` on has nothing but `0xff` in front of it. -/
def Unspoiled (a b c : Byte) : Prop :=
  (0x80 ≤ b.toNat → a = 0xff) ∧ (0x80 ≤ c.toNat → a = 0xff ∧ b = 0xff)

/--
All groups of three are unspoiled, and in the secret set neither of the last
two letters of a group is the padding.
-/
def SetSafe (chSet : Int) : List Byte → Prop
  | [] => True
  | [_] => True
  | [a, b] => 0x80 ≤ b.toNat → a = 0xff
  | a :: b :: c :: rest =>
      Unspoiled a b c ∧
        (chSet = chSecret →
          ((b <<< 2) ||| (c >>> 6)) &&& 0x3f ≠ 17 ∧ c &&& 0x3f ≠ 17) ∧
        SetSafe chSet rest

theorem or_signByte_iff (a b : Byte) :
    a ||| signByte b = a ↔ (0x80 ≤ b.toNat → a = 0xff) := by
  have hones : a ||| 0xff = 0xff := BitVec.or_allOnes
  by_cases hb : 0x80 ≤ b.toNat
  · rw [signByte, if_pos hb, hones]
    exact ⟨fun h _ => h.symm, fun h => (h hb).symm⟩
  · rw [signByte, if_neg hb]
    exact iff_of_true BitVec.or_zero fun h => absurd h hb

theorem unspoiled_iff (a b c : Byte) :
    (a ||| signByte b ||| signByte c = a ∧ b ||| signByte c = b) ↔
      Unspoiled a b c := by
  have hones : ∀ x : Byte, x ||| 0xff = 0xff := fun _ => BitVec.or_allOnes
  have hab := or_signByte_iff a b
  have hbc := or_signByte_iff b c
  rw [Unspoiled, hbc]
  by_cases hc : 0x80 ≤ c.toNat
  · rw [signByte, signByte, if_pos hc, hones]
    constructor
    · rintro ⟨ha, hb⟩
      exact ⟨fun _ => ha.symm, fun _ => ⟨ha.symm, hb hc⟩⟩
    · rintro ⟨-, hboth⟩
      exact ⟨(hboth hc).1.symm, fun _ => (hboth hc).2⟩
  · have hzero : a ||| signByte b ||| signByte c = a ||| signByte b := by
      rw [show signByte c = 0 from if_neg hc]
      exact BitVec.or_zero
    rw [hzero, hab]
    exact and_congr_right fun _ =>
      iff_of_true (fun h => absurd h hc) fun h => absurd h hc

theorem readBack_eq_iff (chSet : Int) (s : List Byte) :
    readBack chSet s = s ↔ SetSafe chSet s := by
  fun_induction readBack chSet s with
  | case1 => simp [SetSafe]
  | case2 a => simp [SetSafe]
  | case3 a b =>
      rw [SetSafe, ← or_signByte_iff]
      simp
  | case4 a b c rest m hend =>
      refine iff_of_false (fun h => ?_) fun hsafe => ?_
      · simpa using congrArg List.length h
      · have hspoil := ((unspoiled_iff a b c).mpr hsafe.1).2
        have hcode := hend.2
        rw [full_code6, hspoil] at hcode
        exact (hsafe.2.1 hend.1).1 hcode
  | case5 a b c rest m hnot hend =>
      refine iff_of_false (fun h => ?_) fun hsafe => ?_
      · simpa using congrArg List.length h
      · have hcode := hend.2
        rw [full_code0] at hcode
        exact (hsafe.2.1 hend.1).2 hcode
  | case6 a b c rest m hnot hnot' ih =>
      rw [SetSafe, ← unspoiled_iff, ← ih]
      simp only [List.cons.injEq, true_and]
      constructor
      · rintro ⟨ha, hb, hrest⟩
        refine ⟨⟨ha, hb⟩, fun hset => ⟨fun hcode => ?_, fun hcode => ?_⟩,
          hrest⟩
        · rw [full_code6, hb] at hnot
          exact hnot ⟨hset, hcode⟩
        · rw [full_code0] at hnot'
          exact hnot' ⟨hset, hcode⟩
      · rintro ⟨⟨ha, hb⟩, -, hrest⟩
        exact ⟨ha, hb, hrest⟩

theorem length_encodeGroups (set : CharSet) (s : List Byte) :
    (encodeGroups set s).length = (s.length + 2) / 3 * 4 := by
  fun_induction encodeGroups set s with
  | case1 => rfl
  | case2 a m => simp
  | case3 a b m => simp
  | case4 a b c rest m ih =>
      simp only [List.length_cons, ih]
      omega

theorem buffLen_le_iff {size : Nat} (hpos : 4 ≤ size) (hdvd : 4 ∣ size)
    (hlt : size < 2 ^ 32) :
    (BitVec.ofNat 32 size).toInt.tdiv 4 * 3 + 1 ≤ 1 ↔ 2 ^ 31 ≤ size := by
  obtain ⟨count, rfl⟩ := hdvd
  have hcond := (BitVec.ofNat 32 (4 * count)).toInt_eq_toNat_cond
  rw [BitVec.toNat_ofNat, Nat.mod_eq_of_lt hlt] at hcond
  have hdiv : ∀ k : Int, (4 * k).tdiv 4 = k :=
    fun k => Int.mul_tdiv_cancel_left k (by decide)
  split_ifs at hcond with hhalf
  · rw [hcond, show ((4 * count : Nat) : Int) = 4 * (count : Int) by simp,
      hdiv]
    omega
  · rw [hcond, show ((4 * count : Nat) : Int) - (2 ^ 32 : Nat) =
      4 * ((count : Int) - 2 ^ 30) by omega, hdiv]
    omega

theorem readBack_ne_nil (chSet : Int) {s : List Byte} (h : s ≠ []) :
    readBack chSet s ≠ [] := by
  fun_cases readBack chSet s <;> simp at h ⊢

/--
A string survives encoding and decoding if and only if its text has fewer than
`2 ^ 31` characters and no group of it is spoiled or cut off.
-/
theorem base64Set_round_trip_iff (chSet : Int) (s : List Byte)
    (hne : s ≠ []) (hint : s.length < 2 ^ 31) :
    base64DecodeSet chSet (base64EncodeSet chSet s) = some ⟨0, s⟩ ↔
      s.length ≤ 1610612733 ∧ SetSafe chSet s := by
  have hlength := length_encodeGroups (charSet chSet) s
  have hpos := List.length_pos_of_ne_nil hne
  have hbuff := @buffLen_le_iff (encodeGroups (charSet chSet) s).length
    (by omega) (by omega) (by omega)
  simp only [base64DecodeSet, base64EncodeSet, decodeLoop_encodeGroups,
    hbuff, List.nil_append, Option.bind_eq_bind, Option.bind_some,
    if_neg (readBack_ne_nil chSet hne)]
  split_ifs with hbig
  · refine iff_of_false (by simp) fun h => ?_
    omega
  · rw [Option.some.injEq, SetDecoded.mk.injEq, readBack_eq_iff,
      and_iff_right rfl]
    exact (and_iff_right (by omega)).symm

theorem hello_survives :
    base64DecodeSet chSecret (base64EncodeSet chSecret (ascii "hello")) =
      some ⟨0, ascii "hello"⟩ :=
  (base64Set_round_trip_iff chSecret (ascii "hello") (by decide)
    (by decide)).mpr ⟨by decide, by
      simp [ascii, SetSafe, Unspoiled]⟩

/-- A byte of `0x80` spoils the one before it, and letters cut a text off. -/
theorem spoiled_and_cut :
    base64DecodeSet 0 (base64EncodeSet 0 [0x01, 0x80]) =
        some ⟨0, [0xff, 0x80]⟩ ∧
      base64DecodeSet chSecret (base64EncodeSet chSecret (ascii "aDa")) =
        some ⟨0, ascii "a"⟩ := by
  decide +kernel

end StarsGaming.Tools
