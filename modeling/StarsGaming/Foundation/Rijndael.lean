import Mathlib.Data.List.GetD
import StarsGaming.Foundation.Bytes
import StarsGaming.Foundation.Ciphers

/-!
# The Rijndael block cipher

The cipher as its standard describes it: bytes are elements of the field with
256 elements, a block is four columns of four bytes, and a key of `nk` words is
expanded to the keys of `nk + 6` rounds.
-/

namespace StarsGaming.Foundation.Rijndael

/-! ## The field -/

def xtime (x : Byte) : Byte :=
  (x <<< 1) ^^^ (if x.msb then 0x1b#8 else 0#8)

def mul (a x : Byte) : Byte :=
  (List.range 8).foldr
    (fun i product => (if a.getLsbD i then x else 0#8) ^^^ xtime product) 0#8

def bytes : List Byte :=
  (List.range 256).map (BitVec.ofNat 8)

def inverse (x : Byte) : Byte :=
  (bytes.find? fun y => mul x y = 1#8).getD 0#8

def affine (y : Byte) : Byte :=
  [0, 1, 2, 3, 4].foldr (fun i z => y.rotateLeft i ^^^ z) 0x63#8

def subByte (x : Byte) : Byte :=
  affine (inverse x)

@[simp] theorem xtime_zero : xtime 0#8 = 0#8 :=
  rfl

theorem xtime_xor (x y : Byte) : xtime (x ^^^ y) = xtime x ^^^ xtime y := by
  rw [xtime, xtime, xtime, BitVec.shiftLeft_xor_distrib, BitVec.msb_xor]
  cases x.msb <;> cases y.msb <;>
    simp only [Bool.bne_false, Bool.bne_true, Bool.not_false, Bool.not_true,
      Bool.false_eq_true, if_true, if_false, BitVec.xor_zero] <;>
    grind

theorem mul_xor (a x y : Byte) : mul a (x ^^^ y) = mul a x ^^^ mul a y := by
  rw [mul, mul, mul]
  induction List.range 8 with
  | nil => simp
  | cons i is ih =>
      rw [List.foldr_cons, List.foldr_cons, List.foldr_cons, ih, xtime_xor]
      cases a.getLsbD i <;> simp only [Bool.false_eq_true, if_true, if_false]
      · simp
      · ac_rfl

theorem mul_zero (a : Byte) : mul a 0#8 = 0#8 := by
  rw [mul]
  induction List.range 8 with
  | nil => rfl
  | cons i is ih =>
      rw [List.foldr_cons, ih]
      simp

theorem mul_xtime (a x : Byte) : mul a (xtime x) = xtime (mul a x) := by
  rw [mul, mul]
  induction List.range 8 with
  | nil => exact xtime_zero.symm
  | cons i is ih =>
      rw [List.foldr_cons, List.foldr_cons, ih, xtime_xor]
      cases a.getLsbD i <;> simp

theorem mul_left_comm (a b x : Byte) :
    mul a (mul b x) = mul b (mul a x) := by
  rw [mul, mul.eq_def a x]
  induction List.range 8 with
  | nil => exact (mul_zero b).symm
  | cons i is ih =>
      rw [List.foldr_cons, List.foldr_cons, ih, mul_xor, mul_xtime]
      cases a.getLsbD i <;> simp [mul_zero]

theorem mul_one : ∀ a : Byte, mul a 1#8 = a := by
  decide +kernel

theorem mul_comm (a b : Byte) : mul a b = mul b a := by
  have h := mul_left_comm a b 1#8
  rwa [mul_one, mul_one] at h

theorem eq_of_mul_eq_one {x y z : Byte} (hy : mul x y = 1#8)
    (hz : mul x z = 1#8) : y = z := by
  calc
    y = mul y (mul x z) := by rw [hz, mul_one]
    _ = mul x (mul z y) := by rw [mul_left_comm, mul_comm y z]
    _ = mul z (mul x y) := mul_left_comm x z y
    _ = z := by rw [hy, mul_one]

theorem mem_bytes (x : Byte) : x ∈ bytes := by
  apply List.mem_map.mpr
  exact ⟨x.toNat, List.mem_range.mpr x.isLt, by simp⟩

theorem inverse_eq {x y : Byte} (h : mul x y = 1#8) : inverse x = y := by
  rw [inverse]
  cases hfind : bytes.find? fun y => mul x y = 1#8 with
  | none =>
      have hnone := List.find?_eq_none.mp hfind y (mem_bytes y)
      simp [h] at hnone
  | some z =>
      have hz := List.find?_some hfind
      exact eq_of_mul_eq_one (of_decide_eq_true hz) h

theorem inverse_zero : inverse 0#8 = 0#8 := by
  have hfind : (bytes.find? fun y => mul 0#8 y = 1#8) = none := by
    apply List.find?_eq_none.mpr
    intro y _
    rw [mul_comm, mul_zero]
    decide
  rw [inverse, hfind]
  rfl

/-! ## Blocks -/

abbrev Column := Fin 4 → Byte

abbrev State := Fin 4 → Column

def addRoundKey (s k : State) : State :=
  fun c r => s c r ^^^ k c r

def subBytes (s : State) : State :=
  fun c r => subByte (s c r)

/-- Row `r` moves `r` columns to the left. -/
def shiftRows (s : State) : State :=
  fun c r => s (c + r) r

def invShiftRows (s : State) : State :=
  fun c r => s (c - r) r

def circulant (k : Fin 4 → Byte) (a : Column) : Column :=
  fun r => mul (k 0) (a r) ^^^ mul (k 1) (a (r + 1)) ^^^
    mul (k 2) (a (r + 2)) ^^^ mul (k 3) (a (r + 3))

def mixRow : Fin 4 → Byte :=
  ![0x02#8, 0x03#8, 0x01#8, 0x01#8]

def invMixRow : Fin 4 → Byte :=
  ![0x0e#8, 0x0b#8, 0x0d#8, 0x09#8]

def mixColumn (a : Column) : Column :=
  circulant mixRow a

def invMixColumn (a : Column) : Column :=
  circulant invMixRow a

def mixColumns (s : State) : State :=
  fun c => mixColumn (s c)

def invMixColumns (s : State) : State :=
  fun c => invMixColumn (s c)

theorem circulant_xor (k : Fin 4 → Byte) (a b : Column) :
    circulant k (fun r => a r ^^^ b r) =
      fun r => circulant k a r ^^^ circulant k b r := by
  funext r
  rw [circulant, circulant, circulant]
  simp only [mul_xor]
  ac_rfl

theorem row_add (r : Fin 4) :
    (r + 1 + 1 = r + 2 ∧ r + 1 + 2 = r + 3 ∧ r + 1 + 3 = r) ∧
    (r + 2 + 1 = r + 3 ∧ r + 2 + 2 = r ∧ r + 2 + 3 = r + 1) ∧
    (r + 3 + 1 = r ∧ r + 3 + 2 = r + 1 ∧ r + 3 + 3 = r + 2) := by
  revert r
  decide

/-- What two matrices make of a byte that is `d` rows away. -/
def product (k l : Fin 4 → Byte) (d : Fin 4) (x : Byte) : Byte :=
  mul (k 0) (mul (l d) x) ^^^ mul (k 1) (mul (l (d + 3)) x) ^^^
    mul (k 2) (mul (l (d + 2)) x) ^^^ mul (k 3) (mul (l (d + 1)) x)

theorem circulant_circulant (k l : Fin 4 → Byte) (a : Column) (r : Fin 4) :
    circulant k (circulant l a) r =
      product k l 0 (a r) ^^^ product k l 1 (a (r + 1)) ^^^
        product k l 2 (a (r + 2)) ^^^ product k l 3 (a (r + 3)) := by
  obtain ⟨⟨h₁₁, h₁₂, h₁₃⟩, ⟨h₂₁, h₂₂, h₂₃⟩, h₃₁, h₃₂, h₃₃⟩ := row_add r
  obtain ⟨⟨g₁₁, g₁₂, g₁₃⟩, ⟨g₂₁, g₂₂, g₂₃⟩, g₃₁, g₃₂, g₃₃⟩ := row_add 0
  simp only [Fin.isValue, zero_add] at g₁₁ g₁₂ g₁₃ g₂₁ g₂₂ g₂₃ g₃₁ g₃₂ g₃₃
  simp only [circulant, product, mul_xor, h₁₁, h₁₂, h₁₃, h₂₁, h₂₂, h₂₃, h₃₁,
    h₃₂, h₃₃, zero_add, g₁₁, g₁₂, g₁₃, g₂₁, g₂₂, g₂₃, g₃₁, g₃₂, g₃₃]
  ac_rfl

theorem xor_left_comm (x y z : Byte) : x ^^^ (y ^^^ z) = y ^^^ (x ^^^ z) := by
  ac_rfl

theorem mul_mixed (x : Byte) :
    mul 0x01#8 x = x ∧ mul 0x02#8 x = xtime x ∧
      mul 0x03#8 x = x ^^^ xtime x := by
  simp [mul, List.range_succ, xtime]

theorem mul_unmixed (x : Byte) :
    mul 0x09#8 x = x ^^^ xtime (xtime (xtime x)) ∧
    mul 0x0b#8 x = x ^^^ xtime (x ^^^ xtime (xtime x)) ∧
    mul 0x0d#8 x = x ^^^ xtime (xtime (x ^^^ xtime x)) ∧
    mul 0x0e#8 x = xtime (x ^^^ xtime (x ^^^ xtime x)) := by
  simp [mul, List.range_succ, xtime]

theorem product_invMix_mix (d : Fin 4) (x : Byte) :
    product invMixRow mixRow d x = if d = 0 then x else 0#8 := by
  fin_cases d <;>
    simp [product, invMixRow, mixRow, mul_mixed, mul_unmixed, xtime_xor,
      BitVec.xor_comm, xor_left_comm, BitVec.xor_assoc]

theorem invMixColumn_mixColumn (a : Column) :
    invMixColumn (mixColumn a) = a := by
  funext r
  rw [invMixColumn, mixColumn, circulant_circulant, product_invMix_mix,
    product_invMix_mix, product_invMix_mix, product_invMix_mix]
  simp

/-! ## The cipher -/

def cipher : RoundCipher State where
  addKey := addRoundKey
  substitute s := shiftRows (subBytes s)
  mix := mixColumns

def inverseCipher (invSubByte : Byte → Byte) : RoundCipher State where
  addKey := addRoundKey
  substitute s := invShiftRows fun c r => invSubByte (s c r)
  mix := invMixColumns

theorem inverseCipher_undoes {invSubByte : Byte → Byte}
    (h : ∀ x, invSubByte (subByte x) = x) :
    (inverseCipher invSubByte).Undoes cipher where
  addKey_addKey s k := by
    funext c r
    exact (BitVec.xor_assoc _ _ _).trans (by rw [BitVec.xor_self]; simp)
  substitute_substitute s := by
    funext c r
    change invSubByte (subByte (s (c - r + r) r)) = s c r
    rw [h, sub_add_cancel]
  mix_mix s := by
    funext c
    exact invMixColumn_mixColumn (s c)
  mix_addKey s k := by
    funext c
    exact circulant_xor _ (s c) (k c)

/-! ## Keys -/

def subWord (w : Column) : Column :=
  fun r => subByte (w r)

def rotWord (w : Column) : Column :=
  fun r => w (r + 1)

def roundConstant (i : Nat) : Column :=
  fun r => if r = 0 then xtime^[i - 1] 1#8 else 0#8

def addWord (v w : Column) : Column :=
  fun r => v r ^^^ w r

/-- What is added to word `i - nk` to get word `i`, from the word before. -/
def keyCore (nk i : Nat) (w : Column) : Column :=
  if i % nk = 0 then addWord (subWord (rotWord w)) (roundConstant (i / nk))
  else if 6 < nk ∧ i % nk = 4 then subWord w
  else w

/-- The words of the expanded key; the first `nk` are the key itself. -/
def expandKey (nk : Nat) (key : List Byte) (i : Nat) : Column :=
  if i < nk ∨ nk = 0 then fun r => key.getD (4 * i + r.val) 0#8
  else addWord (expandKey nk key (i - nk))
    (keyCore nk i (expandKey nk key (i - 1)))
termination_by i
decreasing_by all_goals omega

theorem expandKey_of_lt {nk i : Nat} (key : List Byte) (h : i < nk) :
    expandKey nk key i = fun r => key.getD (4 * i + r.val) 0#8 := by
  rw [expandKey, if_pos (Or.inl h)]

theorem expandKey_of_le {nk i : Nat} (key : List Byte) (hnk : 0 < nk)
    (h : nk ≤ i) :
    expandKey nk key i = addWord (expandKey nk key (i - nk))
      (keyCore nk i (expandKey nk key (i - 1))) := by
  rw [expandKey, if_neg (by omega)]

def roundKey (w : Nat → Column) (round : Nat) : State :=
  fun c => w (4 * round + c)

/-! ## Blocks as bytes -/

def stateOf (block : List Byte) : State :=
  fun c r => block.getD (4 * c.val + r.val) 0#8

def bytesOf (s : State) : List Byte :=
  (List.finRange 4).flatMap fun c => (List.finRange 4).map (s c)

theorem length_bytesOf (s : State) : (bytesOf s).length = 16 :=
  rfl

theorem stateOf_bytesOf (s : State) : stateOf (bytesOf s) = s := by
  funext c r
  fin_cases c <;> fin_cases r <;> rfl

theorem bytesOf_stateOf {block : List Byte} (h : block.length = 16) :
    bytesOf (stateOf block) = block := by
  apply List.ext_getElem
  · rw [length_bytesOf, h]
  · intro i hi hblock
    rw [length_bytesOf] at hi
    trans block.getD i 0#8
    · interval_cases i <;> rfl
    · exact List.getD_eq_getElem _ _ hblock

/-- The block that a key of `nk` words makes of a block. -/
def encrypt (nk : Nat) (key block : List Byte) : List Byte :=
  bytesOf (cipher.run (roundKey (expandKey nk key)) (nk + 5)
    (stateOf block))

def decrypt (invSubByte : Byte → Byte) (nk : Nat) (key block : List Byte) :
    List Byte :=
  bytesOf ((inverseCipher invSubByte).run
    ((inverseCipher invSubByte).reverseKeys (roundKey (expandKey nk key))
      (nk + 5)) (nk + 5) (stateOf block))

section

variable {invSubByte : Byte → Byte}
  (h : ∀ x, invSubByte (subByte x) = x)

include h

theorem decrypt_encrypt (nk : Nat) (key : List Byte) {block : List Byte}
    (hblock : block.length = 16) :
    decrypt invSubByte nk key (encrypt nk key block) = block := by
  rw [decrypt, encrypt, stateOf_bytesOf, (inverseCipher_undoes h).run_run,
    bytesOf_stateOf hblock]

/-- There are finitely many blocks, so the inverse is one from both sides. -/
theorem encrypt_decrypt (nk : Nat) (key : List Byte) {block : List Byte}
    (hblock : block.length = 16) :
    encrypt nk key (decrypt invSubByte nk key block) = block := by
  have hbyte : Finite Byte := Finite.of_injective BitVec.toFin
    (fun _ _ h => BitVec.eq_of_toFin_eq h)
  have hleft := (inverseCipher_undoes h).run_run
    (roundKey (expandKey nk key)) (nk + 5)
  have hright := Function.LeftInverse.rightInverse_of_surjective hleft
    (Finite.surjective_of_injective (Function.LeftInverse.injective hleft))
  rw [encrypt, decrypt, stateOf_bytesOf, hright (stateOf block),
    bytesOf_stateOf hblock]

end

end StarsGaming.Foundation.Rijndael
