import StarsGaming.Tools.AesTables

/-!
# Expanding the keys of the block cipher

Three unrolled loops, one for each size of key, write the words of one
recurrence into the array of round keys.  For the way back the order of the
round keys is inverted and the inner ones are mixed.
-/

namespace StarsGaming.Tools

open Foundation Foundation.Rijndael

def getU32 (pt : List Byte) : U32 :=
  ((pt.getD 0 0#8).setWidth 32 <<< 24) ^^^
    ((pt.getD 1 0#8).setWidth 32 <<< 16) ^^^
    ((pt.getD 2 0#8).setWidth 32 <<< 8) ^^^ (pt.getD 3 0#8).setWidth 32

structure AesKey where
  rdKey : List U32
  rounds : Nat

def wordAt (rk : List U32) (i : Nat) : U32 :=
  rk.getD i 0#32

/-! ## Expanding keys -/

def substituted (a b c d : Byte) : U32 :=
  (lookup te2 a &&& 0xff000000#32) ^^^ (lookup te3 b &&& 0x00ff0000#32) ^^^
    (lookup te0 c &&& 0x0000ff00#32) ^^^ (lookup te1 d &&& 0x000000ff#32)

def substitutedTurned (temp : U32) : U32 :=
  substituted ((temp >>> 16).setWidth 8) ((temp >>> 8).setWidth 8)
    (temp.setWidth 8) ((temp >>> 24).setWidth 8)

def substitutedWord (temp : U32) : U32 :=
  substituted ((temp >>> 24).setWidth 8) ((temp >>> 16).setWidth 8)
    ((temp >>> 8).setWidth 8) (temp.setWidth 8)

def expand128 : Nat → Nat → List U32 → List U32
  | 0, _, rk => rk
  | left + 1, i, rk =>
      let o := 4 * i
      let rk := rk.set (o + 4)
        (wordAt rk o ^^^ substitutedTurned (wordAt rk (o + 3)) ^^^
          rcon.getD i 0)
      let rk := rk.set (o + 5) (wordAt rk (o + 1) ^^^ wordAt rk (o + 4))
      let rk := rk.set (o + 6) (wordAt rk (o + 2) ^^^ wordAt rk (o + 5))
      let rk := rk.set (o + 7) (wordAt rk (o + 3) ^^^ wordAt rk (o + 6))
      if i + 1 = 10 then rk else expand128 left (i + 1) rk

def expand192 : Nat → Nat → List U32 → List U32
  | 0, _, rk => rk
  | left + 1, i, rk =>
      let o := 6 * i
      let rk := rk.set (o + 6)
        (wordAt rk o ^^^ substitutedTurned (wordAt rk (o + 5)) ^^^
          rcon.getD i 0)
      let rk := rk.set (o + 7) (wordAt rk (o + 1) ^^^ wordAt rk (o + 6))
      let rk := rk.set (o + 8) (wordAt rk (o + 2) ^^^ wordAt rk (o + 7))
      let rk := rk.set (o + 9) (wordAt rk (o + 3) ^^^ wordAt rk (o + 8))
      if i + 1 = 8 then rk
      else
        let rk := rk.set (o + 10) (wordAt rk (o + 4) ^^^ wordAt rk (o + 9))
        let rk := rk.set (o + 11) (wordAt rk (o + 5) ^^^ wordAt rk (o + 10))
        expand192 left (i + 1) rk

def expand256 : Nat → Nat → List U32 → List U32
  | 0, _, rk => rk
  | left + 1, i, rk =>
      let o := 8 * i
      let rk := rk.set (o + 8)
        (wordAt rk o ^^^ substitutedTurned (wordAt rk (o + 7)) ^^^
          rcon.getD i 0)
      let rk := rk.set (o + 9) (wordAt rk (o + 1) ^^^ wordAt rk (o + 8))
      let rk := rk.set (o + 10) (wordAt rk (o + 2) ^^^ wordAt rk (o + 9))
      let rk := rk.set (o + 11) (wordAt rk (o + 3) ^^^ wordAt rk (o + 10))
      if i + 1 = 7 then rk
      else
        let rk := rk.set (o + 12)
          (wordAt rk (o + 4) ^^^ substitutedWord (wordAt rk (o + 11)))
        let rk := rk.set (o + 13) (wordAt rk (o + 5) ^^^ wordAt rk (o + 12))
        let rk := rk.set (o + 14) (wordAt rk (o + 6) ^^^ wordAt rk (o + 13))
        let rk := rk.set (o + 15) (wordAt rk (o + 7) ^^^ wordAt rk (o + 14))
        expand256 left (i + 1) rk

def loadKey (userKey : List Byte) : Nat → List U32 → List U32
  | 0, rk => rk
  | n + 1, rk =>
      (loadKey userKey n rk).set n (getU32 (userKey.drop (4 * n)))

def aesSetEncryptKey (userKey : List Byte) (bits : Int) (key : AesKey) :
    Except Int AesKey :=
  if bits ≠ 128 ∧ bits ≠ 192 ∧ bits ≠ 256 then .error (-2)
  else if bits = 128 then
    .ok ⟨expand128 10 0 (loadKey userKey 4 key.rdKey), 10⟩
  else if bits = 192 then
    .ok ⟨expand192 8 0 (loadKey userKey 6 key.rdKey), 12⟩
  else
    .ok ⟨expand256 7 0 (loadKey userKey 8 key.rdKey), 14⟩

def swap (rk : List U32) (i j : Nat) : List U32 :=
  (rk.set i (wordAt rk j)).set j (wordAt rk i)

def swapKeys (rk : List U32) (i j : Nat) : List U32 :=
  swap (swap (swap (swap rk i j) (i + 1) (j + 1)) (i + 2) (j + 2))
    (i + 3) (j + 3)

def invertOrder (rk : List U32) (i j : Nat) : List U32 :=
  if i < j then invertOrder (swapKeys rk i j) (i + 4) (j - 4)
  else rk
termination_by j - i

def invMixWord (w : U32) : U32 :=
  lookup td0 (te4 ((w >>> 24).setWidth 8)) ^^^
    lookup td1 (te4 ((w >>> 16).setWidth 8)) ^^^
    lookup td2 (te4 ((w >>> 8).setWidth 8)) ^^^
    lookup td3 (te4 (w.setWidth 8))

def invMixAt (rk : List U32) (o : Nat) : List U32 :=
  rk.set o (invMixWord (wordAt rk o))

def invMixKey (rk : List U32) (o : Nat) : List U32 :=
  invMixAt (invMixAt (invMixAt (invMixAt rk o) (o + 1)) (o + 2)) (o + 3)

/-- As many round keys as are left; `i` is the next one. -/
def invMixKeys : Nat → Nat → List U32 → List U32
  | 0, _, rk => rk
  | left + 1, i, rk => invMixKeys left (i + 1) (invMixKey rk (4 * i))

def aesSetDecryptKey (userKey : List Byte) (bits : Int) (key : AesKey) :
    Except Int AesKey := do
  let key ← aesSetEncryptKey userKey bits key
  return ⟨invMixKeys (key.rounds - 1) 1
    (invertOrder key.rdKey 0 (4 * key.rounds)), key.rounds⟩

/-! ## Words of the array -/

theorem wordAt_set {rk : List U32} {i : Nat} (hi : i < rk.length) (w : U32)
    (j : Nat) :
    wordAt (rk.set i w) j = if j = i then w else wordAt rk j := by
  rw [wordAt, wordAt, List.getD_eq_getElem?_getD, List.getD_eq_getElem?_getD]
  split_ifs with hj
  · rw [hj, List.getElem?_set_self hi]
    rfl
  · rw [List.getElem?_set_ne (Ne.symm hj)]

theorem column_getU32 (pt : List Byte) :
    column (getU32 pt) = fun r => pt.getD r.val 0#8 :=
  column_shifts fun r => pt.getD r.val 0#8

theorem column_getU32_drop (pt : List Byte) (n : Nat) :
    column (getU32 (pt.drop n)) = fun r => pt.getD (n + r.val) 0#8 := by
  rw [column_getU32]
  funext r
  rw [List.getD_eq_getElem?_getD, List.getD_eq_getElem?_getD,
    List.getElem?_drop]

theorem column_lowest (w : U32) : column w 3 = w.setWidth 8 := by
  change (w >>> 0).setWidth 8 = w.setWidth 8
  rw [BitVec.ushiftRight_zero]

theorem column_substitutedTurned (temp : U32) :
    column (substitutedTurned temp) = subWord (rotWord (column temp)) := by
  rw [substitutedTurned, ← column_lowest temp]
  exact column_te_masked (rotWord (column temp))

theorem column_substitutedWord (temp : U32) :
    column (substitutedWord temp) = subWord (column temp) := by
  rw [substitutedWord, ← column_lowest temp]
  exact column_te_masked (column temp)

theorem column_rcon {i : Nat} (h : i < 10) :
    column (rcon.getD i 0) = roundConstant (i + 1) := by
  funext r
  interval_cases i <;> fin_cases r <;> decide

/-! ## Expanding keys -/

/-- The first `n` words are expanded, those from `limit` on are as before. -/
structure Expanded (nk : Nat) (userKey : List Byte) (old : List U32)
    (limit : Nat) (rk : List U32) (n : Nat) : Prop where
  length_eq : rk.length = old.length
  words : ∀ i < n, column (wordAt rk i) = expandKey nk userKey i
  rest : ∀ i, limit ≤ i → wordAt rk i = wordAt old i

namespace Expanded

variable {nk limit n : Nat} {userKey : List Byte} {old rk : List U32}

theorem set (h : Expanded nk userKey old limit rk n)
    (hlimit : limit ≤ old.length) (hn : n < limit) {w : U32}
    (hw : column w = expandKey nk userKey n) :
    Expanded nk userKey old limit (rk.set n w) (n + 1) := by
  have hlength : n < rk.length := by
    rw [h.length_eq]
    omega
  refine ⟨by rw [List.length_set, h.length_eq], ?_, ?_⟩
  · intro i hi
    rw [wordAt_set hlength]
    split_ifs with heq
    · rw [heq, hw]
    · exact h.words i (by omega)
  · intro i hi
    rw [wordAt_set hlength, if_neg (by omega), h.rest i hi]

/-- The next word, for what is added to the word `nk` places before it. -/
theorem next (h : Expanded nk userKey old limit rk n)
    (hlimit : limit ≤ old.length) (hn : n < limit) {p q : Nat} {core : U32}
    (hnk : 0 < nk) (hp : p + nk = n) (hq : q + 1 = n)
    (hcore : column core = keyCore nk n (column (wordAt rk q))) :
    Expanded nk userKey old limit (rk.set n (wordAt rk p ^^^ core))
      (n + 1) := by
  apply h.set hlimit hn
  have hpn : n - nk = p := by omega
  have hqn : n - 1 = q := by omega
  have hexpand := expandKey_of_le userKey hnk (show nk ≤ n by omega)
  rw [hpn, hqn] at hexpand
  rw [hexpand, column_xor, hcore, h.words p (by omega),
    h.words q (by omega)]

theorem next_plain (h : Expanded nk userKey old limit rk n)
    (hlimit : limit ≤ old.length) (hn : n < limit) {p q : Nat}
    (hnk : 0 < nk) (hp : p + nk = n) (hq : q + 1 = n) (hmod : n % nk ≠ 0)
    (hsub : ¬(6 < nk ∧ n % nk = 4)) :
    Expanded nk userKey old limit
      (rk.set n (wordAt rk p ^^^ wordAt rk q)) (n + 1) := by
  apply h.next hlimit hn hnk hp hq
  rw [keyCore, if_neg hmod, if_neg hsub]

theorem next_turned (h : Expanded nk userKey old limit rk n)
    (hlimit : limit ≤ old.length) (hn : n < limit) {p q i : Nat}
    (hnk : 0 < nk) (hp : p + nk = n) (hq : q + 1 = n)
    (hi : n = (i + 1) * nk) (hten : i < 10) :
    Expanded nk userKey old limit
      (rk.set n (wordAt rk p ^^^ substitutedTurned (wordAt rk q) ^^^
        rcon.getD i 0)) (n + 1) := by
  rw [BitVec.xor_assoc]
  apply h.next hlimit hn hnk hp hq
  have hmod : n % nk = 0 := by rw [hi, Nat.mul_mod_left]
  have hdiv : n / nk = i + 1 := by rw [hi, Nat.mul_div_cancel _ hnk]
  rw [keyCore, if_pos hmod, hdiv, column_xor, column_substitutedTurned,
    column_rcon hten]

theorem next_word (h : Expanded nk userKey old limit rk n)
    (hlimit : limit ≤ old.length) (hn : n < limit) {p q : Nat}
    (hp : p + nk = n) (hq : q + 1 = n) (hnk : 6 < nk) (hmod : n % nk = 4) :
    Expanded nk userKey old limit
      (rk.set n (wordAt rk p ^^^ substitutedWord (wordAt rk q)))
      (n + 1) := by
  apply h.next hlimit hn (by omega) hp hq
  rw [keyCore, if_neg (by omega), if_pos ⟨hnk, hmod⟩,
    column_substitutedWord]

end Expanded

section

variable {userKey : List Byte} {old : List U32} {limit : Nat}

theorem loadKey_expanded {nk : Nat} (hlimit : limit ≤ old.length)
    (hnk : nk ≤ limit) {n : Nat} (hn : n ≤ nk) :
    Expanded nk userKey old limit (loadKey userKey n old) n := by
  induction n with
  | zero => exact ⟨rfl, by simp, fun _ _ => rfl⟩
  | succ n ih =>
      apply (ih (by omega)).set hlimit (by omega)
      rw [column_getU32_drop, expandKey_of_lt userKey (by omega)]

theorem expand128_expanded (hlimit : 44 ≤ old.length) {left i : Nat}
    {rk : List U32} (hleft : i + left = 10) (hi : i < 10)
    (h : Expanded 4 userKey old 44 rk (4 * i + 4)) :
    Expanded 4 userKey old 44 (expand128 left i rk) 44 := by
  induction left generalizing i rk with
  | zero => omega
  | succ left ih =>
      have h₄ := h.next_turned hlimit (by omega) (p := 4 * i) (i := i)
        (by omega) rfl (q := 4 * i + 3) rfl (by omega) hi
      have h₅ := h₄.next_plain hlimit (by omega) (p := 4 * i + 1) (by omega)
        rfl rfl (by omega) (by omega)
      have h₆ := h₅.next_plain hlimit (by omega) (p := 4 * i + 2) (by omega)
        rfl rfl (by omega) (by omega)
      have h₇ := h₆.next_plain hlimit (by omega) (p := 4 * i + 3) (by omega)
        rfl rfl (by omega) (by omega)
      rw [expand128]
      split_ifs with hlast
      · obtain rfl : i = 9 := by omega
        exact h₇
      · exact ih (by omega) (by omega) h₇

theorem expand192_expanded (hlimit : 52 ≤ old.length) {left i : Nat}
    {rk : List U32} (hleft : i + left = 8) (hi : i < 8)
    (h : Expanded 6 userKey old 52 rk (6 * i + 6)) :
    Expanded 6 userKey old 52 (expand192 left i rk) 52 := by
  induction left generalizing i rk with
  | zero => omega
  | succ left ih =>
      have h₆ := h.next_turned hlimit (by omega) (p := 6 * i) (i := i)
        (by omega) rfl (q := 6 * i + 5) rfl (by omega) (by omega)
      have h₇ := h₆.next_plain hlimit (by omega) (p := 6 * i + 1) (by omega)
        rfl rfl (by omega) (by omega)
      have h₈ := h₇.next_plain hlimit (by omega) (p := 6 * i + 2) (by omega)
        rfl rfl (by omega) (by omega)
      have h₉ := h₈.next_plain hlimit (by omega) (p := 6 * i + 3) (by omega)
        rfl rfl (by omega) (by omega)
      rw [expand192]
      split_ifs with hlast
      · obtain rfl : i = 7 := by omega
        exact h₉
      · have h₁₀ := h₉.next_plain hlimit (by omega) (p := 6 * i + 4)
          (by omega) rfl rfl (by omega) (by omega)
        have h₁₁ := h₁₀.next_plain hlimit (by omega) (p := 6 * i + 5)
          (by omega) rfl rfl (by omega) (by omega)
        exact ih (by omega) (by omega) h₁₁

theorem expand256_expanded (hlimit : 60 ≤ old.length) {left i : Nat}
    {rk : List U32} (hleft : i + left = 7) (hi : i < 7)
    (h : Expanded 8 userKey old 60 rk (8 * i + 8)) :
    Expanded 8 userKey old 60 (expand256 left i rk) 60 := by
  induction left generalizing i rk with
  | zero => omega
  | succ left ih =>
      have h₈ := h.next_turned hlimit (by omega) (p := 8 * i) (i := i)
        (by omega) rfl (q := 8 * i + 7) rfl (by omega) (by omega)
      have h₉ := h₈.next_plain hlimit (by omega) (p := 8 * i + 1) (by omega)
        rfl rfl (by omega) (by omega)
      have h₁₀ := h₉.next_plain hlimit (by omega) (p := 8 * i + 2) (by omega)
        rfl rfl (by omega) (by omega)
      have h₁₁ := h₁₀.next_plain hlimit (by omega) (p := 8 * i + 3) (by omega)
        rfl rfl (by omega) (by omega)
      rw [expand256]
      split_ifs with hlast
      · obtain rfl : i = 6 := by omega
        exact h₁₁
      · have h₁₂ := h₁₁.next_word hlimit (by omega) (p := 8 * i + 4) rfl
          rfl (by omega) (by omega)
        have h₁₃ := h₁₂.next_plain hlimit (by omega) (p := 8 * i + 5)
          (by omega) rfl rfl (by omega) (by omega)
        have h₁₄ := h₁₃.next_plain hlimit (by omega) (p := 8 * i + 6)
          (by omega) rfl rfl (by omega) (by omega)
        have h₁₅ := h₁₄.next_plain hlimit (by omega) (p := 8 * i + 7)
          (by omega) rfl rfl (by omega) (by omega)
        exact ih (by omega) (by omega) h₁₅

end

def KeySize (nk : Nat) : Prop :=
  nk = 4 ∨ nk = 6 ∨ nk = 8

theorem aesSetEncryptKey_expanded {nk : Nat} (hnk : KeySize nk)
    (userKey : List Byte) (key : AesKey)
    (hkey : 4 * (nk + 7) ≤ key.rdKey.length) :
    ∃ rk, aesSetEncryptKey userKey (32 * nk) key = .ok ⟨rk, nk + 6⟩ ∧
      Expanded nk userKey key.rdKey (4 * (nk + 7)) rk (4 * (nk + 7)) := by
  obtain rfl | rfl | rfl := hnk
  · exact ⟨_, rfl, expand128_expanded hkey rfl (by omega)
      (loadKey_expanded hkey (by omega) (Nat.le_refl 4))⟩
  · exact ⟨_, rfl, expand192_expanded hkey rfl (by omega)
      (loadKey_expanded hkey (by omega) (Nat.le_refl 6))⟩
  · exact ⟨_, rfl, expand256_expanded hkey rfl (by omega)
      (loadKey_expanded hkey (by omega) (Nat.le_refl 8))⟩

/-! ## Keys for the way back -/

theorem length_swap (rk : List U32) (i j : Nat) :
    (swap rk i j).length = rk.length := by
  rw [swap, List.length_set, List.length_set]

theorem wordAt_swap {rk : List U32} {i j : Nat} (hi : i < rk.length)
    (hj : j < rk.length) (k : Nat) :
    wordAt (swap rk i j) k =
      wordAt rk (if k = j then i else if k = i then j else k) := by
  have hset : j < (rk.set i (wordAt rk j)).length := by
    rwa [List.length_set]
  rw [swap, wordAt_set hset, wordAt_set hi]
  split_ifs <;> rfl

def exchanged (a b x : Nat) : Nat :=
  if x = a then b else if x = b then a else x

theorem wordAt_swap_column (rk : List U32) {a b : Nat}
    (ha : 4 * a + 4 ≤ rk.length) (hb : 4 * b + 4 ≤ rk.length) (x : Nat)
    (d c : Fin 4) :
    wordAt (swap rk (4 * a + d.val) (4 * b + d.val)) (4 * x + c.val) =
      wordAt rk (4 * (if c = d then exchanged a b x else x) + c.val) := by
  rw [wordAt_swap (by omega) (by omega)]
  congr 1
  by_cases hcd : c = d
  · subst hcd
    rw [if_pos rfl, exchanged]
    split_ifs <;> omega
  · rw [if_neg hcd, if_neg (by omega), if_neg (by omega)]

theorem length_swapKeys (rk : List U32) (i j : Nat) :
    (swapKeys rk i j).length = rk.length := by
  simp only [swapKeys, length_swap]

theorem wordAt_swapKeys {rk : List U32} {a b : Nat}
    (ha : 4 * a + 4 ≤ rk.length) (hb : 4 * b + 4 ≤ rk.length) (x : Nat)
    (c : Fin 4) :
    wordAt (swapKeys rk (4 * a) (4 * b)) (4 * x + c.val) =
      wordAt rk (4 * exchanged a b x + c.val) := by
  have hrow {rk' : List U32} (hlength : rk'.length = rk.length) (x : Nat)
      (d : Fin 4) := wordAt_swap_column rk' (by rw [hlength]; exact ha)
        (by rw [hlength]; exact hb) x d c
  apply (hrow (by simp only [length_swap]) x 3).trans
  apply (hrow (by simp only [length_swap]) _ 2).trans
  apply (hrow (by simp only [length_swap]) _ 1).trans
  apply (hrow rfl _ 0).trans
  fin_cases c <;> rfl

theorem length_invertOrder (rk : List U32) (i j : Nat) :
    (invertOrder rk i j).length = rk.length := by
  induction rk, i, j using invertOrder.induct with
  | case1 rk i j hlt ih =>
      rw [invertOrder, if_pos hlt, ih, length_swapKeys]
  | case2 rk i j hlt => rw [invertOrder, if_neg hlt]

theorem wordAt_invertOrder (rk : List U32) {a b : Nat} (hab : a ≤ b + 1)
    (hb : 4 * b + 4 ≤ rk.length) (x : Nat) (c : Fin 4) :
    wordAt (invertOrder rk (4 * a) (4 * b)) (4 * x + c.val) =
      wordAt rk (4 * (if a ≤ x ∧ x ≤ b then a + b - x else x) + c.val) := by
  induction hd : b - a using Nat.strong_induction_on generalizing rk a b with
  | _ d ih =>
      rw [invertOrder]
      by_cases hlt : 4 * a < 4 * b
      · rw [if_pos hlt]
        have hb' : 4 * (b - 1) + 4 ≤ (swapKeys rk (4 * a) (4 * b)).length := by
          rw [length_swapKeys]
          omega
        have hrest := ih (b - 1 - (a + 1)) (by omega) _ (by omega) hb'
          rfl
        rw [wordAt_swapKeys (by omega) hb] at hrest
        have hplace : exchanged a b (if a + 1 ≤ x ∧ x ≤ b - 1
            then a + 1 + (b - 1) - x else x) =
              if a ≤ x ∧ x ≤ b then a + b - x else x := by
          rw [exchanged]
          split_ifs <;> omega
        have hindex : 4 * (b - 1) = 4 * b - 4 := by omega
        rw [hplace, hindex] at hrest
        exact hrest
      · rw [if_neg hlt]
        congr 2
        split_ifs <;> omega

/-! ## Mixing the inner keys -/

theorem column_invMixWord (w : U32) :
    column (invMixWord w) = invMixColumn (column w) := by
  rw [invMixWord, ← column_lowest w]
  apply (column_td fun r => te4 (column w r)).trans
  simp only [lookup_td4_te4]

theorem length_invMixAt (rk : List U32) (o : Nat) :
    (invMixAt rk o).length = rk.length :=
  List.length_set

theorem wordAt_invMixAt (rk : List U32) {i : Nat}
    (hi : 4 * i + 4 ≤ rk.length) (x : Nat) (d c : Fin 4) :
    wordAt (invMixAt rk (4 * i + d.val)) (4 * x + c.val) =
      if x = i ∧ c = d then invMixWord (wordAt rk (4 * x + c.val))
      else wordAt rk (4 * x + c.val) := by
  rw [invMixAt, wordAt_set (by omega)]
  by_cases heq : x = i ∧ c = d
  · rw [heq.1, heq.2, if_pos rfl, if_pos ⟨rfl, rfl⟩]
  · rw [if_neg heq, if_neg (by omega)]

theorem length_invMixKey (rk : List U32) (o : Nat) :
    (invMixKey rk o).length = rk.length := by
  simp only [invMixKey, length_invMixAt]

theorem wordAt_invMixKey {rk : List U32} {i : Nat}
    (hi : 4 * i + 4 ≤ rk.length) (x : Nat) (c : Fin 4) :
    wordAt (invMixKey rk (4 * i)) (4 * x + c.val) =
      if x = i then invMixWord (wordAt rk (4 * x + c.val))
      else wordAt rk (4 * x + c.val) := by
  have hword {rk' : List U32} (hlength : rk'.length = rk.length)
      (d : Fin 4) := wordAt_invMixAt rk' (by rw [hlength]; exact hi)
        x d c
  have h₀ : wordAt (invMixAt rk (4 * i)) (4 * x + c.val) = _ := hword rfl 0
  have h₁ : wordAt (invMixAt (invMixAt rk (4 * i)) (4 * i + 1))
      (4 * x + c.val) = _ := hword (by simp only [length_invMixAt]) 1
  have h₂ : wordAt (invMixAt (invMixAt (invMixAt rk (4 * i)) (4 * i + 1))
      (4 * i + 2)) (4 * x + c.val) = _ :=
    hword (by simp only [length_invMixAt]) 2
  apply (hword (by simp only [length_invMixAt]) 3).trans
  rw [h₂, h₁, h₀]
  by_cases hx : x = i
  · fin_cases c <;> simp [hx]
  · simp only [hx, false_and, if_false]

theorem wordAt_invMixKeys (left : Nat) {i : Nat} (rk : List U32)
    (h : 4 * (i + left) ≤ rk.length) (x : Nat) (c : Fin 4) :
    wordAt (invMixKeys left i rk) (4 * x + c.val) =
      if i ≤ x ∧ x < i + left then invMixWord (wordAt rk (4 * x + c.val))
      else wordAt rk (4 * x + c.val) := by
  induction left generalizing i rk with
  | zero =>
      rw [invMixKeys, if_neg (by omega)]
  | succ left ih =>
      have hlength : 4 * (i + 1 + left) ≤
          (invMixKey rk (4 * i)).length := by
        rw [length_invMixKey]
        omega
      rw [invMixKeys, ih _ hlength, wordAt_invMixKey (by omega)]
      split_ifs <;> first | rfl | omega

def roundKeyAt (rk : List U32) : Nat → State :=
  roundKey fun i => column (wordAt rk i)

theorem Expanded.roundKeyAt_eq {nk limit n : Nat} {userKey : List Byte}
    {old rk : List U32} (h : Expanded nk userKey old limit rk n) {i : Nat}
    (hi : 4 * i + 4 ≤ n) :
    roundKeyAt rk i = roundKey (expandKey nk userKey) i := by
  funext c
  exact h.words (4 * i + c.val) (by omega)

theorem aesSetDecryptKey_reversed {nk : Nat} (hnk : KeySize nk)
    (userKey : List Byte) (key : AesKey)
    (hkey : 4 * (nk + 7) ≤ key.rdKey.length) :
    ∃ rk, aesSetDecryptKey userKey (32 * nk) key = .ok ⟨rk, nk + 6⟩ ∧
      ∀ i ≤ nk + 6, roundKeyAt rk i =
        (inverseCipher (lookup td4)).reverseKeys
          (roundKey (expandKey nk userKey)) (nk + 5) i := by
  obtain ⟨rk, hset, hexpanded⟩ :=
    aesSetEncryptKey_expanded hnk userKey key hkey
  have hlength : 4 * (nk + 7) ≤ rk.length := by
    rwa [hexpanded.length_eq]
  refine ⟨_, by rw [aesSetDecryptKey, hset]; rfl, ?_⟩
  intro i hi
  have hword (c : Fin 4) := wordAt_invertOrder rk (a := 0)
    (b := nk + 6) (by omega) (by omega) i c
  rw [if_pos ⟨Nat.zero_le i, hi⟩, Nat.zero_add] at hword
  have hkeys := hexpanded.roundKeyAt_eq (i := nk + 6 - i) (by omega)
  funext c
  have hmix := wordAt_invMixKeys (nk + 6 - 1) (i := 1)
    (invertOrder rk (4 * 0) (4 * (nk + 6)))
    (by rw [length_invertOrder]; omega) i c
  rw [hword c] at hmix
  rw [RoundCipher.reverseKeys]
  change column (wordAt _ (4 * i + c.val)) = _
  rw [hmix]
  split_ifs with hinner hends hends
  · omega
  · rw [column_invMixWord, ← hkeys]
    rfl
  · rw [← hkeys]
    rfl
  · omega

end StarsGaming.Tools
