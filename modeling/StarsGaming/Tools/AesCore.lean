import StarsGaming.Tools.AesKeys

/-!
# The block cipher

Blocks are encrypted and decrypted two rounds a turn with the tables.  The
result is that of the cipher as its standard describes it.
-/

namespace StarsGaming.Tools

open Foundation Foundation.Rijndael

def putU32 (st : U32) : List Byte :=
  [(st >>> 24).setWidth 8, (st >>> 16).setWidth 8, (st >>> 8).setWidth 8,
    st.setWidth 8]

structure Words where
  s0 : U32
  s1 : U32
  s2 : U32
  s3 : U32

def loadBlock (input : List Byte) (rk : List U32) : Words :=
  ⟨getU32 input ^^^ wordAt rk 0, getU32 (input.drop 4) ^^^ wordAt rk 1,
    getU32 (input.drop 8) ^^^ wordAt rk 2,
    getU32 (input.drop 12) ^^^ wordAt rk 3⟩

def fullRounds (round : Nat → Words → Words) :
    Nat → Nat → Words → Nat × Words
  | 0, o, s => (o + 8, round (o + 4) s)
  | r + 1, o, s =>
      let t := round (o + 4) s
      let o := o + 8
      fullRounds round r o (round o t)

def encryptWord (a b c d k : U32) : U32 :=
  lookup te0 ((a >>> 24).setWidth 8) ^^^ lookup te1 ((b >>> 16).setWidth 8) ^^^
    lookup te2 ((c >>> 8).setWidth 8) ^^^ lookup te3 (d.setWidth 8) ^^^ k

def encryptRound (rk : List U32) (o : Nat) (s : Words) : Words :=
  ⟨encryptWord s.s0 s.s1 s.s2 s.s3 (wordAt rk o),
    encryptWord s.s1 s.s2 s.s3 s.s0 (wordAt rk (o + 1)),
    encryptWord s.s2 s.s3 s.s0 s.s1 (wordAt rk (o + 2)),
    encryptWord s.s3 s.s0 s.s1 s.s2 (wordAt rk (o + 3))⟩

def encryptLast (a b c d k : U32) : U32 :=
  substituted ((a >>> 24).setWidth 8) ((b >>> 16).setWidth 8)
    ((c >>> 8).setWidth 8) (d.setWidth 8) ^^^ k

def aesEncrypt (input : List Byte) (key : AesKey) : List Byte :=
  let rk := key.rdKey
  let (o, t) := fullRounds (encryptRound rk) (key.rounds / 2 - 1) 0
    (loadBlock input rk)
  putU32 (encryptLast t.s0 t.s1 t.s2 t.s3 (wordAt rk o)) ++
    putU32 (encryptLast t.s1 t.s2 t.s3 t.s0 (wordAt rk (o + 1))) ++
    putU32 (encryptLast t.s2 t.s3 t.s0 t.s1 (wordAt rk (o + 2))) ++
    putU32 (encryptLast t.s3 t.s0 t.s1 t.s2 (wordAt rk (o + 3)))

def decryptWord (a b c d k : U32) : U32 :=
  lookup td0 ((a >>> 24).setWidth 8) ^^^ lookup td1 ((b >>> 16).setWidth 8) ^^^
    lookup td2 ((c >>> 8).setWidth 8) ^^^ lookup td3 (d.setWidth 8) ^^^ k

def decryptRound (rk : List U32) (o : Nat) (s : Words) : Words :=
  ⟨decryptWord s.s0 s.s3 s.s2 s.s1 (wordAt rk o),
    decryptWord s.s1 s.s0 s.s3 s.s2 (wordAt rk (o + 1)),
    decryptWord s.s2 s.s1 s.s0 s.s3 (wordAt rk (o + 2)),
    decryptWord s.s3 s.s2 s.s1 s.s0 (wordAt rk (o + 3))⟩

def decryptLast (a b c d k : U32) : U32 :=
  ((lookup td4 ((a >>> 24).setWidth 8)).setWidth 32 <<< 24) ^^^
    ((lookup td4 ((b >>> 16).setWidth 8)).setWidth 32 <<< 16) ^^^
    ((lookup td4 ((c >>> 8).setWidth 8)).setWidth 32 <<< 8) ^^^
    (lookup td4 (d.setWidth 8)).setWidth 32 ^^^ k

def aesDecrypt (input : List Byte) (key : AesKey) : List Byte :=
  let rk := key.rdKey
  let (o, t) := fullRounds (decryptRound rk) (key.rounds / 2 - 1) 0
    (loadBlock input rk)
  putU32 (decryptLast t.s0 t.s3 t.s2 t.s1 (wordAt rk o)) ++
    putU32 (decryptLast t.s1 t.s0 t.s3 t.s2 (wordAt rk (o + 1))) ++
    putU32 (decryptLast t.s2 t.s1 t.s0 t.s3 (wordAt rk (o + 2))) ++
    putU32 (decryptLast t.s3 t.s2 t.s1 t.s0 (wordAt rk (o + 3)))

/-! ## Words and states -/

namespace Words

def word (s : Words) : Fin 4 → U32 :=
  ![s.s0, s.s1, s.s2, s.s3]

def state (s : Words) : State :=
  fun c => column (s.word c)

end Words

theorem putU32_eq (st : U32) :
    putU32 st = (List.finRange 4).map (column st) := by
  rw [putU32, ← column_lowest]
  rfl

theorem putU32_words (w : Fin 4 → U32) :
    putU32 (w 0) ++ putU32 (w 1) ++ putU32 (w 2) ++ putU32 (w 3) =
      bytesOf fun c => column (w c) := by
  simp only [putU32_eq]
  rfl

theorem loadBlock_state (input : List Byte) (rk : List U32) :
    (loadBlock input rk).state =
      addRoundKey (stateOf input) (roundKeyAt rk 0) := by
  have hword (c : Fin 4) : (loadBlock input rk).word c =
      getU32 (input.drop (4 * c.val)) ^^^ wordAt rk (4 * 0 + c.val) := by
    fin_cases c <;> rfl
  funext c
  rw [Words.state, hword, column_xor, column_getU32_drop]
  rfl

theorem column_encryptWord (w : Fin 4 → U32) (k : U32) :
    column (encryptWord (w 0) (w 1) (w 2) (w 3) k) =
      addWord (mixColumn fun r => subByte (column (w r) r)) (column k) := by
  rw [encryptWord, ← column_lowest (w 3), column_xor]
  congr 1
  exact column_te fun r => column (w r) r

theorem column_encryptLast (w : Fin 4 → U32) (k : U32) :
    column (encryptLast (w 0) (w 1) (w 2) (w 3) k) =
      addWord (fun r => subByte (column (w r) r)) (column k) := by
  rw [encryptLast, ← column_lowest (w 3), column_xor]
  congr 1
  exact column_te_masked fun r => column (w r) r

theorem column_decryptWord (w : Fin 4 → U32) (k : U32) :
    column (decryptWord (w 0) (w 1) (w 2) (w 3) k) =
      addWord (invMixColumn fun r => lookup td4 (column (w r) r))
        (column k) := by
  rw [decryptWord, ← column_lowest (w 3), column_xor]
  congr 1
  exact column_td fun r => column (w r) r

theorem column_decryptLast (w : Fin 4 → U32) (k : U32) :
    column (decryptLast (w 0) (w 1) (w 2) (w 3) k) =
      addWord (fun r => lookup td4 (column (w r) r)) (column k) := by
  rw [decryptLast, ← column_lowest (w 3), column_xor]
  congr 1
  exact column_shifts fun r => lookup td4 (column (w r) r)

/-! ## Rounds -/

theorem encryptRound_state (rk : List U32) (n : Nat) (s : Words) :
    (encryptRound rk (4 * n) s).state =
      cipher.addKey (cipher.mix (cipher.substitute s.state))
        (roundKeyAt rk n) := by
  have hword (c : Fin 4) : (encryptRound rk (4 * n) s).word c =
      encryptWord (s.word (c + 0)) (s.word (c + 1)) (s.word (c + 2))
        (s.word (c + 3)) (wordAt rk (4 * n + c.val)) := by
    fin_cases c <;> rfl
  funext c
  rw [Words.state, hword]
  exact column_encryptWord (fun r => s.word (c + r)) _

theorem decryptRound_state (rk : List U32) (n : Nat) (s : Words) :
    (decryptRound rk (4 * n) s).state =
      (inverseCipher (lookup td4)).addKey
        ((inverseCipher (lookup td4)).mix
          ((inverseCipher (lookup td4)).substitute s.state))
        (roundKeyAt rk n) := by
  have hword (c : Fin 4) : (decryptRound rk (4 * n) s).word c =
      decryptWord (s.word (c - 0)) (s.word (c - 1)) (s.word (c - 2))
        (s.word (c - 3)) (wordAt rk (4 * n + c.val)) := by
    fin_cases c <;> rfl
  funext c
  rw [Words.state, hword]
  exact column_decryptWord (fun r => s.word (c - r)) _

theorem fullRounds_eq {C : RoundCipher State} {keys : Nat → State}
    {round : Nat → Words → Words}
    (hround : ∀ n s, (round (4 * n) s).state =
      C.addKey (C.mix (C.substitute s.state)) (keys n))
    {block : State} (r : Nat) {m : Nat} {s : Words}
    (hs : s.state = C.rounds keys (2 * m) block) :
    (fullRounds round r (8 * m) s).1 = 4 * (2 * (m + r) + 2) ∧
      (fullRounds round r (8 * m) s).2.state =
        C.rounds keys (2 * (m + r) + 1) block := by
  have hodd : (round (8 * m + 4) s).state =
      C.rounds keys (2 * m + 1) block := by
    rw [show 8 * m + 4 = 4 * (2 * m + 1) by omega, hround, hs,
      RoundCipher.rounds]
  induction r generalizing m s with
  | zero => exact ⟨by rw [fullRounds]; omega, hodd⟩
  | succ r ih =>
      have heven : (round (8 * m + 8) (round (8 * m + 4) s)).state =
          C.rounds keys (2 * (m + 1)) block := by
        rw [show 8 * m + 8 = 4 * (2 * m + 2) by omega, hround, hodd]
        rfl
      have hnext : (round (8 * (m + 1) + 4)
          (round (8 * m + 8) (round (8 * m + 4) s))).state =
            C.rounds keys (2 * (m + 1) + 1) block := by
        rw [show 8 * (m + 1) + 4 = 4 * (2 * (m + 1) + 1) by omega, hround,
          heven, RoundCipher.rounds]
      have hrest := ih heven hnext
      rw [show m + (r + 1) = m + 1 + r by omega]
      exact hrest

/-! ## Encryption and decryption -/

theorem aesEncrypt_eq {key : AesKey} {r : Nat}
    (h : key.rounds = 2 * (r + 1)) (input : List Byte) :
    aesEncrypt input key =
      bytesOf (cipher.run (roundKeyAt key.rdKey) (2 * r + 1)
        (stateOf input)) := by
  have hturns : key.rounds / 2 - 1 = r := by omega
  obtain ⟨hend, hstate⟩ := fullRounds_eq (m := 0) (C := cipher)
    (encryptRound_state key.rdKey) r (loadBlock_state input key.rdKey)
  rw [Nat.mul_zero, Nat.zero_add] at hend hstate
  rw [aesEncrypt, hturns]
  generalize fullRounds (encryptRound key.rdKey) r 0
    (loadBlock input key.rdKey) = result at hend hstate ⊢
  obtain ⟨o, t⟩ := result
  obtain rfl : o = 4 * (2 * r + 2) := hend
  rw [RoundCipher.run, ← hstate]
  apply (putU32_words fun c => encryptLast (t.word (c + 0)) (t.word (c + 1))
    (t.word (c + 2)) (t.word (c + 3))
    (wordAt key.rdKey (4 * (2 * r + 2) + c.val))).trans
  congr 1
  funext c
  exact column_encryptLast (fun r => t.word (c + r)) _

theorem aesDecrypt_eq {key : AesKey} {r : Nat}
    (h : key.rounds = 2 * (r + 1)) (input : List Byte) :
    aesDecrypt input key =
      bytesOf ((inverseCipher (lookup td4)).run (roundKeyAt key.rdKey)
        (2 * r + 1) (stateOf input)) := by
  have hturns : key.rounds / 2 - 1 = r := by omega
  obtain ⟨hend, hstate⟩ := fullRounds_eq (m := 0)
    (C := inverseCipher (lookup td4)) (decryptRound_state key.rdKey) r
    (loadBlock_state input key.rdKey)
  rw [Nat.mul_zero, Nat.zero_add] at hend hstate
  rw [aesDecrypt, hturns]
  generalize fullRounds (decryptRound key.rdKey) r 0
    (loadBlock input key.rdKey) = result at hend hstate ⊢
  obtain ⟨o, t⟩ := result
  obtain rfl : o = 4 * (2 * r + 2) := hend
  rw [RoundCipher.run, ← hstate]
  apply (putU32_words fun c => decryptLast (t.word (c - 0)) (t.word (c - 1))
    (t.word (c - 2)) (t.word (c - 3))
    (wordAt key.rdKey (4 * (2 * r + 2) + c.val))).trans
  congr 1
  funext c
  exact column_decryptLast (fun r => t.word (c - r)) _

theorem KeySize.rounds_eq {nk : Nat} (hnk : KeySize nk) :
    ∃ r, nk + 6 = 2 * (r + 1) ∧ 2 * r + 1 = nk + 5 := by
  obtain rfl | rfl | rfl := hnk
  · exact ⟨4, rfl, rfl⟩
  · exact ⟨5, rfl, rfl⟩
  · exact ⟨6, rfl, rfl⟩

theorem aesEncrypt_expanded {nk : Nat} (hnk : KeySize nk)
    {userKey : List Byte} {old rk : List U32}
    (h : Expanded nk userKey old (4 * (nk + 7)) rk (4 * (nk + 7)))
    (input : List Byte) :
    aesEncrypt input ⟨rk, nk + 6⟩ = encrypt nk userKey input := by
  obtain ⟨r, hrounds, hfull⟩ := hnk.rounds_eq
  have hkeys : ∀ i ≤ nk + 5 + 1,
      roundKeyAt rk i = roundKey (expandKey nk userKey) i :=
    fun i hi => h.roundKeyAt_eq (by omega)
  rw [aesEncrypt_eq hrounds, hfull, encrypt, cipher.run_congr hkeys]

theorem aesDecrypt_reversed {nk : Nat} (hnk : KeySize nk)
    {userKey : List Byte} {rk : List U32}
    (h : ∀ i ≤ nk + 6, roundKeyAt rk i =
      (inverseCipher (lookup td4)).reverseKeys
        (roundKey (expandKey nk userKey)) (nk + 5) i)
    (input : List Byte) :
    aesDecrypt input ⟨rk, nk + 6⟩ =
      decrypt (lookup td4) nk userKey input := by
  obtain ⟨r, hrounds, hfull⟩ := hnk.rounds_eq
  rw [aesDecrypt_eq hrounds, hfull, decrypt,
    (inverseCipher (lookup td4)).run_congr h]

/-! ## Main results -/

/-- The unrolled loops write the words of one recurrence, and only these. -/
theorem unrolled_expansion (userKey : List Byte) (bits : Int) (key : AesKey)
    (hkey : 60 ≤ key.rdKey.length) :
    match aesSetEncryptKey userKey bits key with
    | .error status => status = -2 ∧ ∀ nk, KeySize nk → bits ≠ 32 * nk
    | .ok key' => ∃ nk, KeySize nk ∧ bits = 32 * nk ∧
        key'.rounds = nk + 6 ∧ key'.rdKey.length = key.rdKey.length ∧
        (∀ i < 4 * (nk + 7),
          column (wordAt key'.rdKey i) = expandKey nk userKey i) ∧
        ∀ i, 4 * (nk + 7) ≤ i →
          wordAt key'.rdKey i = wordAt key.rdKey i := by
  by_cases hbits : ∃ nk, KeySize nk ∧ bits = 32 * nk
  · obtain ⟨nk, hnk, rfl⟩ := hbits
    have hlength : 4 * (nk + 7) ≤ key.rdKey.length := by
      obtain rfl | rfl | rfl := hnk <;> omega
    obtain ⟨rk, hset, h⟩ := aesSetEncryptKey_expanded hnk userKey key hlength
    rw [hset]
    exact ⟨nk, hnk, rfl, rfl, h.length_eq, h.words, h.rest⟩
  · have hrefused : bits ≠ 128 ∧ bits ≠ 192 ∧ bits ≠ 256 := by
      refine ⟨?_, ?_, ?_⟩ <;> rintro rfl
      · exact hbits ⟨4, Or.inl rfl, rfl⟩
      · exact hbits ⟨6, Or.inr (Or.inl rfl), rfl⟩
      · exact hbits ⟨8, Or.inr (Or.inr rfl), rfl⟩
    rw [aesSetEncryptKey, if_pos hrefused]
    exact ⟨rfl, fun nk hnk heq => hbits ⟨nk, hnk, heq⟩⟩

def countingBytes (n : Nat) : List Byte :=
  (List.range n).map (BitVec.ofNat 8)

def usedKey : AesKey :=
  ⟨(List.range 60).map (BitVec.ofNat 32), 3⟩

theorem unrolled_expansion_192 :
    match aesSetEncryptKey (countingBytes 24) 192 usedKey with
    | .error status => status = -2 ∧ ∀ nk, KeySize nk → (192 : Int) ≠ 32 * nk
    | .ok key' => ∃ nk, KeySize nk ∧ (192 : Int) = 32 * nk ∧
        key'.rounds = nk + 6 ∧ key'.rdKey.length = usedKey.rdKey.length ∧
        (∀ i < 4 * (nk + 7),
          column (wordAt key'.rdKey i) = expandKey nk (countingBytes 24) i) ∧
        ∀ i, 4 * (nk + 7) ≤ i →
          wordAt key'.rdKey i = wordAt usedKey.rdKey i :=
  unrolled_expansion (countingBytes 24) 192 usedKey (by decide)

/-- The tables compute the standard's cipher. -/
theorem tables_encrypt {nk : Nat} (hnk : KeySize nk) (userKey : List Byte)
    (key : AesKey) (hkey : 4 * (nk + 7) ≤ key.rdKey.length) :
    ∃ key', aesSetEncryptKey userKey (32 * nk) key = .ok key' ∧
      ∀ input, aesEncrypt input key' = encrypt nk userKey input := by
  obtain ⟨rk, hset, h⟩ := aesSetEncryptKey_expanded hnk userKey key hkey
  exact ⟨_, hset, aesEncrypt_expanded hnk h⟩

theorem tables_encrypt_128 :
    ∃ key', aesSetEncryptKey (countingBytes 16) (32 * (4 : Nat)) usedKey =
        .ok key' ∧
      ∀ input, aesEncrypt input key' = encrypt 4 (countingBytes 16) input :=
  tables_encrypt (Or.inl rfl) (countingBytes 16) usedKey (by decide)

/-- Encryption and decryption undo each other. -/
theorem decryption_inverts {nk : Nat} (hnk : KeySize nk)
    (userKey : List Byte) (key key' : AesKey)
    (hkey : 4 * (nk + 7) ≤ key.rdKey.length)
    (hkey' : 4 * (nk + 7) ≤ key'.rdKey.length) :
    ∃ enc dec, aesSetEncryptKey userKey (32 * nk) key = .ok enc ∧
      aesSetDecryptKey userKey (32 * nk) key' = .ok dec ∧
      ∀ block, block.length = 16 →
        aesDecrypt (aesEncrypt block enc) dec = block ∧
        aesEncrypt (aesDecrypt block dec) enc = block := by
  obtain ⟨rk, hset, h⟩ := aesSetEncryptKey_expanded hnk userKey key hkey
  obtain ⟨rk', hset', h'⟩ :=
    aesSetDecryptKey_reversed hnk userKey key' hkey'
  refine ⟨_, _, hset, hset', ?_⟩
  intro block hblock
  simp only [aesEncrypt_expanded hnk h, aesDecrypt_reversed hnk h']
  exact ⟨decrypt_encrypt te4_inverted nk userKey hblock,
    encrypt_decrypt te4_inverted nk userKey hblock⟩

theorem decryption_inverts_256 :
    ∃ enc dec, aesSetEncryptKey (countingBytes 32) (32 * (8 : Nat)) usedKey =
        .ok enc ∧
      aesSetDecryptKey (countingBytes 32) (32 * (8 : Nat)) usedKey = .ok dec ∧
      ∀ block, block.length = 16 →
        aesDecrypt (aesEncrypt block enc) dec = block ∧
        aesEncrypt (aesDecrypt block dec) enc = block :=
  decryption_inverts (Or.inr (Or.inr rfl)) (countingBytes 32) usedKey usedKey
    (by decide) (by decide)

end StarsGaming.Tools
