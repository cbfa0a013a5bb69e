import StarsGaming.Lobby.Tokens
import StarsGaming.Tools.Base64

/-!
# Token encryption over buffers

`AES_ecb128_encrypt` and `AES_ecb128_decrypt` with the buffers they allocate.
Decryption writes whole blocks only and sets a zero behind the decoded length;
what lies between is what the heap left there.
-/

namespace StarsGaming.Lobby

open Foundation Tools

namespace Aes

variable (aes : Aes)

/-! ## Buffers -/

/-- `AES_ecb128_encrypt` of blocks; what is left over is filled up. -/
def ecb128EncryptTo (key : List Byte) : Nat → List Byte → Buffer →
    Option Buffer
  | 0, left, out =>
      if left = [] then some out
      else Cell.store .aes (aes.encrypt key
        (left ++ List.replicate (aesBlockSize - left.length) 0)) out
  | round + 1, text, out => do
      let out ← Cell.store .aes (aes.encrypt key (text.take aesBlockSize)) out
      let rest ← ecb128EncryptTo key round (text.drop aesBlockSize)
        (out.drop aesBlockSize)
      some (out.take aesBlockSize ++ rest)

/-- `AES_ecb128_decrypt` of blocks, with the cells that are read for it. -/
def ecb128DecryptTo (key : List Byte) :
    Nat → Buffer → Buffer → Option (Buffer × Buffer)
  | 0, _, out => some (out, [])
  | round + 1, input, out =>
      if input.length < aesBlockSize then none
      else do
        let block := input.take aesBlockSize
        let out ← Cell.store .aes (aes.decrypt key (Cell.values block)) out
        let (rest, read) ← ecb128DecryptTo key round (input.drop aesBlockSize)
          (out.drop aesBlockSize)
        some (out.take aesBlockSize ++ rest, block ++ read)

def paddedLength (length : Nat) : Nat :=
  (length / aesBlockSize + if length % aesBlockSize ≠ 0 then 1 else 0) *
    aesBlockSize

structure Heap where
  buffer : Nat → Byte
  text : Nat → Byte
  binIn : Nat → Byte
  binOut : Nat → Byte
  nullPos : Byte

/--
A decrypted string, the characters that were looked up for it and the cells
that the cipher read.
-/
structure Plain where
  str : Buffer
  looked : List Byte
  read : Buffer

def encryptString (heap : Heap) (key text : List Byte) :
    Option (List Byte) := do
  let buffer ← aes.ecb128EncryptTo key (text.length / aesBlockSize) text
    (Cell.alloc heap.buffer (paddedLength text.length))
  base64Encode heap.text (Cell.values buffer)

def decryptString (heap : Heap) (key token : List Byte) : Option Plain := do
  let decoded ← base64Decode heap.nullPos heap.binIn 0
    (token.takeWhile fun c => c ≠ 0)
  let (out, read) ← aes.ecb128DecryptTo key (decoded.length / aesBlockSize)
    decoded.buf (Cell.alloc heap.binOut (decoded.length + 1))
  let out ← Cell.poke .terminator decoded.length 0 out
  let str ← Cell.cString out
  some ⟨str, decoded.looked, read⟩

def aesEcb128Encrypt (heap : Heap) (seed text : List Byte) :
    Option (List Byte) :=
  aes.encryptString heap (aes.getKey seed) text

def aesEcb128Decrypt (heap : Heap) (seed token : List Byte) :
    Option Plain :=
  aes.decryptString heap (aes.getKey seed) token

def aesEcb128EncryptBuiltIn (heap : Heap) (text : List Byte) :
    Option (List Byte) :=
  aes.encryptString heap (aes.getKey defaultSeed) text

def aesEcb128DecryptBuiltIn (heap : Heap) (token : List Byte) :
    Option Plain :=
  aes.decryptString heap (aes.getKey defaultSeed) token

variable {aes}

/-! ## Blocks -/

theorem exists_encrypt (key : List Byte) {block : List Byte}
    (hblock : block.length = aesBlockSize) :
    ∃ text, text.length = aesBlockSize ∧ aes.encrypt key text = block := by
  let encryptBlock : List.Vector Byte aesBlockSize →
      List.Vector Byte aesBlockSize :=
    fun text => ⟨aes.encrypt key text.1, aes.length_encrypt key _ text.2⟩
  have hinjective : Function.Injective encryptBlock := by
    intro first second heq
    have hvalue : aes.encrypt key first.1 = aes.encrypt key second.1 :=
      congrArg Subtype.val heq
    apply Subtype.ext
    rw [← aes.decrypt_encrypt key _ first.2, hvalue,
      aes.decrypt_encrypt key _ second.2]
  have hfinite : Finite (List.Vector Byte aesBlockSize) := by
    have : Finite Byte :=
      Finite.of_injective BitVec.toFin fun _ _ => BitVec.toFin_inj.mp
    infer_instance
  obtain ⟨text, htext⟩ := Finite.surjective_of_injective hinjective
    ⟨block, hblock⟩
  exact ⟨text.1, text.2, congrArg Subtype.val htext⟩

theorem length_decrypt (key : List Byte) {block : List Byte}
    (hblock : block.length = aesBlockSize) :
    (aes.decrypt key block).length = aesBlockSize := by
  obtain ⟨text, htext, hencrypt⟩ := aes.exists_encrypt key hblock
  rw [← hencrypt, aes.decrypt_encrypt key _ htext, htext]

theorem take_drop_block {text : List Byte} {round : Nat}
    (hround : text.length / aesBlockSize = round + 1) :
    (text.take aesBlockSize).length = aesBlockSize ∧
      (text.drop aesBlockSize).length / aesBlockSize = round := by
  simp only [aesBlockSize] at hround ⊢
  rw [List.length_take, List.length_drop]
  omega

theorem ecb128EncryptTo_eq (key : List Byte) {round : Nat} {text : List Byte}
    (out : Buffer) (hround : text.length / aesBlockSize = round) :
    aes.ecb128EncryptTo key round text out =
      Cell.store .aes (aes.encryptBlocks key round text) out := by
  induction round generalizing text out with
  | zero =>
      rw [ecb128EncryptTo, encryptBlocks]
      split
      · simp [Cell.store, Cell.written]
      · rfl
  | succ round ih =>
      obtain ⟨hblock, hrest⟩ := take_drop_block hround
      have hlength := aes.length_encrypt key _ hblock
      have happend := Cell.store_append Writer.aes
        (aes.encrypt key (text.take aesBlockSize))
        (aes.encryptBlocks key round (text.drop aesBlockSize)) out
      rw [hlength] at happend
      rw [ecb128EncryptTo, encryptBlocks, happend, Option.bind_eq_bind]
      congr 1
      funext done
      rw [ih _ hrest]
      exact Option.map_eq_bind.symm

theorem paddedLength_eq (length : Nat) :
    paddedLength length = (length + 15) / 16 * 16 := by
  have hblock : aesBlockSize = 16 := rfl
  rw [paddedLength]
  split_ifs with hmod
  · rw [hblock] at hmod ⊢
    omega
  · rw [hblock] at hmod ⊢
    omega

theorem length_encryptBlocks (key : List Byte) {round : Nat}
    {text : List Byte} (hround : text.length / aesBlockSize = round) :
    (aes.encryptBlocks key round text).length = paddedLength text.length := by
  induction round generalizing text with
  | zero =>
      have hlt : text.length < aesBlockSize :=
        (Nat.div_eq_zero_iff_lt (by decide)).mp hround
      rw [encryptBlocks]
      split_ifs with hleft
      · rw [hleft]
        rfl
      · have hpos := List.length_pos_of_ne_nil hleft
        have hblock : (text ++ List.replicate
            (aesBlockSize - text.length) (0 : Byte)).length =
              aesBlockSize := by
          rw [List.length_append, List.length_replicate]
          omega
        rw [aes.length_encrypt key _ hblock, paddedLength_eq]
        simp only [aesBlockSize] at hlt ⊢
        omega
  | succ round ih =>
      obtain ⟨hblock, hrest⟩ := take_drop_block hround
      rw [encryptBlocks, List.length_append, aes.length_encrypt key _ hblock,
        ih hrest, List.length_drop, paddedLength_eq, paddedLength_eq]
      simp only [aesBlockSize] at hround ⊢
      omega

theorem length_decryptBlocks (key : List Byte) {round : Nat}
    {text : List Byte} (hround : round * aesBlockSize ≤ text.length) :
    (aes.decryptBlocks key round text).length = round * aesBlockSize := by
  induction round generalizing text with
  | zero => rw [decryptBlocks, List.length_nil, Nat.zero_mul]
  | succ round ih =>
      rw [Nat.add_mul, Nat.one_mul] at hround ⊢
      have hblock : (text.take aesBlockSize).length = aesBlockSize := by
        rw [List.length_take]
        omega
      rw [decryptBlocks, List.length_append, length_decrypt key hblock,
        ih (by
          rw [List.length_drop]
          omega), Nat.add_comm]

theorem ecb128DecryptTo_eq (key : List Byte) {round : Nat}
    {input out : Buffer} (hinput : round * aesBlockSize ≤ input.length)
    (hout : round * aesBlockSize ≤ out.length) :
    aes.ecb128DecryptTo key round input out =
      some (Cell.written .aes
            (aes.decryptBlocks key round (Cell.values input)) ++
          out.drop (round * aesBlockSize),
        input.take (round * aesBlockSize)) := by
  induction round generalizing input out with
  | zero => simp [ecb128DecryptTo, decryptBlocks, Cell.written]
  | succ round ih =>
      rw [Nat.add_mul, Nat.one_mul] at hinput hout ⊢
      have hvalues : (Cell.values (input.take aesBlockSize)).length =
          aesBlockSize := by
        rw [Cell.values, List.length_map, List.length_take]
        omega
      have hblock := aes.length_decrypt key hvalues
      have hstore := @Cell.store_of_le _ Writer.aes
        (aes.decrypt key (Cell.values (input.take aesBlockSize))) out
        (by omega)
      have hlength := Cell.length_written Writer.aes
        (aes.decrypt key (Cell.values (input.take aesBlockSize)))
      rw [hblock] at hstore hlength
      have hinput' : round * aesBlockSize ≤
          (input.drop aesBlockSize).length := by
        rw [List.length_drop]
        omega
      have hout' : round * aesBlockSize ≤ (out.drop aesBlockSize).length := by
        rw [List.length_drop]
        omega
      rw [ecb128DecryptTo, if_neg (by omega)]
      dsimp only
      rw [hstore, Option.bind_eq_bind, Option.bind_some,
        List.drop_left' hlength, List.take_left' hlength, ih hinput' hout',
        Option.bind_eq_bind, Option.bind_some, decryptBlocks,
        Cell.written_append, List.append_assoc, List.drop_drop, Cell.values,
        Cell.values, Cell.values, List.map_take, List.map_drop,
        Nat.add_comm (round * aesBlockSize), List.take_add]

/-! ## Strings -/

def tokenText (token : List Byte) : List Byte :=
  token.takeWhile fun c => c ≠ 0

def tokenLength (token : List Byte) : Nat :=
  decodedLength 0 (tokenText token)

def blocksLength (token : List Byte) : Nat :=
  tokenLength token / aesBlockSize * aesBlockSize

def tokenBlocks (aes : Aes) (heap : Heap) (key token : List Byte) :
    List Byte :=
  aes.decryptBlocks key (tokenLength token / aesBlockSize)
    (contents heap.nullPos heap.binIn (tokenText token))

def plainCells (aes : Aes) (heap : Heap) (key token : List Byte) : Buffer :=
  Cell.written .aes (aes.tokenBlocks heap key token) ++
    Cell.alloc
      (fun i => heap.binOut (blocksLength token + i))
      (tokenLength token % aesBlockSize)

theorem decodedLength_le (strEn : List Byte) :
    decodedLength 0 strEn ≤ strEn.length / 4 * 3 := by
  rw [decodedLength]
  split_ifs <;> omega

section

variable (heap : Heap) (key token : List Byte)

theorem rounds_le :
    blocksLength token ≤
      (contents heap.nullPos heap.binIn (tokenText token)).length := by
  rw [length_contents]
  exact (Nat.div_mul_le_self _ _).trans (decodedLength_le (tokenText token))

theorem length_plainCells :
    (aes.plainCells heap key token).length = tokenLength token := by
  rw [plainCells, List.length_append, Cell.length_written,
    Cell.length_alloc, tokenBlocks,
    length_decryptBlocks key (rounds_le heap token)]
  exact Nat.div_add_mod' _ _

def readCells (heap : Heap) (token : List Byte) : Buffer :=
  (cells heap.nullPos heap.binIn (tokenText token)).take (blocksLength token)

theorem decryptTo_plainCells :
    ∃ last, aes.ecb128DecryptTo key (tokenLength token / aesBlockSize)
        (cells heap.nullPos heap.binIn (tokenText token))
        (Cell.alloc heap.binOut (tokenLength token + 1)) =
      some (aes.plainCells heap key token ++ [last],
        readCells heap token) := by
  have hdiv := Nat.div_add_mod' (tokenLength token) aesBlockSize
  have hvalues := values_cells heap.nullPos heap.binIn (tokenText token)
  have hinput := rounds_le heap token
  rw [← hvalues, Cell.values, List.length_map] at hinput
  have hrest : tokenLength token + 1 -
      tokenLength token / aesBlockSize * aesBlockSize =
        tokenLength token % aesBlockSize + 1 := by
    omega
  have hout := @ecb128DecryptTo_eq aes key _ _
    (Cell.alloc heap.binOut (tokenLength token + 1)) hinput (by
      rw [Cell.length_alloc]
      omega)
  rw [Cell.alloc_drop heap.binOut (by omega), hrest, hvalues,
    Cell.alloc_add _ (tokenLength token % aesBlockSize) 1,
    ← List.append_assoc] at hout
  exact ⟨_, hout⟩

theorem decryptString_eq :
    aes.decryptString heap key token =
      some ⟨(aes.plainCells heap key token).takeWhile Cell.nonzero,
        consulted (tokenText token), readCells heap token⟩ := by
  have hbuf := base64Decode_eq heap.nullPos heap.binIn 0 (tokenText token)
  obtain ⟨last, hout⟩ := aes.decryptTo_plainCells heap key token
  have hstr := Cell.cString_poke_last Writer.terminator
    (aes.plainCells heap key token) last
  rw [length_plainCells] at hstr
  change (base64Decode _ _ _ (tokenText token)).bind _ = _
  rw [hbuf, Option.bind_some]
  change (aes.ecb128DecryptTo key (tokenLength token / aesBlockSize) _
    (Cell.alloc heap.binOut (tokenLength token + 1))).bind _ = _
  rw [hout, Option.bind_some]
  change ((Cell.poke Writer.terminator (tokenLength token) 0 _).bind fun out =>
    (Cell.cString out).bind _) = _
  rw [← Option.bind_assoc, hstr, Option.bind_some]

end

/-! ## Round trip -/

theorem encryptString_eq (heap : Heap) (key text : List Byte) :
    aes.encryptString heap key text =
      some (Base64.encode
        (aes.encryptBlocks key (text.length / aesBlockSize) text)) := by
  have hlength := aes.length_encryptBlocks key
    (show text.length / aesBlockSize = _ from rfl)
  have hstore := @Cell.store_of_le _ Writer.aes
    (aes.encryptBlocks key (text.length / aesBlockSize) text)
    (Cell.alloc heap.buffer (paddedLength text.length)) (by
      rw [Cell.length_alloc, hlength])
  have hrest : (Cell.alloc heap.buffer (paddedLength text.length) :
      Buffer).drop (aes.encryptBlocks key (text.length / aesBlockSize)
        text).length = [] := by
    rw [List.drop_eq_nil_iff, Cell.length_alloc, hlength]
  rw [encryptString, ecb128EncryptTo_eq key _ rfl, hstore, hrest,
    Option.bind_eq_bind, Option.bind_some, List.append_nil,
    Cell.values_written, base64Encode_eq]

theorem decryptBlocks_append (key : List Byte) {round : Nat}
    {text : List Byte} (junk : List Byte)
    (hround : round * aesBlockSize ≤ text.length) :
    aes.decryptBlocks key round (text ++ junk) =
      aes.decryptBlocks key round text := by
  induction round generalizing text with
  | zero => rfl
  | succ round ih =>
      rw [Nat.add_mul, Nat.one_mul] at hround
      have hle : aesBlockSize ≤ text.length := by omega
      rw [decryptBlocks, decryptBlocks, List.take_append_of_le_length hle,
        List.drop_append_of_le_length hle, ih (by
          rw [List.length_drop]
          omega)]

theorem tokenText_encode (bytes : List Byte) :
    tokenText (Base64.encode bytes) = Base64.encode bytes :=
  List.takeWhile_eq_self_iff.mpr fun _ hmem =>
    decide_eq_true (isCode_of_mem_encode hmem).ne_zero

theorem tokenLength_encode (bytes : List Byte) :
    tokenLength (Base64.encode bytes) = bytes.length := by
  rw [tokenLength, tokenText_encode, decodedLength_encode]

theorem plainCells_encode (heap : Heap) (key text : List Byte) :
    ∃ count, Cell.values (aes.plainCells heap key (Base64.encode
        (aes.encryptBlocks key (text.length / aesBlockSize) text))) =
      text ++ List.replicate count 0 := by
  obtain ⟨count, hcount⟩ := aes.decryptBlocks_encryptBlocks key
    (show text.length / aesBlockSize = _ from rfl)
  obtain ⟨junk, hjunk⟩ := contents_encode heap.nullPos heap.binIn
    (aes.encryptBlocks key (text.length / aesBlockSize) text)
  have hlength := aes.length_encryptBlocks key
    (show text.length / aesBlockSize = _ from rfl)
  have hmod : tokenLength (Base64.encode (aes.encryptBlocks key
      (text.length / aesBlockSize) text)) % aesBlockSize = 0 := by
    rw [tokenLength_encode, hlength, paddedLength]
    exact Nat.mul_mod_left _ _
  refine ⟨count, ?_⟩
  rw [plainCells, hmod, Cell.values_append, Cell.values_written, tokenBlocks,
    tokenText_encode, hjunk, tokenLength_encode,
    decryptBlocks_append key junk (Nat.div_mul_le_self _ _), hcount]
  exact List.append_nil _

theorem decryptString_encryptString (write read : Heap)
    (key : List Byte) {text : List Byte} (h : 0 ∉ text) :
    ∃ token plain, aes.encryptString write key text = some token ∧
      aes.decryptString read key token = some plain ∧
      Cell.values plain.str = text := by
  obtain ⟨count, hcount⟩ := aes.plainCells_encode read key text
  have hkeep : ∀ c ∈ text, decide (c ≠ 0) = true := by
    intro c hc
    rw [decide_eq_true_eq]
    rintro rfl
    exact h hc
  refine ⟨_, _, aes.encryptString_eq write key text,
    aes.decryptString_eq read key _, ?_⟩
  change Cell.values (List.takeWhile Cell.nonzero _) = text
  rw [Cell.values_takeWhile, hcount, List.takeWhile_append_of_pos hkeep]
  cases count with
  | zero => simp
  | succ count => simp [List.replicate_succ]

/-- A text without zeros comes back, under a seed and under the built-in key. -/
theorem token_round_trip (aes : Aes) (write read : Heap)
    (seed text : List Byte) (h : 0 ∉ text) :
    (∃ token plain, aes.aesEcb128Encrypt write seed text = some token ∧
      aes.aesEcb128Decrypt read seed token = some plain ∧
      Cell.values plain.str = text) ∧
    ∃ token plain, aes.aesEcb128EncryptBuiltIn write text = some token ∧
      aes.aesEcb128DecryptBuiltIn read token = some plain ∧
      Cell.values plain.str = text := by
  constructor
  · exact aes.decryptString_encryptString write read (aes.getKey seed) h
  · exact aes.decryptString_encryptString write read
      (aes.getKey defaultSeed) h

def sampleHeap : Heap :=
  ⟨fun _ => 0x41, fun _ => 0x41, fun _ => 0x41, fun _ => 0x41, 0⟩

theorem sampleText_round_trip :
    0 ∉ sampleText 10000501 ∧
      (∃ token plain, sampleAes.aesEcb128Encrypt sampleHeap defaultSeed
          (sampleText 10000501) = some token ∧
        sampleAes.aesEcb128Decrypt sampleHeap defaultSeed token =
          some plain ∧
        Cell.values plain.str = sampleText 10000501) ∧
      ∃ token plain, sampleAes.aesEcb128EncryptBuiltIn sampleHeap
          (sampleText 10000501) = some token ∧
        sampleAes.aesEcb128DecryptBuiltIn sampleHeap token = some plain ∧
        Cell.values plain.str = sampleText 10000501 := by
  have hzero : 0 ∉ sampleText 10000501 := by decide +kernel
  exact ⟨hzero, token_round_trip sampleAes sampleHeap sampleHeap defaultSeed
    (sampleText 10000501) hzero⟩

/-! ## Defined bytes -/

/--
Decryption ends without leaving a buffer, the cipher reads decoded bytes only,
all that is returned was written by the cipher, and all that was looked up in
the table was allowed.
-/
def UsesDefined (aes : Aes) (heap : Heap) (key token : List Byte)
    (allowed : Byte → Prop) : Prop :=
  ∃ plain, aes.decryptString heap key token = some plain ∧
    (∀ cell ∈ plain.read, cell.writer = some .base64) ∧
    (∀ cell ∈ plain.str, cell.writer = some .aes) ∧
    ∀ ch ∈ plain.looked, allowed ch

def EncryptsZero (aes : Aes) (heap : Heap) (key token : List Byte) : Prop :=
  ∃ text, text.length = blocksLength token ∧ 0 ∈ text ∧
    aes.encryptBlocks key (tokenLength token / aesBlockSize) text =
      (bytesOf heap.nullPos (tokenText token)).take (blocksLength token)

/--
Padding leaves no gap in front of the end of the blocks, and they are all there
is or the text that was encrypted ends in them, or at once behind them by what
the heap holds.
-/
structure FillsBlocks (aes : Aes) (heap : Heap) (key token : List Byte) :
    Prop where
  gaps : ∀ place ∈ gaps (tokenText token), blocksLength token ≤ place
  ends : aesBlockSize ∣ tokenLength token ∨ aes.EncryptsZero heap key token ∨
    heap.binOut (blocksLength token) = 0

theorem exists_encryptBlocks (key : List Byte) {round : Nat}
    {bytes : List Byte} (hbytes : bytes.length = round * aesBlockSize) :
    ∃ text, text.length = round * aesBlockSize ∧
      aes.encryptBlocks key round text = bytes := by
  induction round generalizing bytes with
  | zero =>
      rw [Nat.zero_mul] at hbytes
      refine ⟨[], (Nat.zero_mul _).symm, ?_⟩
      rw [encryptBlocks, if_pos rfl, List.length_eq_zero_iff.mp hbytes]
  | succ round ih =>
      rw [Nat.add_mul, Nat.one_mul] at hbytes ⊢
      have hblock : (bytes.take aesBlockSize).length = aesBlockSize := by
        rw [List.length_take]
        omega
      have hrest : (bytes.drop aesBlockSize).length =
          round * aesBlockSize := by
        rw [List.length_drop]
        omega
      obtain ⟨first, hfirst, hencrypt⟩ := aes.exists_encrypt key hblock
      obtain ⟨text, htext, hencrypts⟩ := ih hrest
      refine ⟨first ++ text, ?_, ?_⟩
      · rw [List.length_append, hfirst, htext, Nat.add_comm]
      · rw [encryptBlocks, List.take_left' hfirst, List.drop_left' hfirst,
          hencrypt, hencrypts, List.take_append_drop]

theorem decryptBlocks_of_length (key : List Byte) {round : Nat}
    {text : List Byte} (htext : text.length = round * aesBlockSize) :
    aes.decryptBlocks key round (aes.encryptBlocks key round text) = text := by
  induction round generalizing text with
  | zero =>
      rw [Nat.zero_mul] at htext
      rw [decryptBlocks, List.length_eq_zero_iff.mp htext]
  | succ round ih =>
      rw [Nat.add_mul, Nat.one_mul] at htext
      have hblock : (text.take aesBlockSize).length = aesBlockSize := by
        rw [List.length_take]
        omega
      have hrest : (text.drop aesBlockSize).length = round * aesBlockSize := by
        rw [List.length_drop]
        omega
      have hlength := aes.length_encrypt key _ hblock
      rw [encryptBlocks, decryptBlocks, List.take_left' hlength,
        List.drop_left' hlength, aes.decrypt_encrypt key _ hblock, ih hrest,
        List.take_append_drop]

theorem decryptBlocks_take (key : List Byte) {round : Nat}
    {text : List Byte} (hround : round * aesBlockSize ≤ text.length) :
    aes.decryptBlocks key round (text.take (round * aesBlockSize)) =
      aes.decryptBlocks key round text := by
  have hlength : (text.take (round * aesBlockSize)).length =
      round * aesBlockSize :=
    List.length_take_of_le hround
  have happend := aes.decryptBlocks_append key
    (text.drop (round * aesBlockSize)) hlength.ge
  rw [List.take_append_drop] at happend
  exact happend.symm

theorem encryptsZero_iff (heap : Heap) (key token : List Byte)
    (hgaps : ∀ place ∈ gaps (tokenText token), blocksLength token ≤ place) :
    aes.EncryptsZero heap key token ↔
      0 ∈ aes.tokenBlocks heap key token := by
  have hbytes := contents_of_gaps heap.nullPos heap.binIn (tokenText token)
    (blocksLength token) hgaps
  have hlength : ((bytesOf heap.nullPos (tokenText token)).take
      (blocksLength token)).length = blocksLength token := by
    rw [← hbytes]
    exact List.length_take_of_le (rounds_le heap token)
  have hblocks : aes.tokenBlocks heap key token =
      aes.decryptBlocks key (tokenLength token / aesBlockSize)
        ((bytesOf heap.nullPos (tokenText token)).take
          (blocksLength token)) := by
    rw [tokenBlocks, ← hbytes, blocksLength,
      decryptBlocks_take key (rounds_le heap token)]
  rw [hblocks]
  constructor
  · rintro ⟨text, htext, hzero, hencrypt⟩
    rwa [← hencrypt, decryptBlocks_of_length key htext]
  · intro hzero
    obtain ⟨text, htext, hencrypt⟩ := aes.exists_encryptBlocks key hlength
    rw [← hencrypt, decryptBlocks_of_length key htext] at hzero
    exact ⟨text, htext, hzero, hencrypt⟩

theorem usesDefined_iff (heap : Heap) (key token : List Byte)
    (allowed : Byte → Prop) :
    aes.UsesDefined heap key token allowed ↔
      (∀ ch ∈ consulted (tokenText token), allowed ch) ∧
        aes.FillsBlocks heap key token := by
  have hends := Cell.writer_takeWhile_iff Writer.aes
    (aes.tokenBlocks heap key token)
    (fun i => heap.binOut (blocksLength token + i))
    (tokenLength token % aesBlockSize)
  rw [← Nat.dvd_iff_mod_eq_zero] at hends
  have hread := written_iff_gaps heap.nullPos heap.binIn (tokenText token)
    (blocksLength token)
  rw [UsesDefined, decryptString_eq]
  constructor
  · rintro ⟨plain, hplain, hcells, hwriter, hlooked⟩
    obtain rfl := Option.some.inj hplain
    have hgaps := hread.mp hcells
    refine ⟨hlooked, hgaps, ?_⟩
    rw [encryptsZero_iff heap key token hgaps]
    exact hends.mp hwriter
  · rintro ⟨hlooked, hgaps, hblocks⟩
    rw [encryptsZero_iff heap key token hgaps] at hblocks
    exact ⟨_, rfl, hread.mpr hgaps, hends.mpr hblocks, hlooked⟩

/--
No access leaves a buffer.  The bytes used are defined for exactly the tokens
whose characters are found and whose blocks are filled, whether or not a
padding character that is looked up counts as found.
-/
theorem token_defined_iff (aes : Aes) (heap : Heap)
    (seed token : List Byte) :
    (aes.aesEcb128Decrypt heap seed token).isSome ∧
    (aes.UsesDefined heap (aes.getKey seed) token
        (fun ch => ch ∈ Base64.tab ∨ ch = Base64.fill) ↔
      (∀ ch ∈ consulted (tokenText token),
        ch ∈ Base64.tab ∨ ch = Base64.fill) ∧
        aes.FillsBlocks heap (aes.getKey seed) token) ∧
    (aes.UsesDefined heap (aes.getKey seed) token (· ∈ Base64.tab) ↔
      (∀ ch ∈ consulted (tokenText token), ch ∈ Base64.tab) ∧
        aes.FillsBlocks heap (aes.getKey seed) token) := by
  refine ⟨?_, usesDefined_iff heap _ token _, usesDefined_iff heap _ token _⟩
  rw [aesEcb128Decrypt, decryptString_eq]
  rfl

/--
Three decoded bytes are no block, so that what is returned was never written; a
character that is in no table is looked up all the same; and a block that is
padded in every unit is decrypted from bytes that were never written.
-/
theorem short_token_undefined :
    (sampleAes.decryptString sampleHeap (sampleAes.getKey defaultSeed)
        (ascii "AAAA")).map Plain.str = some (List.replicate 3 ⟨0x41, none⟩) ∧
      ¬ sampleAes.UsesDefined sampleHeap (sampleAes.getKey defaultSeed)
        (ascii "AAAA") (fun ch => ch ∈ Base64.tab ∨ ch = Base64.fill) ∧
      ¬ sampleAes.UsesDefined sampleHeap (sampleAes.getKey defaultSeed)
        (ascii "!AAA") (fun ch => ch ∈ Base64.tab ∨ ch = Base64.fill) ∧
      ¬ sampleAes.UsesDefined sampleHeap (sampleAes.getKey defaultSeed)
        (ascii "QQ==QQ==QQ==QQ==QQ==QQ==")
        (fun ch => ch ∈ Base64.tab ∨ ch = Base64.fill) := by
  have hjunk : (sampleAes.decryptString sampleHeap
      (sampleAes.getKey defaultSeed) (ascii "AAAA")).map Plain.str =
        some (List.replicate 3 ⟨0x41, none⟩) := by
    decide +kernel
  refine ⟨hjunk, ?_, ?_, ?_⟩
  · rintro ⟨plain, hplain, -, hwriter, -⟩
    rw [hplain, Option.map_some, Option.some.injEq] at hjunk
    rw [hjunk] at hwriter
    exact absurd (hwriter ⟨0x41, none⟩ (by decide)) (by decide)
  · rintro ⟨plain, hplain, -, -, hlooked⟩
    have hstrange : (sampleAes.decryptString sampleHeap
        (sampleAes.getKey defaultSeed) (ascii "!AAA")).map Plain.looked =
          some (ascii "!AAA") := by
      decide +kernel
    rw [hplain, Option.map_some, Option.some.injEq] at hstrange
    rw [hstrange] at hlooked
    exact absurd (hlooked 0x21 (by decide)) (by decide)
  · rintro ⟨plain, hplain, hread, -⟩
    have hgap : (sampleAes.decryptString sampleHeap
        (sampleAes.getKey defaultSeed)
        (ascii "QQ==QQ==QQ==QQ==QQ==QQ==")).map
          (fun plain => plain.read[1]?) = some (some ⟨0x41, none⟩) := by
      decide +kernel
    rw [hplain, Option.map_some, Option.some.injEq] at hgap
    exact absurd (hread _ (List.mem_of_getElem? hgap)) (by decide)

end Aes

end StarsGaming.Lobby
