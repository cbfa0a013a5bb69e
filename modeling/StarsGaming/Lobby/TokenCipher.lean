import StarsGaming.Lobby.AesBt
import StarsGaming.Tools.AesCore
import StarsGaming.Tools.MD5

/-!
# The cipher and the digest of tokens

Tokens are encrypted with the repository's own block cipher under a key that
its own digest takes from the seed.  Both come out as their standards describe
them, whatever the variables on the stack held, so a token that one process
writes is read by another.
-/

namespace StarsGaming.Lobby

open Foundation Tools

/-- What the variables of a call held before anything was written to them. -/
structure Stack where
  ctx : Md5Ctx
  key : AesKey
  length_input : ctx.input.length = 64
  length_rdKey : key.rdKey.length = 60

namespace Stack

variable (stack : Stack)

def encryptBlock (key block : List Byte) : List Byte :=
  match aesSetEncryptKey key 128 stack.key with
  | .ok aesKey => aesEncrypt block aesKey
  | .error _ => []

def decryptBlock (key block : List Byte) : List Byte :=
  match aesSetDecryptKey key 128 stack.key with
  | .ok aesKey => aesDecrypt block aesKey
  | .error _ => []

theorem encryptBlock_eq (key block : List Byte) :
    stack.encryptBlock key block = Rijndael.encrypt 4 key block := by
  obtain ⟨rk, hset, hexpanded⟩ := aesSetEncryptKey_expanded (Or.inl rfl)
    key stack.key (by rw [stack.length_rdKey]; decide)
  have hblock := aesEncrypt_expanded (Or.inl rfl) hexpanded block
  rw [encryptBlock]
  change (match aesSetEncryptKey key (32 * (4 : Nat)) stack.key with
    | .ok aesKey => aesEncrypt block aesKey
    | .error _ => []) = _
  rw [hset]
  exact hblock

theorem decryptBlock_eq (key block : List Byte) :
    stack.decryptBlock key block =
      Rijndael.decrypt (lookup td4) 4 key block := by
  obtain ⟨rk, hset, hreversed⟩ := aesSetDecryptKey_reversed (Or.inl rfl)
    key stack.key (by rw [stack.length_rdKey]; decide)
  have hblock := aesDecrypt_reversed (Or.inl rfl) hreversed block
  rw [decryptBlock]
  change (match aesSetDecryptKey key (32 * (4 : Nat)) stack.key with
    | .ok aesKey => aesDecrypt block aesKey
    | .error _ => []) = _
  rw [hset]
  exact hblock

def aes : Aes where
  encrypt := stack.encryptBlock
  decrypt := stack.decryptBlock
  md5 := md532 stack.ctx
  length_encrypt key block _ := by
    rw [encryptBlock_eq]
    rfl
  decrypt_encrypt key block hblock := by
    rw [encryptBlock_eq, decryptBlock_eq]
    exact Rijndael.decrypt_encrypt te4_inverted 4 key hblock

end Stack

def standardAes : Aes where
  encrypt := Rijndael.encrypt 4
  decrypt := Rijndael.decrypt (lookup td4) 4
  md5 data :=
    bin2hex (MessageDigest.digest (data.take (data.length % 2 ^ 32)))
  length_encrypt _ _ _ := rfl
  decrypt_encrypt key _ hblock :=
    Rijndael.decrypt_encrypt te4_inverted 4 key hblock

theorem Stack.aes_eq (stack : Stack) : stack.aes = standardAes := by
  have hencrypt : stack.encryptBlock = Rijndael.encrypt 4 := by
    funext key block
    exact stack.encryptBlock_eq key block
  have hdecrypt : stack.decryptBlock =
      Rijndael.decrypt (lookup td4) 4 := by
    funext key block
    exact stack.decryptBlock_eq key block
  have hmd5 : md532 stack.ctx = standardAes.md5 := by
    funext data
    exact md532_eq stack.length_input data
  simp only [Stack.aes, standardAes, hencrypt, hdecrypt, hmd5]

/-- What one process encrypts, another decrypts; the token is the standard's. -/
theorem token_of_standards (writer reader : Stack) (write read : Aes.Heap)
    (seed : List Byte) {text : List Byte} (h : 0 ∉ text) :
    ∃ token plain,
      writer.aes.aesEcb128Encrypt write seed text = some token ∧
      token = standardAes.ecb128Encrypt seed text ∧
      reader.aes.aesEcb128Decrypt read seed token = some plain ∧
      Cell.values plain.str = text := by
  rw [writer.aes_eq, reader.aes_eq]
  obtain ⟨token, plain, htoken, hplain, htext⟩ :=
    standardAes.decryptString_encryptString write read
      (standardAes.getKey seed) h
  have hstandard := htoken.symm.trans
    (Aes.encryptString_eq write (standardAes.getKey seed) text)
  exact ⟨token, plain, htoken, Option.some.inj hstandard, hplain, htext⟩

def sampleStack : Stack :=
  ⟨sampleCtx, usedKey, rfl, rfl⟩

theorem token_of_standards_name :
    ∃ token plain,
      sampleStack.aes.aesEcb128Encrypt Aes.sampleHeap
        Aes.defaultSeed (ascii "name") = some token ∧
      token = standardAes.ecb128Encrypt Aes.defaultSeed (ascii "name") ∧
      sampleStack.aes.aesEcb128Decrypt Aes.sampleHeap Aes.defaultSeed
        token = some plain ∧
      Cell.values plain.str = ascii "name" :=
  token_of_standards sampleStack sampleStack Aes.sampleHeap Aes.sampleHeap
    Aes.defaultSeed (by decide)

end StarsGaming.Lobby
