import Mathlib.Logic.Equiv.Basic
import StarsGaming.Foundation.Base64
import StarsGaming.Lobby.Login
import StarsGaming.Lobby.PlayerManager

/-!
# Tokens

The login server gives out an encrypted JSON text, which the game server and the
lobby decrypt and check.  Blocks are encrypted one by one, the last one filled up
with zeros, and the text that comes out of decrypting ends at the first zero.
-/

namespace StarsGaming.Lobby

open Foundation

/-! ## Encryption -/

def aesBlockSize : Nat := 16

structure Aes where
  encrypt : List Byte → List Byte → List Byte
  decrypt : List Byte → List Byte → List Byte
  md5 : List Byte → List Byte
  length_encrypt : ∀ key block, block.length = aesBlockSize →
    (encrypt key block).length = aesBlockSize
  decrypt_encrypt : ∀ key block, block.length = aesBlockSize →
    decrypt key (encrypt key block) = block

namespace Aes

variable (aes : Aes)

def defaultSeed : List Byte := ascii "safsdfsdfkjl-s-123lkfls"

def getKey (seed : List Byte) : List Byte :=
  (aes.md5 seed).take 16

def encryptBlocks (key : List Byte) : Nat → List Byte → List Byte
  | 0, left =>
      if left = [] then []
      else aes.encrypt key
        (left ++ List.replicate (aesBlockSize - left.length) 0)
  | round + 1, text =>
      aes.encrypt key (text.take aesBlockSize) ++
        encryptBlocks key round (text.drop aesBlockSize)

def decryptBlocks (key : List Byte) : Nat → List Byte → List Byte
  | 0, _ => []
  | round + 1, text =>
      aes.decrypt key (text.take aesBlockSize) ++
        decryptBlocks key round (text.drop aesBlockSize)

def ecb128Encrypt (seed text : List Byte) : List Byte :=
  Base64.encode (aes.encryptBlocks (aes.getKey seed)
    (text.length / aesBlockSize) text)

def ecb128Decrypt (seed text : List Byte) : List Byte :=
  let bin := Base64.decode text
  (aes.decryptBlocks (aes.getKey seed) (bin.length / aesBlockSize)
    bin).takeWhile fun c => c ≠ 0

variable {aes}

theorem decryptBlocks_cons (key : List Byte) {block : List Byte}
    (hblock : block.length = aesBlockSize) (rest : List Byte) :
    aes.decryptBlocks key
        ((aes.encrypt key block ++ rest).length / aesBlockSize)
        (aes.encrypt key block ++ rest) =
      block ++ aes.decryptBlocks key (rest.length / aesBlockSize) rest := by
  have hlength := aes.length_encrypt key block hblock
  have hround : (aes.encrypt key block ++ rest).length / aesBlockSize =
      rest.length / aesBlockSize + 1 := by
    rw [List.length_append, hlength, Nat.add_comm,
      Nat.add_div_right _ (by decide)]
  rw [hround, decryptBlocks, List.take_left' hlength,
    List.drop_left' hlength, aes.decrypt_encrypt key block hblock]

theorem decryptBlocks_encryptBlocks (key : List Byte) {round : Nat}
    {text : List Byte} (hround : text.length / aesBlockSize = round) :
    ∃ count, aes.decryptBlocks key
        ((aes.encryptBlocks key round text).length / aesBlockSize)
        (aes.encryptBlocks key round text) =
      text ++ List.replicate count 0 := by
  induction round generalizing text with
  | zero =>
      rw [encryptBlocks]
      split_ifs with hleft
      · exact ⟨0, by simp [hleft, decryptBlocks]⟩
      · have hlt : text.length < aesBlockSize :=
          (Nat.div_eq_zero_iff_lt (by decide)).mp hround
        have hblock : (text ++ List.replicate
            (aesBlockSize - text.length) (0 : Byte)).length =
              aesBlockSize := by
          rw [List.length_append, List.length_replicate]
          omega
        have hcons := aes.decryptBlocks_cons key hblock []
        rw [List.append_nil] at hcons
        refine ⟨aesBlockSize - text.length, ?_⟩
        rw [hcons, List.length_nil, Nat.zero_div, decryptBlocks,
          List.append_nil]
  | succ round ih =>
      have hlength : aesBlockSize ≤ text.length := by
        by_contra hlt
        rw [Nat.div_eq_of_lt (by omega)] at hround
        cases hround
      have hblock : (text.take aesBlockSize).length = aesBlockSize :=
        List.length_take_of_le hlength
      have hrest : (text.drop aesBlockSize).length / aesBlockSize =
          round := by
        rw [Nat.div_eq_sub_div (by decide) hlength] at hround
        rw [List.length_drop]
        omega
      obtain ⟨count, hcount⟩ := ih hrest
      refine ⟨count, ?_⟩
      rw [encryptBlocks, decryptBlocks_cons key hblock, hcount,
        ← List.append_assoc, List.take_append_drop]

theorem ecb128Decrypt_encrypt (seed : List Byte) {text : List Byte}
    (h : 0 ∉ text) :
    aes.ecb128Decrypt seed (aes.ecb128Encrypt seed text) = text := by
  obtain ⟨count, hcount⟩ := aes.decryptBlocks_encryptBlocks
    (aes.getKey seed) (show text.length / aesBlockSize = _ from rfl)
  have hzero : ∀ c ∈ text, decide (c ≠ 0) = true := by
    intro c hc
    rw [decide_eq_true_eq]
    rintro rfl
    exact h hc
  rw [ecb128Decrypt, ecb128Encrypt, Base64.decode_encode, hcount,
    List.takeWhile_append_of_pos hzero]
  cases count with
  | zero => simp
  | succ count => simp [List.replicate_succ]

end Aes

/-! ## Texts -/

def Scalar.isNumber : Scalar → Bool
  | .numberInteger _ | .numberUnsigned _ => true
  | _ => false

def Scalar.isString : Scalar → Bool
  | .string _ => true
  | _ => false

def Scalar.parsed : Scalar → Scalar
  | .numberInteger i => if 0 ≤ i then .numberUnsigned i.toNat else .numberInteger i
  | value => value

/-- An object that is read back has the same members, in any order. -/
def Json.Parsed : Json → Json → Prop
  | .object members, .object members' =>
      ∀ key, members'.lookup key = (members.lookup key).map Scalar.parsed
  | .scalar value, .scalar value' => value' = value.parsed
  | _, _ => False

/-- Writing fails for texts that are no UTF-8; control characters are escaped. -/
structure JsonText where
  dump : Json → Option (List Byte)
  parse : List Byte → Option Json
  parse_dump : ∀ jv text, dump jv = some text →
    ∃ jv', parse text = some jv' ∧ jv.Parsed jv'
  zero_notMem : ∀ jv text, dump jv = some text → 0 ∉ text

/-! ## Logging in with a token -/

inductive TokenFault where
  | json (fault : JsonFault)
  | parse
  deriving DecidableEq

def checkUserToken (userToken : Json) : Except JsonFault Bool := do
  if !userToken.isValid then return false
  if !(← userToken.member (ascii "user_id")).isNumber then return false
  if !(← userToken.member (ascii "user_account")).isString then return false
  if !(← userToken.member (ascii "user_type")).isNumber then return false
  return true

/-- The lobby takes the seed of the login server, the game server its own. -/
def Server.seed : Server → List Byte
  | .lobby => Aes.defaultSeed
  | .game => ascii "key"

section

variable (aes : Aes) (json : JsonText)

/-- The user who is logged in; nobody if the token is refused. -/
def playerTokenLogin (server : Server) (userToken : List Byte) :
    Except TokenFault (Option (BitVec 32)) :=
  match json.parse (aes.ecb128Decrypt server.seed userToken) with
  | none => .error .parse
  | some jv =>
      match checkUserToken jv with
      | .error fault => .error (.json fault)
      | .ok false => .ok none
      | .ok true =>
          match jv.member (ascii "user_id") >>= FieldType.intType.get with
          | .error fault => .error (.json fault)
          | .ok userId => .ok (some userId)

/-- Both servers take the token for the user the login server named. -/
def TokenAgrees (response : LoginResponse) : Prop :=
  playerTokenLogin aes json .lobby response.token =
      .ok (some response.userId) ∧
    playerTokenLogin aes json .game response.token =
      .ok (some response.userId)

def loginModule (lobbyList : List (List Byte × BitVec 16))
    (versoinInfo : VersonInfo) : LoginModule :=
  ⟨lobbyList, versoinInfo, json.dump, aes.ecb128Encrypt Aes.defaultSeed⟩

variable {aes json}

theorem isNumber_parsed (i : Int) :
    (Scalar.numberInteger i).parsed.isNumber = true := by
  rw [Scalar.parsed]
  split_ifs <;> rfl

theorem checkUserToken_of_parsed {call : LoginCall} {userId : BitVec 32}
    {jv : Json} (h : (LoginModule.tokenJson call userId).Parsed jv) :
    checkUserToken jv = .error .missingKey := by
  cases jv with
  | scalar value => exact h.elim
  | object members =>
      have hid : members.lookup (ascii "user_id") =
          some (Scalar.numberInteger userId.toInt).parsed :=
        h (ascii "user_id")
      have haccount : members.lookup (ascii "user_account") = none :=
        h (ascii "user_account")
      simp only [checkUserToken, Json.isValid, Json.member, hid, haccount,
        ok_bind, isNumber_parsed, Bool.not_true, Bool.false_eq_true,
        if_false]
      rfl

theorem lobby_refuses {call : LoginCall} {userId : BitVec 32}
    {text : List Byte}
    (htext : json.dump (LoginModule.tokenJson call userId) = some text) :
    playerTokenLogin aes json .lobby
        (aes.ecb128Encrypt Aes.defaultSeed text) =
      .error (.json .missingKey) := by
  obtain ⟨jv, hparse, hparsed⟩ := json.parse_dump _ _ htext
  rw [playerTokenLogin, Server.seed,
    Aes.ecb128Decrypt_encrypt _ (json.zero_notMem _ _ htext), hparse]
  dsimp only
  rw [checkUserToken_of_parsed hparsed]

end

/-- No token that a login was answered with is taken by both servers. -/
theorem tokens_never_agree (aes : Aes) (json : JsonText)
    (lobbyList : List (List Byte × BitVec 16)) (versoinInfo : VersonInfo)
    (init : Stores) (pool : LoginPool)
    (h : LoginReachable (loginModule aes json lobbyList versoinInfo) init pool)
    (call : LoginCall) (response : LoginResponse)
    (hresult : (call, .success response) ∈ pool.results) :
    ¬TokenAgrees aes json response := by
  obtain ⟨text, htext, htoken⟩ := tokened_of_success h hresult
  rintro ⟨hlobby, _⟩
  have hrefused : playerTokenLogin aes json .lobby
      (aes.ecb128Encrypt Aes.defaultSeed text) = _ := lobby_refuses htext
  rw [htoken] at hlobby
  cases hrefused.symm.trans hlobby

/-! ## A token -/

def block (n : Nat) : List Byte :=
  (List.range aesBlockSize).map fun i =>
    BitVec.ofNat 8 (n >>> (8 * (aesBlockSize - 1 - i)))

def swapBlocks (pairs : List (Nat × Nat)) : Equiv.Perm (List Byte) :=
  pairs.foldr
    (fun pair e => (Equiv.swap (block pair.1) (block pair.2)).trans e) (.refl _)

theorem length_block (n : Nat) : (block n).length = aesBlockSize := by
  simp [block]

theorem length_swapBlocks (pairs : List (Nat × Nat)) {text : List Byte}
    (htext : text.length = aesBlockSize) :
    (swapBlocks pairs text).length = aesBlockSize := by
  induction pairs generalizing text with
  | nil => exact htext
  | cons pair rest ih =>
      apply ih
      rw [Equiv.swap_apply_def]
      split_ifs
      · exact length_block pair.2
      · exact length_block pair.1
      · exact htext

def samplePairs (key : List Byte) : List (Nat × Nat) :=
  if key = ascii "f72d567b0a507cc7" then
    [(0x7b226170705f74797065223a322c2263, 0x9d15b5694045ced2509eec66260aff89),
      (0x68616e6e656c223a22222c226f735f76, 0x750ad7f519d0377a00b098e6c70bb083),
      (0x657273696f6e223a22222c2274696d65, 0x9a4e6e89665d55df6ff79390d2c68173),
      (0x223a312c22757365725f6964223a3130, 0x52454d5f0a7f63eb8427bf87f4838d8a),
      (0x3030303530312c22757365725f747970, 0x104cc894a03e067cee8634e9224a7a99),
      (0x65223a302c2276657273696f6e223a22, 0x599aa34bb52ac86770975164913c75ed),
      (0x227d0000000000000000000000000000, 0xc9c57ed04411e499b9cc9e859b4c4e9c)]
  else
    [(0x7a79f4bd5aa15552f6bfc7658665bf43, 0x9d15b5694045ced2509eec66260aff89),
      (0x641566d5638c8ca0f0e3a8c2d7026e2f, 0x750ad7f519d0377a00b098e6c70bb083),
      (0x51c6427666e0d92c826baee44e73dfb6, 0x9a4e6e89665d55df6ff79390d2c68173),
      (0xa513d87365774a64778ac488e1b335c5, 0x52454d5f0a7f63eb8427bf87f4838d8a),
      (0x51af448346e1786ec66880893e270565, 0x104cc894a03e067cee8634e9224a7a99),
      (0x0964d8e78815b0a5374f5c59249ab9b0, 0x599aa34bb52ac86770975164913c75ed),
      (0xa1eebea50637678c3f7d7e9e28b6e2ab, 0xc9c57ed04411e499b9cc9e859b4c4e9c)]

def sampleAes : Aes where
  encrypt key text := swapBlocks (samplePairs key) text
  decrypt key text := (swapBlocks (samplePairs key)).symm text
  md5 seed :=
    if seed = Aes.defaultSeed then ascii "f72d567b0a507cc7a15d0f7792afd062"
    else ascii "3c6e0b8a9c15224a8228b9a98ca1531d"
  length_encrypt key _ := length_swapBlocks (samplePairs key)
  decrypt_encrypt _ text _ := Equiv.symm_apply_apply _ text

def guestCall : LoginCall := .ofAccount (ascii "guest")

def Json.parsed : Json → Json
  | .scalar value => .scalar value.parsed
  | .object members => .object (members.map fun e => (e.1, e.2.parsed))

theorem Json.parsed_parsed (jv : Json) : jv.Parsed jv.parsed := by
  cases jv with
  | scalar value => rfl
  | object members => exact fun key => lookup_map_snd Scalar.parsed members key

def sampleDump (jv : Json) : Option (List Byte) :=
  if jv = LoginModule.tokenJson guestCall 10000501 then
    some (sampleText 10000501)
  else none

def sampleParse (text : List Byte) : Option Json :=
  if text = sampleText 10000501 then
    some (LoginModule.tokenJson guestCall 10000501).parsed
  else none

theorem sampleParse_sampleDump (jv : Json) (text : List Byte)
    (h : sampleDump jv = some text) :
    ∃ jv', sampleParse text = some jv' ∧ jv.Parsed jv' := by
  rw [sampleDump] at h
  split_ifs at h with hjv
  cases h
  refine ⟨_, if_pos rfl, ?_⟩
  rw [hjv]
  exact Json.parsed_parsed _

theorem zero_notMem_sampleDump (jv : Json) (text : List Byte)
    (h : sampleDump jv = some text) : 0 ∉ text := by
  rw [sampleDump] at h
  split_ifs at h
  cases h
  decide +kernel

def sampleJson : JsonText :=
  ⟨sampleDump, sampleParse, sampleParse_sampleDump, zero_notMem_sampleDump⟩

def sampleLogin : LoginModule :=
  loginModule sampleAes sampleJson [(ascii "127.0.0.1", 9001)] ⟨[], [], []⟩

def guestResponse : LoginResponse where
  token := sampleAes.ecb128Encrypt Aes.defaultSeed (sampleText 10000501)
  userId := 10000501
  curVersion := []
  updateType := 0
  updateDesc := []
  lobbyIp := ascii "127.0.0.1"
  lobbyPort := 9001

theorem sampleJson_dump (jv : Json) : sampleJson.dump jv = sampleDump jv :=
  rfl

theorem dump_guestCall :
    sampleJson.dump (LoginModule.tokenJson guestCall 10000501) =
      some (sampleText 10000501) := by
  rw [sampleJson_dump, sampleDump, if_pos rfl]

theorem guest_logs_in :
    LoginReachable sampleLogin twoAccounts
      ⟨twoAccounts, [], [(guestCall, .success guestResponse)]⟩ := by
  have hstart : LoginReachable sampleLogin twoAccounts
      ⟨twoAccounts, [], []⟩ := .refl
  have hdump : sampleLogin.dump (LoginModule.tokenJson guestCall 10000501) =
      some (sampleText 10000501) := dump_guestCall
  have hanswer : (sampleLogin.userLogin guestCall).answer Stores.quiet
      twoAccounts = some (.success guestResponse, twoAccounts) := by
    change (sampleLogin.loginResponse guestCall 10000501).answer Stores.quiet
      twoAccounts = _
    rw [LoginModule.loginResponse, hdump]
    rfl
  exact hstart.answer Stores.exec_quiet trivial hanswer

theorem guestToken_refused : ¬TokenAgrees sampleAes sampleJson guestResponse :=
  tokens_never_agree sampleAes sampleJson _ _ _ _ guest_logs_in guestCall
    guestResponse List.mem_cons_self

theorem guestToken_not_taken :
    ¬∀ (aes : Aes) (json : JsonText)
      (lobbyList : List (List Byte × BitVec 16)) (versoinInfo : VersonInfo)
      (init : Stores) (pool : LoginPool),
      LoginReachable (loginModule aes json lobbyList versoinInfo) init pool →
      ∀ (call : LoginCall) (response : LoginResponse),
        (call, .success response) ∈ pool.results →
          TokenAgrees aes json response := by
  intro h
  obtain ⟨hlobby, _⟩ := h sampleAes sampleJson _ _ _ _ guest_logs_in guestCall
    guestResponse List.mem_cons_self
  have hrefused : playerTokenLogin sampleAes sampleJson .lobby
      guestResponse.token = _ :=
    lobby_refuses dump_guestCall
  cases hrefused.symm.trans hlobby

end StarsGaming.Lobby
