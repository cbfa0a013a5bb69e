import StarsGaming.Foundation.Programs
import StarsGaming.Foundation.Runs
import StarsGaming.Lobby.Records

/-!
# Logging in

A login looks an account up, first in Redis and then in the database, registers
it if it is new and answers with a token.  It is a program over the two stores,
which several processes share.  A document of the database is the list of its
fields.  The notification that follows the answer is left out.

A login logs the document that it did not find, and the insertion of a new user
returns nothing after it succeeded.  Both are undefined: the call ends there or
goes on with any value.
-/

namespace StarsGaming.Lobby

open Foundation

/-! ## The stores -/

abbrev Doc := List (List Byte × Scalar)

def Scalar.number : Scalar → Option Int
  | .numberInteger i => some i
  | .numberUnsigned n => some n
  | _ => none

/--
`hashes` is what Redis holds, `docs` the collection of users and `counter` the
document that counts their numbers.
-/
structure Stores where
  hashes : List (List Byte × List (List Byte × List Byte))
  docs : List Doc
  counter : Int

inductive RedisReply where
  | null
  | error
  | array (elements : List (Option (List Byte)))

inductive StoreCmd where
  | hgetall (key : List Byte)
  | hset (key field value : List Byte)
  | expire (key : List Byte) (seconds : Nat)
  /-- `find_one` in the collection of users -/
  | findUser (field : List Byte) (value : Scalar)
  /-- `find_one_and_update` of the counter -/
  | incCounter
  /-- `update_one` with `upsert` in the collection of users -/
  | upsertUser (userId : BitVec 32) (fields : Doc)
  /-- no command: what undefined behaviour goes on with, if it does -/
  | undefined

abbrev StoreCmd.Reply : StoreCmd → Type
  | .hgetall _ => RedisReply
  | .hset _ _ _ => Unit
  | .expire _ _ => Unit
  | .findUser _ _ => Option Doc
  | .incCounter => Option Int
  | .upsertUser _ _ => Bool
  | .undefined => Option Bool

namespace Stores

def hash (key : List Byte) (s : Stores) : List (List Byte × List Byte) :=
  (s.hashes.lookup key).getD []

/-- `$set` -/
def setFields (fields doc : Doc) : Doc :=
  fields.foldl (fun doc e => assign e.1 e.2 doc) doc

def hasUserId (userId : BitVec 32) (doc : Doc) : Prop :=
  (doc.lookup (ascii "user_id")).bind Scalar.number = some userId.toInt

instance (userId : BitVec 32) (doc : Doc) : Decidable (hasUserId userId doc) :=
  inferInstanceAs (Decidable (_ = _))

def Upserts (userId : BitVec 32) (fields : Doc) (docs docs' : List Doc) :
    Prop :=
  (∃ before doc rest, docs = before ++ doc :: rest ∧ hasUserId userId doc ∧
    docs' = before ++ setFields fields doc :: rest) ∨
  (∀ doc ∈ docs, ¬hasUserId userId doc) ∧
    docs' = docs ++
      [setFields fields [(ascii "user_id", .numberInteger userId.toInt)]]

def exec : (c : StoreCmd) → Stores → c.Reply → Stores → Prop
  | .hgetall key, s, reply, s' => s' = s ∧
      (reply = .null ∨ reply = .error ∨
        ∃ order : List (List Byte × List Byte), order.Perm (s.hash key) ∧
          reply = .array (Lobby.hgetall order))
  | .hset key field value, s, _, s' => s' = s ∨
      s' = { s with
        hashes := assign key (Lobby.hset field value (s.hash key)) s.hashes }
  | .expire _ _, s, _, s' => s' = s
  | .findUser field value, s, reply, s' => s' = s ∧
      match reply with
      | some doc => doc ∈ s.docs ∧ doc.lookup field = some value
      | none => ∀ doc ∈ s.docs, doc.lookup field ≠ some value
  | .incCounter, s, reply, s' => reply = some (s.counter + 1) ∧
      s' = { s with counter := s.counter + 1 }
  | .upsertUser userId fields, s, _, s' =>
      ∃ docs, Upserts userId fields s.docs docs ∧ s' = { s with docs := docs }
  | .undefined, s, _, s' => s' = s

def drift (s s' : Stores) : Prop :=
  ∃ key, s' = { s with hashes := eraseKey key s.hashes }

end Stores

/-! ## The login module -/

structure LoginRequest where
  account : List Byte
  deviceCode : List Byte
  userName : List Byte
  version : List Byte
  appType : BitVec 32
  osVersion : List Byte
  channel : List Byte
  deviceName : List Byte
  userType : BitVec 32
  headerUrl : List Byte

structure LoginResponse where
  token : List Byte
  userId : BitVec 32
  curVersion : List Byte
  updateType : Nat
  updateDesc : List Byte
  lobbyIp : List Byte
  lobbyPort : BitVec 16

structure VersonInfo where
  curVersion : List Byte
  forceVersion : List Byte
  updateDesc : List Byte

/-- `dump` fails for texts that are no UTF-8. -/
structure LoginModule where
  lobbyList : List (List Byte × BitVec 16)
  versoinInfo : VersonInfo
  dump : Json → Option (List Byte)
  encrypt : List Byte → List Byte

/--
A call of `user_login` with what is not in the request: the account that would be
generated, the clock and the random numbers.
-/
structure LoginCall where
  request : LoginRequest
  isRobot : Bool
  generated : List Byte
  now : Int
  lobbyRand : Nat
  headerRand : Nat

inductive LoginFault where
  | json (fault : JsonFault)
  | dump
  /-- `get_int32` of another type -/
  | counterType
  /-- undefined behaviour -/
  | undefined

inductive LoginOutcome where
  | failed (code : Nat)
  | success (response : LoginResponse)

def codeSystemError : Nat := 4

def codeAcocuntEmpty : Nat := 7

def accountExpireSec : Nat := 7 * 3600 * 24

def mobileAndroid : BitVec 32 := 0

def mpbileIphone : BitVec 32 := 1

abbrev Login := Prog StoreCmd StoreCmd.Reply LoginFault

namespace Login

def hgetall (key : List Byte) : Login RedisReply :=
  Prog.call (.hgetall key) .pure

def hset (key field value : List Byte) : Login Unit :=
  Prog.call (.hset key field value) .pure

def expire (key : List Byte) (seconds : Nat) : Login Unit :=
  Prog.call (.expire key seconds) .pure

def findUser (field : List Byte) (value : Scalar) : Login (Option Doc) :=
  Prog.call (.findUser field value) .pure

def incCounter : Login (Option Int) :=
  Prog.call .incCounter .pure

def upsertUser (userId : BitVec 32) (fields : Doc) : Login Bool :=
  Prog.call (.upsertUser userId fields) .pure

def undefined : Login Bool :=
  Prog.call .undefined (Prog.ofOption .undefined)

end Login

namespace LoginCall

def isNeedGenerateNewAccount (call : LoginCall) : Bool :=
  call.request.account.isEmpty &&
    (call.request.appType = mobileAndroid ∨
      call.request.appType = mpbileIphone)

def account (call : LoginCall) : List Byte :=
  if call.isNeedGenerateNewAccount then call.generated
  else call.request.account

end LoginCall

namespace LoginModule

def userInfoRedisKey (userId : BitVec 32) : List Byte :=
  ascii (toString userId.toInt) ++ ascii "|user_info"

def accountRedisKey (account : List Byte) : List Byte :=
  account ++ ascii "|account"

def jsonToHash (jv : Json) (key : List Byte) (expireSec : Nat) :
    Login Unit := do
  (Lobby.jsonToHash jv).forM fun e => Login.hset key e.1 e.2
  if expireSec ≠ 0 then Login.expire key expireSec

def queryFromRedis (info : AccountInfo) : Login (Bool × AccountInfo) := do
  match ← Login.hgetall (accountRedisKey info.account) with
  | .null | .error => return (false, info)
  | .array ar =>
      let info ← Prog.ofExcept .json (load AccountInfo.fields ar info)
      return (true, info)

def queryFromMongo (info : AccountInfo) : Login (Bool × AccountInfo) := do
  match ← Login.findUser (ascii "user_account") (.string info.account) with
  | none =>
      -- the document that was not found is logged
      let _ ← Login.undefined
      return (false, info)
  | some doc =>
      let info ← Prog.ofExcept .json
        (fromJson AccountInfo.fields (.object doc) info)
      return (true, info)

def queryUserAccount (info : AccountInfo) : Login (Bool × AccountInfo) := do
  let (found, info) ← queryFromRedis info
  let (found, info) ←
    if found then pure (true, info) else queryFromMongo info
  if found then
    jsonToHash (toJson AccountInfo.fields info) (accountRedisKey info.account)
      accountExpireSec
    return (true, info)
  else return (false, info)

def queryNewUserid : Login (Option (BitVec 32)) := do
  match ← Login.incCounter with
  | none => return none
  | some counter =>
      if -2 ^ 31 ≤ counter ∧ counter < 2 ^ 31 then
        return some (BitVec.ofInt 32 counter)
      else .fail .counterType

def defaultMaleHeaderUrls : List (List Byte) :=
  [ascii "default_header/default1.png", ascii "default_header/default2.png",
    ascii "default_header/default3.png"]

def generateNewUser (call : LoginCall) (info : AccountInfo) : UserInfo where
  account := info.account
  deviceCode := call.request.deviceCode
  deviceName := call.request.deviceName
  appType := call.request.appType
  userId := info.userId
  userSex := 0
  userName := call.request.userName
  headerUrl :=
    if call.request.headerUrl.isEmpty then
      (defaultMaleHeaderUrls[call.headerRand % 3]?).getD []
    else call.request.headerUrl
  userLevel := 0
  userCurExp := 0
  needExp := 0
  lastLoginTime := 0
  lastOfflineTime := 0
  isRobot := if call.isRobot then 1 else 0

def userFields (user : UserInfo) : Doc :=
  UserInfo.fields.map fun f => (f.name, f.type.toScalar (f.read user))

def insertNewUserRedis (user : UserInfo) : Login Unit :=
  jsonToHash (toJson UserInfo.fields user) (userInfoRedisKey user.userId)
    accountExpireSec

variable (m : LoginModule)

def insertNewUserDb (user : UserInfo) : Login Bool := do
  let _ ← Prog.ofOption .dump (m.dump (toJson UserInfo.fields user))
  Login.upsertUser user.userId (userFields user)

/-- After success nothing is returned. -/
def insertNewUser (user : UserInfo) : Login Bool := do
  if ← m.insertNewUserDb user then
    insertNewUserRedis user
    Login.undefined
  else return false

/-- The account with its new number, or the reason why there is none. -/
def registerAccount (call : LoginCall) (info : AccountInfo) :
    Login (Except Nat AccountInfo) := do
  match ← queryNewUserid with
  | none => return .error codeSystemError
  | some newId =>
      let info := { info with userId := newId }
      jsonToHash (toJson AccountInfo.fields info)
        (accountRedisKey info.account) accountExpireSec
      if ← m.insertNewUser (generateNewUser call info) then
        return .ok info
      else return .error codeAcocuntEmpty

def tokenJson (call : LoginCall) (userId : BitVec 32) : Json :=
  .object [
    (ascii "user_id", .numberInteger userId.toInt),
    (ascii "user_type", .numberInteger call.request.userType.toInt),
    (ascii "app_type", .numberInteger call.request.appType.toInt),
    (ascii "version", .string call.request.version),
    (ascii "os_version", .string call.request.osVersion),
    (ascii "channel", .string call.request.channel),
    (ascii "time", .numberInteger call.now)]

def updateType (version : List Byte) : Nat :=
  if m.versoinInfo.curVersion = version then 0
  else if ¬m.versoinInfo.forceVersion < version then 2
  else 1

def loginResponse (call : LoginCall) (userId : BitVec 32) :
    Login LoginOutcome := do
  let lobbyHost ← Prog.ofOption .undefined
    m.lobbyList[call.lobbyRand % m.lobbyList.length]?
  let text ← Prog.ofOption .dump (m.dump (tokenJson call userId))
  return .success {
    token := m.encrypt text
    userId := userId
    curVersion := m.versoinInfo.curVersion
    updateType := m.updateType call.request.version
    updateDesc := m.versoinInfo.updateDesc
    lobbyIp := lobbyHost.1
    lobbyPort := lobbyHost.2 }

def userLogin (call : LoginCall) : Login LoginOutcome := do
  if call.account.isEmpty then return .failed codeAcocuntEmpty
  else
    let (found, info) ← queryUserAccount ⟨call.account, 0⟩
    if call.isNeedGenerateNewAccount || !found then
      match ← m.registerAccount call info with
      | .error code => return .failed code
      | .ok info => m.loginResponse call info.userId
    else m.loginResponse call info.userId

end LoginModule

/-! ## Accounts and numbers -/

/-- The number that `from_json` takes from a document. -/
def userIdOf (doc : Doc) : Option (BitVec 32) :=
  (doc.lookup (ascii "user_id")).bind fun value =>
    (FieldType.intType.get value).toOption

def Holds (docs : List Doc) (account : List Byte) (userId : BitVec 32) :
    Prop :=
  ∃ doc ∈ docs, doc.lookup (ascii "user_account") = some (.string account) ∧
    userIdOf doc = some userId

def Named (docs : List Doc) (account : List Byte) : Prop :=
  ∃ doc ∈ docs, doc.lookup (ascii "user_account") = some (.string account)

instance (docs : List Doc) (account : List Byte) :
    Decidable (Named docs account) :=
  inferInstanceAs (Decidable (∃ doc ∈ docs, _ = _))

theorem Holds.named {docs : List Doc} {account : List Byte}
    {userId : BitVec 32} (h : Holds docs account userId) :
    Named docs account := by
  obtain ⟨doc, hdoc, haccount, _⟩ := h
  exact ⟨doc, hdoc, haccount⟩

section

variable {docs : List Doc}

theorem userIdOf_of_fromJson {doc : Doc} {info info' : AccountInfo}
    (h : fromJson AccountInfo.fields (.object doc) info = .ok info') :
    userIdOf doc = some info'.userId := by
  rw [fromJson, AccountInfo.fields, List.foldlM_cons] at h
  obtain ⟨_, _, h⟩ := bind_eq_ok h
  rw [List.foldlM_cons] at h
  obtain ⟨_, hwrite, h⟩ := bind_eq_ok h
  cases h
  obtain ⟨value, hvalue, hwrite⟩ := bind_eq_ok hwrite
  obtain ⟨userId, hget, hwrite⟩ := bind_eq_ok hwrite
  cases hwrite
  rw [Json.member] at hvalue
  cases hlookup : doc.lookup (ascii "user_id") with
  | none =>
      rw [hlookup] at hvalue
      cases hvalue
  | some found =>
      rw [hlookup] at hvalue
      cases hvalue
      rw [userIdOf, hlookup, Option.bind_some, hget]
      rfl

theorem userIdOf_of_hasUserId {userId : BitVec 32} {doc : Doc}
    (h : Stores.hasUserId userId doc) : userIdOf doc = some userId := by
  obtain ⟨value, hlookup, hnumber⟩ := Option.bind_eq_some_iff.mp h
  rw [userIdOf, hlookup, Option.bind_some]
  cases value with
  | null => cases hnumber
  | string s => cases hnumber
  | numberInteger i =>
      have hi : i = userId.toInt := Option.some.inj hnumber
      rw [hi, FieldType.get, BitVec.ofInt_toInt]
      rfl
  | numberUnsigned n =>
      have hn : (n : Int) = userId.toInt := Option.some.inj hnumber
      rw [FieldType.get, ← BitVec.ofInt_natCast, hn, BitVec.ofInt_toInt]
      rfl

theorem lookup_setFields_of_notMem {fields : Doc} {key : List Byte}
    (h : key ∉ fields.map Prod.fst) (doc : Doc) :
    (Stores.setFields fields doc).lookup key = doc.lookup key := by
  induction fields generalizing doc with
  | nil => rfl
  | cons e rest ih =>
      rw [List.map_cons, List.mem_cons, not_or] at h
      rw [Stores.setFields, List.foldl_cons]
      change (Stores.setFields rest _).lookup key = _
      rw [ih h.2, lookup_assign, if_neg h.1]

theorem lookup_setFields {before rest : Doc} {key : List Byte}
    (h : key ∉ rest.map Prod.fst) (value : Scalar) (doc : Doc) :
    (Stores.setFields (before ++ (key, value) :: rest) doc).lookup key =
      some value := by
  rw [Stores.setFields, List.foldl_append, List.foldl_cons]
  change (Stores.setFields rest _).lookup key = _
  rw [lookup_setFields_of_notMem h, lookup_assign, if_pos rfl]

theorem userIdOf_setFields (user : UserInfo) (doc : Doc) :
    userIdOf (Stores.setFields (LoginModule.userFields user) doc) =
      some user.userId := by
  have hsplit : LoginModule.userFields user =
      (LoginModule.userFields user).take 4 ++
        (ascii "user_id", .numberInteger user.userId.toInt) ::
          (LoginModule.userFields user).drop 5 := rfl
  have hrest : ascii "user_id" ∉
      ((LoginModule.userFields user).drop 5).map Prod.fst := by
    change ascii "user_id" ∉ ((UserInfo.fields).drop 5).map Field.name
    decide
  rw [userIdOf, hsplit, lookup_setFields hrest, Option.bind_some,
    FieldType.get, BitVec.ofInt_toInt]
  rfl

theorem lookup_userAccount_setFields (user : UserInfo) (doc : Doc) :
    (Stores.setFields (LoginModule.userFields user) doc).lookup
        (ascii "user_account") =
      doc.lookup (ascii "user_account") := by
  apply lookup_setFields_of_notMem
  change ascii "user_account" ∉ UserInfo.fields.map Field.name
  decide

theorem lookup_userId_only (value : Scalar) :
    ([(ascii "user_id", value)] : Doc).lookup (ascii "user_account") =
      none :=
  rfl

/-- What is written is found under no account it was not found under before. -/
theorem Holds.of_upserts {user : UserInfo} {docs' : List Doc}
    (h : Stores.Upserts user.userId (LoginModule.userFields user) docs docs')
    {account : List Byte} {userId : BitVec 32}
    (hholds : Holds docs' account userId) : Holds docs account userId := by
  obtain ⟨found, hmem, haccount, huserId⟩ := hholds
  rcases h with ⟨before, doc, rest, rfl, hdoc, rfl⟩ | ⟨_, rfl⟩
  · rcases List.mem_append.mp hmem with hbefore | hrest
    · exact ⟨found, List.mem_append_left _ hbefore, haccount, huserId⟩
    · rcases List.mem_cons.mp hrest with heq | hrest
      · rw [heq, lookup_userAccount_setFields] at haccount
        rw [heq, userIdOf_setFields] at huserId
        refine ⟨doc, by simp, haccount, ?_⟩
        rw [userIdOf_of_hasUserId hdoc, huserId]
      · exact ⟨found, by simp [hrest], haccount, huserId⟩
  · rcases List.mem_append.mp hmem with hold | hnew
    · exact ⟨found, hold, haccount, huserId⟩
    · rw [List.mem_singleton.mp hnew, lookup_userAccount_setFields,
        lookup_userId_only] at haccount
      cases haccount

theorem Named.of_upserts {user : UserInfo} {docs' : List Doc}
    (h : Stores.Upserts user.userId (LoginModule.userFields user) docs docs')
    {account : List Byte} (hnamed : Named docs account) :
    Named docs' account := by
  obtain ⟨found, hmem, haccount⟩ := hnamed
  rcases h with ⟨before, doc, rest, rfl, _, rfl⟩ | ⟨_, rfl⟩
  · rcases List.mem_append.mp hmem with hbefore | hrest
    · exact ⟨found, by simp [hbefore], haccount⟩
    · rcases List.mem_cons.mp hrest with rfl | hrest
      · refine ⟨_, List.mem_append_right _ List.mem_cons_self, ?_⟩
        rw [lookup_userAccount_setFields]
        exact haccount
      · exact ⟨found, by simp [hrest], haccount⟩
  · exact ⟨found, List.mem_append_left _ hmem, haccount⟩

end

/-! ## Every login -/

namespace LoginModule

variable {init : Stores}

structure Within (init s : Stores) : Prop where
  holds : ∀ account userId, Holds s.docs account userId →
    Holds init.docs account userId
  named : ∀ account, Named init.docs account → Named s.docs account
  counter : init.counter ≤ s.counter

theorem Within.refl (init : Stores) : Within init init :=
  ⟨fun _ _ h => h, fun _ h => h, le_refl _⟩

def issued : (c : StoreCmd) → c.Reply → List Int
  | .incCounter, reply => Option.toList reply
  | _, _ => []

def Issued (init s : Stores) (t : Int) : Prop :=
  init.counter < t ∧ t ≤ s.counter

theorem issued_nodup (c : StoreCmd) (r : c.Reply) : (issued c r).Nodup := by
  cases c with
  | incCounter =>
      cases r with
      | none => exact List.nodup_nil
      | some n => exact List.nodup_singleton n
  | _ => exact List.nodup_nil

theorem counter_le {c : StoreCmd} {s s' : Stores} {r : c.Reply}
    (h : Stores.exec c s r s') : s.counter ≤ s'.counter := by
  cases c with
  | hgetall key => rw [h.1]
  | hset key field value => rcases h with rfl | rfl <;> exact le_refl _
  | expire key seconds => rw [h]
  | findUser field value => rw [h.1]
  | incCounter =>
      rw [h.2]
      exact Int.le_add_of_nonneg_right (by decide)
  | upsertUser userId fields =>
      obtain ⟨docs, -, rfl⟩ := h
      exact le_refl _
  | undefined => rw [h]

theorem issued_grants (init : Stores) :
    Prog.Grants Stores.exec Stores.drift (Within init) issued
      (Issued init) where
  stay c s r s' _ hexec t h := ⟨h.1, h.2.trans (counter_le hexec)⟩
  fresh c s r s' hs hexec t ht := by
    cases c with
    | incCounter =>
        obtain ⟨rfl, rfl⟩ := hexec
        have hinit := hs.counter
        obtain rfl : t = s.counter + 1 := List.mem_singleton.mp ht
        simp only [Issued]
        omega
    | _ => exact absurd ht List.not_mem_nil
  nodup := issued_nodup
  drift s s' hs hdrift := by
    obtain ⟨key, rfl⟩ := hdrift
    exact ⟨⟨hs.holds, hs.named, hs.counter⟩, fun t h => h⟩

/-- A part of a login that gets no number, and what holds of its result. -/
def Keeps {α : Type} (init : Stores) (P : α → Prop) (p : Login α) : Prop :=
  ∀ held, p.Ensures Stores.exec (Within init) issued
    (fun held' a => held' = held ∧ P a) held

section

variable {α β : Type} {P : α → Prop}

theorem Keeps.ensures {p : Login α} (hp : Keeps init P p)
    {f : α → Login β} {R : List Int → β → Prop} {held : List Int}
    (hf : ∀ a, P a →
      (f a).Ensures Stores.exec (Within init) issued R held) :
    (p >>= f).Ensures Stores.exec (Within init) issued R held := by
  apply (hp held).bind
  rintro _ a ⟨rfl, ha⟩
  exact hf a ha

theorem Keeps.bind {R : β → Prop} {p : Login α} {f : α → Login β}
    (hp : Keeps init P p) (hf : ∀ a, P a → Keeps init R (f a)) :
    Keeps init R (p >>= f) :=
  fun held => hp.ensures fun a ha => hf a ha held

theorem keeps_pure {a : α} (h : P a) : Keeps init P (pure a) :=
  fun _ => ⟨rfl, h⟩

theorem keeps_ofOption {e : LoginFault} {x : Option α}
    (h : ∀ a, x = some a → P a) : Keeps init P (Prog.ofOption e x) :=
  fun _ => Prog.ensures_ofOption fun a ha => ⟨rfl, h a ha⟩

theorem keeps_ofExcept {ε : Type} {f : ε → LoginFault} {x : Except ε α}
    (h : ∀ a, x = .ok a → P a) : Keeps init P (Prog.ofExcept f x) :=
  fun _ => Prog.ensures_ofExcept fun a ha => ⟨rfl, h a ha⟩

end

theorem keeps_hset (key field value : List Byte) :
    Keeps init (fun _ => True) (Login.hset key field value) := by
  intro held s _ s' hs hexec
  refine ⟨?_, List.append_nil _, trivial⟩
  rcases hexec with rfl | rfl
  · exact hs
  · exact ⟨hs.holds, hs.named, hs.counter⟩

theorem keeps_jsonToHash (jv : Json) (key : List Byte) (expireSec : Nat) :
    Keeps init (fun _ => True) (jsonToHash jv key expireSec) := by
  intro held
  apply Prog.Ensures.bind (Prog.ensures_forM fun e _ =>
    (keeps_hset key e.1 e.2 held).mono fun _ _ h => h.1)
  rintro _ _ rfl
  split_ifs
  · rintro s _ s' hs rfl
    exact ⟨hs, List.append_nil _, trivial⟩
  · exact ⟨rfl, trivial⟩

theorem keeps_hgetall (key : List Byte) :
    Keeps init (fun _ => True) (Login.hgetall key) := by
  rintro held s reply s' hs ⟨rfl, _⟩
  exact ⟨hs, List.append_nil _, trivial⟩

theorem keeps_findUser (field : List Byte) (account : List Byte)
    (hfield : field = ascii "user_account") :
    Keeps init
      (fun reply => match reply with
        | some doc => doc.lookup field = some (.string account) ∧
            ∀ userId, userIdOf doc = some userId →
              Holds init.docs account userId
        | none => ¬Named init.docs account)
      (Login.findUser field (.string account)) := by
  subst hfield
  rintro held s reply s' hs ⟨rfl, hreply⟩
  refine ⟨hs, List.append_nil _, ?_⟩
  cases reply with
  | some doc =>
      refine ⟨hreply.2, fun userId huserId => ?_⟩
      exact hs.holds _ _ ⟨doc, hreply.1, hreply.2, huserId⟩
  | none =>
      intro hnamed
      obtain ⟨doc, hdoc, haccount⟩ := hs.named _ hnamed
      exact hreply doc hdoc haccount

theorem keeps_upsertUser (user : UserInfo) :
    Keeps init (fun _ => True)
      (Login.upsertUser user.userId (userFields user)) := by
  rintro held s reply s' hs ⟨docs', hupserts, rfl⟩
  refine ⟨⟨fun account userId hholds => ?_, fun account hnamed => ?_,
    hs.counter⟩, List.append_nil _, trivial⟩
  · exact hs.holds account userId (hholds.of_upserts hupserts)
  · exact (hs.named account hnamed).of_upserts hupserts

theorem keeps_undefined : Keeps init (fun _ => True) Login.undefined := by
  rintro held s reply s' hs rfl
  refine ⟨hs, Prog.ensures_ofOption fun _ _ => ?_⟩
  exact ⟨List.append_nil _, trivial⟩

theorem keeps_queryFromRedis (info : AccountInfo) :
    Keeps init (fun r => r = (false, info)) (queryFromRedis info) := by
  apply (keeps_hgetall _).bind
  intro reply _
  cases reply with
  | null => exact keeps_pure rfl
  | error => exact keeps_pure rfl
  | array ar =>
      refine Keeps.bind (P := fun _ => False)
        (keeps_ofExcept fun info' hload => ?_) fun _ h => h.elim
      rw [load_eq_error AccountInfo.fields_ne_nil] at hload
      cases hload

/-- An account is found with the number of a document, or is in none. -/
def Queried (init : Stores) (account : List Byte) (r : Bool × AccountInfo) :
    Prop :=
  r.1 = true ∧ Holds init.docs account r.2.userId ∨
    r.1 = false ∧ ¬Named init.docs account

theorem keeps_queryFromMongo (info : AccountInfo) :
    Keeps init (Queried init info.account) (queryFromMongo info) := by
  apply (keeps_findUser _ info.account rfl).bind
  intro reply hreply
  cases reply with
  | none =>
      apply keeps_undefined.bind
      exact fun _ _ => keeps_pure (.inr ⟨rfl, hreply⟩)
  | some doc =>
      refine Keeps.bind (P := fun info' =>
        fromJson AccountInfo.fields (.object doc) info = .ok info')
        (keeps_ofExcept fun _ h => h) fun info' hjson => ?_
      exact keeps_pure (.inl ⟨rfl, hreply.2 _ (userIdOf_of_fromJson hjson)⟩)

theorem keeps_queryUserAccount (info : AccountInfo) :
    Keeps init (Queried init info.account) (queryUserAccount info) := by
  apply (keeps_queryFromRedis info).bind
  rintro _ rfl
  apply (keeps_queryFromMongo info).bind
  rintro ⟨found, info'⟩ (⟨rfl, hinfo⟩ | ⟨rfl, hinfo⟩)
  · apply (keeps_jsonToHash _ _ _).bind
    exact fun _ _ => keeps_pure (.inl ⟨rfl, hinfo⟩)
  · exact keeps_pure (.inr ⟨rfl, hinfo⟩)

def Own (held : List Int) (userId : BitVec 32) : Prop :=
  ∃ t ∈ held, (-2 ^ 31 ≤ t ∧ t < 2 ^ 31) ∧ userId = BitVec.ofInt 32 t

theorem Own.toInt_mem {held : List Int} {userId : BitVec 32}
    (h : Own held userId) : userId.toInt ∈ held := by
  obtain ⟨t, ht, hrange, rfl⟩ := h
  have htoInt : (BitVec.ofInt 32 t).toInt = t := by
    rw [BitVec.toInt_ofInt]
    apply Int.bmod_eq_of_le <;> omega
  rwa [htoInt]

theorem ensures_queryNewUserid (held : List Int) :
    queryNewUserid.Ensures Stores.exec (Within init) issued
      (fun held' r => ∀ userId, r = some userId → Own held' userId) held := by
  rintro s reply s' hs ⟨rfl, rfl⟩
  have hinit := hs.counter
  refine ⟨⟨hs.holds, hs.named, by dsimp only; omega⟩, ?_⟩
  change Prog.Ensures _ _ _ _ (if _ then _ else _) _
  split_ifs with hrange
  · rintro userId heq
    obtain rfl := Option.some.inj heq
    exact ⟨s.counter + 1,
      List.mem_append_right _ (List.mem_singleton_self _), hrange, rfl⟩
  · trivial

variable {m : LoginModule}

theorem keeps_insertNewUser (user : UserInfo) :
    Keeps init (fun _ => True) (m.insertNewUser user) := by
  refine Keeps.bind (P := fun _ => True) ?_ fun inserted _ => ?_
  · apply Keeps.bind (P := fun _ => True)
      (keeps_ofOption fun _ _ => trivial)
    exact fun _ _ => keeps_upsertUser user
  · cases inserted with
    | false => exact keeps_pure trivial
    | true =>
        apply (keeps_jsonToHash _ _ _).bind
        exact fun _ _ => keeps_undefined

theorem ensures_registerAccount (call : LoginCall) (info : AccountInfo)
    (held : List Int) :
    (m.registerAccount call info).Ensures Stores.exec (Within init) issued
      (fun held' r => ∀ info', r = .ok info' → Own held' info'.userId)
      held := by
  apply (ensures_queryNewUserid held).bind
  intro held' reply hreply
  cases reply with
  | none =>
      intro info' h
      cases h
  | some newId =>
      apply (keeps_jsonToHash _ _ _).ensures
      intro _ _
      apply (keeps_insertNewUser _).ensures
      intro inserted _
      cases inserted with
      | false =>
          intro info' h
          cases h
      | true =>
          intro info' h
          cases h
          exact hreply newId rfl

def Tokened (m : LoginModule) (call : LoginCall) (response : LoginResponse) :
    Prop :=
  ∃ text, m.dump (tokenJson call response.userId) = some text ∧
    response.token = m.encrypt text

theorem keeps_loginResponse (call : LoginCall) (userId : BitVec 32) :
    Keeps init (fun outcome => ∃ response, outcome = .success response ∧
        response.userId = userId ∧ m.Tokened call response)
      (m.loginResponse call userId) := by
  apply Keeps.bind (P := fun _ => True) (keeps_ofOption fun _ _ => trivial)
  intro lobbyHost _
  apply Keeps.bind (P := fun text =>
    m.dump (tokenJson call userId) = some text) (keeps_ofOption fun _ h => h)
  exact fun text htext => keeps_pure ⟨_, rfl, rfl, text, htext, rfl⟩

inductive Numbered (init : Stores) (call : LoginCall) (held : List Int)
    (userId : BitVec 32) : Prop where
  | registered (hown : Own held userId)
      (hnew : Named init.docs call.account →
        call.isNeedGenerateNewAccount = true)
  | found (hholds : Holds init.docs call.account userId)
      (hgiven : call.isNeedGenerateNewAccount = false)

def Answered (m : LoginModule) (init : Stores) (call : LoginCall)
    (held : List Int) (outcome : LoginOutcome) : Prop :=
  ∀ response, outcome = .success response →
    Numbered init call held response.userId ∧ m.Tokened call response

theorem ensures_loginResponse {call : LoginCall} {userId : BitVec 32}
    {held : List Int} (h : Numbered init call held userId) :
    (m.loginResponse call userId).Ensures Stores.exec (Within init) issued
      (Answered m init call) held := by
  apply (keeps_loginResponse call userId held).mono
  rintro _ _ ⟨rfl, response, rfl, rfl, htoken⟩ _ heq
  cases heq
  exact ⟨h, htoken⟩

theorem ensures_userLogin (m : LoginModule) (call : LoginCall) :
    (m.userLogin call).Ensures Stores.exec (Within init) issued
      (Answered m init call) [] := by
  rw [userLogin]
  split_ifs
  · intro response h
    cases h
  · apply (keeps_queryUserAccount _).ensures
    rintro ⟨found, info⟩ hqueried
    have hregister (hnew : Named init.docs call.account →
          call.isNeedGenerateNewAccount = true) :
        (do
          match ← m.registerAccount call info with
          | .error code => return LoginOutcome.failed code
          | .ok info => m.loginResponse call info.userId).Ensures Stores.exec
          (Within init) issued (Answered m init call) [] := by
      apply (ensures_registerAccount call info []).bind
      intro held r hr
      cases r with
      | error code =>
          intro response h
          cases h
      | ok info' =>
          exact ensures_loginResponse (.registered (hr info' rfl) hnew)
    dsimp only
    rcases hqueried with ⟨rfl, hholds⟩ | ⟨rfl, hunnamed⟩
    · cases hgenerate : call.isNeedGenerateNewAccount with
      | true => exact hregister fun _ => hgenerate
      | false => exact ensures_loginResponse (.found hholds hgenerate)
    · rw [Bool.not_false, Bool.or_true, if_pos rfl]
      exact hregister fun hnamed => absurd hnamed hunnamed

end LoginModule

/-! ## Logins side by side -/

abbrev LoginPool :=
  Prog.Pool StoreCmd StoreCmd.Reply LoginFault LoginOutcome Stores LoginCall

abbrev LoginReachable (m : LoginModule) (init : Stores) : LoginPool → Prop :=
  Prog.Pool.Reachable Stores.exec Stores.drift (fun _ _ => True) m.userLogin
    init

abbrev LoginModule.Backed (m : LoginModule) (init : Stores) (pool : LoginPool) :
    LoginCall × LoginOutcome → List Int → Prop :=
  Prog.Backed (LoginModule.Issued init) (m.Answered init) pool.store

theorem backed_of_reachable {m : LoginModule} {init : Stores}
    {ok : LoginPool → LoginCall → Prop} {pool : LoginPool}
    (h : Prog.Pool.Reachable Stores.exec Stores.drift ok m.userLogin init
      pool) :
    (∀ e ∈ pool.results, ∃ held, m.Backed init pool e held) ∧
      pool.results.Pairwise fun e e' => ∃ held held',
        m.Backed init pool e held ∧ m.Backed init pool e' held' ∧
          held.Disjoint held' :=
  h.backed (LoginModule.issued_grants init)
    (fun _ call _ => LoginModule.ensures_userLogin m call)
    (LoginModule.Within.refl init)

theorem tokened_of_success {m : LoginModule} {init : Stores}
    {pool : LoginPool} (h : LoginReachable m init pool) {call : LoginCall}
    {response : LoginResponse}
    (hresult : (call, .success response) ∈ pool.results) :
    m.Tokened call response := by
  obtain ⟨held, hanswered, _⟩ := (backed_of_reachable h).1 _ hresult
  exact (hanswered response rfl).2

/--
Redis answers with errors and the database as it should, and what is undefined
goes on.
-/
def Stores.quiet : (c : StoreCmd) → Stores → Option (c.Reply × Stores)
  | .hgetall _, s => some (.error, s)
  | .hset _ _ _, s => some ((), s)
  | .expire _ _, s => some ((), s)
  | .findUser field value, s =>
      some (s.docs.find? fun doc => doc.lookup field = some value, s)
  | .incCounter, s =>
      some (some (s.counter + 1), { s with counter := s.counter + 1 })
  | .upsertUser userId fields, s =>
      if ∀ doc ∈ s.docs, ¬hasUserId userId doc then
        some (true, { s with docs := s.docs ++
          [setFields fields
            [(ascii "user_id", .numberInteger userId.toInt)]] })
      else none
  | .undefined, s => some (some true, s)

theorem Stores.exec_quiet (c : StoreCmd) (s : Stores) (r : c.Reply)
    (s' : Stores) (h : quiet c s = some (r, s')) : exec c s r s' := by
  cases c with
  | hgetall key =>
      cases h
      exact ⟨rfl, .inr (.inl rfl)⟩
  | hset key field value =>
      cases h
      exact .inl rfl
  | expire key seconds =>
      cases h
      rfl
  | findUser field value =>
      cases h
      refine ⟨rfl, ?_⟩
      cases hfind : s.docs.find? fun doc => doc.lookup field = some value with
      | none =>
          intro doc hdoc
          simpa using List.find?_eq_none.mp hfind doc hdoc
      | some doc =>
          refine ⟨List.mem_of_find?_eq_some hfind, ?_⟩
          simpa using List.find?_some hfind
  | incCounter =>
      cases h
      exact ⟨rfl, rfl⟩
  | upsertUser userId fields =>
      rw [quiet] at h
      split_ifs at h with hnew
      cases h
      exact ⟨_, .inr ⟨hnew, rfl⟩, rfl⟩
  | undefined =>
      cases h
      rfl

namespace LoginCall

def ofAccount (account : List Byte) : LoginCall where
  request := ⟨account, [], [], [], 2, [], [], [], 0, []⟩
  isRobot := false
  generated := []
  now := 1
  lobbyRand := 0
  headerRand := 0

end LoginCall

def namedDoc (account : List Byte) (userId : Nat) : Doc :=
  [(ascii "user_account", .string account), (ascii "account", .string account),
    (ascii "user_id", .numberUnsigned userId)]

def twoAccounts : Stores :=
  ⟨[], [namedDoc (ascii "guest") 10000501, namedDoc (ascii "host") 10000502],
    10000502⟩

def sampleText (userId : Int) : List Byte :=
  ascii ("\x7b\"app_type\":2,\"channel\":\"\",\"os_version\":\"\"," ++
    "\"time\":1,\"user_id\":" ++ toString userId ++
    ",\"user_type\":0,\"version\":\"\"\x7d")

def sampleModule : LoginModule where
  lobbyList := [(ascii "127.0.0.1", 9001)]
  versoinInfo := ⟨[], [], []⟩
  dump jv :=
    match jv.member (ascii "user_id") with
    | .ok (.numberInteger userId) => some (sampleText userId)
    | _ => none
  encrypt text :=
    if text = sampleText 10000501 then
      ascii ("nRW1aUBFztJQnuxmJgr/iXUK1/UZ0Dd6ALCY5scLsIOaTm6JZl1V32/3k5DSxoFz" ++
        "UkVNXwp/Y+uEJ7+H9IONihBMyJSgPgZ87oY06SJKeplZmqNLtSrIZ3CXUWSRPHXt" ++
        "ycV+0EQR5Jm5zJ6Fm0xOnA==")
    else
      ascii ("nRW1aUBFztJQnuxmJgr/iXUK1/UZ0Dd6ALCY5scLsIOaTm6JZl1V32/3k5DSxoFz" ++
        "UkVNXwp/Y+uEJ7+H9IONih/EqNnsbPtkwhxC6P91BwBZmqNLtSrIZ3CXUWSRPHXt" ++
        "ycV+0EQR5Jm5zJ6Fm0xOnA==")

def sampleResponse (userId : BitVec 32) : LoginResponse where
  token := sampleModule.encrypt (sampleText userId.toInt)
  userId := userId
  curVersion := []
  updateType := 0
  updateDesc := []
  lobbyIp := ascii "127.0.0.1"
  lobbyPort := 9001

end StarsGaming.Lobby
