import StarsGaming.Lobby.Login

/-!
# Accounts and their numbers

The number of an account is given out by the counter of the database, which
gives none twice.  The account itself is stored under a name that no lookup asks
for: whoever logs in a second time is registered again.
-/

namespace StarsGaming.Lobby

open Foundation

/-- Two logins that succeed are for one account if they get one number. -/
def AccountIdentity (pool : LoginPool) : Prop :=
  ∀ call call' response response', (call, .success response) ∈ pool.results →
    (call', .success response') ∈ pool.results →
      (call.account = call'.account ↔ response.userId = response'.userId)

def LoginOutcome.succeeded : LoginOutcome → Bool
  | .success _ => true
  | .failed _ => false

/--
The documents have one number for the account, and no other account and no
login to come will get it.
-/
def Agrees (init : Stores) (account : List Byte) : Prop :=
  ∃ id : BitVec 32, id.toInt ≤ init.counter ∧
    ∀ account' userId, Holds init.docs account' userId →
      (account' = account ↔ userId = id)

/--
The login is for an account that the documents of the start agree on, or for
one that is in none of them and that no other login is at work for or has
succeeded for.
-/
def Apart (init : Stores) (pool : LoginPool) (call : LoginCall) : Prop :=
  if Named init.docs call.account then
    call.isNeedGenerateNewAccount = false ∧ Agrees init call.account
  else
    ∀ other ∈ pool.parties LoginOutcome.succeeded,
      other.account ≠ call.account

abbrev LoginReaches (m : LoginModule) (init : Stores) : LoginPool → Prop :=
  Prog.Pool.Reachable Stores.exec Stores.drift (Apart init) m.userLogin init

namespace LoginModule

variable {init : Stores} {call call' : LoginCall}
  {response response' : LoginResponse} {held held' : List Int}

theorem ne_of_disjoint {userId userId' : BitVec 32} (h : Own held userId)
    (h' : Own held' userId') (hdisjoint : held.Disjoint held') :
    userId ≠ userId' := by
  rintro rfl
  exact hdisjoint h.toInt_mem h'.toInt_mem

theorem registered_or_named {m : LoginModule} {pool : LoginPool}
    (h : m.Backed init pool (call, .success response) held) :
    (Own held response.userId ∧ init.counter < response.userId.toInt) ∧
        (Named init.docs call.account →
          call.isNeedGenerateNewAccount = true) ∨
      Holds init.docs call.account response.userId := by
  obtain ⟨hanswered, hissued⟩ := h
  cases (hanswered response rfl).1 with
  | found hholds _ => exact .inr hholds
  | registered hown hnew =>
      exact .inl ⟨⟨hown, (hissued _ hown.toInt_mem).1⟩, hnew⟩

end LoginModule

/-! ## Apart from each other -/

section

variable {m : LoginModule} {init : Stores} {pool : LoginPool}

def Settled (init : Stores) (call : LoginCall) : Prop :=
  Named init.docs call.account →
    call.isNeedGenerateNewAccount = false ∧ Agrees init call.account

theorem Apart.settled {call : LoginCall} (h : Apart init pool call) :
    Settled init call := by
  intro hnamed
  rwa [Apart, if_pos hnamed] at h

theorem settled_of_reaches (h : LoginReaches m init pool) :
    ∀ e ∈ pool.results, Settled init e.1 := by
  have hbacked := h.backed (Q := fun call _ _ => Settled init call)
    (LoginModule.issued_grants init)
    (fun _ call hok => (LoginModule.ensures_userLogin m call).mono
      fun _ _ _ => hok.settled)
    (LoginModule.Within.refl init)
  intro e he
  obtain ⟨held, hsettled, _⟩ := hbacked.1 e he
  exact hsettled

theorem named_of_reaches (h : LoginReaches m init pool) :
    pool.results.Pairwise fun e e' => e.2.succeeded → e'.2.succeeded →
      e.1.account = e'.1.account → Named init.docs e.1.account := by
  have hparties : (pool.parties LoginOutcome.succeeded).Pairwise
      fun call call' => call.account = call'.account →
        Named init.docs call.account := by
    apply h.parties_pairwise
      fun call call' hnamed heq => heq ▸ hnamed heq.symm
    intro pool call hok other hother heq
    by_cases hnamed : Named init.docs call.account
    · rwa [heq]
    · rw [Apart, if_neg hnamed] at hok
      exact absurd heq (hok other hother)
  have hresults := (List.pairwise_append.mp hparties).2.1
  rwa [List.pairwise_map, List.pairwise_filter] at hresults

theorem Agrees.eq_iff {account : List Byte} (h : Agrees init account)
    {userId : BitVec 32} (hholds : Holds init.docs account userId)
    {account' : List Byte} {userId' : BitVec 32}
    (hholds' : Holds init.docs account' userId') :
    account = account' ↔ userId = userId' := by
  obtain ⟨id, -, hiff⟩ := h
  rw [(hiff account userId hholds).mp rfl, eq_comm, hiff account' userId'
    hholds', eq_comm]

theorem Agrees.toInt_le {account : List Byte} (h : Agrees init account)
    {userId : BitVec 32} (hholds : Holds init.docs account userId) :
    userId.toInt ≤ init.counter := by
  obtain ⟨id, hle, hiff⟩ := h
  rwa [(hiff account userId hholds).mp rfl]

theorem ne_of_registered {call call' : LoginCall} {userId userId' : BitVec 32}
    (hlt : init.counter < userId.toInt)
    (hnew : Named init.docs call.account →
      call.isNeedGenerateNewAccount = true)
    (hsettled : Settled init call) (hsettled' : Settled init call')
    (hholds : Holds init.docs call'.account userId') :
    call.account ≠ call'.account ∧ userId ≠ userId' := by
  have hnamed := hholds.named
  have hle := (hsettled' hnamed).2.toInt_le hholds
  constructor
  · intro heq
    rw [← heq] at hnamed
    have hgiven := (hsettled hnamed).1
    rw [hnew hnamed] at hgiven
    cases hgiven
  · rintro rfl
    omega

def ToldApart (e e' : LoginCall × LoginOutcome) : Prop :=
  ∀ response response', e.2 = .success response → e'.2 = .success response' →
    (e.1.account = e'.1.account ↔ response.userId = response'.userId)

instance : Std.Symm ToldApart where
  symm _ _ h response response' hresponse hresponse' := by
    rw [eq_comm, h response' response hresponse' hresponse, eq_comm]

theorem toldApart_self (e : LoginCall × LoginOutcome) : ToldApart e e := by
  intro response response' hresponse hresponse'
  cases hresponse.symm.trans hresponse'
  exact iff_of_true rfl rfl

theorem toldApart_of_backed {e e' : LoginCall × LoginOutcome}
    {held held' : List Int} (hsettled : Settled init e.1)
    (hsettled' : Settled init e'.1)
    (hnamed : e.2.succeeded → e'.2.succeeded →
      e.1.account = e'.1.account → Named init.docs e.1.account)
    (hbacked : m.Backed init pool e held)
    (hbacked' : m.Backed init pool e' held')
    (hdisjoint : held.Disjoint held') : ToldApart e e' := by
  rcases e with ⟨call, _⟩
  rcases e' with ⟨call', _⟩
  rintro response response' rfl rfl
  rcases LoginModule.registered_or_named hbacked with
    ⟨⟨hown, hlt⟩, hnew⟩ | hholds <;>
    rcases LoginModule.registered_or_named hbacked' with
      ⟨⟨hown', hlt'⟩, hnew'⟩ | hholds'
  · refine iff_of_false (fun heq => ?_)
      (LoginModule.ne_of_disjoint hown hown' hdisjoint)
    have hsame := hnamed rfl rfl heq
    have hgiven := (hsettled hsame).1
    rw [hnew hsame] at hgiven
    cases hgiven
  · have hne := ne_of_registered hlt hnew hsettled hsettled' hholds'
    exact iff_of_false hne.1 hne.2
  · have hne := ne_of_registered hlt' hnew' hsettled' hsettled hholds
    exact iff_of_false hne.1.symm hne.2.symm
  · exact (hsettled hholds.named).2.eq_iff hholds hholds'

theorem accountIdentity_of_reaches (h : LoginReaches m init pool) :
    AccountIdentity pool := by
  have hsettled := settled_of_reaches h
  have hpairwise : pool.results.Pairwise ToldApart := by
    apply ((backed_of_reachable h).2.and (named_of_reaches h)).imp_of_mem
    rintro e e' he he' ⟨⟨held, held', hbacked, hbacked', hdisjoint⟩, hnamed⟩
    exact toldApart_of_backed (hsettled e he) (hsettled e' he') hnamed hbacked
      hbacked' hdisjoint
  have hall := List.Pairwise.forall_of_forall
    (fun e _ => toldApart_self e) hpairwise
  intro call call' response response' hresult hresult'
  exact hall hresult hresult' response response' rfl rfl

end

/-! ## Redis as it should be -/

def Stores.Served : (c : StoreCmd) → c.Reply → Prop
  | .hgetall _, reply => ∃ elements, reply = .array elements
  | _, _ => True

def Stores.execServed (c : StoreCmd) (s : Stores) (r : c.Reply)
    (s' : Stores) : Prop :=
  Stores.exec c s r s' ∧ Served c r

theorem ensures_queryFromRedis_served (info : AccountInfo) :
    (LoginModule.queryFromRedis info).Ensures Stores.execServed
      (fun _ => True) (fun _ _ => ([] : List Unit)) (fun _ _ => False) [] := by
  have hserved : (Login.hgetall
      (LoginModule.accountRedisKey info.account)).Ensures Stores.execServed
      (fun _ => True) (fun _ _ => ([] : List Unit))
      (fun _ reply => ∃ elements, reply = .array elements) [] :=
    fun _ _ _ _ hexec => ⟨trivial, hexec.2⟩
  apply hserved.bind
  rintro held _ ⟨elements, rfl⟩
  refine Prog.Ensures.bind (Q := fun _ _ => False)
    (Prog.ensures_ofExcept fun info' hload => ?_) fun _ _ h => h.elim
  rw [load_eq_error AccountInfo.fields_ne_nil] at hload
  cases hload

theorem ensures_userLogin_served (m : LoginModule) (call : LoginCall) :
    (m.userLogin call).Ensures Stores.execServed (fun _ => True)
      (fun _ _ => ([] : List Unit))
      (fun _ outcome => ∃ code, outcome = .failed code) [] := by
  rw [LoginModule.userLogin]
  split_ifs
  · exact ⟨_, rfl⟩
  · have hquery : (LoginModule.queryUserAccount ⟨call.account, 0⟩).Ensures
        Stores.execServed (fun _ => True) (fun _ _ => ([] : List Unit))
        (fun _ _ => False) [] :=
      (ensures_queryFromRedis_served _).bind fun _ _ h => h.elim
    exact hquery.bind fun _ _ h => h.elim

theorem not_success_of_served {m : LoginModule} {init : Stores}
    {pool : LoginPool}
    (h : Prog.Pool.Reachable Stores.execServed Stores.drift
      (fun _ _ => True) m.userLogin init pool)
    (call : LoginCall) (response : LoginResponse) :
    (call, .success response) ∉ pool.results := by
  intro hresult
  have hgrants : Prog.Grants Stores.execServed Stores.drift (fun _ => True)
      (fun _ _ => ([] : List Unit)) fun _ _ => True :=
    { stay := fun _ _ _ _ _ _ _ h => h
      fresh := fun _ _ _ _ _ _ _ ht => absurd ht List.not_mem_nil
      nodup := fun _ _ => List.nodup_nil
      drift := fun _ _ _ _ => ⟨trivial, fun _ h => h⟩ }
  obtain ⟨_, ⟨code, hcode⟩, _⟩ := (h.backed hgrants
    (fun _ call _ => ensures_userLogin_served m call) trivial).1 _ hresult
  cases hcode

def freshStores : Stores := ⟨[], [], 10000500⟩

def Stores.registered (call : LoginCall) (s : Stores) : Stores :=
  let userId := BitVec.ofInt 32 (s.counter + 1)
  { s with
    counter := s.counter + 1
    docs := s.docs ++ [setFields
      (LoginModule.userFields
        (LoginModule.generateNewUser call ⟨call.account, userId⟩))
      [(ascii "user_id", .numberInteger userId.toInt)]] }

def twoLogins (call : LoginCall) : LoginPool where
  store := (freshStores.registered (.ofAccount (ascii "guest"))).registered call
  running := []
  results :=
    [(.ofAccount (ascii "guest"), .success (sampleResponse 10000501)),
      (call, .success (sampleResponse 10000502))]

theorem guest_registers :
    (sampleModule.userLogin (.ofAccount (ascii "guest"))).answer Stores.quiet
        freshStores =
      some (.success (sampleResponse 10000501),
        freshStores.registered (.ofAccount (ascii "guest"))) :=
  rfl

end StarsGaming.Lobby
