import Mathlib.Tactic
import StarsGaming.Foundation.Entries
import StarsGaming.Foundation.Runs

/-!
# Users and their sessions

Two tables of players: by user, for everybody who is known, and by session, for
those who are online.  A player also has a pointer to its session.  Players are
shared, so that they are kept at fixed positions of a list which only grows.
The game server and the lobby differ in what they do when a session closes.
-/

namespace StarsGaming.Lobby

open Foundation

structure Player where
  userId : Int
  session : Option Nat
  room : Option Nat

inductive Server where
  | game
  | lobby

/--
Sessions and rooms are numbered.  `shutdowns` are the sessions that were told to
shut down, and `lastUser` is who logged in on a session last; no function looks
at either.
-/
structure PlayerManager where
  players : List Player
  loginUser : Int → Option Nat
  onlineUser : Nat → Option Nat
  shutdowns : List Nat
  lastUser : Nat → Option Int

namespace PlayerManager

inductive Fault where
  /-- `assert(0)` -/
  | assertion
  | noPlayer

def new : PlayerManager :=
  ⟨[], fun _ => none, fun _ => none, [], fun _ => none⟩

def setSession (p : Nat) (session : Option Nat) (t : PlayerManager) :
    PlayerManager :=
  { t with players := t.players.modify p fun player =>
      { player with session := session } }

def setRoom (p : Nat) (room : Option Nat) (t : PlayerManager) :
    PlayerManager :=
  { t with players := t.players.modify p fun player =>
      { player with room := room } }

def eraseOnline (session : Option Nat) (t : PlayerManager) : PlayerManager :=
  match session with
  | none => t
  | some s => { t with onlineUser := Function.update t.onlineUser s none }

def eraseLogin (user : Int) (t : PlayerManager) : PlayerManager :=
  { t with loginUser := Function.update t.loginUser user none }

def setOnline (session p : Nat) (user : Int) (t : PlayerManager) :
    PlayerManager :=
  { t with
    onlineUser := Function.update t.onlineUser session (some p)
    lastUser := Function.update t.lastUser session (some user) }

def newPlayer (user : Int) (session : Nat) (t : PlayerManager) :
    PlayerManager :=
  let p := t.players.length
  let t := { t with
    players := t.players ++ [Player.mk user (some session) none]
    loginUser := Function.update t.loginUser user (some p) }
  t.setOnline session p user

def shutdownUserSession (session : Nat) (t : PlayerManager) : PlayerManager :=
  { t with shutdowns := t.shutdowns ++ [session] }

def sessionOf (p : Nat) (t : PlayerManager) : Option Nat :=
  t.players[p]?.bind Player.session

def userOf (p : Nat) (t : PlayerManager) : Option Int :=
  t.players[p]?.map Player.userId

def addUserSession (user : Int) (session : Nat) (t : PlayerManager) :
    PlayerManager :=
  match t.loginUser user with
  | some p =>
      let oldSession := t.sessionOf p
      let t := t.setSession p (some session)
      let t := t.eraseOnline oldSession
      let t := t.setOnline session p user
      match oldSession with
      | none => t
      | some old => if old ≠ session then t.shutdownUserSession old else t
  | none => t.newPlayer user session

def onSessionClose (server : Server) (session : Nat) (t : PlayerManager) :
    Except Fault PlayerManager :=
  match t.onlineUser session with
  | none => .ok t
  | some p =>
      match t.players[p]? with
      | none => .error .noPlayer
      | some player =>
          let t := t.setSession p none
          let t := t.eraseOnline (some session)
          match server with
          | .lobby => .ok (t.eraseLogin player.userId)
          | .game =>
              if player.room.isSome then .ok t
              else
                match t.loginUser player.userId with
                | some _ => .ok (t.eraseLogin player.userId)
                | none => .error .assertion

def makePlayer (user : Int) (session : Nat) (t : PlayerManager) :
    Option Nat × PlayerManager :=
  match t.loginUser user with
  | none => (some t.players.length, t.newPlayer user session)
  | some p =>
      match t.players[p]?.bind Player.room with
      | none => (some p, t)
      | some _ => (none, t)

def destoryPlayer (p : Nat) (t : PlayerManager) :
    Except Fault PlayerManager :=
  match t.players[p]? with
  | none => .error .noPlayer
  | some player =>
      match t.loginUser player.userId with
      | some q =>
          .ok ((t.eraseOnline (t.sessionOf q)).eraseLogin player.userId)
      | none => .error .assertion

def checkUserMsg (session : Nat) (t : PlayerManager) : Option Int :=
  (t.onlineUser session).bind fun p => t.userOf p

/-- `setRoom` is what a room does to a player who enters or leaves it. -/
inductive Op where
  | addUserSession (user : Int) (session : Nat)
  | onSessionClose (session : Nat)
  | makePlayer (user : Int) (session : Nat)
  | destoryPlayer (p : Nat)
  | setRoom (p : Nat) (room : Option Nat)

def step (server : Server) (t : PlayerManager) :
    Op → Except Fault PlayerManager
  | .addUserSession user session => .ok (t.addUserSession user session)
  | .onSessionClose session => t.onSessionClose server session
  | .makePlayer user session => .ok (t.makePlayer user session).2
  | .destoryPlayer p => t.destoryPlayer p
  | .setRoom p room => .ok (t.setRoom p room)

def next (server : Server) (t : PlayerManager) (op : Op) : PlayerManager :=
  match t.step server op with
  | .ok t' => t'
  | .error _ => t

/-! ## The tables agree -/

structure Agrees (t : PlayerManager) : Prop where
  online : ∀ s p, t.onlineUser s = some p →
    t.sessionOf p = some s ∧ (t.userOf p).bind t.loginUser = some p
  login : ∀ user p s, t.loginUser user = some p → t.sessionOf p = some s →
    t.onlineUser s = some p
  attributed : ∀ s user, t.checkUserMsg s = some user →
    t.lastUser s = some user

def Known (t : PlayerManager) : Prop :=
  ∀ user p, t.loginUser user = some p → t.userOf p = some user

/--
Nobody else is attached to a session on which a user logs in or enters, and only
a player whose user is known is destroyed.
-/
def Clear (t : PlayerManager) : Op → Prop
  | .addUserSession user session =>
      ∀ p, t.onlineUser session = some p → t.userOf p = some user
  | .makePlayer user session =>
      t.loginUser user = none → t.onlineUser session = none
  | .destoryPlayer p => ((t.userOf p).bind t.loginUser).isSome
  | _ => True

section

variable {t : PlayerManager} {user : Int} {session p : Nat}

theorem sessionOf_setSession (t : PlayerManager) (p : Nat)
    (session : Option Nat) (q : Nat) :
    (t.setSession p session).sessionOf q =
      if p = q then t.players[q]?.bind fun _ => session
      else t.sessionOf q := by
  simp only [sessionOf, setSession, List.getElem?_modify]
  cases t.players[q]? <;> split_ifs <;> rfl

@[simp] theorem userOf_setSession (t : PlayerManager) (p : Nat)
    (session : Option Nat) (q : Nat) :
    (t.setSession p session).userOf q = t.userOf q := by
  simp only [userOf, setSession, List.getElem?_modify]
  cases t.players[q]? <;> simp
  split_ifs <;> rfl

theorem onlineUser_eraseOnline (t : PlayerManager) (session : Option Nat)
    (s : Nat) :
    (t.eraseOnline session).onlineUser s =
      if session = some s then none else t.onlineUser s := by
  cases session with
  | none => simp [eraseOnline]
  | some old => simp [eraseOnline, Function.update_apply, eq_comm]

@[simp] theorem players_eraseOnline (t : PlayerManager)
    (session : Option Nat) :
    (t.eraseOnline session).players = t.players := by
  cases session <;> rfl

@[simp] theorem loginUser_eraseOnline (t : PlayerManager)
    (session : Option Nat) :
    (t.eraseOnline session).loginUser = t.loginUser := by
  cases session <;> rfl

@[simp] theorem lastUser_eraseOnline (t : PlayerManager)
    (session : Option Nat) :
    (t.eraseOnline session).lastUser = t.lastUser := by
  cases session <;> rfl

theorem sessionOf_newPlayer (t : PlayerManager) (user : Int)
    (session q : Nat) :
    (t.newPlayer user session).sessionOf q =
      if q = t.players.length then some session else t.sessionOf q := by
  simp only [sessionOf, newPlayer, setOnline, getElem?_concat]
  split_ifs <;> rfl

theorem userOf_newPlayer (t : PlayerManager) (user : Int)
    (session q : Nat) :
    (t.newPlayer user session).userOf q =
      if q = t.players.length then some user else t.userOf q := by
  simp only [userOf, newPlayer, setOnline, getElem?_concat]
  split_ifs <;> rfl

theorem lt_of_userOf (h : t.userOf p = some user) :
    p < t.players.length := by
  obtain ⟨player, hplayer, _⟩ := Option.map_eq_some_iff.mp h
  exact (List.getElem?_eq_some_iff.mp hplayer).1

theorem lt_of_sessionOf (h : t.sessionOf p = some session) :
    p < t.players.length := by
  obtain ⟨player, hplayer, _⟩ := Option.bind_eq_some_iff.mp h
  exact (List.getElem?_eq_some_iff.mp hplayer).1

theorem Agrees.exists_user (h : t.Agrees)
    (honline : t.onlineUser session = some p) :
    t.sessionOf p = some session ∧
      ∃ user, t.userOf p = some user ∧ t.loginUser user = some p := by
  obtain ⟨hsession, hlogin⟩ := h.online session p honline
  obtain ⟨user, huser, hlogin⟩ := Option.bind_eq_some_iff.mp hlogin
  exact ⟨hsession, user, huser, hlogin⟩

/-! ## Logging in -/

theorem onlineUser_newPlayer (t : PlayerManager) (user : Int)
    (session s : Nat) :
    (t.newPlayer user session).onlineUser s =
      if s = session then some t.players.length else t.onlineUser s :=
  Function.update_apply _ _ _ _

theorem loginUser_newPlayer (t : PlayerManager) (user : Int)
    (session : Nat) (other : Int) :
    (t.newPlayer user session).loginUser other =
      if other = user then some t.players.length else t.loginUser other :=
  Function.update_apply _ _ _ _

theorem lastUser_newPlayer (t : PlayerManager) (user : Int)
    (session s : Nat) :
    (t.newPlayer user session).lastUser s =
      if s = session then some user else t.lastUser s :=
  Function.update_apply _ _ _ _

theorem Known.newPlayer (h : t.Known) : (t.newPlayer user session).Known := by
  intro other q hq
  rw [loginUser_newPlayer] at hq
  rw [userOf_newPlayer]
  split_ifs at hq with heq
  · cases hq
    rw [if_pos rfl, heq]
  · have hother := h other q hq
    rw [if_neg (lt_of_userOf hother).ne]
    exact hother

theorem Agrees.newPlayer (h : t.Agrees) (hknown : t.Known)
    (huser : t.loginUser user = none)
    (hsession : t.onlineUser session = none) :
    (t.newPlayer user session).Agrees := by
  constructor
  · intro s q hq
    rw [onlineUser_newPlayer] at hq
    rw [sessionOf_newPlayer, userOf_newPlayer]
    split_ifs at hq with hs
    · cases hq
      rw [if_pos rfl, if_pos rfl, hs]
      refine ⟨rfl, ?_⟩
      rw [Option.bind_some, loginUser_newPlayer, if_pos rfl]
    · obtain ⟨hold, other, hother, hlogin⟩ := h.exists_user hq
      rw [if_neg (lt_of_userOf hother).ne, if_neg (lt_of_userOf hother).ne]
      refine ⟨hold, ?_⟩
      rw [hother, Option.bind_some, loginUser_newPlayer, if_neg, hlogin]
      rintro rfl
      rw [huser] at hlogin
      cases hlogin
  · intro other q s hlogin hs
    rw [loginUser_newPlayer] at hlogin
    rw [sessionOf_newPlayer] at hs
    rw [onlineUser_newPlayer]
    split_ifs at hlogin with heq
    · cases hlogin
      rw [if_pos rfl] at hs
      cases hs
      rw [if_pos rfl]
    · rw [if_neg (lt_of_userOf (hknown other q hlogin)).ne] at hs
      have honline := h.login other q s hlogin hs
      rw [if_neg, honline]
      rintro rfl
      rw [hsession] at honline
      cases honline
  · intro s other hs
    rw [checkUserMsg, onlineUser_newPlayer] at hs
    rw [lastUser_newPlayer]
    split_ifs at hs ⊢ with heq
    · rw [Option.bind_some, userOf_newPlayer, if_pos rfl] at hs
      exact hs
    · apply h.attributed s other
      obtain ⟨q, hq, hother⟩ := Option.bind_eq_some_iff.mp hs
      have hlt := lt_of_sessionOf (h.online s q hq).1
      rw [userOf_newPlayer, if_neg hlt.ne] at hother
      rw [checkUserMsg, hq, Option.bind_some, hother]

theorem Agrees.newPlayer_iff (h : t.Agrees) (hknown : t.Known)
    (huser : t.loginUser user = none) (session : Nat) :
    (t.newPlayer user session).Agrees ↔ t.onlineUser session = none := by
  refine ⟨fun hnew => ?_, h.newPlayer hknown huser⟩
  by_contra hsession
  obtain ⟨q, hq⟩ := Option.ne_none_iff_exists'.mp hsession
  obtain ⟨hold, other, hother, hlogin⟩ := h.exists_user hq
  have hne : q ≠ t.players.length := (lt_of_userOf hother).ne
  have hlogin' : (t.newPlayer user session).loginUser other = some q := by
    rw [loginUser_newPlayer, if_neg, hlogin]
    rintro rfl
    rw [huser] at hlogin
    cases hlogin
  have honline := hnew.login other q session hlogin'
    (by rw [sessionOf_newPlayer, if_neg hne, hold])
  rw [onlineUser_newPlayer, if_pos rfl] at honline
  exact hne (Option.some.inj honline).symm

def relogin (user : Int) (session p : Nat) (t : PlayerManager) :
    PlayerManager :=
  ((t.setSession p (some session)).eraseOnline (t.sessionOf p)).setOnline
    session p user

theorem onlineUser_relogin (t : PlayerManager) (user : Int)
    (session p s : Nat) :
    (t.relogin user session p).onlineUser s =
      if s = session then some p
      else if t.sessionOf p = some s then none else t.onlineUser s := by
  simp only [relogin, setOnline, Function.update_apply,
    onlineUser_eraseOnline]
  rfl

theorem userOf_relogin (t : PlayerManager) (user : Int)
    (session p q : Nat) :
    (t.relogin user session p).userOf q = t.userOf q := by
  rw [← userOf_setSession t p (some session)]
  simp [relogin, setOnline, userOf]

theorem sessionOf_relogin (hp : t.userOf p = some user) (session q : Nat) :
    (t.relogin user session p).sessionOf q =
      if p = q then some session else t.sessionOf q := by
  have hset := sessionOf_setSession t p (some session) q
  simp only [relogin, setOnline, sessionOf, players_eraseOnline] at hset ⊢
  rw [hset]
  split_ifs with heq
  · subst heq
    obtain ⟨player, hplayer, _⟩ := Option.map_eq_some_iff.mp hp
    rw [hplayer]
    rfl
  · rfl

theorem loginUser_relogin (t : PlayerManager) (user : Int)
    (session p : Nat) :
    (t.relogin user session p).loginUser = t.loginUser := by
  simp [relogin, setOnline, setSession]

theorem lastUser_relogin (t : PlayerManager) (user : Int)
    (session p s : Nat) :
    (t.relogin user session p).lastUser s =
      if s = session then some user else t.lastUser s := by
  simp [relogin, setOnline, setSession, Function.update_apply]

theorem Known.relogin (h : t.Known) (user : Int) (session p : Nat) :
    (t.relogin user session p).Known := by
  intro other q hq
  rw [loginUser_relogin] at hq
  rw [userOf_relogin]
  exact h other q hq

theorem Agrees.relogin (h : t.Agrees) (hknown : t.Known)
    (huser : t.loginUser user = some p)
    (hsession : ∀ q, t.onlineUser session = some q →
      t.userOf q = some user) :
    (t.relogin user session p).Agrees := by
  have hp := hknown user p huser
  constructor
  · intro s q hq
    rw [onlineUser_relogin] at hq
    rw [sessionOf_relogin hp, userOf_relogin, loginUser_relogin]
    split_ifs at hq with hs hold
    · cases hq
      rw [if_pos rfl, hp, Option.bind_some, huser, hs]
      exact ⟨rfl, rfl⟩
    · obtain ⟨hqs, hlogin⟩ := h.online s q hq
      refine ⟨?_, hlogin⟩
      rw [if_neg, hqs]
      rintro rfl
      exact hold hqs
  · intro other q s hlogin hs
    rw [loginUser_relogin] at hlogin
    rw [sessionOf_relogin hp] at hs
    rw [onlineUser_relogin]
    split_ifs at hs with hq
    · cases hs
      rw [if_pos rfl, hq]
    · have honline := h.login other q s hlogin hs
      rw [if_neg, if_neg, honline]
      · intro hold
        have := h.login user p s huser hold
        rw [honline] at this
        exact hq (Option.some.inj this).symm
      · rintro rfl
        have hquser := hsession q honline
        rw [hknown other q hlogin] at hquser
        cases hquser
        rw [huser] at hlogin
        exact hq (Option.some.inj hlogin)
  · intro s other hs
    rw [checkUserMsg, onlineUser_relogin] at hs
    rw [lastUser_relogin]
    split_ifs at hs ⊢ with heq hold
    · rw [Option.bind_some, userOf_relogin, hp] at hs
      exact hs
    · cases hs
    · apply h.attributed s other
      obtain ⟨q, hq, hother⟩ := Option.bind_eq_some_iff.mp hs
      rw [userOf_relogin] at hother
      rw [checkUserMsg, hq, Option.bind_some, hother]

theorem Agrees.relogin_iff (h : t.Agrees) (hknown : t.Known)
    (huser : t.loginUser user = some p) :
    (t.relogin user session p).Agrees ↔
      ∀ q, t.onlineUser session = some q → t.userOf q = some user := by
  refine ⟨fun hnew q hq => ?_, h.relogin hknown huser⟩
  have hp := hknown user p huser
  obtain ⟨hold, other, hother, hlogin⟩ := h.exists_user hq
  by_cases hpq : p = q
  · rw [← hpq]
    exact hp
  · exfalso
    have honline := hnew.login other q session
      (by rw [loginUser_relogin, hlogin])
      (by rw [sessionOf_relogin hp, if_neg hpq, hold])
    rw [onlineUser_relogin, if_pos rfl] at honline
    exact hpq (Option.some.inj honline)

theorem addUserSession_of_none (h : t.loginUser user = none) :
    t.addUserSession user session = t.newPlayer user session := by
  rw [addUserSession, h]

theorem addUserSession_of_some (h : t.loginUser user = some p) :
    ∃ shutdowns, t.addUserSession user session =
      { t.relogin user session p with shutdowns := shutdowns } := by
  rw [addUserSession, h, relogin]
  dsimp only
  cases t.sessionOf p with
  | none => exact ⟨_, rfl⟩
  | some old =>
      dsimp only
      split_ifs
      · exact ⟨_, rfl⟩
      · exact ⟨_, rfl⟩

theorem Known.addUserSession (h : t.Known) :
    (t.addUserSession user session).Known := by
  cases huser : t.loginUser user with
  | none =>
      rw [addUserSession_of_none huser]
      exact h.newPlayer
  | some p =>
      obtain ⟨shutdowns, heq⟩ := addUserSession_of_some huser
      rw [heq]
      exact h.relogin user session p

theorem Agrees.addUserSession_iff (h : t.Agrees) (hknown : t.Known) :
    (t.addUserSession user session).Agrees ↔
      t.Clear (.addUserSession user session) := by
  cases huser : t.loginUser user with
  | none =>
      rw [addUserSession_of_none huser, h.newPlayer_iff hknown huser]
      constructor
      · intro hnone p hp
        rw [hnone] at hp
        cases hp
      · intro hclear
        by_contra hsome
        obtain ⟨q, hq⟩ := Option.ne_none_iff_exists'.mp hsome
        obtain ⟨_, other, hother, hlogin⟩ := h.exists_user hq
        rw [hclear q hq] at hother
        cases hother
        rw [huser] at hlogin
        cases hlogin
  | some p =>
      obtain ⟨shutdowns, heq⟩ := addUserSession_of_some huser
      rw [heq]
      refine Iff.trans ?_ (h.relogin_iff hknown huser)
      constructor
      · exact fun h => ⟨h.online, h.login, h.attributed⟩
      · exact fun h => ⟨h.online, h.login, h.attributed⟩

theorem Known.makePlayer (h : t.Known) :
    (t.makePlayer user session).2.Known := by
  rw [PlayerManager.makePlayer]
  cases huser : t.loginUser user with
  | none => exact h.newPlayer
  | some p =>
      dsimp only
      split <;> exact h

theorem Agrees.makePlayer_iff (h : t.Agrees) (hknown : t.Known) :
    (t.makePlayer user session).2.Agrees ↔
      t.Clear (.makePlayer user session) := by
  rw [PlayerManager.makePlayer, Clear]
  cases huser : t.loginUser user with
  | none =>
      have hiff := h.newPlayer_iff hknown huser session
      exact ⟨fun hnew _ => hiff.mp hnew, fun hclear => hiff.mpr (hclear rfl)⟩
  | some p =>
      have hsame : (match t.players[p]?.bind Player.room with
          | none => (some p, t)
          | some _ => (none, t)).2 = t := by
        split <;> rfl
      dsimp only
      rw [hsame]
      exact iff_of_true h (by simp)

/-! ## Leaving -/

theorem Known.eraseLogin (h : t.Known) : (t.eraseLogin user).Known := by
  intro other q hq
  rw [PlayerManager.eraseLogin] at hq
  dsimp only at hq
  rw [Function.update_apply] at hq
  split_ifs at hq
  exact h other q hq

def offline (session p : Nat) (t : PlayerManager) : PlayerManager :=
  (t.setSession p none).eraseOnline (some session)

theorem sessionOf_offline (t : PlayerManager) (session p q : Nat) :
    (t.offline session p).sessionOf q =
      if p = q then none else t.sessionOf q := by
  have hset := sessionOf_setSession t p none q
  rw [Option.bind_fun_none] at hset
  exact hset

theorem userOf_offline (t : PlayerManager) (session p q : Nat) :
    (t.offline session p).userOf q = t.userOf q :=
  userOf_setSession t p none q

theorem onlineUser_offline (t : PlayerManager) (session p s : Nat) :
    (t.offline session p).onlineUser s =
      if s = session then none else t.onlineUser s :=
  Function.update_apply _ _ _ _

theorem Known.offline (h : t.Known) : (t.offline session p).Known := by
  intro other q hq
  rw [userOf_offline]
  exact h other q hq

theorem Agrees.offline (h : t.Agrees)
    (hp : t.onlineUser session = some p) :
    (t.offline session p).Agrees := by
  have hsession := (h.online session p hp).1
  constructor
  · intro s q hq
    rw [onlineUser_offline] at hq
    split_ifs at hq with hs
    obtain ⟨hqs, hlogin⟩ := h.online s q hq
    rw [sessionOf_offline, userOf_offline, if_neg]
    · exact ⟨hqs, hlogin⟩
    · rintro rfl
      rw [hsession] at hqs
      exact hs (Option.some.inj hqs).symm
  · intro other q s hlogin hs
    rw [sessionOf_offline] at hs
    split_ifs at hs with hpq
    have honline := h.login other q s hlogin hs
    rw [onlineUser_offline, if_neg, honline]
    rintro rfl
    rw [hp] at honline
    exact hpq (Option.some.inj honline)
  · intro s other hs
    rw [checkUserMsg, onlineUser_offline] at hs
    split_ifs at hs with heq
    · cases hs
    · apply h.attributed s other
      obtain ⟨q, hq, hother⟩ := Option.bind_eq_some_iff.mp hs
      rw [userOf_offline] at hother
      rw [checkUserMsg, hq, Option.bind_some, hother]

theorem Agrees.eraseLogin (h : t.Agrees)
    (hoff : ∀ p, t.loginUser user = some p → t.sessionOf p = none) :
    (t.eraseLogin user).Agrees := by
  constructor
  · intro s q hq
    obtain ⟨hqs, other, hother, hlogin⟩ := h.exists_user hq
    refine ⟨hqs, ?_⟩
    change (t.userOf q).bind (Function.update t.loginUser user none) = some q
    rw [hother, Option.bind_some, Function.update_of_ne, hlogin]
    rintro rfl
    rw [hoff q hlogin] at hqs
    cases hqs
  · intro other q s hlogin hs
    change Function.update t.loginUser user none other = some q at hlogin
    rw [Function.update_apply] at hlogin
    split_ifs at hlogin
    exact h.login other q s hlogin hs
  · exact h.attributed

theorem onSessionClose_ok (server : Server) (h : t.Agrees)
    (hknown : t.Known) (session : Nat) :
    ∃ t', t.onSessionClose server session = .ok t' ∧ t'.Agrees ∧
      t'.Known := by
  rw [onSessionClose]
  cases hp : t.onlineUser session with
  | none => exact ⟨t, rfl, h, hknown⟩
  | some p =>
      obtain ⟨_, user, huser, hlogin⟩ := h.exists_user hp
      obtain ⟨player, hplayer, rfl⟩ := Option.map_eq_some_iff.mp huser
      have hagrees := h.offline hp
      have hoff : ∀ q, (t.offline session p).loginUser player.userId =
          some q → (t.offline session p).sessionOf q = none := by
        intro q hq
        have heq : p = q := Option.some.inj (hlogin.symm.trans hq)
        rw [sessionOf_offline, if_pos heq]
      have hgone : ((t.offline session p).eraseLogin player.userId).Agrees ∧
          ((t.offline session p).eraseLogin player.userId).Known :=
        ⟨hagrees.eraseLogin hoff, hknown.offline.eraseLogin⟩
      dsimp only
      rw [hplayer]
      cases server with
      | lobby => exact ⟨_, rfl, hgone⟩
      | game =>
          dsimp only
          split_ifs
          · exact ⟨_, rfl, hagrees, hknown.offline⟩
          · have hlogin' : ((t.setSession p none).eraseOnline
                (some session)).loginUser player.userId = some p := hlogin
            rw [hlogin']
            exact ⟨_, rfl, hgone⟩

theorem Agrees.destory (h : t.Agrees) (hknown : t.Known)
    (huser : t.loginUser user = some p) :
    ((t.eraseOnline (t.sessionOf p)).eraseLogin user).Agrees := by
  have hlogin' : ∀ other, ((t.eraseOnline (t.sessionOf p)).eraseLogin
      user).loginUser other =
        if other = user then none else t.loginUser other := by
    intro other
    simp [PlayerManager.eraseLogin, Function.update_apply]
  have honline' : ∀ s, ((t.eraseOnline (t.sessionOf p)).eraseLogin
      user).onlineUser s =
        if t.sessionOf p = some s then none else t.onlineUser s :=
    onlineUser_eraseOnline t (t.sessionOf p)
  have hplayers : ((t.eraseOnline (t.sessionOf p)).eraseLogin
      user).players = t.players :=
    players_eraseOnline t (t.sessionOf p)
  constructor
  · intro s q hq
    rw [honline'] at hq
    split_ifs at hq with hold
    obtain ⟨hqs, other, hother, hlogin⟩ := h.exists_user hq
    rw [sessionOf, userOf, hplayers]
    refine ⟨hqs, ?_⟩
    change (t.userOf q).bind _ = some q
    rw [hother, Option.bind_some, hlogin', if_neg, hlogin]
    rintro rfl
    rw [huser] at hlogin
    cases hlogin
    exact hold hqs
  · intro other q s hlogin hs
    rw [hlogin'] at hlogin
    split_ifs at hlogin with hne
    rw [sessionOf, hplayers] at hs
    have hq := h.login other q s hlogin hs
    rw [honline', if_neg, hq]
    intro hold
    have hp := h.login user p s huser hold
    rw [hq] at hp
    cases hp
    have heq := hknown user p huser
    rw [hknown other p hlogin] at heq
    exact hne (Option.some.inj heq)
  · intro s other hs
    rw [checkUserMsg, honline'] at hs
    split_ifs at hs with hold
    · cases hs
    · rw [PlayerManager.eraseLogin, lastUser_eraseOnline]
      apply h.attributed s other
      obtain ⟨q, hq, hother⟩ := Option.bind_eq_some_iff.mp hs
      rw [userOf, hplayers] at hother
      rw [checkUserMsg, hq, Option.bind_some, userOf, hother]

theorem destoryPlayer_iff (h : t.Agrees) (hknown : t.Known) :
    (∃ t', t.destoryPlayer p = .ok t' ∧ t'.Agrees) ↔
      t.Clear (.destoryPlayer p) := by
  rw [destoryPlayer, Clear, userOf]
  cases hplayer : t.players[p]? with
  | none => simp
  | some player =>
      rw [Option.map_some, Option.bind_some]
      dsimp only
      cases huser : t.loginUser player.userId with
      | none => simp
      | some q =>
          refine iff_of_true ⟨_, rfl, h.destory hknown huser⟩ ?_
          rfl

theorem Known.destoryPlayer {t' : PlayerManager} (h : t.Known)
    (heq : t.destoryPlayer p = .ok t') : t'.Known := by
  rw [PlayerManager.destoryPlayer] at heq
  split at heq
  · cases heq
  · split at heq
    · cases heq
      apply Known.eraseLogin
      intro other q hq
      rw [loginUser_eraseOnline] at hq
      rw [userOf, players_eraseOnline]
      exact h other q hq
    · cases heq

theorem userOf_setRoom (t : PlayerManager) (p : Nat) (room : Option Nat)
    (q : Nat) : (t.setRoom p room).userOf q = t.userOf q := by
  simp only [userOf, setRoom, List.getElem?_modify]
  cases t.players[q]? <;> simp
  split_ifs <;> rfl

theorem sessionOf_setRoom (t : PlayerManager) (p : Nat) (room : Option Nat)
    (q : Nat) : (t.setRoom p room).sessionOf q = t.sessionOf q := by
  simp only [sessionOf, setRoom, List.getElem?_modify]
  cases t.players[q]? <;> simp
  split_ifs <;> rfl

theorem Known.setRoom (h : t.Known) (p : Nat) (room : Option Nat) :
    (t.setRoom p room).Known := by
  intro user q hq
  rw [userOf_setRoom]
  exact h user q hq

theorem Agrees.setRoom (h : t.Agrees) (p : Nat) (room : Option Nat) :
    (t.setRoom p room).Agrees := by
  constructor
  · intro s q hq
    rw [userOf_setRoom, sessionOf_setRoom]
    exact h.online s q hq
  · intro user q s hlogin hs
    rw [sessionOf_setRoom] at hs
    exact h.login user q s hlogin hs
  · intro s user hs
    simp only [checkUserMsg, userOf_setRoom] at hs
    exact h.attributed s user hs

/-! ## Runs -/

theorem step_iff (server : Server) (h : t.Agrees) (hknown : t.Known)
    (op : Op) :
    (∃ t', t.step server op = .ok t' ∧ t'.Agrees) ↔ t.Clear op := by
  cases op with
  | addUserSession user session =>
      rw [← h.addUserSession_iff hknown]
      simp [step]
  | onSessionClose session =>
      obtain ⟨t', heq, hagrees, _⟩ := onSessionClose_ok server h hknown session
      exact iff_of_true ⟨t', heq, hagrees⟩ trivial
  | makePlayer user session =>
      rw [← h.makePlayer_iff hknown]
      simp [step]
  | destoryPlayer p => exact destoryPlayer_iff h hknown
  | setRoom p room => exact iff_of_true ⟨_, rfl, h.setRoom p room⟩ trivial

theorem Known.step (server : Server) (h : t.Known) (hagrees : t.Agrees)
    {op : Op} {t' : PlayerManager} (heq : t.step server op = .ok t') :
    t'.Known := by
  cases op with
  | addUserSession user session =>
      cases heq
      exact h.addUserSession
  | onSessionClose session =>
      obtain ⟨t'', heq', _, hknown⟩ :=
        onSessionClose_ok server hagrees h session
      cases heq.symm.trans heq'
      exact hknown
  | makePlayer user session =>
      cases heq
      exact h.makePlayer
  | destoryPlayer p => exact h.destoryPlayer heq
  | setRoom p room =>
      cases heq
      exact h.setRoom p room

end

theorem agrees_new : new.Agrees := by
  constructor
  · intro s p hp
    cases hp
  · intro user p s hp
    cases hp
  · intro s user hs
    cases hs

theorem known_new : new.Known := by
  intro user p hp
  cases hp

/--
Along every run, all operations succeed and leave the tables in agreement exactly
if no user logs in or enters on a session of another one and only players whose
users are known are destroyed.
-/
theorem agrees_iff_clear (server : Server) (ops : List Op) :
    Permits (fun t op => ∃ t', t.step server op = .ok t' ∧ t'.Agrees)
        (next server) new ops ↔
      Permits Clear (next server) new ops := by
  apply Permits.iff (J := fun t => t.Agrees ∧ t.Known) _ _ _
    (permits_true (next server) new ops)
  · intro t op ht _
    exact step_iff server ht.1 ht.2 op
  · rintro t op ht _ ⟨t', heq, hagrees⟩
    have hnext : t.next server op = t' := by
      rw [next, heq]
    rw [hnext]
    exact ⟨hagrees, ht.2.step server ht.1 heq⟩
  · exact ⟨agrees_new, known_new⟩

theorem sharedSession_disagrees :
    ¬∀ (server : Server) (ops : List Op),
      Permits (fun t op => ∃ t', t.step server op = .ok t' ∧ t'.Agrees)
        (next server) new ops := by
  intro h
  obtain ⟨t', heq, hagrees⟩ :=
    (h .game [.addUserSession 1 7, .addUserSession 2 7]).2.1
  cases heq
  have honline := hagrees.login 1 0 7 rfl rfl
  cases honline

end PlayerManager

end StarsGaming.Lobby
