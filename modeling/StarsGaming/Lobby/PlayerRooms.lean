import StarsGaming.Foundation.Outcomes
import StarsGaming.Lobby.PlayerManager

/-!
# Players and their rooms

What a game server keeps of a user is the player object and the room it points
to.  Whatever sessions the users share, an online session always leads to a
player who is known, so that no assertion of the manager fails, and a user's
entry changes only when the user logs in for the first time, leaves or is put
into a room.
-/

namespace StarsGaming.Lobby.PlayerManager

open Foundation

def roomOf (p : Nat) (t : PlayerManager) : Option Nat :=
  t.players[p]?.bind Player.room

def entry (t : PlayerManager) (user : Int) : Option (Nat × Option Nat) :=
  (t.loginUser user).map fun p => (p, t.roomOf p)

/-- `is_player_in_room`, with the room it finds. -/
def isPlayerInRoom (user : Int) (t : PlayerManager) : Option Nat :=
  (t.loginUser user).bind fun p => t.roomOf p

def isPlayerOnline (user : Int) (t : PlayerManager) : Bool :=
  ((t.loginUser user).bind fun p => t.sessionOf p).isSome

structure Tidy (t : PlayerManager) : Prop where
  known : t.Known
  online : ∀ s p, t.onlineUser s = some p →
    t.sessionOf p = some s ∧ (t.userOf p).bind t.loginUser = some p

variable {t : PlayerManager} {user : Int} {session p : Nat}

theorem entry_eq_some {room : Option Nat} :
    t.entry user = some (p, room) ↔
      t.loginUser user = some p ∧ t.roomOf p = room := by
  rw [entry, Option.map_eq_some_iff]
  constructor
  · rintro ⟨q, hq, heq⟩
    cases heq
    exact ⟨hq, rfl⟩
  · rintro ⟨hp, rfl⟩
    exact ⟨p, hp, rfl⟩

theorem entry_eq_none : t.entry user = none ↔ t.loginUser user = none :=
  Option.map_eq_none_iff

theorem isPlayerInRoom_eq (t : PlayerManager) (user : Int) :
    t.isPlayerInRoom user = (t.entry user).bind Prod.snd := by
  rw [isPlayerInRoom, entry, Option.bind_map]
  rfl

theorem Tidy.new : PlayerManager.new.Tidy where
  known _ _ h := nomatch h
  online _ _ h := nomatch h

theorem Tidy.exists_user (h : t.Tidy) (hp : t.onlineUser session = some p) :
    t.sessionOf p = some session ∧
      ∃ user, t.userOf p = some user ∧ t.loginUser user = some p := by
  obtain ⟨hsession, hlogin⟩ := h.online session p hp
  obtain ⟨user, huser, hlogin⟩ := Option.bind_eq_some_iff.mp hlogin
  exact ⟨hsession, user, huser, hlogin⟩

theorem Tidy.eq_of_entry (h : t.Tidy) {other : Int}
    {room room' : Option Nat} (huser : t.entry user = some (p, room))
    (hother : t.entry other = some (p, room')) : user = other := by
  have hp := h.known user p (entry_eq_some.mp huser).1
  rw [h.known other p (entry_eq_some.mp hother).1] at hp
  exact (Option.some.inj hp).symm

/-! ## New players -/

theorem roomOf_newPlayer (t : PlayerManager) (user : Int)
    (session q : Nat) :
    (t.newPlayer user session).roomOf q =
      if q = t.players.length then none else t.roomOf q := by
  simp only [roomOf, newPlayer, setOnline, getElem?_concat]
  split_ifs <;> rfl

theorem entry_newPlayer (h : t.Tidy) (user : Int) (session : Nat) :
    (t.newPlayer user session).entry =
      Function.update t.entry user (some (t.players.length, none)) := by
  funext other
  rw [entry, loginUser_newPlayer, Function.update_apply]
  split_ifs with heq
  · rw [Option.map_some, roomOf_newPlayer, if_pos rfl]
  · rw [entry]
    cases hlogin : t.loginUser other with
    | none => rfl
    | some q =>
        have hlt := lt_of_userOf (h.known other q hlogin)
        rw [Option.map_some, Option.map_some, roomOf_newPlayer,
          if_neg hlt.ne]

theorem Tidy.newPlayer (h : t.Tidy) (huser : t.loginUser user = none) :
    (t.newPlayer user session).Tidy where
  known := h.known.newPlayer
  online := by
    intro s q hq
    rw [onlineUser_newPlayer] at hq
    rw [sessionOf_newPlayer, userOf_newPlayer]
    split_ifs at hq with hs
    · cases hq
      rw [if_pos rfl, if_pos rfl, hs, Option.bind_some,
        loginUser_newPlayer, if_pos rfl]
      exact ⟨rfl, rfl⟩
    · obtain ⟨hold, other, hother, hlogin⟩ := h.exists_user hq
      have hne := (lt_of_userOf hother).ne
      rw [if_neg hne, if_neg hne, hother, Option.bind_some,
        loginUser_newPlayer, if_neg, hlogin]
      · exact ⟨hold, rfl⟩
      · rintro rfl
        rw [huser] at hlogin
        cases hlogin

/-! ## Logging in -/

theorem roomOf_setSession (t : PlayerManager) (p : Nat)
    (session : Option Nat) (q : Nat) :
    (t.setSession p session).roomOf q = t.roomOf q := by
  simp only [roomOf, setSession, List.getElem?_modify]
  cases t.players[q]? <;> simp
  split_ifs <;> rfl

theorem roomOf_relogin (t : PlayerManager) (user : Int)
    (session p q : Nat) :
    (t.relogin user session p).roomOf q = t.roomOf q := by
  rw [← roomOf_setSession t p (some session)]
  simp [relogin, setOnline, roomOf]

theorem entry_relogin (t : PlayerManager) (user : Int) (session p : Nat) :
    (t.relogin user session p).entry = t.entry := by
  funext other
  simp only [entry, loginUser_relogin, roomOf_relogin]

theorem Tidy.relogin (h : t.Tidy) (session : Nat)
    (huser : t.loginUser user = some p) :
    (t.relogin user session p).Tidy where
  known := h.known.relogin user session p
  online := by
    have hp := h.known user p huser
    intro s q hq
    rw [onlineUser_relogin] at hq
    rw [sessionOf_relogin hp, userOf_relogin, loginUser_relogin]
    split_ifs at hq with hs hold
    · cases hq
      rw [if_pos rfl, hp, Option.bind_some, huser, hs]
      exact ⟨rfl, rfl⟩
    · obtain ⟨hqs, hlogin⟩ := h.online s q hq
      refine ⟨?_, hlogin⟩
      rw [if_neg, hqs]
      rintro rfl
      exact hold hqs

theorem Tidy.addUserSession (h : t.Tidy) (user : Int) (session : Nat) :
    (t.addUserSession user session).Tidy ∧
      (t.addUserSession user session).entry =
        if t.loginUser user = none then
          Function.update t.entry user (some (t.players.length, none))
        else t.entry := by
  cases huser : t.loginUser user with
  | none =>
      rw [addUserSession_of_none huser, if_pos rfl]
      exact ⟨h.newPlayer huser, entry_newPlayer h user session⟩
  | some p =>
      obtain ⟨shutdowns, heq⟩ := addUserSession_of_some huser
      have htidy := h.relogin session huser
      rw [heq, if_neg (by simp)]
      exact ⟨⟨htidy.known, htidy.online⟩, entry_relogin t user session p⟩

/-! ## Leaving -/

theorem loginUser_eraseLogin (t : PlayerManager) (user other : Int) :
    (t.eraseLogin user).loginUser other =
      if other = user then none else t.loginUser other :=
  Function.update_apply _ _ _ _

theorem entry_eraseLogin (t : PlayerManager) (user : Int) :
    (t.eraseLogin user).entry = Function.update t.entry user none := by
  funext other
  rw [entry, loginUser_eraseLogin, Function.update_apply]
  split_ifs <;> rfl

theorem entry_offline (t : PlayerManager) (session p : Nat) :
    (t.offline session p).entry = t.entry := by
  funext other
  have hroom : ∀ q, (t.offline session p).roomOf q = t.roomOf q :=
    roomOf_setSession t p none
  rw [entry, entry]
  simp only [hroom]
  rfl

theorem Tidy.offline (h : t.Tidy) (hp : t.onlineUser session = some p) :
    (t.offline session p).Tidy where
  known := h.known.offline
  online := by
    have hsession := (h.online session p hp).1
    intro s q hq
    rw [onlineUser_offline] at hq
    split_ifs at hq with hs
    obtain ⟨hqs, hlogin⟩ := h.online s q hq
    rw [sessionOf_offline, userOf_offline, if_neg]
    · exact ⟨hqs, hlogin⟩
    · rintro rfl
      rw [hsession] at hqs
      exact hs (Option.some.inj hqs).symm

theorem Tidy.eraseLogin (h : t.Tidy)
    (hoff : ∀ p s, t.loginUser user = some p → t.onlineUser s ≠ some p) :
    (t.eraseLogin user).Tidy where
  known := h.known.eraseLogin
  online := by
    intro s q hq
    obtain ⟨hqs, other, hother, hlogin⟩ := h.exists_user hq
    refine ⟨hqs, ?_⟩
    change (t.userOf q).bind (t.eraseLogin user).loginUser = some q
    rw [hother, Option.bind_some, loginUser_eraseLogin, if_neg, hlogin]
    rintro rfl
    exact hoff q s hlogin hq

/--
A session that closes never fails an assertion, and only a user who is in no
room is forgotten for it.
-/
theorem Tidy.onSessionClose (h : t.Tidy) (session : Nat) :
    Meets (fun t' : PlayerManager => t'.Tidy ∧ (t'.entry = t.entry ∨
      ∃ user p, t.entry user = some (p, none) ∧
        t'.entry = Function.update t.entry user none))
      (fun _ => False) (t.onSessionClose .game session) := by
  rw [PlayerManager.onSessionClose]
  cases hp : t.onlineUser session with
  | none => exact ⟨h, .inl rfl⟩
  | some p =>
      obtain ⟨-, user, huser, hlogin⟩ := h.exists_user hp
      obtain ⟨player, hplayer, rfl⟩ := Option.map_eq_some_iff.mp huser
      have htidy := h.offline hp
      have hentry := entry_offline t session p
      dsimp only
      rw [hplayer]
      dsimp only
      split_ifs with hroom
      · exact ⟨htidy, .inl hentry⟩
      · have hlogin' : ((t.setSession p none).eraseOnline
            (some session)).loginUser player.userId = some p := hlogin
        rw [hlogin']
        refine ⟨htidy.eraseLogin fun q s hq hs => ?_, .inr
          ⟨player.userId, p, ?_, ?_⟩⟩
        · have heq : p = q := Option.some.inj (hlogin.symm.trans hq)
          have hsession := (htidy.online s q hs).1
          rw [sessionOf_offline, if_pos heq] at hsession
          cases hsession
        · rw [entry_eq_some, roomOf, hplayer, Option.bind_some]
          exact ⟨hlogin, Option.not_isSome_iff_eq_none.mp hroom⟩
        · rw [← hentry]
          exact entry_eraseLogin _ _

/-! ## Rooms -/

theorem roomOf_setRoom (t : PlayerManager) (p : Nat) (room : Option Nat)
    (q : Nat) :
    (t.setRoom p room).roomOf q =
      if p = q then t.players[q]?.bind fun _ => room else t.roomOf q := by
  simp only [roomOf, setRoom, List.getElem?_modify]
  cases t.players[q]? <;> split_ifs <;> rfl

theorem Tidy.setRoom (h : t.Tidy) (p : Nat) (room : Option Nat) :
    (t.setRoom p room).Tidy where
  known := h.known.setRoom p room
  online := by
    intro s q hq
    rw [sessionOf_setRoom, userOf_setRoom]
    exact h.online s q hq

theorem entry_setRoom (h : t.Tidy) (huser : t.loginUser user = some p)
    (room : Option Nat) :
    (t.setRoom p room).entry =
      Function.update t.entry user (some (p, room)) := by
  have hp := h.known user p huser
  funext other
  rw [Function.update_apply]
  change (t.loginUser other).map _ = _
  split_ifs with heq
  · obtain ⟨player, hplayer, -⟩ := Option.map_eq_some_iff.mp hp
    rw [heq, huser, Option.map_some, roomOf_setRoom, if_pos rfl, hplayer]
    rfl
  · rw [entry]
    cases hlogin : t.loginUser other with
    | none => rfl
    | some q =>
        rw [Option.map_some, Option.map_some, roomOf_setRoom, if_neg]
        rintro rfl
        have hother := h.known other p hlogin
        rw [hp] at hother
        exact heq (Option.some.inj hother).symm

/--
A player for a user who is in no room: the one who logged in, or a new one.
-/
theorem Tidy.makePlayer (h : t.Tidy) (user : Int) (session : Nat) :
    (t.makePlayer user session).2.Tidy ∧
    match (t.makePlayer user session).1 with
    | none => (t.isPlayerInRoom user).isSome ∧
        (t.makePlayer user session).2.entry = t.entry
    | some p => t.isPlayerInRoom user = none ∧
        (t.makePlayer user session).2.entry =
          Function.update t.entry user (some (p, none)) := by
  rw [PlayerManager.makePlayer, isPlayerInRoom]
  cases huser : t.loginUser user with
  | none => exact ⟨h.newPlayer huser, rfl, entry_newPlayer h user session⟩
  | some p =>
      dsimp only
      cases hroom : t.players[p]?.bind Player.room with
      | none =>
          refine ⟨h, hroom, (Function.update_eq_self_iff.mpr ?_).symm⟩
          exact (entry_eq_some.mpr ⟨huser, hroom⟩).symm
      | some room =>
          refine ⟨h, ?_, rfl⟩
          rw [Option.bind_some, roomOf, hroom]
          rfl

def forget (user : Int) (p : Nat) (t : PlayerManager) : PlayerManager :=
  (t.eraseOnline (t.sessionOf p)).eraseLogin user

theorem destoryPlayer_eq (h : t.Tidy) (huser : t.loginUser user = some p) :
    t.destoryPlayer p = .ok (t.forget user p) := by
  obtain ⟨player, hplayer, rfl⟩ :=
    Option.map_eq_some_iff.mp (h.known user p huser)
  rw [PlayerManager.destoryPlayer, hplayer]
  dsimp only
  rw [huser]
  rfl

theorem entry_forget (t : PlayerManager) (user : Int) (p : Nat) :
    (t.forget user p).entry = Function.update t.entry user none := by
  rw [forget, entry_eraseLogin]
  congr 1
  funext other
  simp only [entry, roomOf, loginUser_eraseOnline, players_eraseOnline]

theorem Tidy.forget (h : t.Tidy) (huser : t.loginUser user = some p) :
    (t.forget user p).Tidy := by
  have htidy : (t.eraseOnline (t.sessionOf p)).Tidy := by
    constructor
    · intro other q hq
      rw [loginUser_eraseOnline] at hq
      rw [userOf, players_eraseOnline]
      exact h.known other q hq
    · intro s q hq
      rw [onlineUser_eraseOnline] at hq
      split_ifs at hq
      rw [sessionOf, userOf, players_eraseOnline, loginUser_eraseOnline]
      exact h.online s q hq
  refine htidy.eraseLogin fun q s hq hs => ?_
  rw [loginUser_eraseOnline, huser] at hq
  cases hq
  rw [onlineUser_eraseOnline] at hs
  split_ifs at hs with hne
  exact hne (h.online s p hs).1

theorem isPlayerOnline_forget {other : Int} (h : other ≠ user) :
    (t.forget user p).isPlayerOnline other = t.isPlayerOnline other := by
  unfold isPlayerOnline forget
  rw [loginUser_eraseLogin, if_neg h, loginUser_eraseOnline]
  congr 2
  funext q
  change (t.eraseOnline (t.sessionOf p)).sessionOf q = t.sessionOf q
  rw [sessionOf, players_eraseOnline]
  rfl

end StarsGaming.Lobby.PlayerManager
