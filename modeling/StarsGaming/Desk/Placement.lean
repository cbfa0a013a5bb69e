import StarsGaming.Desk.GameArea
import StarsGaming.Desk.Simulation

/-!
# Where the users are

A placement says in which room and on which seat a user is.  The manager's
players, the rooms' tables and the desks are three accounts of one placement:
the pointer of a player names a room exactly if the room lists the player, and
the room lists exactly those who sit at its desk.
-/

namespace StarsGaming.Desk

open Cards Foundation Lobby

theorem eraseKey_eraseKey {κ β : Type*} [DecidableEq κ] (k : κ)
    (entries : List (κ × β)) :
    eraseKey k (eraseKey k entries) = eraseKey k entries := by
  simp [eraseKey]

/-! ## Rosters -/

structure Roster (manager : PlayerManager)
    (members : Nat → List (Int × Nat)) : Prop where
  tidy : manager.Tidy
  entries : ∀ r user p, (user, p) ∈ members r ↔
    manager.entry user = some (p, some r)
  keys : ∀ r, ((members r).map Prod.fst).Nodup

namespace Roster

variable {manager manager' : PlayerManager} {members : Nat → List (Int × Nat)}
  {r p : Nat} {user : Int}

theorem lookup_eq_some (h : Roster manager members) :
    (members r).lookup user = some p ↔
      manager.entry user = some (p, some r) := by
  rw [← h.entries]
  constructor
  · intro hlookup
    obtain ⟨before, rest, heq, -⟩ := List.lookup_eq_some_iff.mp hlookup
    simp [heq]
  · intro hmem
    obtain ⟨before, rest, heq⟩ := List.append_of_mem hmem
    have hkeys := h.keys r
    rw [heq] at hkeys ⊢
    exact lookup_append (notMem_before hkeys)

theorem isPlayerInRoom_eq_some (h : Roster manager members) :
    manager.isPlayerInRoom user = some r ↔
      ∃ p, (members r).lookup user = some p := by
  rw [PlayerManager.isPlayerInRoom_eq, Option.bind_eq_some_iff]
  constructor
  · rintro ⟨⟨p, room⟩, hentry, rfl⟩
    exact ⟨p, h.lookup_eq_some.mpr hentry⟩
  · rintro ⟨p, hp⟩
    exact ⟨_, h.lookup_eq_some.mp hp, rfl⟩

theorem settle (h : Roster manager members) (htidy : manager'.Tidy)
    (hsame : ∀ user p r, manager'.entry user = some (p, some r) ↔
      manager.entry user = some (p, some r)) : Roster manager' members where
  tidy := htidy
  entries r user p := (h.entries r user p).trans (hsame user p r).symm
  keys := h.keys

theorem insert (h : Roster manager members) (htidy : manager'.Tidy)
    (hnone : manager.isPlayerInRoom user = none)
    (hentry : manager'.entry =
      Function.update manager.entry user (some (p, some r))) :
    Roster manager' (Function.update members r
      ((members r).orderedInsert (fun a b => a.1 ≤ b.1) (user, p))) where
  tidy := htidy
  entries r' other q := by
    have hout : manager.entry user ≠ some (q, some r') := by
      intro heq
      rw [PlayerManager.isPlayerInRoom_eq, heq] at hnone
      cases hnone
    rw [hentry, Function.update_apply, Function.update_apply]
    by_cases hother : other = user
    · subst hother
      rw [if_pos rfl]
      split_ifs with hr
      · subst hr
        rw [List.mem_orderedInsert, h.entries, or_iff_left hout]
        simp [eq_comm]
      · rw [h.entries, iff_false_left hout]
        simp only [Option.some.injEq, Prod.mk.injEq, not_and]
        exact fun _ heq => hr heq.symm
    · rw [if_neg hother]
      split_ifs with hr
      · subst hr
        rw [List.mem_orderedInsert, h.entries, or_iff_right]
        simp [hother]
      · exact h.entries r' other q
  keys r' := by
    rw [Function.update_apply]
    split_ifs with hr
    · have hperm := (List.perm_orderedInsert
        (fun a b : Int × Nat => a.1 ≤ b.1) (user, p) (members r)).map Prod.fst
      rw [hperm.nodup_iff, List.map_cons, List.nodup_cons]
      refine ⟨fun hmem => ?_, h.keys r⟩
      obtain ⟨⟨other, q⟩, hlisted, rfl⟩ := List.mem_map.mp hmem
      rw [h.entries] at hlisted
      rw [PlayerManager.isPlayerInRoom_eq, hlisted] at hnone
      cases hnone
    · exact h.keys r'

theorem erase (h : Roster manager members) (htidy : manager'.Tidy)
    (hroom : manager.entry user = some (p, some r))
    (hentry : manager'.entry = Function.update manager.entry user none) :
    Roster manager' (Function.update members r
      (eraseKey user (members r))) where
  tidy := htidy
  entries r' other q := by
    rw [hentry, Function.update_apply, Function.update_apply]
    by_cases hother : other = user
    · subst hother
      rw [if_pos rfl]
      split_ifs with hr
      · simp [mem_eraseKey]
      · rw [h.entries, hroom]
        simp only [Option.some.injEq, Prod.mk.injEq, iff_false, not_and]
        exact fun _ heq => hr heq.symm
    · rw [if_neg hother]
      split_ifs with hr
      · subst hr
        rw [mem_eraseKey, and_iff_left hother, h.entries]
      · exact h.entries r' other q
  keys r' := by
    rw [Function.update_apply]
    split_ifs with hr
    · exact nodup_eraseKey (h.keys r)
    · exact h.keys r'

end Roster

namespace GameSvr

variable {svr : GameSvr} {env : SvrEnv} {r p : Nat} {user : Int}
  {number : SeatNum} {seat : Int → Option (Nat × SeatNum)}

/-! ## What the writes leave alone -/

theorem desk_setDesk (svr : GameSvr) (r : Nat) (desk : GameDesk)
    (r' : Nat) :
    (svr.setDesk r desk).desk r' = if r' = r then desk else svr.desk r' := by
  simp only [GameSvr.desk, setDesk, setArea, Function.update_apply]
  split_ifs <;> rfl

@[simp] theorem desk_setDesk_self (svr : GameSvr) (r : Nat)
    (desk : GameDesk) : (svr.setDesk r desk).desk r = desk := by
  rw [desk_setDesk, if_pos rfl]

@[simp] theorem members_setDesk (svr : GameSvr) (r : Nat)
    (desk : GameDesk) : (svr.setDesk r desk).members = svr.members := by
  funext r'
  simp only [members, setDesk, setArea, Function.update_apply]
  split_ifs with hr
  · rw [hr]
  · rfl

@[simp] theorem info_setDesk (svr : GameSvr) (r : Nat) (desk : GameDesk) :
    (svr.setDesk r desk).info = svr.info := by
  funext r'
  simp only [info, setDesk, setArea, Function.update_apply]
  split_ifs with hr
  · rw [hr]
  · rfl

@[simp] theorem desk_setMembers (svr : GameSvr) (r : Nat)
    (entries : List (Int × Nat)) :
    (svr.setMembers r entries).desk = svr.desk := by
  funext r'
  simp only [GameSvr.desk, setMembers, setArea, Function.update_apply]
  split_ifs with hr
  · rw [hr]
  · rfl

@[simp] theorem info_setMembers (svr : GameSvr) (r : Nat)
    (entries : List (Int × Nat)) :
    (svr.setMembers r entries).info = svr.info := by
  funext r'
  simp only [info, setMembers, setArea, Function.update_apply]
  split_ifs with hr
  · rw [hr]
  · rfl

@[simp] theorem members_setMembers (svr : GameSvr) (r : Nat)
    (entries : List (Int × Nat)) :
    (svr.setMembers r entries).members =
      Function.update svr.members r entries := by
  funext r'
  simp only [members, setMembers, setArea, Function.update_apply]
  split_ifs <;> rfl

/-! ## Placements -/

structure Placed (svr : GameSvr) (seat : Int → Option (Nat × SeatNum)) :
    Prop where
  roster : Roster svr.playerManager svr.members
  room : ∀ user, svr.playerManager.isPlayerInRoom user =
    (seat user).map Prod.fst
  occupant : ∀ r number user, (svr.desk r).occupant number = some user ↔
    seat user = some (r, number)
  within : ∀ user r number, seat user = some (r, number) → r ∈ svr.areaIds

/-- A step of one of the desks would fail the same way. -/
def DeskFault (svr : GameSvr) (fault : SvrFault) : Prop :=
  ∃ r request f, step (svr.info r) (svr.desk r) request = .error f ∧
    fault = .desk f

theorem occupant_eq_some {desk : GameDesk} :
    desk.occupant number = some user ↔
      (desk.seats number).player.any (fun player => player.userId = user) := by
  rw [GameDesk.occupant, GameSeat.user, Option.map_eq_some_iff]
  simp [Option.any_eq_true]

theorem occupant_of_getSeat {desk : GameDesk}
    (h : desk.getSeat user = some number) :
    desk.occupant number = some user := by
  unfold GameDesk.getSeat at h
  exact occupant_eq_some.mpr
    (List.find?_some (p := fun number => (desk.seats number).player.any
      fun player => player.userId = user) h)

namespace Placed

theorem getSeat (h : svr.Placed seat) :
    (svr.desk r).getSeat user = some number ↔
      seat user = some (r, number) := by
  rw [← h.occupant]
  constructor
  · exact occupant_of_getSeat
  · intro hnumber
    cases hseat : (svr.desk r).getSeat user with
    | none =>
        have hnone := List.find?_eq_none.mp hseat number
          (List.mem_finRange number)
        exact absurd (occupant_eq_some.mp hnumber) hnone
    | some other =>
        have hother := occupant_of_getSeat hseat
        rw [h.occupant] at hother hnumber
        rw [hnumber] at hother
        cases hother
        rfl

theorem findPlayer (h : svr.Placed seat)
    (hp : svr.findPlayer r user = some p) :
    (∃ number, seat user = some (r, number)) ∧
      svr.playerManager.entry user = some (p, some r) := by
  have hentry := h.roster.lookup_eq_some.mp hp
  refine ⟨?_, hentry⟩
  have hroom := h.room user
  rw [PlayerManager.isPlayerInRoom_eq, hentry] at hroom
  obtain ⟨⟨r', number⟩, hseat, rfl⟩ := Option.map_eq_some_iff.mp hroom.symm
  exact ⟨number, hseat⟩

theorem findPlayer_of_seat (h : svr.Placed seat)
    (hseat : seat user = some (r, number)) :
    ∃ p, svr.findPlayer r user = some p := by
  apply h.roster.isPlayerInRoom_eq_some.mp
  rw [h.room, hseat]
  rfl

theorem findPlayer_eq_none (h : svr.Placed seat) :
    svr.findPlayer r user = none ↔ ∀ number, seat user ≠ some (r, number) := by
  constructor
  · intro hnone number hseat
    obtain ⟨p, hp⟩ := h.findPlayer_of_seat hseat
    rw [hnone] at hp
    cases hp
  · intro hout
    cases hp : svr.findPlayer r user with
    | none => rfl
    | some p =>
        obtain ⟨⟨number, hseat⟩, -⟩ := h.findPlayer hp
        exact absurd hseat (hout number)

theorem congr {svr' : GameSvr} (h : svr.Placed seat)
    (hmanager : svr'.playerManager = svr.playerManager)
    (harea : svr'.gameArea = svr.gameArea)
    (hids : svr'.areaIds = svr.areaIds) : svr'.Placed seat where
  roster := by
    have hmembers : svr'.members = svr.members := by
      funext r
      rw [members, harea, members]
    rw [hmanager, hmembers]
    exact h.roster
  room := by rw [hmanager]; exact h.room
  occupant := by
    intro r
    rw [GameSvr.desk, harea]
    exact h.occupant r
  within := by rw [hids]; exact h.within

theorem setManager (h : svr.Placed seat) {manager : PlayerManager}
    (htidy : manager.Tidy)
    (hsame : ∀ user p r, manager.entry user = some (p, some r) ↔
      svr.playerManager.entry user = some (p, some r)) :
    (svr.setManager env manager).Placed seat where
  roster := h.roster.settle htidy hsame
  room user := by
    have hroster := h.roster.settle htidy hsame
    rw [← h.room]
    apply Option.ext
    intro r
    change manager.isPlayerInRoom user = some r ↔ _
    rw [hroster.isPlayerInRoom_eq_some, h.roster.isPlayerInRoom_eq_some]
  occupant := h.occupant
  within := h.within

theorem setDesk {desk : GameDesk} (h : svr.Placed seat)
    (hsame : desk.occupant = (svr.desk r).occupant) :
    (svr.setDesk r desk).Placed seat where
  roster := by rw [members_setDesk]; exact h.roster
  room := h.room
  occupant r' number user := by
    rw [desk_setDesk]
    split_ifs with hr
    · rw [hsame, hr]
      exact h.occupant r number user
    · exact h.occupant r' number user
  within := h.within

end Placed

def forget (r : Nat) (user : Int) (p : Nat) (svr : GameSvr) : GameSvr :=
  { svr.eraseMember r user with
    playerManager := svr.playerManager.forget user p }

@[simp] theorem desk_forget (svr : GameSvr) (r : Nat) (user : Int)
    (p : Nat) : (svr.forget r user p).desk = svr.desk :=
  desk_setMembers _ _ _

@[simp] theorem info_forget (svr : GameSvr) (r : Nat) (user : Int)
    (p : Nat) : (svr.forget r user p).info = svr.info :=
  info_setMembers _ _ _

@[simp] theorem members_forget (svr : GameSvr) (r : Nat) (user : Int)
    (p : Nat) : (svr.forget r user p).members =
      Function.update svr.members r (eraseKey user (svr.members r)) :=
  members_setMembers _ _ _

theorem destroyPlayerI_eq (htidy : svr.playerManager.Tidy)
    {room : Option Nat}
    (hentry : svr.playerManager.entry user = some (p, room)) :
    (svr.eraseMember r user).destroyPlayerI p =
      .ok (svr.forget r user p) := by
  have hlogin := (PlayerManager.entry_eq_some.mp hentry).1
  rw [destroyPlayerI]
  change (raise _ (svr.playerManager.destoryPlayer p) >>= _) = _
  rw [PlayerManager.destoryPlayer_eq htidy hlogin]
  rfl

theorem destroyPlayer_eq (svr : GameSvr) (htidy : svr.playerManager.Tidy)
    {room : Option Nat}
    (hentry : svr.playerManager.entry user = some (p, room)) :
    svr.destroyPlayer r p = .ok (svr.forget r user p) := by
  have hlogin := (PlayerManager.entry_eq_some.mp hentry).1
  rw [destroyPlayer, htidy.known user p hlogin]
  exact destroyPlayerI_eq htidy hentry

theorem Placed.leave {desk : GameDesk} (h : svr.Placed seat)
    (hp : svr.findPlayer r user = some p)
    (hseat : seat user = some (r, number))
    (hdesk : desk.occupant =
      Function.update (svr.desk r).occupant number none) :
    ((svr.setDesk r desk).forget r user p).Placed
      (Function.update seat user none) where
  roster := by
    have hentry := (h.findPlayer hp).2
    have hlogin := (PlayerManager.entry_eq_some.mp hentry).1
    have herase := h.roster.erase (h.roster.tidy.forget hlogin) hentry
      (PlayerManager.entry_forget _ _ _)
    rw [members_forget, members_setDesk]
    exact herase
  room other := by
    change (svr.playerManager.forget user p).isPlayerInRoom other = _
    rw [PlayerManager.isPlayerInRoom_eq, PlayerManager.entry_forget,
      Function.update_apply, Function.update_apply]
    split_ifs
    · rfl
    · rw [← h.room, PlayerManager.isPlayerInRoom_eq]
  occupant r' number' other := by
    rw [desk_forget, desk_setDesk, Function.update_apply]
    have hhere := h.occupant r number user
    split_ifs with hr hother hother
    · subst hr
      rw [hdesk, Function.update_apply]
      split_ifs with hnumber
      · simp
      · rw [h.occupant, hother, hseat]
        simp [Ne.symm hnumber]
    · subst hr
      rw [hdesk, Function.update_apply]
      split_ifs with hnumber
      · subst hnumber
        refine iff_of_false (by simp) fun hseat' => hother ?_
        rw [← h.occupant, hhere.mpr hseat] at hseat'
        exact (Option.some.inj hseat').symm
      · exact h.occupant r' number' other
    · rw [h.occupant, hother, hseat]
      simp [Ne.symm hr]
    · exact h.occupant r' number' other
  within other r' number' := by
    rw [Function.update_apply]
    split_ifs
    · simp
    · exact h.within other r' number'

structure Admitted (svr : GameSvr) (seat : Int → Option (Nat × SeatNum))
    (r : Nat) (user : Int) (p : Nat) (svr' : GameSvr) : Prop where
  nowhere : seat user = none
  roster : Roster svr'.playerManager svr'.members
  entry : svr'.playerManager.entry =
    Function.update svr.playerManager.entry user (some (p, some r))
  desk : svr'.desk = svr.desk
  info : svr'.info = svr.info
  areaIds : svr'.areaIds = svr.areaIds

theorem addPlayer_spec (env : SvrEnv) (h : svr.Placed seat)
    (hout : svr.findPlayer r user = none) (session : Nat) :
    match svr.addPlayer env r user session with
    | (none, svr') => seat user ≠ none ∧ svr'.Placed seat ∧
        svr'.desk = svr.desk ∧ svr'.info = svr.info
    | (some p, svr') => svr.Admitted seat r user p svr' := by
  obtain ⟨htidy, hmake⟩ := h.roster.tidy.makePlayer user session
  rw [h.room] at hmake
  unfold addPlayer createPlayer
  rw [hout]
  dsimp only
  rcases hresult : svr.playerManager.makePlayer user session with
    ⟨_ | p, manager⟩ <;> rw [hresult] at hmake htidy
  · obtain ⟨hroom, hentry⟩ := hmake
    refine ⟨?_, h.setManager htidy fun other q room => ?_, rfl, rfl⟩
    · rintro hnone
      rw [hnone] at hroom
      cases hroom
    · exact iff_of_eq (congrArg (· = _) (congrFun hentry other))
  · obtain ⟨hroom, hentry⟩ := hmake
    have hmade : manager.entry user = some (p, none) := by
      rw [hentry, Function.update_self]
    have hlogin := (PlayerManager.entry_eq_some.mp hmade).1
    have hset := PlayerManager.entry_setRoom htidy hlogin (some r)
    rw [hentry, Function.update_idem] at hset
    refine ⟨Option.map_eq_none_iff.mp hroom, ?_, hset, ?_, ?_, ?_⟩
    · rw [members_setMembers]
      refine h.roster.insert (htidy.setRoom p (some r)) ?_ hset
      rw [h.room]
      exact hroom
    · exact desk_setMembers _ _ _
    · exact info_setMembers _ _ _
    · rfl

theorem Placed.sit {svr' : GameSvr} {desk : GameDesk} (h : svr.Placed seat)
    (hr : r ∈ svr.areaIds) (hadmitted : svr.Admitted seat r user p svr')
    (hfree : (svr.desk r).occupant number = none)
    (hdesk : desk.occupant =
      Function.update (svr.desk r).occupant number (some user)) :
    (svr'.setDesk r desk).Placed
      (Function.update seat user (some (r, number))) where
  roster := by
    rw [members_setDesk]
    exact hadmitted.roster
  room other := by
    change svr'.playerManager.isPlayerInRoom other = _
    rw [PlayerManager.isPlayerInRoom_eq, hadmitted.entry,
      Function.update_apply, Function.update_apply]
    split_ifs
    · rfl
    · rw [← h.room, PlayerManager.isPlayerInRoom_eq]
  occupant r' number' other := by
    have hfree' : ∀ user, seat user ≠ some (r, number) := by
      intro user hseat
      rw [← h.occupant, hfree] at hseat
      cases hseat
    rw [desk_setDesk, hadmitted.desk, Function.update_apply]
    split_ifs with hr hother hother
    · subst hr
      rw [hdesk, Function.update_apply]
      split_ifs with hnumber
      · simp [hother, hnumber]
      · rw [h.occupant, hother, hadmitted.nowhere]
        simp [Ne.symm hnumber]
    · subst hr
      rw [hdesk, Function.update_apply]
      split_ifs with hnumber
      · subst hnumber
        exact iff_of_false (by simp [Ne.symm hother]) (hfree' other)
      · exact h.occupant r' number' other
    · rw [h.occupant, hother, hadmitted.nowhere]
      simp [Ne.symm hr]
    · exact h.occupant r' number' other
  within other r' number' := by
    change _ → r' ∈ svr'.areaIds
    rw [hadmitted.areaIds, Function.update_apply]
    split_ifs
    · rintro ⟨⟩
      exact hr
    · exact h.within other r' number'

theorem Placed.turnAway {svr' : GameSvr} (h : svr.Placed seat)
    (hadmitted : svr.Admitted seat r user p svr') :
    ((svr'.eraseMember r user).forget r user p).Placed seat where
  roster := by
    have hentry : svr'.playerManager.entry user = some (p, some r) := by
      rw [hadmitted.entry, Function.update_self]
    have hlogin := (PlayerManager.entry_eq_some.mp hentry).1
    have herase := hadmitted.roster.erase
      (hadmitted.roster.tidy.forget hlogin) hentry
      (PlayerManager.entry_forget _ _ _)
    rw [members_forget, eraseMember, members_setMembers,
      Function.update_self, Function.update_idem, eraseKey_eraseKey]
    exact herase
  room other := by
    change (svr'.playerManager.forget user p).isPlayerInRoom other = _
    rw [PlayerManager.isPlayerInRoom_eq, PlayerManager.entry_forget,
      hadmitted.entry, Function.update_idem, Function.update_apply]
    split_ifs with hother
    · rw [hother, hadmitted.nowhere]
      rfl
    · rw [← h.room, PlayerManager.isPlayerInRoom_eq]
  occupant := by
    rw [desk_forget, eraseMember, desk_setMembers, hadmitted.desk]
    exact h.occupant
  within := by
    change ∀ user r number, _ → r ∈ svr'.areaIds
    rw [hadmitted.areaIds]
    exact h.within

/-! ## Coming and going -/

structure Sound (svr : GameSvr) (seat : Int → Option (Nat × SeatNum)) : Prop
    extends Placed svr seat where
  desks : ∀ r, Desk.Reachable (svr.info r) (fun _ _ => True) (svr.desk r)

theorem desks_setDesk {desk : GameDesk}
    (h : ∀ r, Desk.Reachable (svr.info r) (fun _ _ => True) (svr.desk r))
    (hdesk : Desk.Reachable (svr.info r) (fun _ _ => True) desk) (r' : Nat) :
    Desk.Reachable ((svr.setDesk r desk).info r') (fun _ _ => True)
      ((svr.setDesk r desk).desk r') := by
  rw [info_setDesk, desk_setDesk]
  split_ifs with hr
  · rw [hr]
    exact hdesk
  · exact h r'

theorem free_of_idle {room : RoomInfo} {desk : GameDesk}
    (h : Desk.Reachable room (fun _ _ => True) desk)
    (hidle : (desk.seats number).status.seated = false) :
    desk.occupant number = none := by
  have hplayer : (desk.seats number).player.isSome =
      (desk.seats number).status.seated := (h.sound.places number).player
  rw [hidle, Option.isSome_eq_false_iff, Option.isNone_iff_eq_none] at hplayer
  rw [GameDesk.occupant, GameSeat.user, hplayer]
  rfl

theorem idle_of_free {room : RoomInfo} {desk : GameDesk}
    (h : Desk.Reachable room (fun _ _ => True) desk)
    (hfree : desk.occupant number = none) :
    (desk.seats number).status.seated = false := by
  have hplayer : (desk.seats number).player.isSome =
      (desk.seats number).status.seated := (h.sound.places number).player
  rw [← hplayer, Option.map_eq_none_iff.mp hfree]
  rfl

theorem standUp_spec (h : (svr.desk r).getSeat user = some number) :
    Meets (fun res => ∃ desk,
        (svr.desk r).playerStandUp (svr.info r) env.toEnv number =
          .ok desk ∧
        res = (svr.setDesk r desk, (svr.desk r).mayStandUp number))
      svr.DeskFault (svr.standUp env r number) := by
  unfold standUp
  cases hstand : (svr.desk r).playerStandUp (svr.info r) env.toEnv number with
  | error fault =>
      refine ⟨r, (env.toEnv, .applyStandup user), fault, ?_, rfl⟩
      rw [step, serve, h]
      exact hstand
  | ok desk => exact ⟨desk, rfl, rfl⟩

theorem onPlayerExit_spec (env : SvrEnv) (user : Int)
    (h : svr.Sound seat) :
    Meets (fun res : GameSvr × ErrorCode => ∃ seat', res.1.Sound seat' ∧
        res.1.areaIds = svr.areaIds ∧
        (∀ r', r' ≠ r → res.1.desk r' = svr.desk r') ∧
        match res.2 with
        | .success => (∃ number, seat user = some (r, number) ∧
            (svr.desk r).mayStandUp number = true) ∧
            seat' = Function.update seat user none
        | .gameNotOver => (∃ number, seat user = some (r, number) ∧
            (svr.desk r).mayStandUp number = false) ∧ seat' = seat
        | .userNotInRoom => (∀ number, seat user ≠ some (r, number)) ∧
            seat' = seat
        | _ => False)
      svr.DeskFault (svr.onPlayerExit env r user) := by
  unfold onPlayerExit
  cases hp : svr.findPlayer r user with
  | none =>
      exact ⟨seat, h, rfl, fun _ _ => rfl, h.findPlayer_eq_none.mp hp, rfl⟩
  | some p =>
      obtain ⟨⟨number, hseat⟩, hentry⟩ := h.findPlayer hp
      dsimp only
      rw [h.getSeat.mpr hseat]
      refine (standUp_spec (h.getSeat.mpr hseat)).bind ?_
      rintro _ - ⟨desk, hdesk, rfl⟩
      have hoccupant := (GameDesk.playerStandUp_seats (svr.info r)
        env.toEnv number rfl).result hdesk
      have hreach : Desk.Reachable (svr.info r) (fun _ _ => True) desk := by
        refine (h.desks r).step (a := (env.toEnv, .applyStandup user))
          trivial ?_
        rw [step, serve, h.getSeat.mpr hseat]
        exact hdesk
      dsimp only
      cases hmay : (svr.desk r).mayStandUp number with
      | false =>
          rw [hmay, if_neg Bool.false_ne_true] at hoccupant
          refine ⟨seat, ⟨h.toPlaced.setDesk hoccupant,
            desks_setDesk h.desks hreach⟩, rfl, fun r' hr => ?_,
            ⟨number, hseat, hmay⟩, rfl⟩
          rw [desk_setDesk, if_neg hr]
      | true =>
          rw [hmay, if_pos rfl] at hoccupant
          have hplaced := h.toPlaced.leave hp hseat hoccupant
          have hdestroy : (svr.setDesk r desk).destroyPlayer r p =
              .ok ((svr.setDesk r desk).forget r user p) :=
            destroyPlayer_eq _ h.roster.tidy hentry
          rw [if_pos rfl, hdestroy]
          refine ⟨_, ⟨hplaced, fun r' => ?_⟩, rfl, fun r' hr => ?_,
            ⟨number, hseat, hmay⟩, rfl⟩
          · rw [desk_forget, info_forget]
            exact desks_setDesk h.desks hreach r'
          · change GameSvr.desk (forget r user p _) r' = _
            rw [desk_forget, desk_setDesk, if_neg hr]

theorem isSeatIdle_iff {desk : GameDesk} :
    desk.isSeatIdle number = true ↔
      (desk.seats number).status.seated = false := by
  unfold GameDesk.isSeatIdle
  rw [List.any_eq_true]
  constructor
  · rintro ⟨number', -, h⟩
    rw [Bool.and_eq_true, decide_eq_true_eq, Bool.not_eq_true'] at h
    have heq : number = number' := by
      ext
      exact_mod_cast h.1
    rw [heq]
    exact h.2
  · intro h
    exact ⟨number, List.mem_finRange number, by simp [h]⟩

theorem sit_step (env : SvrEnv) (h : svr.Sound seat)
    (hnowhere : seat user = none) :
    Desk.Reachable (svr.info r) (fun _ _ => True)
      ((svr.desk r).playerSitDown user number) := by
  have hseat : (svr.desk r).getSeat user = none := by
    cases hseat : (svr.desk r).getSeat user with
    | none => rfl
    | some number' =>
        rw [h.getSeat, hnowhere] at hseat
        cases hseat
  refine (h.desks r).step (a := (deskEnv env r svr, .applySeat user number))
    trivial ?_
  rw [step, hseat]

theorem onNewPlayerEnter_spec (h : svr.Sound seat) (hr : r ∈ svr.areaIds)
    (hout : svr.findPlayer r user = none) (session : Nat) :
    Meets (fun res : GameSvr × ErrorCode => ∃ seat', res.1.Sound seat' ∧
        match res.2 with
        | .success => seat user = none ∧
            ∃ number, seat' = Function.update seat user (some (r, number))
        | .havenoTokenLogin => seat user ≠ none ∧ seat' = seat
        | .haveNoSeat => seat user = none ∧ seat' = seat ∧
            ∀ number, (svr.desk r).occupant number ≠ none
        | .userBuyInFailed => seat user = none ∧ seat' = seat ∧
            env.buyIn user = false
        | _ => False)
      (fun _ => False) (svr.onNewPlayerEnter env r user session) := by
  have hadd := addPlayer_spec env h.toPlaced hout session
  unfold onNewPlayerEnter
  rcases hresult : svr.addPlayer env r user session with
    ⟨_ | p, svr'⟩ <;> rw [hresult] at hadd <;> dsimp only at hadd ⊢
  · obtain ⟨hsome, hplaced, hdesk, hinfo⟩ := hadd
    refine ⟨seat, ⟨hplaced, ?_⟩, hsome, rfl⟩
    rw [hdesk, hinfo]
    exact h.desks
  · have hturn : ((svr'.eraseMember r user).destroyPlayer r p) =
        .ok ((svr'.eraseMember r user).forget r user p) := by
      have hentry : svr'.playerManager.entry user = some (p, some r) := by
        rw [hadd.entry, Function.update_self]
      exact destroyPlayer_eq (svr'.eraseMember r user) hadd.roster.tidy
        hentry
    have hturned :
        ((svr'.eraseMember r user).forget r user p).Sound seat := by
      refine ⟨h.toPlaced.turnAway hadd, ?_⟩
      rw [desk_forget, info_forget, eraseMember, desk_setMembers,
        info_setMembers, hadd.desk, hadd.info]
      exact h.desks
    cases hidle : (svr'.desk r).getIdleSeatNumber with
    | none =>
        dsimp only
        rw [hturn]
        refine ⟨seat, hturned, hadd.nowhere, rfl, fun number hfree => ?_⟩
        have hseated := List.find?_eq_none.mp hidle number
          (List.mem_finRange number)
        rw [hadd.desk] at hseated
        rw [idle_of_free (h.desks r) hfree] at hseated
        exact hseated rfl
    | some number =>
        have hseated : ((svr.desk r).seats number).status.seated = false := by
          rw [← hadd.desk]
          simpa using List.find?_some hidle
        have hfree := free_of_idle (h.desks r) hseated
        dsimp only
        split_ifs
        next hbuy =>
          have hsat : svr'.sitDown r user number =
              .ok (svr'.setDesk r
                ((svr.desk r).playerSitDown user number)) := by
            rw [sitDown, hadd.desk, if_pos (isSeatIdle_iff.mpr hseated)]
          rw [hsat]
          refine ⟨_, ⟨h.toPlaced.sit hr hadd hfree
            (GameDesk.occupant_playerSitDown number user hseated rfl),
            desks_setDesk ?_ ?_⟩, hadd.nowhere, number, rfl⟩
          · rw [hadd.desk, hadd.info]
            exact h.desks
          · rw [hadd.info]
            exact sit_step env h hadd.nowhere
        next hbuy =>
          rw [hturn]
          exact ⟨seat, hturned, hadd.nowhere, rfl, by simpa using hbuy⟩

theorem dispatchQuitRoom_spec (h : svr.Sound seat)
    (hseat : seat user = some (r, number)) :
    Meets (fun svr' : GameSvr => ∃ seat', svr'.Sound seat' ∧
        svr'.areaIds = svr.areaIds ∧
        (∀ r', r' ≠ r → svr'.desk r' = svr.desk r') ∧
        seat' = if (svr.desk r).mayStandUp number then
          Function.update seat user none else seat)
      svr.DeskFault (svr.dispatchQuitRoom env r user) := by
  unfold dispatchQuitRoom
  rw [if_pos (h.within user r number hseat)]
  refine (onPlayerExit_spec env user h).bind ?_
  rintro ⟨svr', code⟩ - ⟨seat', hsound, hids, hothers, hcode⟩
  refine ⟨seat', hsound, hids, hothers, ?_⟩
  rw [hseat] at hcode
  cases code <;> dsimp only at hcode
  case success =>
    obtain ⟨⟨number', heq, hmay⟩, rfl⟩ := hcode
    cases heq
    rw [if_pos hmay]
  case userNotInRoom => exact absurd rfl (hcode.1 number)
  case gameNotOver =>
    obtain ⟨⟨number', heq, hmay⟩, rfl⟩ := hcode
    cases heq
    rw [hmay, if_neg Bool.false_ne_true]

def Free (svr : GameSvr) (seat : Int → Option (Nat × SeatNum))
    (user : Int) : Prop :=
  ∀ r number, seat user = some (r, number) →
    (svr.desk r).mayStandUp number = true

/--
A user who asks for a room is there with a seat exactly if the answer is that
it worked.  Otherwise the user is still in another room, whose game does not
let the user go, or in no room.
-/
theorem onPlayerEnter_spec (h : svr.Sound seat) (hr : r ∈ svr.areaIds)
    (session : Nat) :
    Meets (fun res : GameSvr × ErrorCode => ∃ seat', res.1.Sound seat' ∧
        (seat' = seat ∨ svr.Free seat user) ∧
        match res.2 with
        | .success => ∃ number,
            seat' = Function.update seat user (some (r, number))
        | .havenoTokenLogin => seat' = seat ∧ ∃ r' number, r' ≠ r ∧
            seat user = some (r', number) ∧
            (svr.desk r').mayStandUp number = false
        | .haveNoSeat => seat' = Function.update seat user none ∧
            ∀ number, (svr.desk r).occupant number ≠ none
        | .userBuyInFailed => seat' = Function.update seat user none ∧
            env.buyIn user = false
        | _ => False)
      svr.DeskFault (svr.onPlayerEnter env r user session) := by
  unfold onPlayerEnter
  cases hp : svr.findPlayer r user with
  | some p =>
      obtain ⟨⟨number, hseat⟩, -⟩ := h.findPlayer hp
      refine ⟨seat, h, .inl rfl, number, ?_⟩
      rw [← hseat, Function.update_eq_self]
  | none =>
      have hout := h.findPlayer_eq_none.mp hp
      dsimp only
      rw [h.room]
      cases hseat : seat user with
      | none =>
          refine (onNewPlayerEnter_spec h hr hp session).mono ?_
            fun _ => False.elim
          rintro ⟨svr', code⟩ ⟨seat', hsound, hcode⟩
          have hfree : svr.Free seat user := by
            intro r' number hplace
            rw [hseat] at hplace
            cases hplace
          refine ⟨seat', hsound, .inr hfree, ?_⟩
          have hsame : seat = Function.update seat user none := by
            rw [← hseat, Function.update_eq_self]
          cases code <;> dsimp only at hcode ⊢
          case success => exact hcode.2
          case havenoTokenLogin => exact absurd hseat hcode.1
          case haveNoSeat => exact ⟨hcode.2.1.trans hsame, hcode.2.2⟩
          case userBuyInFailed => exact ⟨hcode.2.1.trans hsame, hcode.2.2⟩
      | some place =>
          obtain ⟨old, number⟩ := place
          have hold : old ≠ r := by
            rintro rfl
            exact hout number hseat
          refine (dispatchQuitRoom_spec h hseat).bind ?_
          rintro left - ⟨seat₁, hleft, hids, hothers, hseat₁⟩
          have hout₁ : left.findPlayer r user = none := by
            rw [hleft.findPlayer_eq_none, hseat₁]
            split_ifs
            · simp
            · exact hout
          refine (onNewPlayerEnter_spec hleft (by rwa [hids]) hout₁
            session).mono ?_ fun _ => False.elim
          rintro ⟨svr', code⟩ ⟨seat', hsound, hcode⟩
          refine ⟨seat', hsound, ?_⟩
          rw [hothers r hold.symm] at hcode
          split_ifs at hseat₁ with hmay <;> subst hseat₁
          · have hfree : svr.Free seat user := by
              intro r' number' hplace
              rw [hseat] at hplace
              cases hplace
              exact hmay
            refine ⟨.inr hfree, ?_⟩
            cases code <;> dsimp only at hcode ⊢ <;>
              simp only [Function.update_self, Function.update_idem, ne_eq,
                not_true_eq_false, true_and, false_and] at hcode
            all_goals exact hcode
          · cases code <;> dsimp only at hcode ⊢ <;>
              simp only [hseat, reduceCtorEq, false_and] at hcode
            exact ⟨.inl hcode.2, hcode.2, old, number, hold, rfl,
              by simpa using hmay⟩

theorem flush_sound (env : SvrEnv) (h : svr.Sound seat) (p : Nat) :
    (svr.flushOnlineTime env p).Sound seat :=
  ⟨h.toPlaced.congr rfl rfl rfl, h.desks⟩

theorem onApplySeat_spec (h : svr.Sound seat) (seatNumber : Int) :
    Meets (fun res : GameSvr × ErrorCode => res.1.Sound seat)
      (fun _ => False) (svr.onApplySeat env r user seatNumber) := by
  unfold onApplySeat
  cases hp : svr.findPlayer r user with
  | none => exact h
  | some p =>
      obtain ⟨⟨number, hseat⟩, -⟩ := h.findPlayer hp
      have hflushed := flush_sound env h p
      have hsome : (((svr.flushOnlineTime env p).desk r).getSeat
          user).isSome = true := by
        rw [hflushed.getSeat.mpr hseat]
        rfl
      dsimp only
      rw [if_pos hsome]
      exact hflushed

theorem onApplyStandup_spec (h : svr.Sound seat) :
    Meets (fun res : GameSvr × ErrorCode => ∃ seat', res.1.Sound seat' ∧
        (seat' = seat ∨ seat' = Function.update seat user none ∧
          ∃ number, seat user = some (r, number) ∧
            (svr.desk r).mayStandUp number = true))
      svr.DeskFault (svr.onApplyStandup env r user) := by
  unfold onApplyStandup
  cases hp : svr.findPlayer r user with
  | none => exact ⟨seat, h, .inl rfl⟩
  | some p =>
      have hflushed := flush_sound env h p
      have hp : (svr.flushOnlineTime env p).findPlayer r user = some p := hp
      have hexit := onPlayerExit_spec env (r := r) user hflushed
      obtain ⟨⟨number, hseat⟩, -⟩ := hflushed.findPlayer hp
      have hseat' := hflushed.getSeat.mpr hseat
      unfold onPlayerExit at hexit
      rw [hp] at hexit
      dsimp only at hexit ⊢
      rw [hseat'] at hexit ⊢
      dsimp only at hexit ⊢
      cases hstand : (svr.flushOnlineTime env p).standUp env r number with
      | error fault =>
          rw [hstand] at hexit
          exact hexit
      | ok stood =>
          obtain ⟨stood, gone⟩ := stood
          rw [hstand, ok_bind] at hexit
          rw [ok_bind]
          cases gone with
          | false =>
              obtain ⟨seat', hsound, -, -, -, hsame⟩ := hexit
              exact ⟨seat', hsound, .inl hsame⟩
          | true =>
              dsimp only at hexit ⊢
              rw [if_pos rfl] at hexit ⊢
              cases hdestroy : stood.destroyPlayer r p with
              | error fault =>
                  rw [hdestroy] at hexit
                  exact hexit
              | ok left =>
                  rw [hdestroy] at hexit
                  obtain ⟨seat', hsound, -, -, hmay, hleft⟩ := hexit
                  exact ⟨seat', hsound, .inr ⟨hleft, hmay⟩⟩

/-! ## Playing -/

theorem play_seats (room : RoomInfo) (env : Env) (user : Int) (play : Play)
    {desk : GameDesk} {users : SeatNum → Option Int}
    (h : desk.occupant = users) :
    GameDesk.Seats users (step room desk (env, play.request user)) := by
  have hserve (handler : GameDesk → SeatNum → Except Fault GameDesk)
      (hhandler : ∀ number, GameDesk.Seats users (handler desk number)) :
      GameDesk.Seats users (serve desk user handler) := by
    unfold serve
    split
    · exact h
    · exact hhandler _
  cases play with
  | digCard digtype =>
      exact hserve _ fun number =>
        GameDesk.playerDigCard_seats number digtype h
  | postCard card =>
      exact hserve _ fun number =>
        GameDesk.playerPostCard_seats room env number _ h
  | declare card groups =>
      exact hserve _ fun number =>
        GameDesk.playerDeclare_seats number _ _ h
  | loseDeclare groups =>
      exact hserve _ fun number =>
        GameDesk.playerLoseDeclare_seats room env number _ h
  | drop =>
      exact hserve _ fun number =>
        GameDesk.playerDrop_seats room env number h
  | trusteeOff =>
      exact hserve _ fun number =>
        GameDesk.playerTrusteeoff_seats number h

theorem onPlay_spec (h : svr.Sound seat) (play : Play) :
    Meets (fun res : GameSvr × Option ErrorCode => res.1.Sound seat)
      svr.DeskFault (svr.onPlay env r user play) := by
  unfold onPlay
  cases hp : svr.findPlayer r user with
  | none => exact h
  | some p =>
      have hflushed := flush_sound env h p
      dsimp only
      cases hstep : step ((svr.flushOnlineTime env p).info r)
          ((svr.flushOnlineTime env p).desk r)
          (env.toEnv, play.request user) with
      | error fault => exact ⟨r, _, fault, hstep, rfl⟩
      | ok desk =>
          refine ⟨hflushed.toPlaced.setDesk
            ((play_seats _ env.toEnv user play rfl).result hstep),
            desks_setDesk hflushed.desks ?_⟩
          exact (hflushed.desks r).step trivial hstep

theorem onNotice_spec (h : svr.Sound seat) (notice : Notice) :
    (svr.onNotice env r user notice).1.Sound seat := by
  unfold onNotice
  split
  · exact h
  · dsimp only
    split_ifs
    · exact flush_sound env h _
    · exact h

/-! ## Clearing the seats -/

/-- Nobody moves but out of a room. -/
def Emptied (r : Nat) (seat seat' : Int → Option (Nat × SeatNum)) : Prop :=
  ∀ user, seat' user = seat user ∨
    seat' user = none ∧ ∃ number, seat user = some (r, number)

theorem Emptied.refl (r : Nat) (seat : Int → Option (Nat × SeatNum)) :
    Emptied r seat seat :=
  fun _ => .inl rfl

theorem Emptied.out {seat' : Int → Option (Nat × SeatNum)}
    (h : Emptied r seat seat') (hseat : seat' user = some (r, number)) :
    Emptied r seat (Function.update seat' user none) := by
  intro other
  rw [Function.update_apply]
  split_ifs with hother
  · subst hother
    rcases h other with hsame | ⟨hnone, -⟩
    · exact .inr ⟨rfl, number, hsame.symm.trans hseat⟩
    · rw [hnone] at hseat
      cases hseat
  · exact h other

structure Cleared (svr : GameSvr) (seat : Int → Option (Nat × SeatNum))
    (r : Nat) (rest : Except Fault GameDesk) (svr' : GameSvr) : Prop where
  placed : ∃ seat', svr'.Placed seat' ∧ Emptied r seat seat'
  info : svr'.info = svr.info
  others : ∀ r', r' ≠ r → svr'.desk r' = svr.desk r'
  gameOver : (svr'.desk r).isGameOver
  desk : rest = .ok (svr'.desk r)

theorem kicks_spec (env : SvrEnv) (unfit : Player → Bool) (env' : Env)
    (h : svr.Placed seat) (hover : (svr.desk r).isGameOver) :
    Meets (svr.Cleared seat r (GameDesk.seatNums.foldlM
        (GameDesk.standUpIf (svr.info r) env' unfit) (svr.desk r)))
      (fun _ => False)
      (GameDesk.seatNums.foldlM (kickIf env r unfit) svr) := by
  have hloop := Meets.foldlM (E := fun _ => False) (f := kickIf env r unfit)
    (K := fun rest svr' => (∃ seat', svr'.Placed seat' ∧
        Emptied r seat seat') ∧
      svr'.info = svr.info ∧ (∀ r', r' ≠ r → svr'.desk r' = svr.desk r') ∧
      (svr'.desk r).isGameOver ∧
      GameDesk.seatNums.foldlM (GameDesk.standUpIf (svr.info r) env' unfit)
        (svr.desk r) =
      rest.foldlM (GameDesk.standUpIf (svr.info r) env' unfit)
        (svr'.desk r)) ?_ (l := GameDesk.seatNums) (b := svr)
      ⟨⟨seat, h, .refl r seat⟩, rfl, fun _ _ => rfl, hover, rfl⟩
  · refine hloop.mono (fun svr' h' => ?_) fun _ => id
    obtain ⟨hplaced, hinfo, hothers, hover, hdesk⟩ := h'
    exact ⟨hplaced, hinfo, hothers, hover, hdesk⟩
  · rintro number rest svr₁
      ⟨⟨seat₁, hplaced, hempty⟩, hinfo, hothers, hover, hdesk⟩
    rw [List.foldlM_cons] at hdesk
    unfold kickIf
    cases hplayer : ((svr₁.desk r).seats number).player with
    | none =>
        have hstay : (svr₁.desk r).standUpIf (svr.info r) env' unfit number =
            .ok (svr₁.desk r) := by
          rw [GameDesk.standUpIf, hplayer]
        rw [hstay] at hdesk
        exact ⟨⟨seat₁, hplaced, hempty⟩, hinfo, hothers, hover, hdesk⟩
    | some player =>
        dsimp only
        split_ifs with hunfit
        · have hleave : (svr₁.desk r).standUpIf (svr.info r) env' unfit
              number = .ok ((svr₁.desk r).finishStandUp number) := by
            rw [GameDesk.standUpIf, hplayer]
            dsimp only
            rw [if_pos hunfit, GameDesk.playerStandUp_of_isGameOver _ _ _ hover]
          rw [hleave] at hdesk
          have huser : (svr₁.desk r).occupant number =
              some player.userId := by
            rw [GameDesk.occupant, GameSeat.user, hplayer]
            rfl
          have hseat := (hplaced.occupant r number player.userId).mp huser
          obtain ⟨p, hp⟩ := hplaced.findPlayer_of_seat hseat
          have hentry := (hplaced.findPlayer hp).2
          have hstand : svr₁.standUp env r number =
              .ok (svr₁.setDesk r ((svr₁.desk r).finishStandUp number),
                true) := by
            rw [standUp, GameDesk.playerStandUp_of_isGameOver _ _ _ hover,
              GameDesk.mayStandUp_of_isGameOver _ hover]
            rfl
          have hfind : (svr₁.setDesk r
              ((svr₁.desk r).finishStandUp number)).findPlayer r
                player.userId = some p := by
            rw [findPlayer, members_setDesk]
            exact hp
          rw [hstand, ok_bind]
          dsimp only
          rw [hfind]
          dsimp only
          rw [destroyPlayer_eq (svr₁.setDesk r
            ((svr₁.desk r).finishStandUp number)) hplaced.roster.tidy hentry]
          refine ⟨⟨_, hplaced.leave hp hseat
            (GameDesk.occupant_finishStandUp number rfl),
            hempty.out hseat⟩, ?_, ?_, ?_, ?_⟩
          · rw [info_forget, info_setDesk, hinfo]
          · intro r' hr'
            rw [desk_forget, desk_setDesk, if_neg hr', hothers r' hr']
          · rw [desk_forget, desk_setDesk_self]
            exact GameDesk.finishStandUp_isGameOver number hover
          · rw [desk_forget, desk_setDesk_self, hdesk]
            rfl
        · have hstay : (svr₁.desk r).standUpIf (svr.info r) env' unfit
              number = .ok (svr₁.desk r) := by
            rw [GameDesk.standUpIf, hplayer]
            dsimp only
            rw [if_neg hunfit]
          rw [hstay] at hdesk
          exact ⟨⟨seat₁, hplaced, hempty⟩, hinfo, hothers, hover, hdesk⟩

theorem Cleared.sound {svr' : GameSvr} {desk : GameDesk}
    {rest : Except Fault GameDesk} (request : Env × Request)
    (h : svr.Sound seat)
    (hcleared : (svr.setDesk r desk).Cleared seat r rest svr')
    (hstep : step (svr.info r) (svr.desk r) request = rest) :
    ∃ seat', svr'.Sound seat' ∧ Emptied r seat seat' := by
  obtain ⟨seat', hplaced, hempty⟩ := hcleared.placed
  refine ⟨seat', ⟨hplaced, fun r' => ?_⟩, hempty⟩
  rw [hcleared.info, info_setDesk]
  by_cases hr : r' = r
  · subst hr
    exact (h.desks r').step trivial (hstep.trans hcleared.desk)
  · rw [hcleared.others r' hr, desk_setDesk, if_neg hr]
    exact h.desks r'

theorem Cleared.setDesk {svr' : GameSvr} {rest rest' : Except Fault GameDesk}
    (h : svr.Cleared seat r rest svr') (desk : GameDesk)
    (hsame : desk.occupant = (svr'.desk r).occupant)
    (hover : desk.isGameOver) (hrest : rest' = .ok desk) :
    svr.Cleared seat r rest' (svr'.setDesk r desk) where
  placed := by
    obtain ⟨seat', hplaced, hempty⟩ := h.placed
    exact ⟨seat', hplaced.setDesk hsame, hempty⟩
  info := by rw [info_setDesk, h.info]
  others r' hr := by rw [desk_setDesk, if_neg hr, h.others r' hr]
  gameOver := by rw [desk_setDesk_self]; exact hover
  desk := by rw [desk_setDesk_self, hrest]

theorem deskEnv_setDesk (env : SvrEnv) (r : Nat) (svr : GameSvr)
    (desk : GameDesk) :
    (svr.setDesk r desk).deskEnv env r = svr.deskEnv env r := by
  simp only [deskEnv, findPlayer, members_setDesk]
  rfl

theorem stepUnready_spec (env : SvrEnv) (env' : Env) (h : svr.Placed seat)
    (hover : (svr.desk r).isGameOver)
    (hchips : env'.checkChipsCarry = env.checkChipsCarry) :
    Meets (svr.Cleared seat r
        ((svr.desk r).stepUnready (svr.info r) env'))
      (fun _ => False) (svr.stepUnready env r) := by
  have hkicks := kicks_spec env
    (fun player => !env.checkChipsCarry player.userId) env' h hover
  refine hkicks.bind fun svr' _ hcleared => ?_
  have hdesk : (svr.desk r).stepUnready (svr.info r) env' =
      if (svr'.desk r).isGameCanStart then
        .ok ((svr'.desk r).waitForRound .waitPlaying)
      else .ok (svr'.desk r) := by
    rw [GameDesk.stepUnready, GameDesk.checkPlayerChips, hchips,
      hcleared.desk]
    rfl
  split_ifs at hdesk ⊢
  · exact hcleared.setDesk _ rfl rfl hdesk
  · exact ⟨hcleared.placed, hcleared.info, hcleared.others,
      hcleared.gameOver, hdesk⟩

theorem readyForNextGame_spec (env : SvrEnv) (h : svr.Placed seat) :
    Meets (svr.Cleared seat r ((svr.desk r).readyForNextGame (svr.info r)
        (svr.deskEnv env r)))
      (fun _ => False) (svr.readyForNextGame env r) := by
  have hwait : (svr.setDesk r
      ((svr.desk r).waitForRound .unready)).Placed seat :=
    h.setDesk rfl
  have hkicks := kicks_spec env (r := r)
    (fun player => (svr.deskEnv env r).offline player.userId ||
      player.trusteed) (svr.deskEnv env r) hwait
    (by rw [desk_setDesk_self]; rfl)
  rw [desk_setDesk_self, info_setDesk] at hkicks
  have hcheck : (svr.setDesk r ((svr.desk r).waitForRound .unready)
      ).checkPlayerStatus env r = GameDesk.seatNums.foldlM
        (kickIf env r fun player =>
          (svr.deskEnv env r).offline player.userId || player.trusteed)
        (svr.setDesk r ((svr.desk r).waitForRound .unready)) := by
    rw [checkPlayerStatus, deskEnv_setDesk]
  rw [readyForNextGame, hcheck]
  refine hkicks.bind fun svr' _ hcleared => ?_
  have hdesk : (svr.desk r).readyForNextGame (svr.info r)
      (svr.deskEnv env r) = .ok (svr'.desk r).setPlayerMatchoverStatus := by
    rw [GameDesk.readyForNextGame, GameDesk.checkPlayerStatus,
      hcleared.desk]
    rfl
  have hready := hcleared.setDesk (svr'.desk r).setPlayerMatchoverStatus
    (GameDesk.occupant_setJoinedStatus .unready rfl) hcleared.gameOver hdesk
  refine ⟨hready.placed, ?_, fun r' hr => ?_, hready.gameOver,
    hready.desk⟩
  · rw [hready.info, info_setDesk]
  · rw [hready.others r' hr, desk_setDesk, if_neg hr]

theorem stepNewRound_of_unready {room : RoomInfo} {env : Env}
    {desk : GameDesk} (h : desk.round = .unready) :
    desk.stepNewRound room env =
      { desk with waiting := false }.stepUnready room env := by
  unfold GameDesk.stepNewRound
  dsimp only
  rw [h]

theorem stepNewRound_of_distribute {room : RoomInfo} {env : Env}
    {desk : GameDesk} (h : desk.round = .distribute) :
    desk.stepNewRound room env =
      { desk with waiting := false }.readyForNextGame room env := by
  unfold GameDesk.stepNewRound
  dsimp only
  rw [h]

theorem stepNewRound_spec (h : svr.Sound seat) :
    Meets (fun svr' : GameSvr => ∃ seat', svr'.Sound seat' ∧
        (seat' = seat ∨ (svr.desk r).isGameOver ∧ Emptied r seat seat'))
      svr.DeskFault (svr.stepNewRound env r) := by
  have hready : (svr.setDesk r
      { svr.desk r with waiting := false }).Placed seat :=
    h.toPlaced.setDesk rfl
  unfold stepNewRound
  extract_lets ready
  split
  next hround =>
    have hspec := stepUnready_spec env (svr.deskEnv env r) hready
      (by rw [desk_setDesk_self, GameDesk.isGameOver, hround]; rfl) rfl
    refine hspec.mono (fun svr' hcleared => ?_) fun _ => False.elim
    rw [desk_setDesk_self, info_setDesk] at hcleared
    obtain ⟨seat', hsound, hempty⟩ := hcleared.sound
      (svr.deskEnv env r, .waitRoundTimeout) h
      (stepNewRound_of_unready hround)
    refine ⟨seat', hsound, .inr ⟨?_, hempty⟩⟩
    rw [GameDesk.isGameOver, hround]
    rfl
  next hround =>
    have hspec := readyForNextGame_spec env (r := r) hready
    refine hspec.mono (fun svr' hcleared => ?_) fun _ => False.elim
    rw [desk_setDesk_self, info_setDesk, deskEnv_setDesk] at hcleared
    obtain ⟨seat', hsound, hempty⟩ := hcleared.sound
      (svr.deskEnv env r, .waitRoundTimeout) h
      (stepNewRound_of_distribute hround)
    refine ⟨seat', hsound, .inr ⟨?_, hempty⟩⟩
    rw [GameDesk.isGameOver, hround]
    rfl
  next hunready hdistribute =>
    cases hround : (svr.desk r).stepNewRound (svr.info r) env.toEnv with
    | error fault =>
        exact ⟨r, (env.toEnv, .waitRoundTimeout), fault, hround, rfl⟩
    | ok desk =>
        have hseats := GameDesk.stepNewRound_seats (svr.info r) env.toEnv
          hunready hdistribute rfl
        refine ⟨seat, ⟨h.toPlaced.setDesk (hseats.result hround),
          desks_setDesk h.desks ?_⟩, .inl rfl⟩
        exact (h.desks r).step (a := (env.toEnv, .waitRoundTimeout))
          trivial hround

theorem onApplyCloseAccountBox_spec (h : svr.Sound seat) :
    Meets (fun res : GameSvr × ErrorCode => ∃ seat', res.1.Sound seat' ∧
        (seat' = seat ∨ (svr.desk r).isGameOver ∧ Emptied r seat seat'))
      (fun _ => False) (svr.onApplyCloseAccountBox env r user) := by
  unfold onApplyCloseAccountBox
  cases hp : svr.findPlayer r user with
  | none => exact ⟨seat, h, .inl rfl⟩
  | some p =>
      have hflushed := flush_sound env h p
      obtain ⟨⟨number, hseat⟩, -⟩ := h.findPlayer hp
      have hseat' := hflushed.getSeat.mpr hseat
      dsimp only
      rw [hseat']
      change Meets (fun res : GameSvr × ErrorCode => ∃ seat',
        res.1.Sound seat' ∧ (seat' = seat ∨
          ((svr.flushOnlineTime env p).desk r).isGameOver ∧
            Emptied r seat seat')) _ _
      generalize svr.flushOnlineTime env p = svr at hflushed hseat'
      refine Meets.bind (Q := fun svr' : GameSvr => ∃ seat',
        svr'.Sound seat' ∧ (seat' = seat ∨ (svr.desk r).isGameOver ∧
          Emptied r seat seat')) ?_ fun _ _ hsound => hsound
      have hstep (env' : Env) : step (svr.info r) (svr.desk r)
          (env', .applyCloseAccountBox user) =
            (svr.desk r).playerCloseAccountBox (svr.info r) env' number := by
        rw [step, serve, hseat']
      unfold playerCloseAccountBox
      unfold GameDesk.playerCloseAccountBox at hstep
      dsimp only at hstep ⊢
      split_ifs at hstep ⊢ with hround
      · exact ⟨seat, hflushed, .inl rfl⟩
      · have hplaced := hflushed.toPlaced.setDesk (r := r)
          (GameDesk.occupant_setSeat_same rfl
            (GameSeat.user_setPlayerStatus .unready
              ((svr.desk r).seats number)))
        refine (readyForNextGame_spec env (r := r) hplaced).mono
          (fun svr' hcleared => ?_) fun _ => id
        rw [desk_setDesk_self, info_setDesk, deskEnv_setDesk] at hcleared
        obtain ⟨seat', hsound, hempty⟩ :=
          hcleared.sound _ hflushed (hstep (svr.deskEnv env r))
        refine ⟨seat', hsound, .inr ⟨?_, hempty⟩⟩
        rw [GameDesk.isGameOver, not_not.mp (not_or.mp hround).1]
        rfl
      · have hplaced := hflushed.toPlaced.setDesk (r := r)
          (GameDesk.occupant_setSeat_same rfl
            (GameSeat.user_setPlayerStatus .unready
              ((svr.desk r).seats number)))
        exact ⟨seat, ⟨hplaced, desks_setDesk hflushed.desks
          ((hflushed.desks r).step trivial (hstep env.toEnv))⟩, .inl rfl⟩

end GameSvr

end StarsGaming.Desk
