import Mathlib.Data.List.Sort
import StarsGaming.Desk.Occupants
import StarsGaming.Lobby.PlayerRooms

/-!
# Rooms of a game server

A game server has several rooms with a desk each, and one table of all players.
A room keeps its own players by user, in the order of the users.  Whoever enters
a room is seated at once or turned away, and whoever stands up leaves the room.
The desks are served through their rooms; their timers and the check for players
who show no sign of life run in between.  Names, broadcasts, the queues of a
player and the money a player carries are left out.
-/

namespace StarsGaming.Desk

open Cards Foundation Lobby

inductive ErrorCode where
  | success
  | invalidRoomid
  | userNotInRoom
  | havenoTokenLogin
  | haveNoSeat
  | haveNoIdleSeat
  | userBuyInFailed
  | gameNotOver
  deriving DecidableEq, Repr

structure GameArea where
  areaInfo : RoomInfo
  allPlayer : List (Int × Nat)
  gameDesk : GameDesk

structure GameSvr where
  playerManager : PlayerManager
  onlineCheckTime : Nat → Int
  offline : Nat → Bool
  areaIds : List Nat
  gameArea : Nat → GameArea

inductive SvrFault where
  | desk (fault : Fault)
  | manager (fault : PlayerManager.Fault)
  /-- The asserted number of the seat somebody sits down on. -/
  | seatNumber
  | nullPlayer

structure SvrEnv extends Env where
  buyIn : Int → Bool

namespace GameDesk

def getIdleSeatNumber (desk : GameDesk) : Option SeatNum :=
  seatNums.find? fun number => !(desk.seats number).status.seated

def isSeatIdle (seatNumber : Int) (desk : GameDesk) : Bool :=
  seatNums.any fun number =>
    seatNumber = number && !(desk.seats number).status.seated

end GameDesk

namespace GameSvr

def desk (svr : GameSvr) (r : Nat) : GameDesk := (svr.gameArea r).gameDesk

def info (svr : GameSvr) (r : Nat) : RoomInfo := (svr.gameArea r).areaInfo

def members (svr : GameSvr) (r : Nat) : List (Int × Nat) :=
  (svr.gameArea r).allPlayer

variable (env : SvrEnv) (r : Nat) (user : Int) (svr : GameSvr)

def setArea (area : GameArea) : GameSvr :=
  { svr with gameArea := Function.update svr.gameArea r area }

def setDesk (desk : GameDesk) : GameSvr :=
  svr.setArea r { svr.gameArea r with gameDesk := desk }

def setMembers (members : List (Int × Nat)) : GameSvr :=
  svr.setArea r { svr.gameArea r with allPlayer := members }

def findPlayer : Option Nat := (svr.members r).lookup user

/-! ## Players -/

def setManager (manager : PlayerManager) : GameSvr :=
  let count := svr.playerManager.players.length
  { svr with
    playerManager := manager
    onlineCheckTime := fun p =>
      if p < count then svr.onlineCheckTime p else env.now
    offline := fun p => if p < count then svr.offline p else false }

def flushOnlineTime (p : Nat) : GameSvr :=
  { svr with
    onlineCheckTime := Function.update svr.onlineCheckTime p env.now
    offline := Function.update svr.offline p false }

def setOffline (p : Nat) (offline : Bool) : GameSvr :=
  { svr with offline := Function.update svr.offline p offline }

def createPlayer (session : Nat) : Option Nat × GameSvr :=
  match svr.playerManager.makePlayer user session with
  | (none, manager) => (none, svr.setManager env manager)
  | (some p, manager) =>
      (some p, (svr.setManager env manager).flushOnlineTime env p)

def addPlayer (session : Nat) : Option Nat × GameSvr :=
  match svr.findPlayer r user with
  | some p => (some p, svr)
  | none =>
      match svr.createPlayer env user session with
      | (none, svr) => (none, svr)
      | (some p, svr) =>
          let svr := { svr with
            playerManager := svr.playerManager.setRoom p (some r) }
          (some p, svr.setMembers r
            ((svr.members r).orderedInsert (fun a b => a.1 ≤ b.1)
              (user, p)))

def eraseMember : GameSvr := svr.setMembers r (eraseKey user (svr.members r))

def destroyPlayerI (p : Nat) : Except SvrFault GameSvr := do
  let manager ← raise .manager (svr.playerManager.destoryPlayer p)
  .ok { svr with playerManager := manager }

def destroyPlayer (p : Nat) : Except SvrFault GameSvr :=
  match svr.playerManager.userOf p with
  | none => .error .nullPlayer
  | some user => (svr.eraseMember r user).destroyPlayerI p

/-! ## Seats -/

/-- `player_stand_up` of the desk, and whether it did not return `-1`. -/
def standUp (number : SeatNum) : Except SvrFault (GameSvr × Bool) := do
  let desk ← raise .desk
    ((svr.desk r).playerStandUp (svr.info r) env.toEnv number)
  .ok (svr.setDesk r desk, (svr.desk r).mayStandUp number)

def sitDown (seatNumber : Int) : Except SvrFault GameSvr :=
  if (svr.desk r).isSeatIdle seatNumber then
    .ok (svr.setDesk r ((svr.desk r).playerSitDown user seatNumber))
  else .error .seatNumber

def onPlayerExit : Except SvrFault (GameSvr × ErrorCode) :=
  match svr.findPlayer r user with
  | none => .ok (svr, .userNotInRoom)
  | some p => do
      let (svr, gone) ←
        match (svr.desk r).getSeat user with
        | none => .ok (svr, true)
        | some number => svr.standUp env r number
      if gone then do
        let svr ← svr.destroyPlayer r p
        .ok (svr, .success)
      else .ok (svr, .gameNotOver)

def onNewPlayerEnter (session : Nat) :
    Except SvrFault (GameSvr × ErrorCode) :=
  match svr.addPlayer env r user session with
  | (none, svr) => .ok (svr, .havenoTokenLogin)
  | (some p, svr) =>
      match (svr.desk r).getIdleSeatNumber with
      | none => do
          let svr ← (svr.eraseMember r user).destroyPlayer r p
          .ok (svr, .haveNoSeat)
      | some number =>
          if env.buyIn user then do
            let svr ← svr.sitDown r user number
            .ok (svr, .success)
          else do
            let svr ← (svr.eraseMember r user).destroyPlayer r p
            .ok (svr, .userBuyInFailed)

/-- A quit request the server gives itself; nobody reads the answer. -/
def dispatchQuitRoom : Except SvrFault GameSvr :=
  if r ∈ svr.areaIds then do
    let (svr, _) ← svr.onPlayerExit env r user
    .ok svr
  else .ok svr

def onPlayerEnter (session : Nat) : Except SvrFault (GameSvr × ErrorCode) :=
  match svr.findPlayer r user with
  | some _ => .ok (svr, .success)
  | none =>
      match svr.playerManager.isPlayerInRoom user with
      | none => svr.onNewPlayerEnter env r user session
      | some old => do
          let svr ← svr.dispatchQuitRoom env old user
          svr.onNewPlayerEnter env r user session

def onApplySeat (seatNumber : Int) : Except SvrFault (GameSvr × ErrorCode) :=
  match svr.findPlayer r user with
  | none => .ok (svr, .userNotInRoom)
  | some p =>
      let svr := svr.flushOnlineTime env p
      if ((svr.desk r).getSeat user).isSome then .ok (svr, .success)
      else if (svr.desk r).isSeatIdle seatNumber = false then
        .ok (svr, .haveNoIdleSeat)
      else if env.buyIn user = false then .ok (svr, .userBuyInFailed)
      else do
        let svr ← svr.sitDown r user seatNumber
        .ok (svr, .success)

/-- The answer is given before it is known whether the player may go. -/
def onApplyStandup : Except SvrFault (GameSvr × ErrorCode) :=
  match svr.findPlayer r user with
  | none => .ok (svr, .userNotInRoom)
  | some p =>
      let svr := svr.flushOnlineTime env p
      match (svr.desk r).getSeat user with
      | none => .ok (svr, .success)
      | some number => do
          let (svr, gone) ← svr.standUp env r number
          if gone then do
            let svr ← svr.destroyPlayer r p
            .ok (svr, .success)
          else .ok (svr, .success)

/-! ## Playing -/

def deskEnv : Env :=
  { env.toEnv with
    offline := fun user => (svr.findPlayer r user).any svr.offline }

inductive Play where
  | digCard (digtype : Int)
  | postCard (card : MsgCard)
  | declare (card : MsgCard) (cardGroup : List MsgCardGroup)
  | loseDeclare (cardGroup : List MsgCardGroup)
  | drop
  | trusteeOff

def Play.request (user : Int) : Play → Request
  | .digCard digtype => .applyDigCard user digtype
  | .postCard card => .applyPostCard user card
  | .declare card cardGroup => .applyDeclare user card cardGroup
  | .loseDeclare cardGroup => .applyLoseDeclare user cardGroup
  | .drop => .applyDrop user
  | .trusteeOff => .applyTrusteeOff user

def Play.answer : Play → Option ErrorCode
  | .trusteeOff => some .success
  | _ => none

def onPlay (play : Play) : Except SvrFault (GameSvr × Option ErrorCode) :=
  match svr.findPlayer r user with
  | none => .ok (svr, some .userNotInRoom)
  | some p => do
      let svr := svr.flushOnlineTime env p
      let desk ← raise .desk
        (step (svr.info r) (svr.desk r) (env.toEnv, play.request user))
      .ok (svr.setDesk r desk, play.answer)

inductive Notice where
  | flushRoom
  | roomStatus
  | faceShow
  | chat
  | useProps
  | presentChips
  | presentGift
  | presentGiftNewinter

def Notice.flushesOnlineTime : Notice → Bool
  | .presentGift | .presentGiftNewinter => false
  | _ => true

def onNotice (notice : Notice) : GameSvr × ErrorCode :=
  match svr.findPlayer r user with
  | none => (svr, .userNotInRoom)
  | some p =>
      (if notice.flushesOnlineTime then svr.flushOnlineTime env p else svr,
        .success)

/-! ## Clearing the seats -/

/-- Stand up the player on a seat when `unfit` holds for it, and destroy it. -/
def kickIf (unfit : Player → Bool) (svr : GameSvr) (number : SeatNum) :
    Except SvrFault GameSvr :=
  match ((svr.desk r).seats number).player with
  | none => .ok svr
  | some player =>
      if unfit player then do
        let (svr, _) ← svr.standUp env r number
        match svr.findPlayer r player.userId with
        | none => .error .nullPlayer
        | some p => svr.destroyPlayer r p
      else .ok svr

def checkPlayerChips : Except SvrFault GameSvr :=
  GameDesk.seatNums.foldlM
    (kickIf env r fun player => !env.checkChipsCarry player.userId) svr

def checkPlayerStatus : Except SvrFault GameSvr :=
  GameDesk.seatNums.foldlM
    (kickIf env r fun player =>
      (svr.deskEnv env r).offline player.userId || player.trusteed) svr

def stepUnready : Except SvrFault GameSvr := do
  let svr ← svr.checkPlayerChips env r
  if (svr.desk r).isGameCanStart then
    .ok (svr.setDesk r ((svr.desk r).waitForRound .waitPlaying))
  else .ok svr

def readyForNextGame : Except SvrFault GameSvr := do
  let svr ← (svr.setDesk r ((svr.desk r).waitForRound .unready)
    ).checkPlayerStatus env r
  .ok (svr.setDesk r (svr.desk r).setPlayerMatchoverStatus)

def playerCloseAccountBox (number : SeatNum) : Except SvrFault GameSvr :=
  let desk := svr.desk r
  if desk.round ≠ .distribute ∨
      (desk.seats number).isPlayerPlaying = false then .ok svr
  else
    let desk := desk.setSeat number
      ((desk.seats number).setPlayerStatus .unready)
    let svr := svr.setDesk r desk
    if desk.isAllPlayerOverAccount then svr.readyForNextGame env r
    else .ok svr

def onApplyCloseAccountBox : Except SvrFault (GameSvr × ErrorCode) :=
  match svr.findPlayer r user with
  | none => .ok (svr, .userNotInRoom)
  | some p => do
      let svr := svr.flushOnlineTime env p
      let svr ←
        match (svr.desk r).getSeat user with
        | none => .ok svr
        | some number => svr.playerCloseAccountBox env r number
      .ok (svr, .success)

def stepNewRound : Except SvrFault GameSvr :=
  let ready := svr.setDesk r { svr.desk r with waiting := false }
  match (svr.desk r).round with
  | .unready => ready.stepUnready env r
  | .distribute => ready.readyForNextGame env r
  | _ => do
      let desk ← raise .desk
        ((svr.desk r).stepNewRound (svr.info r) env.toEnv)
      .ok (svr.setDesk r desk)

/-! ## Signs of life -/

def isOnline (p : Nat) : Bool :=
  svr.playerManager.isPlayerOnline user && env.now < svr.onlineCheckTime p + 40

def needKickoutRoom (p : Nat) : Bool :=
  svr.onlineCheckTime p + 10 < env.now &&
    ((svr.desk r).isGameOver || ((svr.desk r).getSeat user).isNone)

/-- The entry goes before the player stands up; that may not fail. -/
def kickoutPlayer (p : Nat) : Except SvrFault GameSvr := do
  let svr := svr.eraseMember r user
  let svr ←
    match (svr.desk r).getSeat user with
    | none => .ok svr
    | some number => do
        let (svr, _) ← svr.standUp env r number
        .ok svr
  svr.destroyPlayerI p

def checkPlayer (svr : GameSvr) (entry : Int × Nat) :
    Except SvrFault GameSvr :=
  if svr.isOnline env entry.1 entry.2 then
    .ok (svr.setOffline entry.2 false)
  else if svr.needKickoutRoom env r entry.1 entry.2 then
    svr.kickoutPlayer env r entry.1 entry.2
  else .ok (svr.setOffline entry.2 true)

def checkPlayerOnline : Except SvrFault GameSvr :=
  (svr.members r).foldlM (checkPlayer env r) svr

/-! ## Messages -/

inductive AreaMessage where
  | enterRoom (session : Nat)
  | quitRoom
  | seat (seatNumber : Int)
  | standup
  | play (play : Play)
  | notice (notice : Notice)
  | closeAccountBox

inductive Event where
  | tokenLogin (user : Int) (session : Nat)
  | sessionClose (session : Nat)
  | heartbeat (session : Nat)
  | area (r : Nat) (user : Int) (msg : AreaMessage)
  | waitRoundTimeout (r : Nat)
  | checkPlayerOnline

def onRecvMsg : AreaMessage →
    Except SvrFault (GameSvr × Option ErrorCode)
  | .enterRoom session => do
      let (svr, code) ← svr.onPlayerEnter env r user session
      .ok (svr, some code)
  | .quitRoom => do
      let (svr, code) ← svr.onPlayerExit env r user
      .ok (svr, some code)
  | .seat seatNumber => do
      let (svr, code) ← svr.onApplySeat env r user seatNumber
      .ok (svr, some code)
  | .standup => do
      let (svr, code) ← svr.onApplyStandup env r user
      .ok (svr, some code)
  | .play play => svr.onPlay env r user play
  | .notice notice =>
      let (svr, code) := svr.onNotice env r user notice
      .ok (svr, some code)
  | .closeAccountBox => do
      let (svr, code) ← svr.onApplyCloseAccountBox env r user
      .ok (svr, some code)

def dispatchAreaMsg (msg : AreaMessage) :
    Except SvrFault (GameSvr × Option ErrorCode) :=
  if r ∈ svr.areaIds then svr.onRecvMsg env r user msg
  else .ok (svr, some .invalidRoomid)

def flushUserOnline (session : Nat) : GameSvr :=
  match svr.playerManager.onlineUser session with
  | none => svr
  | some p => svr.flushOnlineTime env p

def handle (svr : GameSvr) : SvrEnv × Event →
    Except SvrFault (GameSvr × Option ErrorCode)
  | (env, .tokenLogin user session) =>
      .ok (svr.setManager env
        (svr.playerManager.addUserSession user session), none)
  | (env, .sessionClose session) => do
      let manager ← raise .manager
        (svr.playerManager.onSessionClose .game session)
      .ok (svr.setManager env manager, none)
  | (env, .heartbeat session) => .ok (svr.flushUserOnline env session, none)
  | (env, .area r user msg) => svr.dispatchAreaMsg env r user msg
  | (env, .waitRoundTimeout r) =>
      if r ∈ svr.areaIds then do
        let svr ← svr.stepNewRound env r
        .ok (svr, none)
      else .ok (svr, none)
  | (env, .checkPlayerOnline) => do
      let svr ← svr.areaIds.foldlM (fun svr r => svr.checkPlayerOnline env r)
        svr
      .ok (svr, none)

def next (svr : GameSvr) (event : SvrEnv × Event) :
    Except SvrFault GameSvr := do
  let (svr, _) ← svr.handle event
  .ok svr

/-- Nobody has logged in, and the desks of all rooms are new. -/
structure Opened (svr : GameSvr) : Prop where
  manager : svr.playerManager = .new
  empty : ∀ r, svr.members r = []
  desks : ∀ r, ∃ dealer, svr.desk r = .create dealer

/-- The servers reached by any events, whatever they read. -/
def Reachable : GameSvr → Prop :=
  Reaches Opened (fun _ _ => True) next

end GameSvr

end StarsGaming.Desk
