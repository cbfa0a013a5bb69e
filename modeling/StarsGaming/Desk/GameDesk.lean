import Mathlib.Data.Finset.Card
import Mathlib.Data.Fintype.Basic
import StarsGaming.Desk.Dealer
import StarsGaming.Desk.Seat
import StarsGaming.Foundation.Runs

/-!
# The game desk

The desk serves requests of seated players and the timeouts of its rounds.  A
handler that would dereference a null player, read an empty pile or fail an
assertion returns a fault.  Messages to clients, wait times and the players'
money outside the game are left out.  The `record` of a desk is written and
never read by the handlers: it keeps the seats charged in the current game,
the dealt players who are gone, and what happened at the places of interest.
-/

namespace StarsGaming.Desk

open Cards

inductive Round where
  | unready
  | waitPlaying
  | dealerCard
  | active1
  | active2
  | declare
  | distribute
  | shuffleCard
  deriving DecidableEq, Repr

def Round.isGameOver : Round → Bool
  | .unready | .waitPlaying | .distribute => true
  | _ => false

inductive GameOverType where
  | normalOver
  | dropOver
  | borningOver
  deriving DecidableEq, Repr

structure GameResult where
  overType : Option GameOverType
  winner : Option SeatNum
  joined : SeatNum → Bool
  charged : List SeatNum
  chips : SeatNum → Int
  tips : Int

inductive Note where
  | activePlayer (bottom pool : Nat)
  | shuffleCard (pool : Nat)
  | gameOver (result : GameResult)

structure GameRecord where
  charged : List SeatNum
  gone : List SeatNum
  notes : List Note

structure GameDesk where
  seats : SeatNum → GameSeat
  dealerIndex : SeatNum
  round : Round
  waiting : Bool
  activeSeatnum : Option SeatNum
  jokerCard : PokerCard
  pokercardPool : List PokerCard
  bottomCards : List PokerCard
  lastWinnerSeatnum : Option SeatNum
  chipsPool : Int
  applyDeclareSeatnum : Option SeatNum
  timeGameBegin : Int
  isFirstPoolCard : Bool
  gameoverType : Option GameOverType
  drawSec : Int
  dealer : CardDealer
  combination : Combination
  record : GameRecord

namespace GameDesk

def create (dealer : CardDealer) : GameDesk where
  seats := fun _ => .empty
  dealerIndex := 0
  round := .unready
  waiting := false
  activeSeatnum := none
  jokerCard := .blank
  pokercardPool := []
  bottomCards := []
  lastWinnerSeatnum := none
  chipsPool := 0
  applyDeclareSeatnum := none
  timeGameBegin := -1
  isFirstPoolCard := false
  gameoverType := none
  drawSec := 0
  dealer := dealer
  combination := ⟨[], [], 0⟩
  record := ⟨[], [], []⟩

/-! ## Reading and writing the desk -/

def seatNums : List SeatNum := List.finRange 5

def setSeat (number : SeatNum) (seat : GameSeat) (desk : GameDesk) :
    GameDesk :=
  { desk with seats := Function.update desk.seats number seat }

def waitForRound (round : Round) (desk : GameDesk) : GameDesk :=
  { desk with round := round, waiting := true }

def isGameOver (desk : GameDesk) : Bool := desk.round.isGameOver

def isWaitActive (desk : GameDesk) : Bool :=
  desk.round = .active1 || desk.round = .active2

def seatedSeats (desk : GameDesk) : Finset SeatNum :=
  Finset.univ.filter fun number => (desk.seats number).status.seated

def getSeatedCount (desk : GameDesk) : Nat := desk.seatedSeats.card

def ingameSeats (desk : GameDesk) : Finset SeatNum :=
  Finset.univ.filter fun number => (desk.seats number).status.ingame

def getIngameCount (desk : GameDesk) : Nat := desk.ingameSeats.card

def isGameCanStart (desk : GameDesk) : Bool := 1 < desk.getSeatedCount

def getSeat (desk : GameDesk) (userId : Int) : Option SeatNum :=
  seatNums.find? fun number =>
    (desk.seats number).player.any fun player => player.userId = userId

def getLastIngameSeatnum (desk : GameDesk) : Option SeatNum :=
  seatNums.find? fun number =>
    (desk.seats number).status.seated && (desk.seats number).status.ingame

/-- The seats a search from `number` looks at, in its order. -/
def seatsAfter (number : SeatNum) : List SeatNum :=
  [number + 1, number + 2, number + 3, number + 4]

def nextIngameSeatNumber (number : SeatNum) (desk : GameDesk) : SeatNum :=
  match (seatsAfter number).find? fun next =>
      (desk.seats next).status.ingame with
  | some next => next
  | none => number

def isAllPlayerOverAccount (desk : GameDesk) : Bool :=
  seatNums.all fun number =>
    !((desk.seats number).status.seated &&
      (desk.seats number).isPlayerPlaying)

def note (entry : Note) (desk : GameDesk) : GameDesk :=
  { desk with
    record := { desk.record with notes := entry :: desk.record.notes } }

/-! ## The end of a game -/

/-- The flag bits of a status never equal one of the player states. -/
def setJoinedStatus (status : PlayerStatus) (desk : GameDesk) : GameDesk :=
  { desk with
    seats := fun number =>
      if (desk.seats number).status.seated &&
          (desk.seats number).status.curJoin then
        (desk.seats number).setPlayerStatus status
      else desk.seats number }

def setIngamePlayerOverStatus (desk : GameDesk) : GameDesk :=
  desk.setJoinedStatus .playing

def setPlayerMatchoverStatus (desk : GameDesk) : GameDesk :=
  desk.setJoinedStatus .unready

def clearDesk (desk : GameDesk) : GameDesk :=
  { desk with
    bottomCards := []
    jokerCard := .blank
    pokercardPool := []
    chipsPool := 0
    applyDeclareSeatnum := none
    activeSeatnum := none
    gameoverType := none
    seats := fun number => (desk.seats number).resetSeat }

def gameResult (tips : Int) (desk : GameDesk) : GameResult where
  overType := desk.gameoverType
  winner := desk.applyDeclareSeatnum
  joined := fun number => (desk.seats number).status.curJoin
  charged := desk.record.charged
  chips := fun number => (desk.seats number).matchOverAccountChips
  tips := tips

def borningOver (desk : GameDesk) (number : SeatNum) :
    Except Fault GameDesk :=
  if (desk.seats number).status.curJoin then do
    let (combination, seat) ←
      (desk.seats number).borningOver desk.combination desk.jokerCard.point
    .ok { desk.setSeat number seat with combination := combination }
  else .ok desk

def payWinner (room : RoomInfo) (env : Env) (winner : SeatNum)
    (desk : GameDesk) : Except Fault GameDesk := do
  let (seat, _) ←
    (desk.seats winner).matchOverAccount env winner
      (desk.chipsPool - room.getGameDeskTips desk.chipsPool)
  .ok { desk.setSeat winner seat with lastWinnerSeatnum := some winner }

def caculateOverAccount (room : RoomInfo) (env : Env) (desk : GameDesk) :
    Except Fault GameDesk :=
  match desk.applyDeclareSeatnum with
  | none => do
      let desk ← seatNums.foldlM borningOver
        { desk with lastWinnerSeatnum := none }
      .ok (desk.note (.gameOver (desk.gameResult 0)))
  | some winner => do
      let paid ← desk.payWinner room env winner
      .ok (paid.note (.gameOver
        (paid.gameResult (room.getGameDeskTips desk.chipsPool))))

def stepGameoverDistrbute (room : RoomInfo) (env : Env) (desk : GameDesk) :
    Except Fault GameDesk := do
  let desk ← desk.caculateOverAccount room env
  .ok ((desk.waitForRound .distribute).setIngamePlayerOverStatus.clearDesk)

/-! ## Turns -/

def activePlayer (room : RoomInfo) (env : Env) (desk : GameDesk) :
    Except Fault GameDesk :=
  let desk := desk.note
    (.activePlayer desk.bottomCards.length desk.pokercardPool.length)
  let active :=
    match desk.activeSeatnum with
    | none => desk.dealerIndex
    | some number => desk.nextIngameSeatNumber number
  let desk := { desk with activeSeatnum := some active }
  if desk.timeGameBegin + desk.drawSec < env.now then
    { desk with gameoverType := some .borningOver }.stepGameoverDistrbute
      room env
  else
    match (desk.seats active).player with
    | none => .error .nullPlayer
    | some _ =>
        match desk.pokercardPool.getLast? with
        | none => .error .emptyPile
        | some _ => .ok (desk.waitForRound .active1)

def stepShuffleCard (env : Env) (desk : GameDesk) : Except Fault GameDesk :=
  let count := desk.pokercardPool.length
  let desk := desk.note (.shuffleCard count)
  if count < 2 then .error .emptyPile
  else
    .ok { desk with
      pokercardPool := desk.pokercardPool.drop (count - 2)
      bottomCards := desk.bottomCards ++
        swapDraw env.rand (count - 2)
          (desk.pokercardPool.take (count - 2)) }

def afterPostCard (room : RoomInfo) (env : Env) (desk : GameDesk) :
    Except Fault GameDesk :=
  if desk.bottomCards.length = 1 then do
    let desk ← desk.stepShuffleCard env
    .ok (desk.waitForRound .shuffleCard)
  else desk.activePlayer room env

def DIG_BOTTOM : Int := 0

def takeDigCard (number : SeatNum) (card : PokerCard) (desk : GameDesk) :
    GameDesk :=
  { desk.setSeat number ((desk.seats number).digCard card) with
    isFirstPoolCard := false }.waitForRound .active2

/-- A joker in the pool may be dug only as the first card of the pool. -/
def playerDigCard (digtype : Int) (desk : GameDesk) (number : SeatNum) :
    Except Fault GameDesk :=
  if desk.activeSeatnum ≠ some number ∨ desk.round ≠ .active1 then .ok desk
  else
    match desk.bottomCards, desk.pokercardPool.getLast? with
    | front :: bottom, some back =>
        if digtype = DIG_BOTTOM then
          .ok ({ desk with bottomCards := bottom }.takeDigCard number front)
        else if back.isJoker desk.jokerCard.point &&
            !desk.isFirstPoolCard then .ok desk
        else
          .ok ({ desk with
            pokercardPool := desk.pokercardPool.dropLast }.takeDigCard
              number back)
    | _, _ => .error (.assertion .digPiles)

def playerPostCard (room : RoomInfo) (env : Env) (card : PokerCard)
    (desk : GameDesk) (number : SeatNum) : Except Fault GameDesk :=
  if desk.activeSeatnum ≠ some number ∨ desk.round ≠ .active2 then .ok desk
  else
    match (desk.seats number).discardCard card with
    | none => .ok desk
    | some seat =>
        { desk.setSeat number seat with
          pokercardPool := desk.pokercardPool ++ [card] }.afterPostCard
            room env

def postDefaultCard (room : RoomInfo) (env : Env) (desk : GameDesk)
    (number : SeatNum) : Except Fault GameDesk := do
  let (seat, card) ← (desk.seats number).postDefaultCard
  { desk.setSeat number seat with
    pokercardPool := desk.pokercardPool ++ [card] }.afterPostCard room env

/-! ## Declares and drops -/

def chargeSeat (room : RoomInfo) (env : Env) (number : SeatNum)
    (desk : GameDesk) : Except Fault GameDesk := do
  let (seat, realChips) ←
    (desk.seats number).matchOverAccount env number
      (-(room.smallBlind * (desk.seats number).score))
  .ok { desk.setSeat number seat with
    chipsPool := desk.chipsPool + realChips
    record :=
      { desk.record with charged := number :: desk.record.charged } }

/-- The end of the game is seen only by counting the seats in game. -/
def chargeLoser (room : RoomInfo) (env : Env) (number : SeatNum)
    (desk : GameDesk) : Except Fault GameDesk := do
  let desk ← desk.chargeSeat room env number
  if desk.getIngameCount = 1 then desk.stepGameoverDistrbute room env
  else .ok desk

def playerDeclare (card : PokerCard) (groups : List CardGroup)
    (desk : GameDesk) (number : SeatNum) : Except Fault GameDesk :=
  if (desk.seats number).status.ingame = false ∨ desk.round ≠ .active2 ∨
      desk.activeSeatnum ≠ some number then .ok desk
  else
    let (seat, valid) :=
      (desk.seats number).checkDeclare card groups desk.jokerCard.point
    let desk := desk.setSeat number seat
    if valid then
      .ok { desk.waitForRound .declare with
        applyDeclareSeatnum := some number
        gameoverType := some .normalOver }
    else .ok desk

def playerLoseDeclare (room : RoomInfo) (env : Env)
    (groups : List CardGroup) (desk : GameDesk) (number : SeatNum) :
    Except Fault GameDesk :=
  if (desk.seats number).status.ingame = false ∨ desk.round ≠ .declare then
    .ok desk
  else
    let (seat, valid) :=
      (desk.seats number).checkLoseDeclare groups desk.jokerCard.point
    let desk := desk.setSeat number seat
    if valid then desk.chargeLoser room env number else .ok desk

def defaultDecalre (room : RoomInfo) (env : Env) (desk : GameDesk)
    (number : SeatNum) : Except Fault GameDesk := do
  let (combination, seat) ←
    (desk.seats number).defaultDeclare desk.combination desk.jokerCard.point
  { desk.setSeat number seat with
    combination := combination }.chargeLoser room env number

def stepPlayerDrop (room : RoomInfo) (env : Env) (desk : GameDesk)
    (number : SeatNum) : Except Fault GameDesk := do
  let dropCard : Bool :=
    desk.round = .active2 && desk.activeSeatnum = some number
  let (combination, seat) ←
    (desk.seats number).playerDrop dropCard desk.combination
      desk.jokerCard.point
  let desk ←
    { desk.setSeat number seat with
      combination := combination
      record := { desk.record with
        gone := number :: desk.record.gone } }.chargeSeat room env number
  if desk.getIngameCount = 1 then
    match desk.getLastIngameSeatnum with
    | none => .error (.assertion .dropWinner)
    | some winner => do
        let (combination, seat) ←
          (desk.seats winner).dropWin desk.combination desk.jokerCard.point
        { desk.setSeat winner seat with
          combination := combination
          gameoverType := some .dropOver
          applyDeclareSeatnum := some winner }.stepGameoverDistrbute room env
  else if desk.isWaitActive && desk.activeSeatnum = some number then
    desk.activePlayer room env
  else .ok desk

def playerDrop (room : RoomInfo) (env : Env) (desk : GameDesk)
    (number : SeatNum) : Except Fault GameDesk :=
  if desk.isGameOver || desk.round = .declare || desk.round = .dealerCard then
    .ok desk
  else if (desk.seats number).status.ingame = false ∨
      (desk.seats number).status.drop then .ok desk
  else desk.stepPlayerDrop room env number

/-! ## Coming and going -/

def playerSitDown (userId : Int) (seatNumber : Int) (desk : GameDesk) :
    GameDesk :=
  if h : 0 ≤ seatNumber ∧ seatNumber < 5 then
    let number : SeatNum := ⟨seatNumber.toNat, by omega⟩
    if (desk.seats number).status.seated then desk
    else
      let status :=
        if desk.isGameOver then PlayerStatus.unready
        else PlayerStatus.waitNextGame
      let desk := desk.setSeat number
        ((desk.seats number).playerSitDown ⟨userId, status, false⟩)
      if desk.round = .unready then desk.waitForRound .unready else desk
  else desk

/-- The seat is emptied; `gone` keeps the dealt players who left. -/
def leaveSeat (number : SeatNum) (desk : GameDesk) : GameDesk :=
  { desk.setSeat number
      ((desk.seats number).playerStandUp desk.isGameOver) with
    lastWinnerSeatnum :=
      if desk.lastWinnerSeatnum = some number then none
      else desk.lastWinnerSeatnum
    record :=
      if (desk.seats number).status.curJoin then
        { desk.record with gone := number :: desk.record.gone }
      else desk.record }

def finishStandUp (number : SeatNum) (desk : GameDesk) : GameDesk :=
  let isPlaying := (desk.seats number).isPlayerPlaying
  let desk := desk.leaveSeat number
  if desk.round = .distribute && isPlaying && desk.isAllPlayerOverAccount then
    (desk.waitForRound .distribute).setPlayerMatchoverStatus
  else if !desk.isGameCanStart && desk.waiting &&
      desk.round = .waitPlaying then
    desk.waitForRound .unready
  else desk

/--
During a game only players who are out of it may go; while the losers declare
everybody but the winner may, and declares automatically.
-/
def playerStandUp (room : RoomInfo) (env : Env) (desk : GameDesk)
    (number : SeatNum) : Except Fault GameDesk :=
  if !desk.isGameOver && (desk.seats number).status.ingame then
    if desk.round = .declare then
      if desk.applyDeclareSeatnum = some number then .ok desk
      else do
        let desk ← desk.defaultDecalre room env number
        .ok (desk.finishStandUp number)
    else .ok desk
  else .ok (desk.finishStandUp number)

/-- Stand up the player on a seat when `unfit` holds for the player. -/
def standUpIf (room : RoomInfo) (env : Env) (unfit : Player → Bool)
    (desk : GameDesk) (number : SeatNum) : Except Fault GameDesk :=
  match (desk.seats number).player with
  | none => .ok desk
  | some player =>
      if unfit player then desk.playerStandUp room env number else .ok desk

def checkPlayerChips (room : RoomInfo) (env : Env) (desk : GameDesk) :
    Except Fault GameDesk :=
  seatNums.foldlM
    (standUpIf room env fun player => !env.checkChipsCarry player.userId) desk

def checkPlayerStatus (room : RoomInfo) (env : Env) (desk : GameDesk) :
    Except Fault GameDesk :=
  seatNums.foldlM
    (standUpIf room env fun player =>
      env.offline player.userId || player.trusteed) desk

def readyForNextGame (room : RoomInfo) (env : Env) (desk : GameDesk) :
    Except Fault GameDesk := do
  let desk ← (desk.waitForRound .unready).checkPlayerStatus room env
  .ok desk.setPlayerMatchoverStatus

def playerCloseAccountBox (room : RoomInfo) (env : Env) (desk : GameDesk)
    (number : SeatNum) : Except Fault GameDesk :=
  if desk.round ≠ .distribute ∨
      (desk.seats number).isPlayerPlaying = false then .ok desk
  else
    let desk := desk.setSeat number
      ((desk.seats number).setPlayerStatus .unready)
    if desk.isAllPlayerOverAccount then desk.readyForNextGame room env
    else .ok desk

def playerTrusteeoff (desk : GameDesk) (number : SeatNum) :
    Except Fault GameDesk :=
  let desk :=
    if desk.isWaitActive && desk.activeSeatnum = some number &&
        (desk.seats number).player.any Player.trusteed then
      desk.waitForRound desk.round
    else desk
  .ok (desk.setSeat number ((desk.seats number).setTrustee false))

/-! ## A new game -/

def readySeat (desk : GameDesk) (number : SeatNum) :
    Except Fault GameDesk := do
  let seat ← (desk.seats number).readyForGame
  .ok (desk.setSeat number seat)

def stepDeskReady (desk : GameDesk) : Except Fault GameDesk :=
  seatNums.foldlM readySeat
    { desk with
      pokercardPool := []
      isFirstPoolCard := true
      record := { desk.record with charged := [], gone := [] } }

def stepDealerSeat (env : Env) (desk : GameDesk) : Except Fault GameDesk :=
  let seated := seatNums.filter fun number =>
    (desk.seats number).status.seated
  let drawn :=
    match seated[env.rand 0 % seated.length]? with
    | none => .error (.assertion .dealerSeat)
    | some number => .ok { desk with dealerIndex := number }
  match desk.lastWinnerSeatnum with
  | none => drawn
  | some winner =>
      if (desk.seats winner).status.seated then
        .ok { desk with dealerIndex := winner }
      else drawn

def dealHand (desk : GameDesk) (number : SeatNum) : Except Fault GameDesk :=
  if (desk.seats number).status.seated then
    if desk.bottomCards.length < CardDealer.HAND_CARD_COUNT then
      .error .emptyPile
    else
      let hand := desk.bottomCards.take CardDealer.HAND_CARD_COUNT
      .ok { desk.setSeat number ((desk.seats number).dealCards hand) with
        bottomCards := desk.bottomCards.drop CardDealer.HAND_CARD_COUNT }
  else .ok desk

def turnCards (desk : GameDesk) : Except Fault GameDesk :=
  match desk.bottomCards with
  | [] => .error .emptyPile
  | first :: bottom =>
      match bottom.find? fun card => card.point < PokerCard.JOKER1 with
      | none => .error .emptyPile
      | some joker =>
          .ok { desk with
            pokercardPool := desk.pokercardPool ++ [first]
            jokerCard := joker
            bottomCards := bottom.erase joker }

def stepDealCards (env : Env) (desk : GameDesk) : Except Fault GameDesk := do
  let (dealer, cards) := desk.dealer.dealCard fun call => env.rand (1 + call)
  let desk ← seatNums.foldlM dealHand
    { desk with drawSec := 20 * 60, dealer := dealer, bottomCards := cards }
  desk.turnCards

def startNewGame (env : Env) (desk : GameDesk) : Except Fault GameDesk := do
  let desk ← desk.stepDeskReady
  let desk ← desk.stepDealerSeat env
  let desk ← desk.stepDealCards env
  .ok { desk.waitForRound .dealerCard with timeGameBegin := env.now }

/-! ## Timeouts -/

def stepUnready (room : RoomInfo) (env : Env) (desk : GameDesk) :
    Except Fault GameDesk := do
  let desk ← desk.checkPlayerChips room env
  if desk.isGameCanStart then .ok (desk.waitForRound .waitPlaying)
  else .ok desk

def stepPlayingBegin (env : Env) (desk : GameDesk) : Except Fault GameDesk :=
  if desk.isGameCanStart then desk.startNewGame env
  else .ok (desk.waitForRound .unready)

def stepActive1Timeout (room : RoomInfo) (env : Env) (desk : GameDesk) :
    Except Fault GameDesk :=
  match desk.activeSeatnum with
  | none => .error (.assertion .activePlayer)
  | some number =>
      match (desk.seats number).player with
      | none => .error (.assertion .activePlayer)
      | some _ =>
          (desk.setSeat number ((desk.seats number).setTrustee true)
            ).activePlayer room env

def stepRand2Timeout (room : RoomInfo) (env : Env) (desk : GameDesk) :
    Except Fault GameDesk :=
  match desk.activeSeatnum with
  | none => .error .nullPlayer
  | some number =>
      match (desk.seats number).player with
      | none => .error .nullPlayer
      | some _ =>
          (desk.setSeat number ((desk.seats number).setTrustee true)
            ).postDefaultCard room env number

/-- One seat of the declare timeout; the loop does not stop at a game over. -/
def declareTimeout (room : RoomInfo) (env : Env) (desk : GameDesk)
    (number : SeatNum) : Except Fault GameDesk :=
  let status := (desk.seats number).status
  if status.seated && status.ingame && !status.declared then
    desk.defaultDecalre room env number
  else .ok desk

def stepDeclareTimeout (room : RoomInfo) (env : Env) (desk : GameDesk) :
    Except Fault GameDesk :=
  seatNums.foldlM (declareTimeout room env) desk

def stepNewRound (room : RoomInfo) (env : Env) (desk : GameDesk) :
    Except Fault GameDesk :=
  let desk := { desk with waiting := false }
  match desk.round with
  | .unready => desk.stepUnready room env
  | .waitPlaying => desk.stepPlayingBegin env
  | .dealerCard => desk.activePlayer room env
  | .active1 => desk.stepActive1Timeout room env
  | .active2 => desk.stepRand2Timeout room env
  | .declare => desk.stepDeclareTimeout room env
  | .shuffleCard => desk.activePlayer room env
  | .distribute => desk.readyForNextGame room env

end GameDesk

/-! ## Requests -/

inductive Request where
  | applySeat (userId : Int) (seatNumber : Int)
  | applyStandup (userId : Int)
  | applyDigCard (userId : Int) (digtype : Int)
  | applyPostCard (userId : Int) (card : MsgCard)
  | applyDeclare (userId : Int) (card : MsgCard)
      (cardGroup : List MsgCardGroup)
  | applyLoseDeclare (userId : Int) (cardGroup : List MsgCardGroup)
  | applyDrop (userId : Int)
  | applyTrusteeOff (userId : Int)
  | applyCloseAccountBox (userId : Int)
  | waitRoundTimeout

def parseCard (card : MsgCard) : PokerCard :=
  PokerCard.parseMsgCard card.point card.color

/-- The room finds the player first; who does not sit is not in the room. -/
def serve (desk : GameDesk) (userId : Int)
    (handler : GameDesk → SeatNum → Except Fault GameDesk) :
    Except Fault GameDesk :=
  match desk.getSeat userId with
  | none => .ok desk
  | some number => handler desk number

def step (room : RoomInfo) (desk : GameDesk) :
    Env × Request → Except Fault GameDesk
  | (_, .applySeat userId seatNumber) =>
      match desk.getSeat userId with
      | some _ => .ok desk
      | none => .ok (desk.playerSitDown userId seatNumber)
  | (env, .applyStandup userId) =>
      serve desk userId (GameDesk.playerStandUp room env)
  | (_, .applyDigCard userId digtype) =>
      serve desk userId (GameDesk.playerDigCard digtype)
  | (env, .applyPostCard userId card) =>
      serve desk userId (GameDesk.playerPostCard room env (parseCard card))
  | (_, .applyDeclare userId card groups) =>
      serve desk userId
        (GameDesk.playerDeclare (parseCard card)
          (groups.map CardGroup.parseMsgGroup))
  | (env, .applyLoseDeclare userId groups) =>
      serve desk userId
        (GameDesk.playerLoseDeclare room env
          (groups.map CardGroup.parseMsgGroup))
  | (env, .applyDrop userId) =>
      serve desk userId (GameDesk.playerDrop room env)
  | (_, .applyTrusteeOff userId) =>
      serve desk userId GameDesk.playerTrusteeoff
  | (env, .applyCloseAccountBox userId) =>
      serve desk userId (GameDesk.playerCloseAccountBox room env)
  | (env, .waitRoundTimeout) => desk.stepNewRound room env

/-- The desks reached from a new one by steps that satisfy `ok`. -/
def Reachable (room : RoomInfo) (ok : GameDesk → Env × Request → Prop) :
    GameDesk → Prop :=
  Foundation.Reaches (fun desk => ∃ dealer, desk = .create dealer) ok
    (step room)

end StarsGaming.Desk
