import StarsGaming.Cards.Check
import StarsGaming.Cards.Search

/-!
# Seats of a game desk

A seat carries the player who sits there, the status bits of the current game,
the hand and what the game has cost so far.  The bits of the seat status word
that no operation sets are left out, and so is everything that is only sent to
clients.
-/

namespace StarsGaming.Desk

open Cards

abbrev SeatNum := Fin 5

inductive Assertion where
  | dealerSeat
  | activePlayer
  | digPiles
  | postDigCard
  | dropDigCard
  | dropWinner
  deriving DecidableEq, Repr

inductive Fault where
  | assertion (failed : Assertion)
  | emptyPile
  | nullPlayer
  | search
  deriving DecidableEq, Repr

/-! ## Players -/

inductive PlayerStatus where
  | waitNextGame
  | unready
  | playing
  | drop
  | declare
  | standUp
  deriving DecidableEq, Repr

structure Player where
  userId : Int
  status : PlayerStatus
  trusteed : Bool
  deriving DecidableEq, Repr

namespace Player

def isPlayerPlaying (player : Player) : Bool :=
  player.status = .playing || player.status = .drop ||
    player.status = .declare

def setStatus (status : PlayerStatus) (player : Player) : Player :=
  { player with status := status }

def setTrustee (trusteed : Bool) (player : Player) : Player :=
  { player with trusteed := trusteed }

end Player

/-! ## Surroundings of a step -/

/-- A room's prices: a blind is not negative and tips are a percentage. -/
structure RoomInfo where
  smallBlind : Int
  tipsPersent : Int
  blind_nonneg : 0 ≤ smallBlind
  tips_le : tipsPersent ≤ 100

def RoomInfo.getGameDeskTips (room : RoomInfo) (chips : Int) : Int :=
  (chips * room.tipsPersent).tdiv 100

/--
What one step reads from outside the desk: the clock, `rand()`, the money
service and which players are offline or out of chips.  The money service
takes any amount that is not negative, and nothing when nothing is asked.
-/
structure Env where
  now : Int
  rand : Nat → Nat
  dealLoserAccount : SeatNum → Int → Int
  checkChipsCarry : Int → Bool
  offline : Int → Bool
  taken_nonneg : ∀ seat asked, 0 ≤ dealLoserAccount seat asked
  taken_zero : ∀ seat, dealLoserAccount seat 0 = 0

/-! ## Seats -/

structure SeatStatus where
  seated : Bool
  ingame : Bool
  win : Bool
  curJoin : Bool
  drop : Bool
  declared : Bool
  deriving DecidableEq, Repr

def SeatStatus.idle : SeatStatus :=
  ⟨false, false, false, false, false, false⟩

structure GameSeat where
  player : Option Player
  status : SeatStatus
  ingamePlayerId : Int
  handcardsTotal : List PokerCard
  matchOverAccountChips : Int
  score : Nat
  cardScore : Nat
  mDigCard : PokerCard
  cardGroup : List CardGroup
  deriving DecidableEq, Repr

namespace GameSeat

def empty : GameSeat :=
  ⟨none, .idle, 0, [], 0, 0, 0, .blank, []⟩

/-- `m_player->set_status` of a player known to sit here. -/
def setPlayerStatus (status : PlayerStatus) (seat : GameSeat) : GameSeat :=
  { seat with player := seat.player.map (Player.setStatus status) }

def setTrustee (trusteed : Bool) (seat : GameSeat) : GameSeat :=
  { seat with player := seat.player.map (Player.setTrustee trusteed) }

def isPlayerPlaying (seat : GameSeat) : Bool :=
  seat.player.any Player.isPlayerPlaying

def readyForGame (seat : GameSeat) : Except Fault GameSeat :=
  if seat.status.seated then
    match seat.player with
    | none => .error .nullPlayer
    | some player =>
        .ok { seat with
          player := some (player.setStatus .playing)
          status :=
            { SeatStatus.idle with seated := true, ingame := true,
                                   curJoin := true }
          ingamePlayerId := player.userId
          handcardsTotal := []
          matchOverAccountChips := 0
          score := 20
          cardScore := 0 }
  else
    .ok { seat with
      status := .idle
      ingamePlayerId := 0
      handcardsTotal := []
      matchOverAccountChips := 0
      score := 20
      cardScore := 0 }

def playerStandUp (isGameOver : Bool) (seat : GameSeat) : GameSeat :=
  { seat with
    player := none
    status :=
      if isGameOver then .idle
      else { seat.status with ingame := false, seated := false }
    handcardsTotal := [] }

def playerSitDown (player : Player) (seat : GameSeat) : GameSeat :=
  { seat with
    player := some player
    status := { seat.status with seated := true } }

def dealCards (cards : List PokerCard) (seat : GameSeat) : GameSeat :=
  { seat with handcardsTotal := sortCards cards }

/--
Losers pay through the money service, winners are credited in full.  The
result holds the amount that really moved.
-/
def matchOverAccount (env : Env) (number : SeatNum) (chips : Int)
    (seat : GameSeat) : Except Fault (GameSeat × Int) :=
  match seat.player with
  | none => .error .nullPlayer
  | some _ =>
      if chips ≤ 0 then
        let realCount := env.dealLoserAccount number (-chips)
        .ok ({ seat with
          matchOverAccountChips :=
            seat.matchOverAccountChips - realCount }, realCount)
      else
        .ok ({ seat with
          status := { seat.status with win := true }
          matchOverAccountChips := seat.matchOverAccountChips + chips },
          chips)

/-! ## Cards of a seat -/

def discardCard (card : PokerCard) (seat : GameSeat) : Option GameSeat :=
  if card ∈ seat.handcardsTotal then
    some { seat with handcardsTotal := seat.handcardsTotal.erase card }
  else none

def postDefaultCard (seat : GameSeat) :
    Except Fault (GameSeat × PokerCard) :=
  match seat.discardCard seat.mDigCard with
  | none => .error (.assertion .postDigCard)
  | some seat' => .ok (seat', seat.mDigCard)

def resetSeat (seat : GameSeat) : GameSeat :=
  { seat with
    matchOverAccountChips := 0
    handcardsTotal := []
    mDigCard := .blank
    cardGroup := [] }

def digCard (card : PokerCard) (seat : GameSeat) : GameSeat :=
  { seat with
    score := 40
    mDigCard := card
    handcardsTotal := sortCards (seat.handcardsTotal ++ [card]) }

/-- `Combination::default_declare` on the hand; the search object is shared. -/
def searchHand (self : Combination) (jokerPoint : Nat) (seat : GameSeat) :
    Except Fault (Combination × Nat × List CardGroup) :=
  match defaultDeclare self seat.handcardsTotal jokerPoint with
  | none => .error .search
  | some result => .ok result

/-- The hand is laid down for show; nothing is charged for it. -/
def showHand (self : Combination) (jokerPoint : Nat) (seat : GameSeat) :
    Except Fault (Combination × GameSeat) := do
  let (self, cardScore, groups) ← seat.searchHand self jokerPoint
  .ok (self, { seat with cardScore := cardScore, cardGroup := groups })

def borningOver (self : Combination) (jokerPoint : Nat) (seat : GameSeat) :
    Except Fault (Combination × GameSeat) :=
  { seat with score := 0 }.showHand self jokerPoint

def dropWin (self : Combination) (jokerPoint : Nat) (seat : GameSeat) :
    Except Fault (Combination × GameSeat) :=
  { seat with score := 0 }.showHand self jokerPoint

def playerDrop (dropCard : Bool) (self : Combination) (jokerPoint : Nat)
    (seat : GameSeat) : Except Fault (Combination × GameSeat) :=
  let seat :=
    { seat with
      status := { seat.status with ingame := false, drop := true } }
  let seat := seat.setPlayerStatus .drop
  if dropCard then
    match seat.discardCard seat.mDigCard with
    | none => .error (.assertion .dropDigCard)
    | some seat => seat.showHand self jokerPoint
  else seat.showHand self jokerPoint

/-! ## Declares -/

def groupCards (groups : List CardGroup) : List PokerCard :=
  groups.flatMap CardGroup.cards

/-- The hand is sorted on the way, also when the declare is refused. -/
def checkDeclare (card : PokerCard) (groups : List CardGroup)
    (jokerPoint : Nat) (seat : GameSeat) : GameSeat × Bool :=
  if card ∈ seat.handcardsTotal then
    let seat := { seat with handcardsTotal := sortCards seat.handcardsTotal }
    if sortCards (groupCards groups ++ [card]) ≠ seat.handcardsTotal then
      (seat, false)
    else if isGroupsDeclare groups jokerPoint = false then (seat, false)
    else
      ({ seat with
          score := 0
          cardScore := 0
          cardGroup := groups
          status := { seat.status with declared := true }
          }.setPlayerStatus .declare, true)
  else (seat, false)

def loseWith (score : Nat) (groups : List CardGroup) (seat : GameSeat) :
    GameSeat :=
  { seat with
    score := if score = 0 then 1 else if 80 < score then 80 else score
    cardScore := score
    cardGroup := groups
    status := { seat.status with ingame := false, declared := true }
    }.setPlayerStatus .declare

def checkLoseDeclare (groups : List CardGroup) (jokerPoint : Nat)
    (seat : GameSeat) : GameSeat × Bool :=
  let seat := { seat with handcardsTotal := sortCards seat.handcardsTotal }
  if sortCards (groupCards groups) ≠ seat.handcardsTotal then (seat, false)
  else
    match Cards.checkLoseDeclare groups jokerPoint with
    | none => (seat, false)
    | some score => (seat.loseWith score groups, true)

def defaultDeclare (self : Combination) (jokerPoint : Nat)
    (seat : GameSeat) : Except Fault (Combination × GameSeat) := do
  let (self, score, groups) ← seat.searchHand self jokerPoint
  .ok (self, seat.loseWith score groups)

end GameSeat

end StarsGaming.Desk
