import Mathlib.Algebra.BigOperators.Group.Finset.Basic
import Mathlib.Data.Fintype.BigOperators
import StarsGaming.Desk.GameDesk

/-!
# The table behind a desk

The rules of the game see less than the desk holds: who sits and plays, the
cards, the chips of the game and the round.  This is the `Table`.  A handler
of the desk passes through modes that no client sees: a card is posted and the
turn not yet passed on, a seat has left the game and the seats are not yet
counted, the game is about to end.  `Move` lists everything that can happen to
a table, and a label marks the moves that deserve attention.
-/

namespace StarsGaming.Desk

open Cards

/-! ## Tables -/

structure Place where
  player : Bool
  seated : Bool
  ingame : Bool
  joined : Bool
  declared : Bool
  hand : List PokerCard
  digCard : PokerCard
  chips : Int

@[ext]
structure Table where
  place : SeatNum → Place
  round : Round
  dealer : SeatNum
  active : Option SeatNum
  declarer : Option SeatNum
  overType : Option GameOverType
  joker : PokerCard
  pool : List PokerCard
  bottom : List PokerCard
  chipsPool : Int
  charged : List SeatNum
  gone : List SeatNum
  notes : List Note

def GameSeat.place (seat : GameSeat) : Place where
  player := seat.player.isSome
  seated := seat.status.seated
  ingame := seat.status.ingame
  joined := seat.status.curJoin
  declared := seat.status.declared
  hand := seat.handcardsTotal
  digCard := seat.mDigCard
  chips := seat.matchOverAccountChips

def GameDesk.table (desk : GameDesk) : Table where
  place := fun number => (desk.seats number).place
  round := desk.round
  dealer := desk.dealerIndex
  active := desk.activeSeatnum
  declarer := desk.applyDeclareSeatnum
  overType := desk.gameoverType
  joker := desk.jokerCard
  pool := desk.pokercardPool
  bottom := desk.bottomCards
  chipsPool := desk.chipsPool
  charged := desk.record.charged
  gone := desk.record.gone
  notes := desk.record.notes

namespace Table

def put (number : SeatNum) (place : Place) (t : Table) : Table :=
  { t with place := Function.update t.place number place }

def live (t : Table) : Prop := t.round.isGameOver = false

def ingame (t : Table) : Finset SeatNum :=
  Finset.univ.filter fun number => (t.place number).ingame

def inHands (t : Table) (card : PokerCard) : Nat :=
  ∑ number, (t.place number).hand.count card

def tally (t : Table) (card : PokerCard) : Nat :=
  t.bottom.count card + t.pool.count card + [t.joker].count card +
    t.inHands card

/-! ## What the moves do -/

def sit (number : SeatNum) (t : Table) : Table :=
  t.put number { t.place number with player := true, seated := true }

def leave (number : SeatNum) (t : Table) : Table :=
  { t.put number
      { t.place number with
        player := false
        seated := false
        ingame := false
        joined := !t.round.isGameOver && (t.place number).joined
        declared := !t.round.isGameOver && (t.place number).declared
        hand := [] } with
    gone :=
      if (t.place number).joined then number :: t.gone else t.gone }

def arrange (number : SeatNum) (hand : List PokerCard) (t : Table) : Table :=
  t.put number { t.place number with hand := hand }

def dig (number : SeatNum) (card : PokerCard) (hand : List PokerCard)
    (t : Table) : Table :=
  { t.put number { t.place number with hand := hand, digCard := card } with
    round := .active2 }

def post (number : SeatNum) (card : PokerCard) (t : Table) : Table :=
  { t.put number
      { t.place number with hand := (t.place number).hand.erase card } with
    pool := t.pool ++ [card] }

def declare (number : SeatNum) (t : Table) : Table :=
  { t.put number { t.place number with declared := true } with
    round := .declare
    declarer := some number
    overType := some .normalOver }

def pay (number : SeatNum) (paid : Int) (place : Place) (t : Table) : Table :=
  { t.put number { place with ingame := false, chips := place.chips - paid }
      with
    chipsPool := t.chipsPool + paid
    charged := number :: t.charged }

def lose (number : SeatNum) (paid : Int) (t : Table) : Table :=
  t.pay number paid { t.place number with declared := true }

def dropHand (number : SeatNum) (t : Table) : List PokerCard :=
  if t.round = .active2 ∧ t.active = some number then
    (t.place number).hand.erase (t.place number).digCard
  else (t.place number).hand

def drop (number : SeatNum) (paid : Int) (t : Table) : Table :=
  { t.pay number paid { t.place number with hand := t.dropHand number } with
    gone := number :: t.gone }

def nextActive (t : Table) : SeatNum :=
  match t.active with
  | none => t.dealer
  | some number =>
      match (GameDesk.seatsAfter number).find? fun next =>
          (t.place next).ingame with
      | some next => next
      | none => number

def enter (t : Table) : Table :=
  { t with
    active := some t.nextActive
    notes := .activePlayer t.bottom.length t.pool.length :: t.notes }

def shuffle (kept moved : List PokerCard) (t : Table) : Table :=
  { t with
    pool := kept
    bottom := t.bottom ++ moved
    round := .shuffleCard
    notes := .shuffleCard t.pool.length :: t.notes }

/-- The winner, if any, is paid the pool without the tips. -/
def payout (tips : Int) (t : Table) (number : SeatNum) : Int :=
  if t.declarer = some number then
    (t.place number).chips + (t.chipsPool - tips)
  else (t.place number).chips

def result (tips : Int) (t : Table) : GameResult where
  overType := t.overType
  winner := t.declarer
  joined := fun number => (t.place number).joined
  charged := t.charged
  chips := t.payout tips
  tips := tips

def finish (tips : Int) (t : Table) : Table :=
  { t with
    place := fun number =>
      { t.place number with hand := [], digCard := .blank, chips := 0 }
    round := .distribute
    active := none
    declarer := none
    overType := none
    joker := .blank
    pool := []
    bottom := []
    chipsPool := 0
    notes := .gameOver (t.result tips) :: t.notes }

structure Dealt (t t' : Table) : Prop where
  place : ∀ number,
    (t'.place number).player = (t.place number).player ∧
      (t'.place number).seated = (t.place number).seated ∧
      (t'.place number).ingame = (t.place number).seated ∧
      (t'.place number).joined = (t.place number).seated ∧
      (t'.place number).declared = false ∧ (t'.place number).chips = 0
  hand : ∀ number, (t'.place number).hand.length =
    if (t.place number).seated then 13 else 0
  round : t'.round = .dealerCard
  dealer : (t.place t'.dealer).seated
  active : t'.active = t.active
  declarer : t'.declarer = t.declarer
  overType : t'.overType = t.overType
  pool : t'.pool.length = 1
  tally : ∀ card, t'.tally card = initCards.count card
  bottom : 41 ≤ t'.bottom.length
  chipsPool : t'.chipsPool = t.chipsPool
  charged : t'.charged = []
  gone : t'.gone = []
  notes : t'.notes = t.notes

end Table

/-! ## Moves -/

inductive Mode where
  | rest
  | posted
  | turn
  | out
  | ending
  deriving DecidableEq, Repr

inductive Label where
  | plain
  | selfLose
  | lateLose
  | poolDraw
  | dryDrop
  deriving DecidableEq, Repr

def Table.dry (t : Table) : Prop :=
  t.round = .active2 ∧ (t.pool = [] ∨ t.bottom.length < 2)

instance (t : Table) : Decidable t.dry :=
  inferInstanceAs (Decidable (_ ∧ _))

/-- A seat out of the game still holds the turn. -/
def Table.vacant (t : Table) : Prop :=
  (t.round = .active1 ∨ t.round = .active2) ∧
    ∃ number, t.active = some number ∧ (t.place number).ingame = false

inductive Move : Mode → Table → Label → Mode → Table → Prop where
  | sit {t : Table} {number : SeatNum}
      (hseat : (t.place number).seated = false) :
      Move .rest t .plain .rest (t.sit number)
  | leave {t : Table} {number : SeatNum}
      (hfree : t.round.isGameOver = false → (t.place number).ingame = false) :
      Move .rest t .plain .rest (t.leave number)
  | wait {t : Table} {round : Round} (hover : t.round.isGameOver)
      (hround : round.isGameOver) :
      Move .rest t .plain .rest { t with round := round }
  | deal {t t' : Table} (hround : t.round = .waitPlaying)
      (hseats : 2 ≤ (Finset.univ.filter fun number =>
        (t.place number).seated).card)
      (hdealt : t.Dealt t') : Move .rest t .plain .rest t'
  | arrange {t : Table} {number : SeatNum} {hand : List PokerCard}
      (hhand : hand.Perm (t.place number).hand) :
      Move .rest t .plain .rest (t.arrange number hand)
  | digBottom {t : Table} {number : SeatNum} {card : PokerCard}
      {bottom hand : List PokerCard} (hround : t.round = .active1)
      (hactive : t.active = some number) (hbottom : t.bottom = card :: bottom)
      (hhand : hand.Perm (card :: (t.place number).hand)) :
      Move .rest t .plain .rest
        (Table.dig number card hand { t with bottom := bottom })
  | digPool {t : Table} {number : SeatNum} {card : PokerCard}
      {pool hand : List PokerCard} (hround : t.round = .active1)
      (hactive : t.active = some number) (hpool : t.pool = pool ++ [card])
      (hhand : hand.Perm (card :: (t.place number).hand)) :
      Move .rest t .plain .rest
        (Table.dig number card hand { t with pool := pool })
  | post {t : Table} {number : SeatNum} {card : PokerCard}
      (hround : t.round = .active2) (hactive : t.active = some number)
      (hcard : card ∈ (t.place number).hand) :
      Move .rest t .plain .posted (t.post number card)
  | shuffle {t : Table} {kept moved : List PokerCard}
      (hbottom : t.bottom.length = 1) (hkept : kept.length = 2)
      (hpool : (kept ++ moved).Perm t.pool) :
      Move .posted t .plain .rest (t.shuffle kept moved)
  | pass {t : Table} (hbottom : t.bottom.length ≠ 1) :
      Move .posted t .plain .turn t
  | timeout {t : Table}
      (hround : t.round = .dealerCard ∨ t.round = .active1 ∨
        t.round = .shuffleCard) :
      Move .rest t .plain .turn t
  | activate {t : Table} (hpool : t.pool ≠ []) :
      Move .turn t .plain .rest { t.enter with round := .active1 }
  | draw {t : Table} :
      Move .turn t (if t.chipsPool = 0 then .plain else .poolDraw) .ending
        { t.enter with overType := some .borningOver }
  | declare {t : Table} {number : SeatNum} (hround : t.round = .active2)
      (hactive : t.active = some number) :
      Move .rest t .plain .rest (t.declare number)
  | lose {t : Table} {number : SeatNum} {paid : Int}
      (hround : t.round = .declare) (hingame : (t.place number).ingame)
      (hpaid : 0 ≤ paid) :
      Move .rest t (if t.declarer = some number then .selfLose else .plain)
        .out (t.lose number paid)
  | lateLose {t : Table} {number : SeatNum} {paid : Int}
      (hround : t.round = .distribute) (hpaid : 0 ≤ paid) :
      Move .rest t .lateLose .rest (t.lose number paid)
  | drop {t : Table} {number : SeatNum} {paid : Int}
      (hround : t.round = .active1 ∨ t.round = .active2 ∨
        t.round = .shuffleCard)
      (hingame : (t.place number).ingame) (hpaid : 0 ≤ paid) :
      Move .rest t .plain .out (t.drop number paid)
  | stay {t : Table} (hcount : t.ingame.card ≠ 1) (hactive : ¬ t.vacant) :
      Move .out t .plain .rest t
  | next {t : Table} (hcount : t.ingame.card ≠ 1) (hactive : t.vacant) :
      Move .out t (if t.dry then .dryDrop else .plain) .turn t
  | lastDeclare {t : Table} (hround : t.round = .declare)
      (hcount : t.ingame.card = 1) : Move .out t .plain .ending t
  | lastDrop {t : Table} {winner : SeatNum} (hround : t.round ≠ .declare)
      (hcount : t.ingame.card = 1) (hwinner : (t.place winner).ingame) :
      Move .out t .plain .ending
        { t with overType := some .dropOver, declarer := some winner }
  | finish {t : Table} {tips : Int}
      (htips : t.declarer = none → tips = 0) :
      Move .ending t .plain .rest (t.finish tips)

/-- Where the desk faults: a dry pile, or a winner who is gone. -/
inductive Stuck : Mode → Table → Fault → Prop where
  | emptyPool {t : Table} (hpool : t.pool = []) : Stuck .turn t .emptyPile
  | thinPool {t : Table} (hbottom : t.bottom.length = 1)
      (hpool : t.pool.length < 2) : Stuck .posted t .emptyPile
  | dig {t : Table} (hround : t.round = .active1)
      (hpile : t.bottom = [] ∨ t.pool = []) :
      Stuck .rest t (.assertion .digPiles)
  | winner {t : Table} {number : SeatNum}
      (hdeclarer : t.declarer = some number)
      (hgone : (t.place number).player = false) :
      Stuck .ending t .nullPlayer

def rules : Foundation.Machine Mode Table Label Fault :=
  ⟨.rest, Move, Stuck⟩

end StarsGaming.Desk
