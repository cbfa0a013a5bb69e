import Mathlib.Algebra.GroupWithZero.Nat
import Mathlib.Data.List.Sort
import Mathlib.Data.List.Perm.Subperm

/-!
# Poker cards, card groups and the double deck

The rummy server plays with two decks of 52 cards and four printed jokers.
A card is a suit and a point; printed jokers have suit `0` and a point past
the Ace.  A card group carries an integer type that a client may set freely.
-/

namespace StarsGaming.Cards

structure PokerCard where
  color : Nat
  point : Nat
  deriving DecidableEq, Repr, Inhabited

namespace PokerCard

@[simp] abbrev spades : Nat := 1
@[simp] abbrev hearts : Nat := 2
@[simp] abbrev clubs : Nat := 3
@[simp] abbrev diamonds : Nat := 4

@[simp] abbrev P2 : Nat := 2
@[simp] abbrev P3 : Nat := 3
@[simp] abbrev A : Nat := 14
@[simp] abbrev JOKER1 : Nat := 15
@[simp] abbrev JOKER2 : Nat := 16

/-- The card `PokerCard()` leaves behind: neither a suit nor a point. -/
def blank : PokerCard := ⟨0, 0⟩

def parseMsgCard (point color : Int) : PokerCard :=
  ⟨(color % 256).toNat, (point % 256).toNat⟩

/-- `operator<`: points first, suits break ties. -/
def lt (card other : PokerCard) : Bool :=
  if card.point ≠ other.point then card.point < other.point
  else card.color < other.color

def isJoker (jokerPoint : Nat) (card : PokerCard) : Bool :=
  card.point == jokerPoint || JOKER1 ≤ card.point

def getScore (jokerPoint : Nat) (card : PokerCard) : Nat :=
  if P2 ≤ card.point ∧ card.point ≤ A ∧ card.point ≠ jokerPoint then
    if 10 < card.point then 10 else card.point
  else 0

instance : LE PokerCard := ⟨fun card other => other.lt card = false⟩

instance : DecidableRel (α := PokerCard) (· ≤ ·) :=
  fun card other => inferInstanceAs (Decidable (other.lt card = false))

theorem le_iff {card other : PokerCard} :
    card ≤ other ↔ card.point < other.point ∨
      (card.point = other.point ∧ card.color ≤ other.color) := by
  change other.lt card = false ↔ _
  unfold lt
  split <;> simp <;> omega

instance : Std.Total (α := PokerCard) (· ≤ ·) :=
  ⟨fun card other => by simp only [le_iff]; omega⟩

instance : IsTrans PokerCard (· ≤ ·) :=
  ⟨fun first second third => by simp only [le_iff]; omega⟩

instance : Std.Antisymm (α := PokerCard) (· ≤ ·) :=
  ⟨fun ⟨color, point⟩ ⟨color', point'⟩ => by
    simp only [le_iff, PokerCard.mk.injEq]; omega⟩

theorem point_le_of_le {card other : PokerCard} (h : card ≤ other) :
    card.point ≤ other.point := by
  rw [le_iff] at h
  omega

end PokerCard

open PokerCard

/-! ## Sorting -/

/-- `std::sort` with `operator<`, a total order on cards. -/
def sortCards (cards : List PokerCard) : List PokerCard :=
  cards.insertionSort (· ≤ ·)

@[simp] theorem sortCards_perm (cards : List PokerCard) :
    (sortCards cards).Perm cards :=
  cards.perm_insertionSort _

theorem sortCards_pairwise (cards : List PokerCard) :
    (sortCards cards).Pairwise (· ≤ ·) :=
  cards.pairwise_insertionSort _

@[simp] theorem sortCards_length (cards : List PokerCard) :
    (sortCards cards).length = cards.length :=
  (sortCards_perm cards).length_eq

@[simp] theorem mem_sortCards {card : PokerCard} {cards : List PokerCard} :
    card ∈ sortCards cards ↔ card ∈ cards :=
  (sortCards_perm cards).mem_iff

theorem sortCards_eq_of_perm {cards sorted : List PokerCard}
    (hperm : cards.Perm sorted) (hsorted : sorted.Pairwise (· ≤ ·)) :
    sortCards cards = sorted :=
  ((sortCards_perm cards).trans hperm).eq_of_pairwise'
    (sortCards_pairwise cards) hsorted

theorem head_point_le {card : PokerCard} {rest : List PokerCard}
    (hsorted : (card :: rest).Pairwise (· ≤ ·)) :
    ∀ card' ∈ card :: rest, card.point ≤ card'.point :=
  List.forall_mem_cons.mpr ⟨Nat.le_refl _, fun _ hmem =>
    point_le_of_le (List.rel_of_pairwise_cons hsorted hmem)⟩

def PointsBelow (below above : List PokerCard) : Prop :=
  ∀ card ∈ below, ∀ card' ∈ above, card.point ≤ card'.point

section PointsBelow

variable {below rest : List PokerCard} {card : PokerCard}

@[simp] theorem PointsBelow.nil (above : List PokerCard) :
    PointsBelow [] above :=
  List.forall_mem_nil _

theorem PointsBelow.tail (h : PointsBelow below (card :: rest)) :
    PointsBelow below rest :=
  fun card' hmem => (List.forall_mem_cons.mp (h card' hmem)).2

theorem PointsBelow.snoc (h : PointsBelow below (card :: rest))
    (hsorted : (card :: rest).Pairwise (· ≤ ·)) :
    PointsBelow (below ++ [card]) rest :=
  List.forall_mem_append.mpr ⟨h.tail, List.forall_mem_singleton.mpr
    (List.forall_mem_cons.mp (head_point_le hsorted)).2⟩

end PointsBelow

theorem sortCards_congr {first second : List PokerCard}
    (hperm : first.Perm second) : sortCards first = sortCards second :=
  sortCards_eq_of_perm (hperm.trans (sortCards_perm second).symm)
    (sortCards_pairwise second)

/-! ## Groups and scores -/

@[simp] abbrev GROUP_INVALID : Int := 0
@[simp] abbrev GROUP_STAIGHT : Int := 1
@[simp] abbrev GROUP_THREE_KIND : Int := 2

structure CardGroup where
  type : Int
  cards : List PokerCard
  deriving DecidableEq, Repr

structure MsgCard where
  point : Int
  color : Int
  deriving DecidableEq, Repr

structure MsgCardGroup where
  type : Int
  cards : List MsgCard
  deriving DecidableEq, Repr

def CardGroup.parseMsgGroup (group : MsgCardGroup) : CardGroup :=
  ⟨group.type, group.cards.map fun card => parseMsgCard card.point card.color⟩

def caculateCardScore (cards : List PokerCard) (jokerPoint : Nat) : Nat :=
  (cards.map (getScore jokerPoint)).sum

theorem caculateCardScore_perm {first second : List PokerCard}
    (hperm : first.Perm second) (jokerPoint : Nat) :
    caculateCardScore first jokerPoint = caculateCardScore second jokerPoint :=
  (hperm.map _).sum_nat

@[simp] theorem caculateCardScore_append (first second : List PokerCard)
    (jokerPoint : Nat) :
    caculateCardScore (first ++ second) jokerPoint =
      caculateCardScore first jokerPoint +
        caculateCardScore second jokerPoint := by
  simp [caculateCardScore]

/-! ## The double deck -/

def suitCards (color : Nat) : List PokerCard :=
  (List.range (A - 1)).flatMap fun j =>
    [⟨color, j + 2⟩, ⟨color, j + 2⟩]

/-- `CardDealer::init_cards`, before the shuffles. -/
def initCards : List PokerCard :=
  ((List.range diamonds).flatMap fun i => suitCards (i + 1)) ++
    [⟨0, JOKER1⟩, ⟨0, JOKER1⟩, ⟨0, JOKER2⟩, ⟨0, JOKER2⟩]

def FromDeck (hand : List PokerCard) : Prop :=
  hand.Subperm initCards

instance (hand : List PokerCard) : Decidable (FromDeck hand) :=
  inferInstanceAs (Decidable (hand.Subperm initCards))

theorem initCards_length : initCards.length = 108 := by
  decide

def Deal (card : PokerCard) : Prop :=
  (spades ≤ card.color ∧ card.color ≤ diamonds ∧
      P2 ≤ card.point ∧ card.point ≤ A) ∨
    (card.color = 0 ∧ JOKER1 ≤ card.point ∧ card.point ≤ JOKER2)

instance (card : PokerCard) : Decidable (Deal card) :=
  inferInstanceAs (Decidable (_ ∨ _))

theorem deal_of_mem_initCards {card : PokerCard} (h : card ∈ initCards) :
    Deal card := by
  revert card
  decide

theorem FromDeck.deal {hand : List PokerCard} (h : FromDeck hand)
    {card : PokerCard} (hmem : card ∈ hand) : Deal card :=
  deal_of_mem_initCards (h.subset hmem)

theorem FromDeck.count_le {hand : List PokerCard} (h : FromDeck hand)
    (card : PokerCard) : hand.count card ≤ 2 := by
  have hcount : ∀ card ∈ initCards, initCards.count card ≤ 2 := by
    decide +kernel
  refine (List.Subperm.count_le h card).trans ?_
  by_cases hmem : card ∈ initCards
  · exact hcount card hmem
  · simp [List.count_eq_zero.mpr hmem]

end StarsGaming.Cards
