import StarsGaming.Cards.Check
import StarsGaming.Foundation.Choices
import StarsGaming.Foundation.Loops

/-!
# The group search of `Combination`

`searchAllGroup` arranges a hand into a pure straight, a second straight and
up to two more groups, and records every arrangement it meets.  The object
caches the jokers of the cards being searched together with all their
non-empty selections.  A failed assertion, or a write past the fixed array of
`remove_card_group`, is `none`.
-/

namespace StarsGaming.Cards

open PokerCard
open StarsGaming.Foundation

structure CombinationInfo where
  score : Nat
  cardGroup : List CardGroup
  validCards : List PokerCard
  isHasFirtlife : Bool
  isHasSecondelife : Bool
  deriving DecidableEq, Repr

/-- The `Combination` singleton. -/
structure Combination where
  jokerCards : List PokerCard
  jokerCombines : List (List PokerCard)
  jokerPoint : Nat
  deriving DecidableEq, Repr

abbrev MAX_CARD_COUNT : Nat := 14

/-! ## Selections -/

def caculateAllChoices {α : Type*} (arr : List α) (n : Nat) :
    List (List α) :=
  if arr.length < n then []
  else
    (choicesFrom (2 ^ arr.length)
      (List.replicate n true ++ List.replicate (arr.length - n) false)).map
      (selectBy arr)

def caculateAllCardsCombines (cards : List PokerCard)
    (minSelect maxSelect : Nat) : List (List PokerCard) :=
  (List.range' minSelect (maxSelect + 1 - minSelect)).flatMap
    (caculateAllChoices cards)

theorem caculateAllChoices_eq {α : Type*} (arr : List α) (n : Nat) :
    caculateAllChoices arr n = (colex arr.length n).map (selectBy arr) := by
  unfold caculateAllChoices
  split
  · rename_i h
    have hnil : colex arr.length n = [] := by
      rw [← List.length_eq_zero_iff, length_colex]
      exact Nat.choose_eq_zero_of_lt h
    simp [hnil]
  · rename_i h
    rw [choicesFrom_first (by omega)]

theorem mem_caculateAllChoices {α : Type*} {arr ys : List α} {n : Nat} :
    ys ∈ caculateAllChoices arr n ↔ ys.Sublist arr ∧ ys.length = n := by
  rw [caculateAllChoices_eq, mem_map_selectBy_colex]

theorem mem_caculateAllCardsCombines {cards ys : List PokerCard} :
    ys ∈ caculateAllCardsCombines cards 1 cards.length ↔
      ys.Sublist cards ∧ ys ≠ [] := by
  simp only [caculateAllCardsCombines, List.mem_flatMap, List.mem_range'_1,
    mem_caculateAllChoices]
  constructor
  · rintro ⟨n, ⟨hpos, -⟩, hsub, hlen⟩
    refine ⟨hsub, ?_⟩
    rintro rfl
    simp at hlen
    omega
  · rintro ⟨hsub, hne⟩
    have hle := hsub.length_le
    have hpos := List.length_pos_iff.mpr hne
    exact ⟨ys.length, ⟨by omega, by omega⟩, hsub, rfl⟩

def searchJokerCards (jokerPoint : Nat) (cards : List PokerCard) :
    List PokerCard :=
  cards.filter (isJoker jokerPoint)

/-! ## Straights -/

/-- The loop of `to_straight_fill_joker_num`; a leading Ace counts as one. -/
def fillNumFrom : PokerCard → Int → List PokerCard → Int
  | _, fillNum, [] => fillNum
  | last, fillNum, card :: rest =>
      let gap : Int :=
        if last.point = A then (card.point : Int) - 1 - 1
        else (card.point : Int) - last.point - 1
      fillNumFrom card (fillNum + gap) rest

def toStraightFillJokerNum (self : Combination) (cards : List PokerCard) :
    Option (Int × Int) :=
  match cards with
  | [] => none
  | first :: rest =>
      let fillNum := fillNumFrom first 0 rest
      let jokerCardNum : Int := self.jokerCards.length
      let totalNum := (cards.length : Int) + fillNum
      let fillNum := if totalNum < 3 then fillNum + (3 - totalNum) else fillNum
      -- a complete run still takes one joker
      let fillNum := if fillNum = 0 then 1 else fillNum
      if fillNum > jokerCardNum then some (0, 0)
      else some (fillNum, fillNum + (jokerCardNum - fillNum))

def combineWithJokerCard (self : Combination) (cards : List PokerCard) :
    Option (List CardGroup) := do
  let (minFillNum, maxFillNum) ← toStraightFillJokerNum self cards
  if minFillNum = 0 then some []
  else
    let loops := (maxFillNum - minFillNum + 1).toNat
    some ((List.range loops).flatMap fun (k : Nat) =>
      (self.jokerCombines.filter fun combine =>
          (combine.length : Int) = minFillNum + (k : Int)).map fun combine =>
        ⟨GROUP_STAIGHT, sortCards (cards ++ combine)⟩)

/-- The groups that `search_straight_flush_select_n` makes of one selection. -/
def straightsOfSelection (self : Combination) (hand : List PokerCard) :
    Option (List CardGroup) := do
  let pureGroup : List CardGroup :=
    if isCardsPureStraight hand then [⟨GROUP_STAIGHT, hand⟩] else []
  let groups ← combineWithJokerCard self hand
  match hand.getLast? with
  | some ace =>
      if 1 < hand.length ∧ ace.point = A then
        let groupsA1 ← combineWithJokerCard self (ace :: hand.dropLast)
        some (pureGroup ++ groups ++ groupsA1)
      else some (pureGroup ++ groups)
  | none => some (pureGroup ++ groups)

def searchStraightFlushSelectN (self : Combination) (cards : List PokerCard)
    (selectN : Nat) : Option (List CardGroup) :=
  if 1 ≤ selectN ∧ selectN ≤ 14 then
    if cards.length < selectN then some []
    else collect (straightsOfSelection self) (caculateAllChoices cards selectN)
  else none

def searchStraightFlushI (self : Combination)
    (flushCards repeatCards : List PokerCard) : Option (List CardGroup) := do
  let groups ← collect (searchStraightFlushSelectN self flushCards)
    (List.range' 1 (flushCards.length + self.jokerCards.length))
  let repeatGroups : List CardGroup :=
    (List.range' 1 repeatCards.length).flatMap fun i =>
      ((caculateAllChoices repeatCards i).filter isCardsPureStraight).map
        fun cards => ⟨GROUP_STAIGHT, cards⟩
  some (groups ++ repeatGroups)

def popRepeat (jokerPoint : Nat) :
    List PokerCard → List PokerCard → List PokerCard →
      List PokerCard × List PokerCard
  | popCards, repeatCards, [] => (popCards, repeatCards)
  | popCards, repeatCards, card :: rest =>
      if isJoker jokerPoint card then
        popRepeat jokerPoint popCards repeatCards rest
      else if popCards.getLast?.map PokerCard.point = some card.point then
        popRepeat jokerPoint popCards (repeatCards ++ [card]) rest
      else popRepeat jokerPoint (popCards ++ [card]) repeatCards rest

def flushColors (cards : List PokerCard) : List Nat :=
  ((cards.map PokerCard.color).dedup).insertionSort (· ≤ ·)

def searchStraightFlush (self : Combination) (cards : List PokerCard) :
    Option (List CardGroup) := do
  let groups ← collect
    (fun color =>
      let leftCards := sortCards (cards.filter fun card => card.color = color)
      let (popCards, repeatCards) := popRepeat self.jokerPoint [] [] leftCards
      searchStraightFlushI self popCards repeatCards)
    (flushColors cards)
  let jokerGroups : List CardGroup :=
    (self.jokerCombines.filter fun combine => 3 ≤ combine.length).map
      fun combine => ⟨GROUP_STAIGHT, combine⟩
  some (groups ++ jokerGroups)

def searchPureStraightFlush (groups : List CardGroup) : List CardGroup :=
  groups.filter fun group => isCardsPureStraight group.cards

/-! ## Sets -/

def searchThreeOfKindSelectN (self : Combination) (cards : List PokerCard)
    (selectN : Nat) : Option (List CardGroup) :=
  if 2 ≤ selectN ∧ selectN ≤ 4 then
    if cards.length < selectN then some []
    else
      some ((caculateAllChoices cards selectN).flatMap fun hand =>
        (if 2 < hand.length then [⟨GROUP_THREE_KIND, hand⟩] else []) ++
          self.jokerCombines.map fun combine =>
            ⟨GROUP_THREE_KIND, hand ++ combine⟩)
  else none

def searchThreeOfKindI (self : Combination)
    (cards repeatCards : List PokerCard) : Option (List CardGroup) := do
  let groups ← collect (searchThreeOfKindSelectN self cards) [2, 3, 4]
  let repeatGroups : List CardGroup :=
    [3, 4].flatMap fun i =>
      (caculateAllChoices repeatCards i).map fun cards =>
        ⟨GROUP_THREE_KIND, cards⟩
  some (groups ++ repeatGroups)

def flushThreeOfKind (self : Combination)
    (popCards repeatCards : List PokerCard) : Option (List CardGroup) :=
  if 2 ≤ popCards.length then searchThreeOfKindI self popCards repeatCards
  else some []

/-- The loop of `search_three_of_kind` over the sorted cards. -/
def searchThreeOfKindFrom (self : Combination) :
    List PokerCard → List PokerCard → List PokerCard →
      Option (List CardGroup)
  | popCards, repeatCards, [] => flushThreeOfKind self popCards repeatCards
  | popCards, repeatCards, card :: rest =>
      if (popCards = [] ∨
            popCards.head?.map PokerCard.point = some card.point) ∧
          isJoker self.jokerPoint card = false then
        if card ∈ popCards then
          searchThreeOfKindFrom self popCards (repeatCards ++ [card]) rest
        else searchThreeOfKindFrom self (popCards ++ [card]) repeatCards rest
      else do
        let groups ← flushThreeOfKind self popCards repeatCards
        let groups' ← searchThreeOfKindFrom self [card] [] rest
        some (groups ++ groups')

def searchThreeOfKind (self : Combination) (cards : List PokerCard) :
    Option (List CardGroup) :=
  searchThreeOfKindFrom self [] [] (sortCards cards)

/-! ## Removing cards -/

def removeCards (group : CardGroup) (cards : List PokerCard) :
    List PokerCard :=
  cards.diff group.cards

def isInCards : List PokerCard → List PokerCard → Bool
  | _, [] => true
  | arr, card :: rest =>
      if card ∈ arr then isInCards (arr.replace card blank) rest else false

def removeCardGroup (cards : List PokerCard) (groups : List CardGroup) :
    Option (List CardGroup) :=
  if cards.length ≤ MAX_CARD_COUNT then
    let arr := cards ++ List.replicate (MAX_CARD_COUNT - cards.length) blank
    some (groups.filter fun group => isInCards arr group.cards)
  else none

theorem removeCards_perm {group : CardGroup} {cards : List PokerCard}
    (h : group.cards.Subperm cards) :
    (group.cards ++ removeCards group cards).Perm cards :=
  List.subperm_append_diff_self_of_count_le
    fun card _ => h.count_le card

theorem filter_removeCards (p : PokerCard → Bool) (group : CardGroup)
    (cards : List PokerCard) :
    (removeCards group cards).filter p =
      removeCards group (cards.filter p) := by
  unfold removeCards
  induction group.cards generalizing cards with
  | nil => simp
  | cons card rest ih =>
      rw [List.diff_cons, List.diff_cons, ih, List.erase_filter]

private theorem count_replace_blank {arr : List PokerCard}
    {card other : PokerCard} (hmem : card ∈ arr) (hother : other ≠ blank) :
    (arr.replace card blank).count other =
      arr.count other - if card = other then 1 else 0 := by
  induction arr with
  | nil => simp at hmem
  | cons first arr ih =>
      by_cases heq : first = card
      · subst heq
        rw [List.replace_cons_self, List.count_cons, List.count_cons]
        simp [hother.symm]
      · have hmem' : card ∈ arr := by
          rcases List.mem_cons.mp hmem with h | h
          · exact absurd h.symm heq
          · exact h
        have hbeq : (card == first) = false := by simp [Ne.symm heq]
        have hreplace : (first :: arr).replace card blank =
            first :: arr.replace card blank := by
          rw [List.replace_cons, hbeq]
        rw [hreplace, List.count_cons, List.count_cons, ih hmem']
        split
        · rename_i hcard
          subst hcard
          have := List.count_pos_iff.mpr hmem'
          simp [heq]
        · simp

theorem isInCards_iff {arr cards : List PokerCard} (h : blank ∉ cards) :
    isInCards arr cards = true ↔ cards.Subperm arr := by
  induction cards generalizing arr with
  | nil => simp [isInCards]
  | cons card rest ih =>
      have hcard : card ≠ blank := fun heq => h (by simp [heq])
      have hrest : blank ∉ rest := fun hmem => h (List.mem_cons_of_mem _ hmem)
      rw [isInCards]
      by_cases hmem : card ∈ arr
      · rw [if_pos hmem, ih hrest, List.subperm_iff_count,
          List.subperm_iff_count]
        have hpos := List.count_pos_iff.mpr hmem
        refine forall_congr' fun other => ?_
        by_cases hother : other = blank
        · subst hother
          simp [List.count_eq_zero.mpr hrest, hcard]
        · rw [count_replace_blank hmem hother, List.count_cons]
          by_cases heq : card = other
          · subst heq
            simp
            omega
          · simp [heq]
      · rw [if_neg hmem]
        simp only [Bool.false_eq_true, false_iff]
        exact fun hsub => hmem (hsub.subset List.mem_cons_self)

theorem removeCardGroup_spec {cards : List PokerCard}
    (hlen : cards.length ≤ 14) {groups : List CardGroup}
    (hblank : ∀ group ∈ groups, blank ∉ group.cards) :
    ∃ out, removeCardGroup cards groups = some out ∧
      ∀ group, group ∈ out ↔ group ∈ groups ∧ group.cards.Subperm cards := by
  refine ⟨_, by simp [removeCardGroup, hlen]; rfl, fun group => ?_⟩
  rw [List.mem_filter]
  refine and_congr_right fun hmem => ?_
  rw [isInCards_iff (hblank group hmem), List.subperm_iff_count,
    List.subperm_iff_count]
  refine forall_congr' fun card => ?_
  by_cases hcard : card = blank
  · subst hcard
    simp [List.count_eq_zero.mpr (hblank group hmem)]
  · simp [List.count_replicate, Ne.symm hcard]

/-! ## The four nested searches -/

def completeInfo (groups : List CardGroup) : CombinationInfo :=
  ⟨0, groups, [], true, true⟩

/-- An arrangement that leaves `cards` over, as its last group. -/
def looseInfo (self : Combination) (groups : List CardGroup)
    (cards : List PokerCard) (isHasFirtlife isHasSecondelife : Bool) :
    CombinationInfo :=
  ⟨caculateCardScore cards self.jokerPoint,
    groups ++ [⟨GROUP_INVALID, cards⟩], cards, isHasFirtlife,
    isHasSecondelife⟩

def searchFourthGroup (validCardNumStop : Nat)
    (first second third : CardGroup) (cards3 : List PokerCard)
    (self : Combination) (fourth : CardGroup) :
    Option (Combination × List CombinationInfo × Bool) :=
  let cards4 := removeCards fourth cards3
  if cards4 = [] then
    some (self, [completeInfo [first, second, third, fourth]], true)
  else if 0 < cards4.length ∧ cards4.length < 3 then
    some (self,
      [looseInfo self [first, second, third, fourth] cards4 true true],
      decide (cards4.length ≤ validCardNumStop))
  else none

def searchThirdGroup (validCardNumStop : Nat) (first second : CardGroup)
    (cards2 : List PokerCard) (allGroup2 : List CardGroup)
    (self : Combination) (third : CardGroup) :
    Option (Combination × List CombinationInfo × Bool) := do
  let cards3 := removeCards third cards2
  if cards3 = [] then
    some (self, [completeInfo [first, second, third]], true)
  else
    let allGroup3 ← removeCardGroup cards3 allGroup2
    if allGroup3 = [] then
      some (self, [looseInfo self [first, second, third] cards3 true true],
        decide (cards3.length ≤ validCardNumStop))
    else
      loopUntil (searchFourthGroup validCardNumStop first second third cards3)
        self allGroup3

def refreshJokers (self : Combination) (jokerCards : List PokerCard) :
    Combination :=
  if self.jokerCards ≠ jokerCards then
    { self with
      jokerCards := jokerCards
      jokerCombines :=
        caculateAllCardsCombines jokerCards 1 jokerCards.length }
  else self

def searchSecondGroup (validCardNumStop : Nat) (first : CardGroup)
    (cards1 jokerCards1 : List PokerCard) (self : Combination)
    (second : CardGroup) :
    Option (Combination × List CombinationInfo × Bool) := do
  let cards2 := removeCards second cards1
  let jokerCards2 := removeCards second jokerCards1
  if cards2 = [] then
    some (self, [completeInfo [first, second]], true)
  else
    let self := refreshJokers self jokerCards2
    let straights ← searchStraightFlush self cards2
    let sets ← searchThreeOfKind self cards2
    let allGroup2 := straights ++ sets
    if allGroup2 = [] then
      some (self, [looseInfo self [first, second] cards2 true true],
        decide (cards2.length ≤ validCardNumStop))
    else
      loopUntil
        (searchThirdGroup validCardNumStop first second cards2 allGroup2)
        self allGroup2

def searchFirstGroup (validCardNumStop : Nat)
    (allCards allJokerCards : List PokerCard) (straiGroup : List CardGroup)
    (self : Combination) (first : CardGroup) :
    Option (Combination × List CombinationInfo × Bool) := do
  let cards1 := removeCards first allCards
  let jokerCards1 := removeCards first allJokerCards
  -- a hand that is one pure straight is skipped
  if cards1 = [] then some (self, [], false)
  else
    let secondlifeGroup ← removeCardGroup cards1 straiGroup
    if secondlifeGroup = [] then
      some (self, [looseInfo self [first] cards1 true false], false)
    else
      loopUntil (searchSecondGroup validCardNumStop first cards1 jokerCards1)
        self secondlifeGroup

def searchAllGroup (self : Combination) (allCards : List PokerCard)
    (validCardNumStop : Nat) :
    Option (Combination × List CombinationInfo) := do
  let allJokerCards := searchJokerCards self.jokerPoint allCards
  let self : Combination :=
    { self with
      jokerCards := allJokerCards
      jokerCombines :=
        caculateAllCardsCombines allJokerCards 1 allJokerCards.length }
  let straiGroup ← searchStraightFlush self allCards
  let fistlifeGroup := searchPureStraightFlush straiGroup
  if fistlifeGroup = [] then
    some (self, [looseInfo self [] allCards false false])
  else
    let (self, cardCombs, _) ←
      loopUntil
        (searchFirstGroup validCardNumStop allCards allJokerCards straiGroup)
        self fistlifeGroup
    some (self, cardCombs)

/-! ## The automatic declare -/

def minInfo (best : CombinationInfo) :
    List CombinationInfo → CombinationInfo
  | [] => best
  | info :: rest =>
      if info.score < best.score then minInfo info rest
      else minInfo best rest

/-- The arrangement `default_declare` settles on. -/
def chooseInfo : List CombinationInfo → Option CombinationInfo
  | [] => none
  | front :: rest =>
      let back := (front :: rest).getLast (by simp)
      if back.score = 0 then some back
      else some (minInfo front (front :: rest))

def defaultDeclare (self : Combination) (handCard : List PokerCard)
    (jokerPoint : Nat) : Option (Combination × Nat × List CardGroup) := do
  let (self, cardCombs) ←
    searchAllGroup { self with jokerPoint := jokerPoint } handCard 0
  let info ← chooseInfo cardCombs
  some (self, info.score, info.cardGroup)

end StarsGaming.Cards
