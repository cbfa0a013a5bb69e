import StarsGaming.Cards.Card

/-!
# The declare validators of `Combination`

A client declares by sending card groups.  `isGroupsDeclare` decides a winning
declare and `checkLoseDeclare` prices the declare of a losing player.  Both
sort the cards of a group before looking at it, so the three predicates on
single groups are only used on sorted cards.
-/

namespace StarsGaming.Cards

open PokerCard

/-! ## Single groups -/

/-- The loop of `is_cards_pure_straight`, entered with the first card. -/
def pureStraightFrom (first : PokerCard) :
    PokerCard → List PokerCard → Bool
  | _, [] => true
  | last, card :: rest =>
      if last.color ≠ card.color ∨ JOKER1 ≤ last.point ∨
          JOKER1 ≤ card.point then false
      else if last.point + 1 ≠ card.point then
        -- an Ace that does not continue the run ends the loop at once
        if card.point ≠ A then false else first.point == P2
      else pureStraightFrom first card rest

def isCardsPureStraight (cards : List PokerCard) : Bool :=
  if cards.length < 3 then false
  else match cards with
    | [] => false
    | first :: rest => pureStraightFrom first first rest

structure StraightScan where
  jokerCount : Nat
  needJokerCount : Int
  tempcards : List PokerCard
  last : Option PokerCard

/-- The first loop of `is_cards_straight`; `none` is its `return false`. -/
def straightScan (jokerPoint : Nat) :
    StraightScan → List PokerCard → Option StraightScan
  | scan, [] => some scan
  | scan, card :: rest =>
      if isJoker jokerPoint card then
        straightScan jokerPoint
          { scan with jokerCount := scan.jokerCount + 1 } rest
      else
        let tempcards := scan.tempcards ++ [card]
        match scan.last with
        | none =>
            straightScan jokerPoint
              { scan with tempcards := tempcards, last := some card } rest
        | some last =>
            if last.color ≠ card.color then none
            else
              let diff : Int := card.point - last.point
              if diff = 0 then none
              else
                straightScan jokerPoint
                  { scan with
                    needJokerCount := scan.needJokerCount + (diff - 1)
                    tempcards := tempcards
                    last := some card } rest

/-- The second loop of `is_cards_straight`, over the cards that are left. -/
def straightRescan : Option PokerCard → Int → List PokerCard → Option Int
  | _, need, [] => some need
  | none, need, card :: rest => straightRescan (some card) need rest
  | some last, need, card :: rest =>
      if last.color ≠ card.color then none
      else
        let diff : Int := card.point - last.point
        if diff = 0 then none
        else straightRescan (some card) (need + (diff - 1)) rest

def aceToOne (card : PokerCard) : PokerCard :=
  if card.point = A then { card with point := 1 } else card

def isCardsStraight (cards : List PokerCard) (jokerPoint : Nat) : Bool :=
  if cards.length < 3 then false
  else match straightScan jokerPoint ⟨0, 0, [], none⟩ cards with
    | none => false
    | some scan =>
        if scan.needJokerCount ≤ scan.jokerCount then true
        else if jokerPoint = A ∨
            scan.tempcards.getLast?.map PokerCard.point ≠ some A then false
        else match straightRescan none 0
            (sortCards (scan.tempcards.map aceToOne)) with
          | none => false
          | some need => need ≤ scan.jokerCount

/-- The loop of `is_cards_three_of_kind`; it counts the non-jokers. -/
def threeOfKindFrom (jokerPoint : Nat) :
    PokerCard → Bool → Nat → List PokerCard → Option Nat
  | _, _, unJokerCount, [] => some unJokerCount
  | last, isLastIsJoker, unJokerCount, card :: rest =>
      if isJoker jokerPoint card then
        threeOfKindFrom jokerPoint card true unJokerCount rest
      else if !isLastIsJoker ∧
          (card.point ≠ last.point ∨ card.color = last.color) then none
      else threeOfKindFrom jokerPoint card false (unJokerCount + 1) rest

def isCardsThreeOfKind (cards : List PokerCard) (jokerPoint : Nat) : Bool :=
  if cards.length < 3 ∨ 4 < cards.length then false
  else match cards with
    | [] => false
    | first :: rest =>
        let isJokerFirst := isJoker jokerPoint first
        match threeOfKindFrom jokerPoint first isJokerFirst
            (if isJokerFirst then 0 else 1) rest with
        | none => false
        | some unJokerCount => 2 ≤ unJokerCount

/-! ## Whole declares -/

/-- The first loop of `check_lose_declare`: pure straights and straights. -/
def countStraights (jokerPoint : Nat) :
    Nat → Nat → List CardGroup → Option (Nat × Nat)
  | pure, straight, [] => some (pure, straight)
  | pure, straight, group :: rest =>
      let cards := sortCards group.cards
      if group.type = GROUP_STAIGHT then
        if isCardsStraight cards jokerPoint then
          countStraights jokerPoint
            (if isCardsPureStraight cards then pure + 1 else pure)
            (straight + 1) rest
        else none
      else countStraights jokerPoint pure straight rest

/-- The second loop of `check_lose_declare`, adding up the loose cards. -/
def scoreGroups (jokerPoint pure straight : Nat) :
    Nat → List CardGroup → Option Nat
  | score, [] => some score
  | score, group :: rest =>
      let cards := sortCards group.cards
      if group.type = GROUP_INVALID then
        scoreGroups jokerPoint pure straight
          (score + caculateCardScore cards jokerPoint) rest
      else if group.type = GROUP_STAIGHT then
        if pure < 1 then none
        else scoreGroups jokerPoint pure straight score rest
      else if group.type = GROUP_THREE_KIND then
        if pure < 1 ∨ straight < 2 then none
        else if !isCardsThreeOfKind cards jokerPoint then none
        else scoreGroups jokerPoint pure straight score rest
      else none

/-- `none` is a rejected declare, `some score` an accepted one. -/
def checkLoseDeclare (groups : List CardGroup) (jokerPoint : Nat) :
    Option Nat :=
  match countStraights jokerPoint 0 0 groups with
  | none => none
  | some (pure, straight) => scoreGroups jokerPoint pure straight 0 groups

/-- The loop of `is_groups_declare`. -/
def declareCounts (jokerPoint : Nat) :
    Nat → Nat → List CardGroup → Option (Nat × Nat)
  | pure, straight, [] => some (pure, straight)
  | pure, straight, group :: rest =>
      if group.type = GROUP_INVALID then none
      else
        let cards := sortCards group.cards
        if group.type = GROUP_STAIGHT then
          if isCardsStraight cards jokerPoint then
            declareCounts jokerPoint
              (if isCardsPureStraight cards then pure + 1 else pure)
              (straight + 1) rest
          else none
        else if group.type = GROUP_THREE_KIND then
          if !isCardsThreeOfKind cards jokerPoint then none
          else declareCounts jokerPoint pure straight rest
        -- any other type falls through both checks
        else declareCounts jokerPoint pure straight rest

def isGroupsDeclare (groups : List CardGroup) (jokerPoint : Nat) : Bool :=
  match declareCounts jokerPoint 0 0 groups with
  | none => false
  | some (pure, straight) => !(pure < 1 ∨ straight < 2)

/-! ## What the loops compute -/

def TypeChecked (jokerPoint : Nat) (group : CardGroup) : Prop :=
  (group.type = GROUP_STAIGHT →
      isCardsStraight (sortCards group.cards) jokerPoint) ∧
    (group.type = GROUP_THREE_KIND →
      isCardsThreeOfKind (sortCards group.cards) jokerPoint)

def isPureGroup (group : CardGroup) : Bool :=
  group.type = GROUP_STAIGHT ∧ isCardsPureStraight (sortCards group.cards)

def isStraightGroup (group : CardGroup) : Bool :=
  group.type = GROUP_STAIGHT

def looseScore (groups : List CardGroup) (jokerPoint : Nat) : Nat :=
  ((groups.filter fun group => group.type = GROUP_INVALID).map
    fun group => caculateCardScore group.cards jokerPoint).sum

theorem countStraights_eq_some {jokerPoint : Nat} {groups : List CardGroup}
    {pure straight : Nat} {counts : Nat × Nat} :
    countStraights jokerPoint pure straight groups = some counts ↔
      (∀ group ∈ groups, group.type = GROUP_STAIGHT →
        isCardsStraight (sortCards group.cards) jokerPoint) ∧
      counts = (pure + groups.countP isPureGroup,
        straight + groups.countP isStraightGroup) := by
  induction groups generalizing pure straight with
  | nil =>
      rw [countStraights, Option.some_inj, eq_comm]
      simp
  | cons group rest ih =>
      simp only [countStraights]
      by_cases htype : group.type = GROUP_STAIGHT
      · by_cases hstraight : isCardsStraight (sortCards group.cards) jokerPoint
        · by_cases hpure : isCardsPureStraight (sortCards group.cards) <;>
            simp [htype, hstraight, hpure, ih, isPureGroup, isStraightGroup,
              Nat.add_comm, Nat.add_left_comm]
        · simp [htype, hstraight]
      · simp [htype, ih, isPureGroup, isStraightGroup]

theorem scoreGroups_eq_some {jokerPoint pure straight score : Nat}
    {groups : List CardGroup} {total : Nat} :
    scoreGroups jokerPoint pure straight score groups = some total ↔
      (∀ group ∈ groups,
        group.type = GROUP_INVALID ∨
        (group.type = GROUP_STAIGHT ∧ 1 ≤ pure) ∨
        (group.type = GROUP_THREE_KIND ∧ 1 ≤ pure ∧ 2 ≤ straight ∧
          isCardsThreeOfKind (sortCards group.cards) jokerPoint)) ∧
      total = score + looseScore groups jokerPoint := by
  induction groups generalizing score with
  | nil =>
      rw [scoreGroups, Option.some_inj, eq_comm]
      simp [looseScore]
  | cons group rest ih =>
      simp only [scoreGroups, List.forall_mem_cons]
      by_cases hloose : group.type = GROUP_INVALID
      · have hscore : caculateCardScore (sortCards group.cards) jokerPoint =
            caculateCardScore group.cards jokerPoint :=
          caculateCardScore_perm (sortCards_perm group.cards) jokerPoint
        simp [hloose, ih, looseScore, hscore, Nat.add_assoc]
      · by_cases hstraight : group.type = GROUP_STAIGHT
        · by_cases hpure : pure < 1
          · simp [hstraight, hpure]
          · have hpos : 1 ≤ pure := by omega
            simp [hstraight, hpos, ih, looseScore]
            omega
        · by_cases hkind : group.type = GROUP_THREE_KIND
          · by_cases hcounts : pure < 1 ∨ straight < 2
            · simp [hkind]
              omega
            · have hpos : 1 ≤ pure ∧ 2 ≤ straight := by omega
              by_cases hcheck :
                  isCardsThreeOfKind (sortCards group.cards) jokerPoint
              · simp [hkind, hpos, hcheck, ih, looseScore]
                omega
              · simp [hkind, hcheck]
          · simp [hloose, hstraight, hkind]

theorem checkLoseDeclare_eq_some {groups : List CardGroup} {jokerPoint : Nat}
    {score : Nat} :
    checkLoseDeclare groups jokerPoint = some score ↔
      (∀ group ∈ groups, TypeChecked jokerPoint group) ∧
      (∀ group ∈ groups,
        group.type = GROUP_INVALID ∨
        (group.type = GROUP_STAIGHT ∧ 1 ≤ groups.countP isPureGroup) ∨
        (group.type = GROUP_THREE_KIND ∧ 1 ≤ groups.countP isPureGroup ∧
          2 ≤ groups.countP isStraightGroup)) ∧
      score = looseScore groups jokerPoint := by
  unfold checkLoseDeclare
  cases hcount : countStraights jokerPoint 0 0 groups with
  | none =>
      have hfail : ¬ ∀ group ∈ groups, TypeChecked jokerPoint group := by
        intro hall
        have hsome := (@countStraights_eq_some jokerPoint groups 0 0 _).mpr
          ⟨fun group hmem => (hall group hmem).1, rfl⟩
        simp [hcount] at hsome
      simp [hfail]
  | some counts =>
      obtain ⟨hstraights, rfl⟩ := countStraights_eq_some.mp hcount
      simp only [scoreGroups_eq_some, Nat.zero_add]
      constructor
      · rintro ⟨hgroups, rfl⟩
        refine ⟨fun group hmem => ⟨hstraights group hmem, ?_⟩, ?_, rfl⟩
        · intro hkind
          have := hgroups group hmem
          simp_all
        · intro group hmem
          have := hgroups group hmem
          tauto
      · rintro ⟨hchecked, hgroups, rfl⟩
        refine ⟨fun group hmem => ?_, rfl⟩
        have hkind := (hchecked group hmem).2
        have := hgroups group hmem
        tauto

theorem declareCounts_eq_some {jokerPoint : Nat} {groups : List CardGroup}
    {pure straight : Nat} {counts : Nat × Nat} :
    declareCounts jokerPoint pure straight groups = some counts ↔
      (∀ group ∈ groups,
        group.type ≠ GROUP_INVALID ∧ TypeChecked jokerPoint group) ∧
      counts = (pure + groups.countP isPureGroup,
        straight + groups.countP isStraightGroup) := by
  induction groups generalizing pure straight with
  | nil =>
      rw [declareCounts, Option.some_inj, eq_comm]
      simp
  | cons group rest ih =>
      simp only [declareCounts, List.forall_mem_cons]
      by_cases hloose : group.type = GROUP_INVALID
      · simp [hloose]
      · by_cases hstype : group.type = GROUP_STAIGHT
        · by_cases hstraight :
              isCardsStraight (sortCards group.cards) jokerPoint
          · by_cases hpure : isCardsPureStraight (sortCards group.cards) <;>
              simp [hstype, hstraight, hpure, ih, isPureGroup,
                isStraightGroup, TypeChecked, Nat.add_comm,
                Nat.add_left_comm]
          · simp [hstype, hstraight, TypeChecked]
        · by_cases hkind : group.type = GROUP_THREE_KIND
          · by_cases hcheck :
                isCardsThreeOfKind (sortCards group.cards) jokerPoint <;>
              simp [hkind, hcheck, ih, isPureGroup, isStraightGroup,
                TypeChecked]
          · simp [hloose, hstype, hkind, ih, isPureGroup, isStraightGroup,
              TypeChecked]

theorem isGroupsDeclare_iff {groups : List CardGroup} {jokerPoint : Nat} :
    isGroupsDeclare groups jokerPoint = true ↔
      (∀ group ∈ groups,
        group.type ≠ GROUP_INVALID ∧ TypeChecked jokerPoint group) ∧
      1 ≤ groups.countP isPureGroup ∧ 2 ≤ groups.countP isStraightGroup := by
  unfold isGroupsDeclare
  cases hcount : declareCounts jokerPoint 0 0 groups with
  | none =>
      have hfail : ¬ ∀ group ∈ groups,
          group.type ≠ GROUP_INVALID ∧ TypeChecked jokerPoint group := by
        intro hall
        have hsome := (@declareCounts_eq_some jokerPoint groups 0 0 _).mpr
          ⟨hall, rfl⟩
        simp [hcount] at hsome
      simp only [Bool.false_eq_true, false_iff]
      exact fun h => hfail h.1
  | some counts =>
      obtain ⟨hall, rfl⟩ := declareCounts_eq_some.mp hcount
      simp only [Nat.zero_add, Bool.not_eq_true', decide_eq_false_iff_not]
      constructor
      · intro hcounts
        exact ⟨hall, by omega, by omega⟩
      · rintro ⟨-, hpure, hstraight⟩
        omega

/-! ## The two validators compared -/

def KnownType (group : CardGroup) : Prop :=
  group.type = GROUP_INVALID ∨ group.type = GROUP_STAIGHT ∨
    group.type = GROUP_THREE_KIND

def KnownGroupsWin (groups : List CardGroup) (jokerPoint : Nat) : Prop :=
  (∀ group ∈ groups, group.type ≠ GROUP_INVALID) ∧
    (∀ group ∈ groups, TypeChecked jokerPoint group) ∧
    1 ≤ groups.countP isPureGroup ∧ 2 ≤ groups.countP isStraightGroup

def MeldChecked (jokerPoint : Nat) (group : CardGroup) : Prop :=
  (group.type = GROUP_STAIGHT ∧
      isCardsStraight (sortCards group.cards) jokerPoint) ∨
    (group.type = GROUP_THREE_KIND ∧
      isCardsThreeOfKind (sortCards group.cards) jokerPoint)

private theorem looseScore_of_no_loose {groups : List CardGroup}
    (h : ∀ group ∈ groups, group.type ≠ GROUP_INVALID) (jokerPoint : Nat) :
    looseScore groups jokerPoint = 0 := by
  have hnil : groups.filter (fun group => group.type = GROUP_INVALID) = [] := by
    rw [List.filter_eq_nil_iff]
    intro group hmem
    simpa using h group hmem
  rw [looseScore, hnil]
  rfl

private theorem checkLoseDeclare_of_win {groups : List CardGroup}
    {jokerPoint : Nat} (hwin : KnownGroupsWin groups jokerPoint) :
    checkLoseDeclare groups jokerPoint = some 0 ↔
      ∀ group ∈ groups, KnownType group := by
  obtain ⟨hloose, hchecked, hpure, hstraight⟩ := hwin
  rw [checkLoseDeclare_eq_some, looseScore_of_no_loose hloose]
  constructor
  · rintro ⟨-, hgroups, -⟩ group hmem
    have := hgroups group hmem
    unfold KnownType
    tauto
  · intro hknown
    refine ⟨hchecked, fun group hmem => ?_, rfl⟩
    have := hknown group hmem
    unfold KnownType at this
    tauto

private theorem meldChecked_of_win {groups : List CardGroup}
    {jokerPoint : Nat} (hwin : KnownGroupsWin groups jokerPoint) :
    (∀ group ∈ groups, MeldChecked jokerPoint group) ↔
      ∀ group ∈ groups, KnownType group := by
  obtain ⟨hloose, hchecked, -, -⟩ := hwin
  refine forall₂_congr fun group hmem => ?_
  have hne := hloose group hmem
  have htype := hchecked group hmem
  unfold MeldChecked KnownType
  unfold TypeChecked at htype
  tauto

/--
A winning declare is also a lose declare of score zero, with every card in a
checked straight or set, exactly when no group has an unknown type or the
remaining groups would not win anyway.
-/
theorem groups_declare_checked_iff (groups : List CardGroup)
    (jokerPoint : Nat) :
    ((isGroupsDeclare groups jokerPoint = true →
        checkLoseDeclare groups jokerPoint = some 0) ↔
      (∀ group ∈ groups, KnownType group) ∨
        ¬ KnownGroupsWin groups jokerPoint) ∧
    ((isGroupsDeclare groups jokerPoint = true →
        ∀ group ∈ groups, MeldChecked jokerPoint group) ↔
      (∀ group ∈ groups, KnownType group) ∨
        ¬ KnownGroupsWin groups jokerPoint) := by
  have haccept : isGroupsDeclare groups jokerPoint = true ↔
      KnownGroupsWin groups jokerPoint := by
    rw [isGroupsDeclare_iff, KnownGroupsWin]
    simp only [forall_and]
    tauto
  rw [haccept]
  by_cases hwin : KnownGroupsWin groups jokerPoint
  · simp [hwin, checkLoseDeclare_of_win hwin, meldChecked_of_win hwin]
  · simp [hwin]

/-- Two pure straights and seven loose cards under the unknown type `3`. -/
def junkDeclare : List CardGroup :=
  [⟨1, [⟨1, 2⟩, ⟨1, 3⟩, ⟨1, 4⟩]⟩,
   ⟨1, [⟨2, 5⟩, ⟨2, 6⟩, ⟨2, 7⟩]⟩,
   ⟨3, [⟨1, 13⟩, ⟨2, 13⟩, ⟨3, 11⟩, ⟨4, 8⟩, ⟨4, 10⟩, ⟨3, 6⟩, ⟨3, 2⟩]⟩]

theorem junkDeclare_accepted_by_one_validator :
    isGroupsDeclare junkDeclare 9 = true ∧
      checkLoseDeclare junkDeclare 9 = none := by
  decide

end StarsGaming.Cards
