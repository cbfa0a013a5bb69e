import Mathlib.Algebra.Order.BigOperators.Group.List
import Mathlib.Algebra.Order.Group.Nat
import StarsGaming.Cards.Discard

/-!
# What the search reports, whatever ends it

The search returns on every hand of up to fourteen cards for every stop
threshold.  Each report lays the whole hand out in groups: a first pure
straight, a second straight, up to two more groups, and the loose cards.
-/

namespace StarsGaming.Cards

open PokerCard
open StarsGaming.Foundation

/-! ## The groups laid down so far -/

abbrev handPlaces : List Place := [.straight, .straight, .any, .any]

structure Begun (jokerPoint : Nat) (hand : List PokerCard)
    (before : List CardGroup) (cards : List PokerCard) : Prop where
  perm : (laidCards before ++ cards).Perm hand
  places : Fill (fun group place => place.Found jokerPoint hand group)
    handPlaces before
  pure : ∀ first ∈ before.head?, isCardsPureStraight first.cards = true

structure LaidOut (jokerPoint : Nat) (hand : List PokerCard)
    (melds : List CardGroup) (loose : List PokerCard)
    (info : CombinationInfo) : Prop extends
    Begun jokerPoint hand melds loose,
    Reports jokerPoint melds loose info where
  validCards : info.validCards = loose
  firtlife : info.isHasFirtlife = decide (1 ≤ melds.length)
  secondelife : info.isHasSecondelife = decide (2 ≤ melds.length)

def AllLaidOut (jokerPoint : Nat) (hand : List PokerCard)
    (infos : List CombinationInfo) : Prop :=
  ∀ info ∈ infos, ∃ melds loose, LaidOut jokerPoint hand melds loose info

section Begun

variable {jokerPoint : Nat} {hand cards : List PokerCard}
  {before : List CardGroup} {group : CardGroup}

theorem Begun.subperm (h : Begun jokerPoint hand before cards) :
    cards.Subperm hand :=
  (List.sublist_append_right _ _).subperm.trans h.perm.subperm

private theorem Fill.snoc {β : Type*} {P : β → Place → Prop}
    {places : List Place} {items : List β} {b : β} {place : Place}
    (h : Fill P places items) (hplace : places[items.length]? = some place)
    (hb : P b place) : Fill P places (items ++ [b]) := by
  induction items generalizing places with
  | nil =>
      cases places with
      | nil => simp at hplace
      | cons first places =>
          obtain rfl : first = place := by simpa using hplace
          exact ⟨hb, by cases places <;> trivial⟩
  | cons item items ih =>
      cases places with
      | nil => exact h.elim
      | cons first places => exact ⟨h.1, ih h.2 (by simpa using hplace)⟩

theorem Begun.snoc {place : Place} (h : Begun jokerPoint hand before cards)
    (hplace : handPlaces[before.length]? = some place)
    (hfound : place.Found jokerPoint cards group)
    (hpure : before = [] → isCardsPureStraight group.cards = true) :
    Begun jokerPoint hand (before ++ [group]) (removeCards group cards) := by
  refine ⟨?_, Fill.snoc h.places hplace (hfound.mono h.subperm), ?_⟩
  · refine List.Perm.trans ?_ h.perm
    rw [laidCards, List.flatMap_append, List.append_assoc]
    refine List.Perm.append_left _ ?_
    rw [List.flatMap_singleton]
    exact removeCards_perm hfound.subperm
  · cases before with
    | nil => simpa using hpure rfl
    | cons first rest => exact h.pure

theorem Begun.completeInfo (h : Begun jokerPoint hand before [])
    (htwo : 2 ≤ before.length) :
    AllLaidOut jokerPoint hand [Cards.completeInfo before] := by
  intro info hinfo
  obtain rfl := List.mem_singleton.mp hinfo
  refine ⟨before, [], ⟨h, reports_completeInfo jokerPoint before, rfl, ?_, ?_⟩⟩
  · exact (decide_eq_true (by omega)).symm
  · exact (decide_eq_true htwo).symm

theorem Begun.looseInfo {self : Combination}
    (h : Begun jokerPoint hand before cards) (hready : self.Ready jokerPoint)
    (hne : cards ≠ []) {first second : Bool}
    (hfirst : first = decide (1 ≤ before.length))
    (hsecond : second = decide (2 ≤ before.length)) :
    AllLaidOut jokerPoint hand
      [Cards.looseInfo self before cards first second] := by
  intro info hinfo
  obtain rfl := List.mem_singleton.mp hinfo
  exact ⟨before, cards, ⟨h, hready.reports_looseInfo before hne first second,
    rfl, hfirst, hsecond⟩⟩

end Begun

theorem LoopRun.laidOut {jokerPoint : Nat} {hand : List PokerCard}
    {items : List CardGroup} {outs : List CombinationInfo} {stop : Bool}
    (hitems : items ≠ [])
    (hrun : LoopRun (fun _ out _ => out ≠ [] ∧
      AllLaidOut jokerPoint hand out) items outs stop) :
    outs ≠ [] ∧ AllLaidOut jokerPoint hand outs := by
  constructor
  · cases hrun with
    | done => exact absurd rfl hitems
    | stop h => exact h.1
    | next h _ => exact List.append_ne_nil_of_left_ne_nil h.1 _
  · intro info hinfo
    obtain ⟨_, -, out, _, hout, hmem⟩ := LoopRun.mem hrun hinfo
    exact hout.2 info hmem

/-! ## The levels of the code -/

section Code

variable {jokerPoint : Nat} {hand : List PokerCard}
  {first second third : CardGroup}

theorem searchFourthGroup_laidOut (validCardNumStop : Nat)
    {cards3 : List PokerCard} {self : Combination}
    (hready : self.Ready jokerPoint) (hlen : cards3.length ≤ 5)
    (hbegun : Begun jokerPoint hand [first, second, third] cards3)
    {fourth : CardGroup} (hfound : Place.any.Found jokerPoint cards3 fourth) :
    ∃ self' out stop,
      searchFourthGroup validCardNumStop first second third cards3 self
        fourth = some (self', out, stop) ∧
      self'.Ready jokerPoint ∧ out ≠ [] ∧ AllLaidOut jokerPoint hand out := by
  have htotal := removeCards_length hfound.subperm
  have hthree := hfound.accepts.length
  have hlaid := hbegun.snoc rfl hfound (by simp)
  unfold searchFourthGroup
  simp only
  by_cases hnil : removeCards fourth cards3 = []
  · rw [if_pos hnil]
    exact ⟨self, _, true, rfl, hready, by simp,
      Begun.completeInfo (hnil ▸ hlaid) (by simp)⟩
  · have hpos := List.length_pos_iff.mpr hnil
    rw [if_neg hnil, if_pos (by omega)]
    exact ⟨self, _, _, rfl, hready, by simp,
      hlaid.looseInfo hready hnil (by simp) (by simp)⟩

theorem searchThirdGroup_laidOut (validCardNumStop : Nat)
    {cards2 : List PokerCard} {groups : List CardGroup} {self : Combination}
    (hready : self.Ready jokerPoint) (hs : Searchable cards2)
    (hlen : cards2.length ≤ 8)
    (hbegun : Begun jokerPoint hand [first, second] cards2)
    (hsound : ∀ group ∈ groups, Place.any.Found jokerPoint cards2 group)
    (hfound : Place.any.Found jokerPoint cards2 third) :
    ∃ self' out stop,
      searchThirdGroup validCardNumStop first second cards2 groups self third =
        some (self', out, stop) ∧
      self'.Ready jokerPoint ∧ out ≠ [] ∧ AllLaidOut jokerPoint hand out := by
  have htotal := removeCards_length hfound.subperm
  have hthree := hfound.accepts.length
  have hlaid := hbegun.snoc rfl hfound (by simp)
  unfold searchThirdGroup
  simp only
  by_cases hnil : removeCards third cards2 = []
  · rw [if_pos hnil]
    exact ⟨self, _, true, rfl, hready, by simp,
      Begun.completeInfo (hnil ▸ hlaid) (by simp)⟩
  · rw [if_neg hnil]
    obtain ⟨allGroup3, hremove, hmem⟩ :=
      @removeCardGroup_spec (removeCards third cards2) (by omega) groups
        fun group hgroup =>
          (hs.of_subperm (hsound group hgroup).subperm).blank_notMem
    rw [hremove]
    simp only [Option.bind_eq_bind, Option.bind_some]
    by_cases hnone : allGroup3 = []
    · rw [if_pos hnone]
      exact ⟨self, _, _, rfl, hready, by simp,
        hlaid.looseInfo hready hnil (by simp) (by simp)⟩
    · rw [if_neg hnone]
      obtain ⟨self', outs, stop, hloop, hready', hrun⟩ :=
        loopUntil_run (fun fourth hfourth s hs' =>
          searchFourthGroup_laidOut validCardNumStop hs' (by omega) hlaid
            ((hsound fourth ((hmem fourth).mp hfourth).1).restrict
              ((hmem fourth).mp hfourth).2)) hready
      exact ⟨self', outs, stop, hloop, hready', LoopRun.laidOut hnone hrun⟩

theorem searchSecondGroup_laidOut (validCardNumStop : Nat)
    {cards1 jokerCards1 : List PokerCard} {self : Combination}
    (hready : self.Ready jokerPoint) (hs : Searchable cards1)
    (hlen : cards1.length ≤ 11)
    (hjokers : jokerCards1 = searchJokerCards jokerPoint cards1)
    (hbegun : Begun jokerPoint hand [first] cards1)
    (hfound : StraightOf jokerPoint cards1 second) :
    ∃ self' out stop,
      searchSecondGroup validCardNumStop first cards1 jokerCards1 self second =
        some (self', out, stop) ∧
      self'.Ready jokerPoint ∧ out ≠ [] ∧ AllLaidOut jokerPoint hand out := by
  have htotal := removeCards_length hfound.subperm
  have hthree := hfound.fillable.1
  have hs2 := hs.of_subperm (removeCards_subperm second cards1)
  have hlaid := @Begun.snoc _ _ _ _ _ .straight hbegun rfl hfound (by simp)
  unfold searchSecondGroup
  simp only
  by_cases hnil : removeCards second cards1 = []
  · rw [if_pos hnil]
    exact ⟨self, _, true, rfl, hready, by simp,
      Begun.completeInfo (hnil ▸ hlaid) (by simp)⟩
  · rw [if_neg hnil]
    have hjokers2 : removeCards second jokerCards1 =
        searchJokerCards jokerPoint (removeCards second cards1) := by
      rw [hjokers, searchJokerCards, searchJokerCards, filter_removeCards]
    obtain ⟨hready2, hcaches⟩ := refreshJokers_caches hready hjokers2
    obtain ⟨straights, hstraight, hstraights, -⟩ :=
      searchStraightFlush_spec hs2 hcaches
    obtain ⟨sets, hset, hsets, -⟩ := searchThreeOfKind_spec hs2 hcaches
    rw [hready2.jokerPoint] at hstraights hsets
    rw [hstraight, hset]
    simp only [Option.bind_eq_bind, Option.bind_some]
    by_cases hnone : straights ++ sets = []
    · rw [if_pos hnone]
      exact ⟨_, _, _, rfl, hready2, by simp,
        hlaid.looseInfo hready2 hnil (by simp) (by simp)⟩
    · rw [if_neg hnone]
      have hsound := found_append hstraights hsets
      obtain ⟨self', outs, stop, hloop, hready', hrun⟩ :=
        loopUntil_run (fun third hthird s hs' =>
          searchThirdGroup_laidOut validCardNumStop hs' hs2 (by omega) hlaid
            hsound (hsound third hthird)) hready2
      exact ⟨self', outs, stop, hloop, hready', LoopRun.laidOut hnone hrun⟩

theorem searchFirstGroup_laidOut (validCardNumStop : Nat)
    {self : Combination} (hs : Searchable hand)
    (hready : self.Ready jokerPoint)
    (hfound : StraightOf jokerPoint hand first)
    (hpure : isCardsPureStraight first.cards = true) :
    ∃ self' out stop,
      searchFirstGroup validCardNumStop hand
          (searchJokerCards jokerPoint hand) (allStraights jokerPoint hand)
          self first = some (self', out, stop) ∧
      self'.Ready jokerPoint ∧
      (removeCards first hand ≠ [] ∨ stop = true → out ≠ []) ∧
      AllLaidOut jokerPoint hand out := by
  have htotal := removeCards_length hfound.subperm
  have hthree := hfound.fillable.1
  have hlen := hs.length
  have hsub := removeCards_subperm first hand
  have hs1 := hs.of_subperm hsub
  have hlaid : Begun jokerPoint hand [first] (removeCards first hand) :=
    ⟨by simpa [laidCards] using removeCards_perm hfound.subperm,
      ⟨hfound, trivial⟩, by simpa using hpure⟩
  obtain ⟨hremove, hsound, -⟩ :=
    @straightsWithin_spec jokerPoint hand hs _ hsub
  unfold searchFirstGroup
  simp only
  by_cases hnil : removeCards first hand = []
  · rw [if_pos hnil]
    exact ⟨self, [], false, rfl, hready, by simp [hnil], by simp [AllLaidOut]⟩
  · rw [if_neg hnil, hremove]
    simp only [Option.bind_eq_bind, Option.bind_some]
    by_cases hnone : straightsWithin jokerPoint hand
        (removeCards first hand) = []
    · rw [if_pos hnone]
      exact ⟨self, _, false, rfl, hready, by simp,
        hlaid.looseInfo hready hnil (by simp) (by simp)⟩
    · rw [if_neg hnone]
      have hjokers : removeCards first (searchJokerCards jokerPoint hand) =
          searchJokerCards jokerPoint (removeCards first hand) := by
        rw [searchJokerCards, searchJokerCards, filter_removeCards]
      obtain ⟨self', outs, stop, hloop, hready', hrun⟩ :=
        loopUntil_run (fun second hsecond s hs' =>
          searchSecondGroup_laidOut validCardNumStop hs' hs1 (by omega)
            hjokers hlaid (hsound second hsecond)) hready
      obtain ⟨hout, hall⟩ := LoopRun.laidOut hnone hrun
      exact ⟨self', outs, stop, hloop, hready', fun _ => hout, hall⟩

theorem searchAllGroup_laidOut (self : Combination) (hs : Searchable hand)
    (hlen : 13 ≤ hand.length) (validCardNumStop : Nat) :
    ∃ self' infos,
      searchAllGroup { self with jokerPoint := jokerPoint } hand
        validCardNumStop = some (self', infos) ∧
      self'.Ready jokerPoint ∧ infos ≠ [] ∧
      AllLaidOut jokerPoint hand infos := by
  obtain ⟨hstraights, hsound, -⟩ := @allStraights_spec jokerPoint hand hs
  have hready : (cachedFor jokerPoint hand).Ready jokerPoint := ⟨rfl, rfl⟩
  have hne : hand ≠ [] := List.length_pos_iff.mp (by omega)
  rw [searchAllGroup_eq, hstraights, Option.bind_some]
  by_cases hnone :
      searchPureStraightFlush (allStraights jokerPoint hand) = []
  · have hbegun : Begun jokerPoint hand [] hand :=
      ⟨.refl _, trivial, by simp⟩
    rw [if_pos hnone]
    exact ⟨_, _, rfl, hready, by simp,
      hbegun.looseInfo hready hne (by simp) (by simp)⟩
  · rw [if_neg hnone]
    obtain ⟨self', outs, stop, hloop, hready', hrun⟩ :=
      loopUntil_run (fun first
          (hfirst : first ∈
            searchPureStraightFlush (allStraights jokerPoint hand)) s hs' =>
        @searchFirstGroup_laidOut jokerPoint hand first validCardNumStop s hs
          hs' (hsound first (List.mem_of_mem_filter hfirst))
          (List.mem_filter.mp hfirst).2) hready
    rw [hloop]
    refine ⟨self', outs, rfl, hready', ?_, fun info hinfo => ?_⟩
    · cases stop with
      | true =>
          obtain ⟨_, _, _, out, -, -, hout, hsuffix⟩ := hrun.stopped
          intro hnil
          exact hout.1 (Or.inr rfl) (List.suffix_nil.mp (hnil ▸ hsuffix))
      | false =>
          -- a pure straight of three cards leaves some of the hand over
          obtain ⟨first, hfirst, hthree⟩ := exists_first_of_three hs hnone
          obtain ⟨out, hout, hsub⟩ := hrun.covers hfirst
          have htotal := removeCards_length
            (hsound first (List.mem_of_mem_filter hfirst)).subperm
          have hne' := hout.1 (Or.inl (List.length_pos_iff.mp (by omega)))
          exact List.ne_nil_of_mem (hsub (List.head_mem hne'))
    · obtain ⟨_, -, out, _, hout, hmem⟩ := hrun.mem hinfo
      exact hout.2 info hmem

end Code

/-! ## The fields of a report -/

/-- What a report says of the hand, and what its flags say of its groups. -/
structure InfoOf (jokerPoint : Nat) (hand : List PokerCard)
    (info : CombinationInfo) : Prop where
  perm : (laidCards info.cardGroup).Perm hand
  invalid : (info.cardGroup.filter fun group =>
    group.type = GROUP_INVALID).length ≤ 1
  validCards : info.validCards = laidCards (info.cardGroup.filter fun group =>
    group.type = GROUP_INVALID)
  score : info.score = (info.validCards.map (getScore jokerPoint)).sum
  firtlife : info.isHasFirtlife = true ↔ ∃ first rest,
    info.cardGroup = first :: rest ∧ first.type = GROUP_STAIGHT
  pure : ∀ first rest, info.cardGroup = first :: rest →
    info.isHasFirtlife = true → isCardsPureStraight first.cards = true
  secondelife : info.isHasSecondelife = true ↔ ∃ first second rest,
    info.cardGroup = first :: second :: rest ∧
      first.type = GROUP_STAIGHT ∧ second.type = GROUP_STAIGHT
  straight : ∀ first second rest,
    info.cardGroup = first :: second :: rest →
    info.isHasSecondelife = true →
    isCardsStraight (sortCards second.cards) jokerPoint = true

section Fields

variable {jokerPoint : Nat} {hand loose : List PokerCard}
  {melds : List CardGroup} {info : CombinationInfo}

theorem Place.Found.type_ne {place : Place} {group : CardGroup}
    (h : place.Found jokerPoint hand group) : group.type ≠ GROUP_INVALID := by
  have htypes : group.type = GROUP_STAIGHT ∨
      group.type = GROUP_THREE_KIND := by
    cases place with
    | straight => exact Or.inl (StraightOf.type h)
    | any => exact h.imp StraightOf.type SetOf.type
  rcases htypes with htype | htype <;> simp [htype]

theorem Fill.forall_exists {β : Type*} {P : β → Place → Prop}
    {places : List Place} {items : List β} (h : Fill P places items) :
    ∀ b ∈ items, ∃ place, P b place := by
  induction items generalizing places with
  | nil => simp
  | cons item items ih =>
      cases places with
      | nil => exact h.elim
      | cons place places =>
          exact List.forall_mem_cons.mpr ⟨⟨place, h.1⟩, ih h.2⟩

private theorem LaidOut.filter_invalid
    (h : LaidOut jokerPoint hand melds loose info) :
    (info.cardGroup.filter fun group => group.type = GROUP_INVALID) =
      looseGroups loose := by
  have hmelds : (melds.filter fun group => group.type = GROUP_INVALID) = [] :=
    List.filter_eq_nil_iff.mpr fun group hgroup => by
      obtain ⟨place, hfound⟩ := h.places.forall_exists group hgroup
      simpa using hfound.type_ne
  rw [h.cardGroup, List.filter_append, hmelds, List.nil_append, looseGroups]
  split <;> simp

private theorem laidCards_looseGroups (loose : List PokerCard) :
    laidCards (looseGroups loose) = loose := by
  unfold looseGroups
  split
  · rename_i hnil
    rw [hnil]
    rfl
  · simp [laidCards]

private theorem looseGroups_type {group : CardGroup}
    (h : group ∈ looseGroups loose) : group.type = GROUP_INVALID := by
  unfold looseGroups at h
  split at h
  · simp at h
  · rw [List.mem_singleton.mp h]

private theorem looseGroups_ne_straight {group : CardGroup}
    {rest : List CardGroup} (h : looseGroups loose = group :: rest) :
    group.type ≠ GROUP_STAIGHT := by
  intro htype
  have hinvalid := @looseGroups_type loose group (by simp [h])
  rw [htype] at hinvalid
  exact absurd hinvalid (by decide)

theorem LaidOut.firtlife_iff (h : LaidOut jokerPoint hand melds loose info) :
    info.isHasFirtlife = true ↔ ∃ first rest,
      info.cardGroup = first :: rest ∧ first.type = GROUP_STAIGHT := by
  have hplaces := h.places
  rw [h.firtlife, h.cardGroup]
  cases melds with
  | nil =>
      simp only [List.length_nil, List.nil_append]
      constructor
      · simp
      · rintro ⟨first, rest, heq, htype⟩
        exact absurd htype (looseGroups_ne_straight heq)
  | cons first melds =>
      simp only [List.length_cons, List.cons_append]
      exact ⟨fun _ => ⟨first, _, rfl, hplaces.1.type⟩, fun _ => by simp⟩

theorem LaidOut.secondelife_iff
    (h : LaidOut jokerPoint hand melds loose info) :
    info.isHasSecondelife = true ↔ ∃ first second rest,
      info.cardGroup = first :: second :: rest ∧
        first.type = GROUP_STAIGHT ∧ second.type = GROUP_STAIGHT := by
  have hplaces := h.places
  rw [h.secondelife, h.cardGroup]
  rcases melds with _ | ⟨first, _ | ⟨second, melds⟩⟩
  · simp only [List.length_nil, List.nil_append]
    constructor
    · simp
    · rintro ⟨first, second, rest, heq, htype, -⟩
      exact absurd htype (looseGroups_ne_straight heq)
  · simp only [List.length_singleton, List.cons_append, List.nil_append]
    constructor
    · simp
    · rintro ⟨first, second, rest, heq, -, htype⟩
      exact absurd htype (looseGroups_ne_straight (List.cons.inj heq).2)
  · simp only [List.length_cons, List.cons_append]
    exact ⟨fun _ => ⟨first, second, _, rfl, hplaces.1.type,
      hplaces.2.1.type⟩, fun _ => by simp⟩

theorem LaidOut.first_pure (h : LaidOut jokerPoint hand melds loose info)
    {first : CardGroup} {rest : List CardGroup}
    (heq : info.cardGroup = first :: rest)
    (hflag : info.isHasFirtlife = true) :
    isCardsPureStraight first.cards = true := by
  rw [h.cardGroup] at heq
  rw [h.firtlife] at hflag
  cases melds with
  | nil => simp at hflag
  | cons meld melds =>
      obtain ⟨rfl, -⟩ := List.cons.inj heq
      exact h.pure meld (by simp)

theorem LaidOut.second_straight
    (h : LaidOut jokerPoint hand melds loose info)
    (hdeal : ∀ card ∈ hand, Deal card) {first second : CardGroup}
    {rest : List CardGroup} (heq : info.cardGroup = first :: second :: rest)
    (hflag : info.isHasSecondelife = true) :
    isCardsStraight (sortCards second.cards) jokerPoint = true := by
  have hplaces := h.places
  rw [h.cardGroup] at heq
  rw [h.secondelife] at hflag
  rcases melds with _ | ⟨meld, _ | ⟨meld', melds⟩⟩
  · simp at hflag
  · simp at hflag
  · obtain ⟨-, htail⟩ := List.cons.inj heq
    obtain ⟨rfl, -⟩ := List.cons.inj htail
    have hfound : StraightOf jokerPoint hand meld' := hplaces.2.1
    exact hfound.fillable.isCardsStraight fun card hcard =>
      hdeal card (hfound.subperm.subset hcard)

theorem LaidOut.infoOf (h : LaidOut jokerPoint hand melds loose info)
    (hdeal : ∀ card ∈ hand, Deal card) :
    InfoOf jokerPoint hand info where
  perm := by
    rw [h.cardGroup, laidCards, List.flatMap_append]
    rw [← laidCards, ← laidCards, laidCards_looseGroups]
    exact h.perm
  invalid := by
    rw [h.filter_invalid, looseGroups]
    split <;> simp
  validCards := by
    rw [h.filter_invalid, laidCards_looseGroups, h.validCards]
  score := by
    rw [h.validCards, h.score]
    rfl
  firtlife := h.firtlife_iff
  pure _ _ := h.first_pure
  secondelife := h.secondelife_iff
  straight _ _ _ := h.second_straight hdeal

end Fields

/--
For every stop threshold each report lays out exactly the hand, and its loose
cards, its score and its flags are those of its groups.
-/
theorem searchAllGroup_infoOf (self : Combination) {hand : List PokerCard}
    (hdeck : FromDeck hand) (hlen : hand.length = 13 ∨ hand.length = 14)
    (jokerPoint validCardNumStop : Nat) :
    ∃ self' infos,
      searchAllGroup { self with jokerPoint := jokerPoint } hand
        validCardNumStop = some (self', infos) ∧
      ∀ info ∈ infos, InfoOf jokerPoint hand info := by
  obtain ⟨self', infos, hsearch, -, -, hall⟩ :=
    @searchAllGroup_laidOut jokerPoint hand self
      (hdeck.searchable (by omega)) (by omega) validCardNumStop
  refine ⟨self', infos, hsearch, fun info hinfo => ?_⟩
  obtain ⟨melds, loose, hlaid⟩ := hall info hinfo
  exact hlaid.infoOf fun card hcard => hdeck.deal hcard

theorem searchAllGroup_infoOf_sample :
    ∃ self' infos,
      searchAllGroup ⟨[], [], 12⟩ sampleHand 1 = some (self', infos) ∧
      ∀ info ∈ infos, InfoOf 12 sampleHand info :=
  searchAllGroup_infoOf ⟨[], [], 0⟩ (by decide +kernel) (by decide) 12 1

/-! ## No assertion fails -/

theorem postBestFrom_total (jokerPoint : Nat) (itmin : CombinationInfo)
    (card : PokerCard) (minScore : Int) (infos : List CombinationInfo) :
    ∃ result, postBestFrom jokerPoint itmin card minScore infos =
      some result := by
  induction infos generalizing itmin card minScore with
  | nil => exact ⟨_, rfl⟩
  | cons it rest ih =>
      rw [postBestFrom]
      split
      · exact ⟨_, rfl⟩
      · split
        · exact ⟨_, rfl⟩
        · rename_i hne
          obtain ⟨postcard, -, hpost⟩ :=
            postLessRelationCard_mem hne jokerPoint
          rw [hpost]
          simp only [Option.bind_eq_bind, Option.bind_some]
          split
          · exact ih _ _ _
          · exact ih _ _ _

theorem LaidOut.exists_four {jokerPoint : Nat} {hand : List PokerCard}
    {melds : List CardGroup} {loose : List PokerCard} {info : CombinationInfo}
    (h : LaidOut jokerPoint hand melds loose info) (hlen : 13 ≤ hand.length)
    (hnone : info.validCards = []) :
    ∃ group ∈ info.cardGroup, 4 ≤ group.cards.length := by
  have hloose : loose = [] := h.validCards.symm.trans hnone
  subst hloose
  by_contra hsmall
  have hmelds : ∀ meld ∈ melds, meld.cards.length ≤ 3 := by
    intro meld hmeld
    by_contra hlarge
    refine hsmall ⟨meld, ?_, by omega⟩
    rw [h.cardGroup]
    exact List.mem_append_left _ hmeld
  have hcards : (laidCards melds).length ≤ 3 * melds.length := by
    rw [laidCards, List.length_flatMap, Nat.mul_comm]
    refine (List.sum_le_card_nsmul _ 3 ?_).trans (by simp)
    simpa using hmelds
  have hfour : melds.length ≤ 4 := h.places.length_le
  have hsize := h.perm.length_eq
  rw [List.append_nil] at hsize
  omega

/--
Neither of the two entry points fails an assertion, the search always reports
something, and a report without loose cards has a group that can spare a card.
-/
theorem search_never_fails (self : Combination) {hand : List PokerCard}
    (hdeck : FromDeck hand) (hlen : hand.length = 13 ∨ hand.length = 14)
    (jokerPoint : Nat) :
    (∃ result, defaultDeclare self hand jokerPoint = some result) ∧
    (∀ sort, SortsInfos sort → ∀ card, ∃ result,
      postBestCard sort self hand jokerPoint card = some result) ∧
    ∀ validCardNumStop, ∃ self' infos,
      searchAllGroup { self with jokerPoint := jokerPoint } hand
        validCardNumStop = some (self', infos) ∧ infos ≠ [] ∧
      ∀ info ∈ infos, info.validCards = [] →
        ∃ group ∈ info.cardGroup, 4 ≤ group.cards.length := by
  have hs := hdeck.searchable (by omega)
  refine ⟨defaultDeclare_total self hdeck (Or.inr hlen) jokerPoint,
    fun sort hsort card => ?_, fun validCardNumStop => ?_⟩
  · obtain ⟨self', infos, hsearch, -, hne, -⟩ :=
      @searchAllGroup_laidOut jokerPoint hand self hs (by omega) 1
    have hsorted : sort infos ≠ [] := by
      intro hnil
      have := hsort.perm infos
      rw [hnil] at this
      exact hne this.symm.eq_nil
    obtain ⟨itmin, rest, heq⟩ := List.exists_cons_of_ne_nil hsorted
    rw [postBestCard, hsearch]
    simp only [Option.bind_eq_bind, Option.bind_some, heq]
    split
    · exact ⟨_, rfl⟩
    · rename_i hloose
      obtain ⟨postcard, -, hpost⟩ :=
        postLessRelationCard_mem hloose jokerPoint
      obtain ⟨result, hresult⟩ := postBestFrom_total jokerPoint itmin postcard
        (itmin.score - getScore jokerPoint postcard) rest
      rw [hpost, Option.bind_some, hresult]
      exact ⟨_, rfl⟩
  · obtain ⟨self', infos, hsearch, -, hne, hall⟩ :=
      @searchAllGroup_laidOut jokerPoint hand self hs (by omega)
        validCardNumStop
    refine ⟨self', infos, hsearch, hne, fun info hinfo hnone => ?_⟩
    obtain ⟨melds, loose, hlaid⟩ := hall info hinfo
    exact hlaid.exists_four (by omega) hnone

theorem search_never_fails_sample :
    (∃ result, defaultDeclare ⟨[], [], 0⟩ discardHand 12 = some result) ∧
    (∀ sort, SortsInfos sort → ∀ card, ∃ result,
      postBestCard sort ⟨[], [], 0⟩ discardHand 12 card = some result) ∧
    ∀ validCardNumStop, ∃ self' infos,
      searchAllGroup ⟨[], [], 12⟩ discardHand validCardNumStop =
        some (self', infos) ∧ infos ≠ [] ∧
      ∀ info ∈ infos, info.validCards = [] →
        ∃ group ∈ info.cardGroup, 4 ≤ group.cards.length :=
  search_never_fails ⟨[], [], 0⟩ (by decide +kernel) (by decide) 12

end StarsGaming.Cards
