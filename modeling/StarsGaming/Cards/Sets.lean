import StarsGaming.Cards.Straights

/-!
# What the set search emits

The search emits exactly the groups with two or more non-jokers of one point
and of different suits (`SetShape`), filled up with any number of jokers.  The
validator `isCardsThreeOfKind` accepts those of at most four cards.
-/

namespace StarsGaming.Cards

open PokerCard
open StarsGaming.Foundation

/-! ## The shape of a set -/

structure SetShape (jokerPoint : Nat) (group : List PokerCard) : Prop where
  length : 3 ≤ group.length
  nonJokers : 2 ≤ (nonJokers jokerPoint group).length
  nodup : (Cards.nonJokers jokerPoint group).Nodup
  point : ∀ card ∈ Cards.nonJokers jokerPoint group,
    ∀ card' ∈ Cards.nonJokers jokerPoint group, card.point = card'.point

theorem SetShape.perm {jokerPoint : Nat} {group group' : List PokerCard}
    (h : SetShape jokerPoint group) (hperm : group.Perm group') :
    SetShape jokerPoint group' := by
  have hnon := nonJokers_perm hperm jokerPoint
  refine ⟨hperm.length_eq ▸ h.length, hnon.length_eq ▸ h.nonJokers,
    hnon.nodup_iff.mp h.nodup, fun card hcard card' hcard' => ?_⟩
  exact h.point card (hnon.mem_iff.mpr hcard) card' (hnon.mem_iff.mpr hcard')

theorem isJoker_congr {card card' : PokerCard}
    (h : card.point = card'.point) (jokerPoint : Nat) :
    isJoker jokerPoint card = isJoker jokerPoint card' := by
  simp [isJoker, h]

private theorem threeOfKindFrom_run {jokerPoint : Nat}
    {cards : List PokerCard} {last : PokerCard} {lastJoker : Bool}
    (hlast : lastJoker = isJoker jokerPoint last)
    (hkind : (nonJokers jokerPoint (last :: cards)).Pairwise fun card card' =>
      card'.point = card.point ∧ card'.color ≠ card.color) (count : Nat) :
    threeOfKindFrom jokerPoint last lastJoker count cards =
      some (count + (nonJokers jokerPoint cards).length) := by
  induction cards generalizing last lastJoker count with
  | nil => simp [threeOfKindFrom, nonJokers]
  | cons card rest ih =>
      have hrest : (nonJokers jokerPoint (card :: rest)).Pairwise
          fun card card' =>
            card'.point = card.point ∧ card'.color ≠ card.color :=
        hkind.sublist ((List.sublist_cons_self last _).filter _)
      by_cases hjoker : isJoker jokerPoint card
      · rw [threeOfKindFrom, if_pos hjoker, ih hjoker.symm hrest,
          nonJokers_cons_joker hjoker]
      · rw [threeOfKindFrom, if_neg hjoker]
        have hpass : ¬ (!lastJoker ∧
            (card.point ≠ last.point ∨ card.color = last.color)) := by
          rintro ⟨hnon, hdiffer⟩
          have hlast' : ¬ isJoker jokerPoint last := by simpa [hlast] using hnon
          rw [nonJokers_cons hlast', nonJokers_cons hjoker] at hkind
          have := List.rel_of_pairwise_cons hkind List.mem_cons_self
          tauto
        rw [if_neg hpass, ih (by simpa using hjoker) hrest,
          nonJokers_cons hjoker, List.length_cons]
        simp only [Option.some.injEq]
        omega

theorem SetShape.pairwise {jokerPoint : Nat} {group : List PokerCard}
    (h : SetShape jokerPoint group) :
    (Cards.nonJokers jokerPoint group).Pairwise fun card card' =>
      card'.point = card.point ∧ card'.color ≠ card.color := by
  refine List.Pairwise.imp_of_mem ?_ h.nodup
  rintro ⟨color, point⟩ ⟨color', point'⟩ hcard hcard' hne
  have hpoint := h.point _ hcard _ hcard'
  simp only [ne_eq, PokerCard.mk.injEq] at hpoint hne ⊢
  omega

theorem SetShape.isCardsThreeOfKind {jokerPoint : Nat}
    {group : List PokerCard} (h : SetShape jokerPoint group) :
    isCardsThreeOfKind (sortCards group) jokerPoint =
      decide (group.length ≤ 4) := by
  have hsorted := h.perm (sortCards_perm group).symm
  have hlen := h.length
  rw [← sortCards_length group] at hlen ⊢
  cases heq : sortCards group with
  | nil => simp [heq] at hlen
  | cons first rest =>
      rw [heq] at hsorted hlen
      rw [Cards.isCardsThreeOfKind]
      by_cases hlarge : 4 < (first :: rest).length
      · rw [if_pos (Or.inr hlarge)]
        exact (decide_eq_false (by omega)).symm
      · rw [if_neg (by omega)]
        simp only
        rw [threeOfKindFrom_run rfl hsorted.pairwise]
        have htwo := hsorted.nonJokers
        have hsmall : (first :: rest).length ≤ 4 := by omega
        by_cases hjoker : isJoker jokerPoint first
        · rw [nonJokers_cons_joker hjoker] at htwo
          simp only [hjoker, if_true, hsmall, decide_true]
          simpa using htwo
        · rw [nonJokers_cons hjoker, List.length_cons] at htwo
          simp only [hjoker, Bool.false_eq_true, if_false, hsmall, decide_true]
          simp only [decide_eq_true_eq]
          omega

/-! ## The cards of one point -/

def kindBlocks (jokerPoint : Nat) :
    List PokerCard → List PokerCard → List PokerCard →
      List (List PokerCard × List PokerCard)
  | popCards, repeatCards, [] => [(popCards, repeatCards)]
  | popCards, repeatCards, card :: rest =>
      if (popCards = [] ∨
            popCards.head?.map PokerCard.point = some card.point) ∧
          isJoker jokerPoint card = false then
        if card ∈ popCards then
          kindBlocks jokerPoint popCards (repeatCards ++ [card]) rest
        else kindBlocks jokerPoint (popCards ++ [card]) repeatCards rest
      else (popCards, repeatCards) :: kindBlocks jokerPoint [card] [] rest

theorem searchThreeOfKindFrom_eq (self : Combination)
    (popCards repeatCards cards : List PokerCard) :
    searchThreeOfKindFrom self popCards repeatCards cards =
      collect (fun block => flushThreeOfKind self block.1 block.2)
        (kindBlocks self.jokerPoint popCards repeatCards cards) := by
  induction cards generalizing popCards repeatCards with
  | nil =>
      rw [searchThreeOfKindFrom, kindBlocks]
      cases h : flushThreeOfKind self popCards repeatCards <;>
        simp [collect, h]
  | cons card rest ih =>
      rw [searchThreeOfKindFrom, kindBlocks]
      split
      · split
        · exact ih _ _
        · exact ih _ _
      · simp only [collect, ih]

structure KindBlock (jokerPoint : Nat) (cards : List PokerCard)
    (block : List PokerCard × List PokerCard) : Prop where
  nodup : block.1.Nodup
  repeated : block.2 ⊆ block.1
  point : ∀ card ∈ block.1, ∀ card' ∈ block.1, card.point = card'.point
  nonJoker : 2 ≤ block.1.length →
    ∀ card ∈ block.1, isJoker jokerPoint card = false
  subperm : (block.1 ++ block.2).Subperm cards

private theorem point_eq_of_head {popCards : List PokerCard}
    {card : PokerCard}
    (hpoint : ∀ card ∈ popCards, ∀ card' ∈ popCards,
      card.point = card'.point)
    (hhead : popCards = [] ∨
      popCards.head?.map PokerCard.point = some card.point) :
    ∀ card' ∈ popCards, card'.point = card.point := by
  intro card' hmem
  cases popCards with
  | nil => simp at hmem
  | cons first popCards =>
      have hfirst : first.point = card.point := by simpa using hhead
      exact (hpoint card' hmem first List.mem_cons_self).trans hfirst

private theorem point_eq_of_push {popCards : List PokerCard}
    {card : PokerCard}
    (hpoint : ∀ card' ∈ popCards, card'.point = card.point) :
    ∀ card' ∈ popCards ++ [card], card'.point = card.point := by
  intro card' hcard'
  rcases List.mem_append.mp hcard' with hcard' | hcard'
  · exact hpoint card' hcard'
  · rw [List.mem_singleton.mp hcard']

private theorem KindBlock.push {jokerPoint : Nat}
    {cards popCards repeatCards rest : List PokerCard} {card : PokerCard}
    (h : KindBlock jokerPoint cards (popCards, repeatCards))
    (hsub : (popCards ++ repeatCards ++ card :: rest).Subperm cards)
    (hhead : popCards = [] ∨
      popCards.head?.map PokerCard.point = some card.point)
    (hjoker : isJoker jokerPoint card = false) (hmem : card ∉ popCards) :
    KindBlock jokerPoint cards (popCards ++ [card], repeatCards) := by
  have hall := point_eq_of_push (point_eq_of_head h.point hhead)
  refine ⟨?_, ?_, ?_, ?_, ?_⟩
  · refine List.nodup_append.mpr ⟨h.nodup, by simp, fun card' hcard' other ho => ?_⟩
    rw [List.mem_singleton.mp ho]
    rintro rfl
    exact hmem hcard'
  · exact fun card' hcard' => List.mem_append_left _ (h.repeated hcard')
  · exact fun card' hcard' other hother =>
      (hall card' hcard').trans (hall other hother).symm
  · intro _ card' hcard'
    rw [isJoker_congr (hall card' hcard'), hjoker]
  · refine List.Subperm.trans ?_ hsub
    rw [List.subperm_iff_count]
    intro other
    simp only [List.count_append, List.count_cons, List.count_nil]
    omega

private theorem kindBlock_of_mem {jokerPoint : Nat}
    {cards popCards repeatCards rest : List PokerCard}
    (h : KindBlock jokerPoint cards (popCards, repeatCards))
    (hsub : (popCards ++ repeatCards ++ rest).Subperm cards)
    {block : List PokerCard × List PokerCard}
    (hblock : block ∈ kindBlocks jokerPoint popCards repeatCards rest) :
    KindBlock jokerPoint cards block := by
  induction rest generalizing popCards repeatCards with
  | nil =>
      obtain rfl := List.mem_singleton.mp hblock
      exact h
  | cons card rest ih =>
      rw [kindBlocks] at hblock
      split at hblock
      · rename_i hcond
        split at hblock
        · rename_i hmem
          refine @ih popCards (repeatCards ++ [card])
            ⟨h.nodup, ?_, h.point, h.nonJoker, ?_⟩ ?_ hblock
          · exact List.append_subset.mpr
              ⟨h.repeated, List.cons_subset.mpr ⟨hmem, by simp⟩⟩
          · refine List.Subperm.trans (List.Sublist.subperm ?_) hsub
            simp
          · simpa using hsub
        · rename_i hmem
          refine ih (h.push hsub hcond.1 hcond.2 hmem) ?_ hblock
          refine List.Subperm.trans (List.Perm.subperm ?_) hsub
          rw [List.perm_iff_count]
          intro other
          simp only [List.count_append, List.count_cons, List.count_nil]
          omega
      · have hcard : (card :: rest).Subperm cards :=
          (List.sublist_append_right _ _).subperm.trans hsub
        rcases List.mem_cons.mp hblock with rfl | hblock
        · exact h
        · refine ih ⟨by simp, by simp, by simp, by simp, ?_⟩
            (by simpa using hcard) hblock
          exact (List.Sublist.subperm (by simp)).trans hcard

private theorem point_ne_of_end {jokerPoint : Nat}
    {popCards rest : List PokerCard} {next : PokerCard}
    (hpoint : ∀ card ∈ popCards, ∀ card' ∈ popCards,
      card.point = card'.point)
    (hend : ¬((popCards = [] ∨
        popCards.head?.map PokerCard.point = some next.point) ∧
      isJoker jokerPoint next = false))
    (hsorted : (next :: rest).Pairwise (· ≤ ·))
    (hbelow : PointsBelow popCards (next :: rest))
    {card card' : PokerCard} (hcard : card ∈ popCards)
    (hjoker : isJoker jokerPoint card = false)
    (hcard' : card' ∈ next :: rest) : card'.point ≠ card.point := by
  intro heq
  have hle := hbelow card hcard next List.mem_cons_self
  have hge := head_point_le hsorted card' hcard'
  have hnext : card.point = next.point := by omega
  refine hend ⟨Or.inr ?_, by rw [← isJoker_congr hnext, hjoker]⟩
  obtain ⟨first, popCards, rfl⟩ :=
    List.exists_cons_of_ne_nil (List.ne_nil_of_mem hcard)
  simpa using (hpoint first List.mem_cons_self card hcard).trans hnext

private theorem exists_kindBlock {jokerPoint : Nat}
    {popCards repeatCards rest : List PokerCard}
    (hpoint : ∀ card ∈ popCards, ∀ card' ∈ popCards,
      card.point = card'.point)
    (hsorted : rest.Pairwise (· ≤ ·))
    (hbelow : PointsBelow popCards rest)
    {card : PokerCard} (hcard : card ∈ popCards ++ rest)
    (hjoker : isJoker jokerPoint card = false) :
    ∃ block ∈ kindBlocks jokerPoint popCards repeatCards rest,
      ∀ card' ∈ popCards ++ rest, card'.point = card.point →
        card' ∈ block.1 := by
  induction rest generalizing popCards repeatCards with
  | nil =>
      exact ⟨_, List.mem_singleton.mpr rfl, fun card' hcard' _ => by
        simpa using hcard'⟩
  | cons next rest ih =>
      rw [kindBlocks]
      split
      · rename_i hcond
        split
        · rename_i hmem
          have hsame : ∀ card', card' ∈ popCards ++ next :: rest ↔
              card' ∈ popCards ++ rest := by
            intro card'
            simp only [List.mem_append, List.mem_cons]
            constructor
            · rintro (h | rfl | h)
              · exact Or.inl h
              · exact Or.inl hmem
              · exact Or.inr h
            · tauto
          obtain ⟨block, hblock, hall⟩ := @ih popCards (repeatCards ++ [next])
            hpoint hsorted.of_cons hbelow.tail ((hsame card).mp hcard)
          exact ⟨block, hblock, fun card' hcard' =>
            hall card' ((hsame card').mp hcard')⟩
        · have hnext := point_eq_of_head hpoint hcond.1
          have hsame : ∀ card', card' ∈ popCards ++ next :: rest ↔
              card' ∈ popCards ++ [next] ++ rest := by simp
          obtain ⟨block, hblock, hall⟩ := @ih (popCards ++ [next]) repeatCards
            (fun c hc c' hc' => (point_eq_of_push hnext c hc).trans
              (point_eq_of_push hnext c' hc').symm) hsorted.of_cons
            (hbelow.snoc hsorted) ((hsame card).mp hcard)
          exact ⟨block, hblock, fun card' hcard' =>
            hall card' ((hsame card').mp hcard')⟩
      · rename_i hcond
        by_cases hpop : card ∈ popCards
        · refine ⟨_, List.mem_cons_self, fun card' hcard' heq => ?_⟩
          rcases List.mem_append.mp hcard' with hcard' | hcard'
          · exact hcard'
          · exact absurd heq
              (point_ne_of_end hpoint hcond hsorted hbelow hpop hjoker hcard')
        · have hrest : card ∈ [next] ++ rest := by
            simpa [hpop] using hcard
          obtain ⟨block, hblock, hall⟩ := @ih [next] [] (by simp)
            hsorted.of_cons ((PointsBelow.nil _).snoc hsorted) hrest
          refine ⟨block, List.mem_cons_of_mem _ hblock,
            fun card' hcard' heq => ?_⟩
          rcases List.mem_append.mp hcard' with hcard' | hcard'
          · have hjoker' : isJoker jokerPoint card' = false := by
              rw [isJoker_congr heq, hjoker]
            exact absurd heq.symm (point_ne_of_end hpoint hcond hsorted hbelow
              hcard' hjoker' (by simpa using hrest))
          · exact hall card' (by simpa using hcard') heq

/-! ## The order of the joker selections -/

theorem Combination.Caches.mem_before {self : Combination}
    {cards : List PokerCard} (h : self.Caches cards)
    {pre post : List (List PokerCard)} {combine shorter : List PokerCard}
    (heq : self.jokerCombines = pre ++ combine :: post)
    (hmem : shorter ∈ self.jokerCombines)
    (hlt : shorter.length < combine.length) : shorter ∈ pre := by
  rw [h.combines, caculateAllCardsCombines] at heq hmem
  obtain ⟨sizes₁, n, sizes₂, pre', post', hsizes, hn, -, hbefore⟩ :=
    flatMap_split heq
  obtain ⟨m, hm, hshorter⟩ := List.mem_flatMap.mp hmem
  have hcombine : combine ∈ caculateAllChoices self.jokerCards n := by
    simp [hn]
  obtain rfl := (mem_caculateAllChoices.mp hcombine).2
  obtain rfl := (mem_caculateAllChoices.mp hshorter).2
  have hsorted := List.pairwise_lt_range' (s := 1)
    (n := self.jokerCards.length + 1 - 1)
  rw [hsizes] at hsorted hm
  exact hbefore _ (mem_before_of_lt hsorted hm hlt) hshorter

theorem Combination.Caches.singleton_before {self : Combination}
    {cards : List PokerCard} (h : self.Caches cards)
    {pre post : List (List PokerCard)} {combine : List PokerCard}
    (heq : self.jokerCombines = pre ++ combine :: post)
    (hlen : 2 ≤ combine.length) {joker : PokerCard}
    (hjoker : joker ∈ combine) : [joker] ∈ pre := by
  have hmem : combine ∈ self.jokerCombines := by simp [heq]
  refine h.mem_before heq (h.mem_combines.mpr ⟨?_, by simp⟩) hlen
  exact List.singleton_sublist.mpr
    ((h.mem_combines.mp hmem).1.subset hjoker)

theorem Combination.Caches.last_all {self : Combination}
    {cards : List PokerCard} (h : self.Caches cards)
    {combine : List PokerCard}
    (hlast : self.jokerCombines.getLast? = some combine) :
    combine.length = jokerCount self.jokerPoint cards := by
  rw [jokerCount_eq_length, ← h.jokers]
  rw [h.combines, caculateAllCardsCombines, Nat.add_sub_cancel] at hlast
  cases hn : self.jokerCards.length with
  | zero => simp [hn] at hlast
  | succ n =>
      have hmem : self.jokerCards ∈
          caculateAllChoices self.jokerCards (1 + n) :=
        mem_caculateAllChoices.mpr ⟨List.Sublist.refl _, by omega⟩
      rw [hn, List.range'_concat, List.flatMap_append, List.flatMap_singleton,
        Nat.one_mul, List.getLast?_append_of_ne_nil _
          (List.ne_nil_of_mem hmem)] at hlast
      have := (mem_caculateAllChoices.mp (List.mem_of_getLast? hlast)).2
      omega

/-! ## The sets of one selection -/

theorem getScore_joker {jokerPoint : Nat} {card : PokerCard}
    (h : isJoker jokerPoint card) : getScore jokerPoint card = 0 := by
  simp only [isJoker, JOKER1, Bool.or_eq_true, beq_iff_eq,
    decide_eq_true_eq] at h
  rw [getScore, if_neg]
  simp only [A]
  omega

theorem caculateCardScore_nonJokers (jokerPoint : Nat)
    (cards : List PokerCard) :
    caculateCardScore (nonJokers jokerPoint cards) jokerPoint =
      caculateCardScore cards jokerPoint := by
  induction cards with
  | nil => rfl
  | cons card rest ih =>
      by_cases hjoker : isJoker jokerPoint card
      · rw [nonJokers_cons_joker hjoker, ih]
        simp [caculateCardScore, getScore_joker hjoker]
      · rw [nonJokers_cons hjoker]
        simp only [caculateCardScore, List.map_cons, List.sum_cons] at ih ⊢
        rw [ih]

/-- A group of the set search over `cards`. -/
structure SetOf (jokerPoint : Nat) (cards : List PokerCard)
    (group : CardGroup) : Prop where
  type : group.type = GROUP_THREE_KIND
  shape : SetShape jokerPoint group.cards
  subperm : group.cards.Subperm cards

def Oversized (group : CardGroup) : Prop := 5 ≤ group.cards.length

def SameScore (jokerPoint : Nat) (group other : CardGroup) : Prop :=
  caculateCardScore group.cards jokerPoint =
    caculateCardScore other.cards jokerPoint

structure SetOrder (jokerPoint : Nat) (cards : List PokerCard)
    (groups : List CardGroup) : Prop where
  preceded : Preceded (SameScore jokerPoint) Oversized groups
  last : LastHas (fun group => Oversized group →
    jokerCount jokerPoint group.cards = jokerCount jokerPoint cards) groups

theorem SetOrder.nil (jokerPoint : Nat) (cards : List PokerCard) :
    SetOrder jokerPoint cards [] :=
  ⟨.of_forall_not (by simp), .of_forall (by simp)⟩

theorem SetOrder.of_small {jokerPoint : Nat} {cards : List PokerCard}
    {groups : List CardGroup} (h : ∀ group ∈ groups, ¬ Oversized group) :
    SetOrder jokerPoint cards groups :=
  ⟨.of_forall_not h,
    .of_forall fun group hmem hlarge => absurd hlarge (h group hmem)⟩

theorem SetOrder.append {jokerPoint : Nat} {cards : List PokerCard}
    (first second : List CardGroup) (h₁ : SetOrder jokerPoint cards first)
    (h₂ : SetOrder jokerPoint cards second) :
    SetOrder jokerPoint cards (first ++ second) :=
  ⟨h₁.preceded.append h₂.preceded, h₁.last.append h₂.last⟩

/-- The body of the loop in `search_three_of_kind_select_n`. -/
def setsOfSelection (self : Combination) (hand : List PokerCard) :
    List CardGroup :=
  (if 2 < hand.length then [⟨GROUP_THREE_KIND, hand⟩] else []) ++
    self.jokerCombines.map fun combine => ⟨GROUP_THREE_KIND, hand ++ combine⟩

/-- Two to four cards that the set search selects among `cards`. -/
structure KindSelection (jokerPoint : Nat) (cards hand : List PokerCard) :
    Prop where
  two : 2 ≤ hand.length
  four : hand.length ≤ 4
  nodup : hand.Nodup
  point : ∀ card ∈ hand, ∀ card' ∈ hand, card.point = card'.point
  subperm : hand.Subperm (nonJokers jokerPoint cards)

section Selection

variable {self : Combination} {cards hand : List PokerCard}

theorem mem_setsOfSelection {group : CardGroup} :
    group ∈ setsOfSelection self hand ↔
      ∃ combine, ((combine = [] ∧ 2 < hand.length) ∨
        combine ∈ self.jokerCombines) ∧
        group = ⟨GROUP_THREE_KIND, hand ++ combine⟩ := by
  unfold setsOfSelection
  rw [List.mem_append, List.mem_map]
  constructor
  · rintro (hmem | ⟨combine, hmem, rfl⟩)
    · split at hmem
      · rename_i hlen
        exact ⟨[], Or.inl ⟨rfl, hlen⟩, by simpa using hmem⟩
      · simp at hmem
    · exact ⟨combine, Or.inr hmem, rfl⟩
  · rintro ⟨combine, ⟨rfl, hlen⟩ | hmem, rfl⟩
    · exact Or.inl (by simp [hlen])
    · exact Or.inr ⟨combine, hmem, rfl⟩

theorem KindSelection.setOf (h : KindSelection self.jokerPoint cards hand)
    (hcaches : self.Caches cards) {group : CardGroup}
    (hgroup : group ∈ setsOfSelection self hand) :
    SetOf self.jokerPoint cards group := by
  obtain ⟨combine, hcombine, rfl⟩ := mem_setsOfSelection.mp hgroup
  have hsub : combine.Sublist (searchJokerCards self.jokerPoint cards) ∧
      3 ≤ hand.length + combine.length := by
    have htwo := h.two
    rcases hcombine with ⟨rfl, hlen⟩ | hmem
    · exact ⟨List.nil_sublist _, hlen⟩
    · obtain ⟨hsub, hne⟩ := hcaches.mem_combines.mp hmem
      have := List.length_pos_iff.mpr hne
      exact ⟨hsub, by omega⟩
  obtain ⟨hnon, -⟩ := filter_parts h.subperm.subset hsub.1.subset
  refine ⟨rfl, ⟨?_, ?_, ?_, ?_⟩, ?_⟩
  · rw [List.length_append]
    exact hsub.2
  · rw [hnon]
    exact h.two
  · rw [hnon]
    exact h.nodup
  · rw [hnon]
    exact h.point
  · refine (h.subperm.append hsub.1.subperm).trans ?_
    exact (nonJokers_append_jokers_perm self.jokerPoint cards).subperm

theorem KindSelection.sameScore
    (h : KindSelection self.jokerPoint cards hand)
    {combine combine' : List PokerCard}
    (hcombine : combine ⊆ searchJokerCards self.jokerPoint cards)
    (hcombine' : combine' ⊆ searchJokerCards self.jokerPoint cards) :
    SameScore self.jokerPoint ⟨GROUP_THREE_KIND, hand ++ combine⟩
      ⟨GROUP_THREE_KIND, hand ++ combine'⟩ := by
  unfold SameScore
  rw [← caculateCardScore_nonJokers self.jokerPoint (hand ++ combine),
    (filter_parts h.subperm.subset hcombine).1,
    ← caculateCardScore_nonJokers self.jokerPoint (hand ++ combine'),
    (filter_parts h.subperm.subset hcombine').1]

private theorem KindSelection.preceded
    (h : KindSelection self.jokerPoint cards hand)
    (hcaches : self.Caches cards) :
    Preceded (SameScore self.jokerPoint) Oversized
      (setsOfSelection self hand) := by
  have hfour := h.four
  have hjokers : ∀ combine ∈ self.jokerCombines,
      combine ⊆ searchJokerCards self.jokerPoint cards := fun combine hmem =>
    (hcaches.mem_combines.mp hmem).1.subset
  unfold setsOfSelection
  by_cases hlen : 2 < hand.length
  · rw [if_pos hlen]
    -- the selection itself comes before every filled one
    rintro (_ | ⟨first, pre⟩) group post heq hlarge
    · obtain ⟨rfl, -⟩ := List.cons.inj heq
      simp only [Oversized] at hlarge
      omega
    · obtain ⟨rfl, htail⟩ := List.cons.inj heq
      have htail' : (self.jokerCombines.map fun combine =>
          (⟨GROUP_THREE_KIND, hand ++ combine⟩ : CardGroup)) =
            pre ++ group :: post := htail
      have hmem : group ∈ self.jokerCombines.map fun combine =>
          (⟨GROUP_THREE_KIND, hand ++ combine⟩ : CardGroup) := by
        simp [htail']
      obtain ⟨combine, hcombine, rfl⟩ := List.mem_map.mp hmem
      refine ⟨_, List.mem_cons_self, ?_⟩
      have := h.sameScore (List.nil_subset _) (hjokers combine hcombine)
      rwa [List.append_nil] at this
  · rw [if_neg hlen, List.nil_append]
    intro pre group post heq hlarge
    obtain ⟨combines, rest, hsplit, rfl, hrest⟩ := List.map_eq_append_iff.mp heq
    obtain ⟨combine, combines', rfl, rfl, -⟩ := List.map_eq_cons_iff.mp hrest
    have hmem : combine ∈ self.jokerCombines := by simp [hsplit]
    simp only [Oversized, List.length_append] at hlarge
    obtain ⟨joker, hjoker⟩ := List.exists_mem_of_length_pos
      (l := combine) (by omega)
    have hbefore := hcaches.singleton_before hsplit (by omega) hjoker
    refine ⟨_, List.mem_map_of_mem hbefore, ?_⟩
    exact h.sameScore
      (List.cons_subset.mpr ⟨hjokers combine hmem hjoker, by simp⟩)
      (hjokers combine hmem)

theorem KindSelection.setOrder
    (h : KindSelection self.jokerPoint cards hand)
    (hcaches : self.Caches cards) :
    SetOrder self.jokerPoint cards (setsOfSelection self hand) := by
  refine ⟨h.preceded hcaches, LastHas.append (.of_forall ?_) ?_⟩
  · intro group hmem hlarge
    have hfour := h.four
    split at hmem
    · obtain rfl := List.mem_singleton.mp hmem
      simp only [Oversized] at hlarge
      omega
    · simp at hmem
  · intro group hlast _
    rw [List.getLast?_map] at hlast
    obtain ⟨combine, hcombine, rfl⟩ := Option.map_eq_some_iff.mp hlast
    have hmem := List.mem_of_getLast? hcombine
    rw [(filter_parts h.subperm.subset
      (hcaches.mem_combines.mp hmem).1.subset).2]
    exact hcaches.last_all hcombine

end Selection

/-! ## The whole search -/

section Search

variable {self : Combination} {cards : List PokerCard}

theorem KindBlock.repeated_nodup {jokerPoint : Nat}
    {block : List PokerCard × List PokerCard}
    (h : KindBlock jokerPoint cards block) (hs : Searchable cards) :
    block.2.Nodup := by
  rw [List.nodup_iff_count_le_one]
  intro card
  by_cases hmem : card ∈ block.2
  · have hpos := List.count_pos_iff.mpr (h.repeated hmem)
    have hle := h.subperm.count_le card
    have := hs.count card
    rw [List.count_append] at hle
    omega
  · simp [List.count_eq_zero.mpr hmem]

theorem KindBlock.selection {block : List PokerCard × List PokerCard}
    (h : KindBlock self.jokerPoint cards block) {hand : List PokerCard}
    (hsub : hand ⊆ block.1) (hnodup : hand.Nodup) (htwo : 2 ≤ hand.length)
    (hfour : hand.length ≤ 4) (hhand : hand.Subperm cards) :
    KindSelection self.jokerPoint cards hand := by
  have hlen : 2 ≤ block.1.length :=
    htwo.trans (hnodup.subperm hsub).length_le
  have hnon : nonJokers self.jokerPoint hand = hand := by
    rw [nonJokers, List.filter_eq_self]
    intro card hcard
    simp [h.nonJoker hlen card (hsub hcard)]
  refine ⟨htwo, hfour, hnodup, fun card hcard card' hcard' =>
    h.point card (hsub hcard) card' (hsub hcard'), ?_⟩
  rw [← hnon]
  exact hhand.filter _

theorem searchThreeOfKindI_eq (popCards repeatCards : List PokerCard) :
    searchThreeOfKindI self popCards repeatCards =
      some (([2, 3, 4].flatMap fun n =>
          (caculateAllChoices popCards n).flatMap (setsOfSelection self)) ++
        [3, 4].flatMap fun i =>
          (caculateAllChoices repeatCards i).map fun cards =>
            ⟨GROUP_THREE_KIND, cards⟩) := by
  have hselect : ∀ n ∈ [2, 3, 4], searchThreeOfKindSelectN self popCards n =
      some ((caculateAllChoices popCards n).flatMap
        (setsOfSelection self)) := by
    intro n hn
    have hrange : 2 ≤ n ∧ n ≤ 4 := by
      simp only [List.mem_cons, List.not_mem_nil, or_false] at hn
      omega
    rw [searchThreeOfKindSelectN, if_pos hrange]
    by_cases hshort : popCards.length < n
    · rw [if_pos hshort, caculateAllChoices, if_pos hshort]
      rfl
    · rw [if_neg hshort]
      rfl
  rw [searchThreeOfKindI, collect_eq_flatMap hselect]
  rfl

private theorem flushThreeOfKind_spec (hs : Searchable cards)
    (hcaches : self.Caches cards)
    {block : List PokerCard × List PokerCard}
    (h : KindBlock self.jokerPoint cards block) :
    ∃ out, flushThreeOfKind self block.1 block.2 = some out ∧
      (∀ group ∈ out, SetOf self.jokerPoint cards group) ∧
      (∀ hand, hand.Sublist block.1 → 2 ≤ hand.length → hand.length ≤ 4 →
        setsOfSelection self hand ⊆ out) ∧
      SetOrder self.jokerPoint cards out := by
  unfold flushThreeOfKind
  by_cases hpop : 2 ≤ block.1.length
  · rw [if_pos hpop, searchThreeOfKindI_eq]
    have hselect : ∀ n ∈ [2, 3, 4], ∀ hand ∈ caculateAllChoices block.1 n,
        KindSelection self.jokerPoint cards hand := by
      intro n hn hand hhand
      obtain ⟨hsub, rfl⟩ := mem_caculateAllChoices.mp hhand
      simp only [List.mem_cons, List.not_mem_nil, or_false] at hn
      exact h.selection hsub.subset (h.nodup.sublist hsub) (by omega)
        (by omega) ((hsub.trans (List.sublist_append_left _ _)).subperm.trans
          h.subperm)
    have hrepeat : ∀ i ∈ [3, 4], ∀ hand ∈ caculateAllChoices block.2 i,
        KindSelection self.jokerPoint cards hand ∧ 2 < hand.length := by
      intro i hi hand hhand
      obtain ⟨hsub, rfl⟩ := mem_caculateAllChoices.mp hhand
      simp only [List.mem_cons, List.not_mem_nil, or_false] at hi
      exact ⟨h.selection (List.Subset.trans hsub.subset h.repeated)
        ((h.repeated_nodup hs).sublist hsub) (by omega) (by omega)
        ((hsub.trans (List.sublist_append_right _ _)).subperm.trans
          h.subperm), by omega⟩
    refine ⟨_, rfl, ?_, ?_, SetOrder.append _ _ ?_ (.of_small ?_)⟩
    · intro group hgroup
      rcases List.mem_append.mp hgroup with hgroup | hgroup
      · obtain ⟨n, hn, hgroup⟩ := List.mem_flatMap.mp hgroup
        obtain ⟨hand, hhand, hgroup⟩ := List.mem_flatMap.mp hgroup
        exact (hselect n hn hand hhand).setOf hcaches hgroup
      · obtain ⟨i, hi, hgroup⟩ := List.mem_flatMap.mp hgroup
        obtain ⟨hand, hhand, rfl⟩ := List.mem_map.mp hgroup
        obtain ⟨hkind, hlen⟩ := hrepeat i hi hand hhand
        refine hkind.setOf hcaches (mem_setsOfSelection.mpr
          ⟨[], Or.inl ⟨rfl, hlen⟩, by simp⟩)
    · intro hand hsub htwo hfour group hgroup
      refine List.mem_append_left _ (List.mem_flatMap.mpr
        ⟨hand.length, ?_, List.mem_flatMap.mpr
          ⟨hand, mem_caculateAllChoices.mpr ⟨hsub, rfl⟩, hgroup⟩⟩)
      simp only [List.mem_cons, List.not_mem_nil, or_false]
      omega
    · refine flatMap_closed (.nil _ _) SetOrder.append fun n hn =>
        flatMap_closed (.nil _ _) SetOrder.append fun hand hhand => ?_
      exact (hselect n hn hand hhand).setOrder hcaches
    · intro group hgroup hlarge
      obtain ⟨i, hi, hgroup⟩ := List.mem_flatMap.mp hgroup
      obtain ⟨hand, hhand, rfl⟩ := List.mem_map.mp hgroup
      have := (hrepeat i hi hand hhand).1.four
      simp only [Oversized] at hlarge
      omega
  · rw [if_neg hpop]
    refine ⟨[], rfl, by simp, fun hand hsub htwo _ => ?_,
      .nil self.jokerPoint cards⟩
    have := hsub.length_le
    omega

theorem SetShape.nonJokers_le {jokerPoint : Nat} {group : List PokerCard}
    (h : SetShape jokerPoint group) (hdeal : ∀ card ∈ group, Deal card) :
    (Cards.nonJokers jokerPoint group).length ≤ 4 := by
  have hnodup : ((Cards.nonJokers jokerPoint group).map color).Nodup := by
    rw [List.nodup_iff_pairwise_ne, List.pairwise_map]
    exact h.pairwise.imp fun hkind => hkind.2.symm
  have hsuits : (Cards.nonJokers jokerPoint group).map color ⊆
      [1, 2, 3, 4] := by
    intro suit hsuit
    obtain ⟨card, hcard, rfl⟩ := List.mem_map.mp hsuit
    have hd := hdeal card (nonJokers_subset hcard)
    have hnon := List.of_mem_filter hcard
    simp only [isJoker, JOKER1, Bool.not_eq_true', Bool.or_eq_false_iff,
      decide_eq_false_iff_not] at hnon
    simp only [Deal, spades, diamonds, P2, A, JOKER1, JOKER2] at hd
    simp only [List.mem_cons, List.not_mem_nil, or_false]
    omega
  simpa using (hnodup.subperm hsuits).length_le

private theorem exists_setsOfSelection (hs : Searchable cards)
    (hcaches : self.Caches cards) {group : List PokerCard}
    (h : SetShape self.jokerPoint group) (hsub : group.Subperm cards) :
    ∃ block ∈ kindBlocks self.jokerPoint [] [] (sortCards cards),
      ∃ hand, hand.Sublist block.1 ∧ 2 ≤ hand.length ∧ hand.length ≤ 4 ∧
        ∃ found ∈ setsOfSelection self hand, found.cards.Perm group := by
  obtain ⟨card, hcard⟩ := List.exists_mem_of_length_pos
    (Nat.lt_of_lt_of_le Nat.zero_lt_two h.nonJokers)
  have hmem : ∀ card ∈ nonJokers self.jokerPoint group,
      card ∈ [] ++ sortCards cards := fun card hcard => by
    simpa using hsub.subset (nonJokers_subset hcard)
  obtain ⟨block, hblock, hall⟩ :=
    @exists_kindBlock self.jokerPoint [] [] (sortCards cards) (by simp)
      (sortCards_pairwise cards) (by simp) card (hmem card hcard)
      (by simpa using List.of_mem_filter hcard)
  obtain ⟨hand, hperm, hhand⟩ := h.nodup.subperm fun card' hcard' =>
    hall card' (hmem card' hcard') (h.point card' hcard' card hcard)
  obtain ⟨combine, hcombine, hcombine'⟩ :=
    hsub.filter (isJoker self.jokerPoint)
  have hfour := h.nonJokers_le fun card hcard =>
    hs.deal card (hsub.subset hcard)
  have hall := (hperm.append hcombine).trans
    (nonJokers_append_jokers_perm self.jokerPoint group)
  have htwo := h.nonJokers
  rw [← hperm.length_eq] at htwo hfour
  refine ⟨block, hblock, hand, hhand, htwo, hfour, _,
    mem_setsOfSelection.mpr ⟨combine, ?_, rfl⟩, hall⟩
  rw [hcaches.mem_combines]
  by_cases hnil : combine = []
  · subst hnil
    have := hall.length_eq
    have := h.length
    rw [List.append_nil] at *
    exact Or.inl ⟨rfl, by omega⟩
  · exact Or.inr ⟨hcombine', hnil⟩

theorem searchThreeOfKind_spec (hs : Searchable cards)
    (hcaches : self.Caches cards) :
    ∃ groups, searchThreeOfKind self cards = some groups ∧
      (∀ group ∈ groups, SetOf self.jokerPoint cards group) ∧
      (∀ group, SetShape self.jokerPoint group → group.Subperm cards →
        ∃ found ∈ groups, found.cards.Perm group) ∧
      SetOrder self.jokerPoint cards groups := by
  have hblocks : ∀ block ∈ kindBlocks self.jokerPoint [] [] (sortCards cards),
      KindBlock self.jokerPoint cards block := fun block hblock =>
    kindBlock_of_mem ⟨by simp, by simp, by simp, by simp, by simp⟩
      (by simpa using (sortCards_perm cards).subperm) hblock
  have hflush := fun block hblock =>
    flushThreeOfKind_spec hs hcaches (hblocks block hblock)
  choose! out hout using hflush
  refine ⟨(kindBlocks self.jokerPoint [] [] (sortCards cards)).flatMap out,
    ?_, ?_, ?_, ?_⟩
  · rw [searchThreeOfKind, searchThreeOfKindFrom_eq]
    exact collect_eq_flatMap fun block hblock => (hout block hblock).1
  · intro group hgroup
    obtain ⟨block, hblock, hgroup⟩ := List.mem_flatMap.mp hgroup
    exact (hout block hblock).2.1 group hgroup
  · intro group hshape hsub
    obtain ⟨block, hblock, hand, hhand, htwo, hfour, found, hfound, hperm⟩ :=
      exists_setsOfSelection hs hcaches hshape hsub
    exact ⟨found, List.mem_flatMap.mpr ⟨block, hblock,
      (hout block hblock).2.2.1 hand hhand htwo hfour hfound⟩, hperm⟩
  · exact flatMap_closed (.nil _ _) SetOrder.append fun block hblock =>
      (hout block hblock).2.2.2

end Search

end StarsGaming.Cards
