import Mathlib.Data.List.Sublists
import StarsGaming.Cards.Discard

/-!
# The joker cache is never stale

The object keeps the jokers of the cards being searched and their selections
between the calls of the two searches.  `searchAllGroupCalls` lists the object
and the cards at every such call, and `searchAllGroupWith` is the search with
the two calls as parameters: it depends on nothing else of them.
-/

namespace StarsGaming.Cards

open PokerCard
open StarsGaming.Foundation

/-! ## All non-empty selections -/

section Selections

variable {α : Type*}

private theorem selectBy_snoc (xs : List α) (x : α) (bits : List Bool)
    (b : Bool) (h : bits.length = xs.length) :
    selectBy (xs ++ [x]) (bits ++ [b]) =
      selectBy xs bits ++ if b then [x] else [] := by
  induction xs generalizing bits with
  | nil =>
      obtain rfl : bits = [] := List.eq_nil_of_length_eq_zero h
      cases b <;> rfl
  | cons y xs ih =>
      cases bits with
      | nil => simp at h
      | cons bit bits =>
          have htail := ih bits (by simpa using h)
          cases bit <;> simp [selectBy, htail]

private theorem map_colex_snoc (xs : List α) (x : α) (n : Nat) (b : Bool) :
    ((colex xs.length n).map (· ++ [b])).map (selectBy (xs ++ [x])) =
      ((colex xs.length n).map (selectBy xs)).map
        (· ++ if b then [x] else []) := by
  rw [List.map_map, List.map_map]
  exact List.map_congr_left fun bits hbits =>
    selectBy_snoc xs x bits b (mem_colex.mp hbits).1

theorem map_selectBy_colex_perm (xs : List α) (n : Nat) :
    ((colex xs.length n).map (selectBy xs)).Perm
      (xs.sublists.filter fun ys => ys.length = n) := by
  induction xs using List.reverseRecOn generalizing n with
  | nil => cases n <;> simp [colex, selectBy]
  | append_singleton xs x ih =>
      have hsnoc : ((xs.sublists.map (· ++ [x])).filter
          fun ys => ys.length = n) =
          (xs.sublists.filter fun ys => ys.length + 1 = n).map
            (· ++ [x]) := by
        rw [List.filter_map]
        refine congrArg _ (List.filter_congr fun ys _ => ?_)
        simp
      rw [List.sublists_concat, List.filter_append, hsnoc,
        List.length_append, List.length_singleton]
      cases n with
      | zero =>
          rw [colex, map_colex_snoc]
          simpa [Function.comp_def] using ih 0
      | succ n =>
          rw [colex, List.map_append, map_colex_snoc, map_colex_snoc]
          refine List.Perm.append ?_ ?_
          · simpa [Function.comp_def] using ih (n + 1)
          · simpa using (ih n).map (· ++ [x])

private theorem flatMap_length_perm (lists : List (List α)) (n : Nat) :
    ((List.range' 1 n).flatMap fun k =>
        lists.filter fun ys => ys.length = k).Perm
      (lists.filter fun ys => 0 < ys.length ∧ ys.length ≤ n) := by
  induction n with
  | zero => simp [List.length_pos_iff]
  | succ n ih =>
      rw [List.range'_1_concat, List.flatMap_append, List.flatMap_singleton]
      let upTo := lists.filter fun ys => 0 < ys.length ∧ ys.length ≤ n + 1
      have hsplit := List.filter_append_perm (fun ys => ys.length ≤ n) upTo
      refine List.Perm.trans ?_ hsplit
      refine List.Perm.append (ih.trans (List.Perm.of_eq ?_))
        (List.Perm.of_eq ?_)
      · rw [List.filter_filter]
        refine List.filter_congr fun ys _ => ?_
        simp only [← Bool.decide_and, decide_eq_decide]
        omega
      · rw [List.filter_filter]
        refine List.filter_congr fun ys _ => ?_
        simp only [← Bool.decide_and, ← decide_not, decide_eq_decide]
        omega

end Selections

theorem caculateAllCardsCombines_perm (cards : List PokerCard) :
    (caculateAllCardsCombines cards 1 cards.length).Perm
      (cards.sublists.filter fun ys => ys ≠ []) := by
  have hchoices : (caculateAllCardsCombines cards 1 cards.length).Perm
      ((List.range' 1 cards.length).flatMap fun n =>
        cards.sublists.filter fun ys => ys.length = n) := by
    rw [caculateAllCardsCombines, Nat.add_sub_cancel]
    refine List.Perm.flatMap_left _ fun n _ => ?_
    rw [caculateAllChoices_eq]
    exact map_selectBy_colex_perm cards n
  refine (hchoices.trans (flatMap_length_perm _ _)).trans (List.Perm.of_eq ?_)
  refine List.filter_congr fun ys hys => ?_
  have hle := (List.mem_sublists.mp hys).length_le
  simp [hle, List.length_pos_iff]

/-! ## What the calls find in the cache -/

structure Combination.Fresh (c : Combination) (cards : List PokerCard) :
    Prop where
  jokerCards : c.jokerCards = cards.filter (isJoker c.jokerPoint)
  jokerCombines : c.jokerCombines.Perm
    (c.jokerCards.sublists.filter fun combine => combine ≠ [])

theorem Combination.Caches.fresh {c : Combination} {cards : List PokerCard}
    (h : c.Caches cards) : c.Fresh cards :=
  ⟨h.jokers, h.combines ▸ caculateAllCardsCombines_perm c.jokerCards⟩

def searchSecondGroupCalls (cards1 jokerCards1 : List PokerCard)
    (self : Combination) (second : CardGroup) :
    List (Combination × List PokerCard) :=
  let cards2 := removeCards second cards1
  if cards2 = [] then []
  else [(refreshJokers self (removeCards second jokerCards1), cards2)]

def searchFirstGroupCalls (validCardNumStop : Nat)
    (allCards allJokerCards : List PokerCard) (straiGroup : List CardGroup)
    (self : Combination) (first : CardGroup) :
    List (Combination × List PokerCard) :=
  let cards1 := removeCards first allCards
  let jokerCards1 := removeCards first allJokerCards
  if cards1 = [] then []
  else
    match removeCardGroup cards1 straiGroup with
    | none => []
    | some secondlifeGroup =>
        loopCalls
          (searchSecondGroup validCardNumStop first cards1 jokerCards1)
          (searchSecondGroupCalls cards1 jokerCards1) self secondlifeGroup

def searchAllGroupCalls (self : Combination) (allCards : List PokerCard)
    (validCardNumStop : Nat) : List (Combination × List PokerCard) :=
  let allJokerCards := searchJokerCards self.jokerPoint allCards
  let self : Combination :=
    { self with
      jokerCards := allJokerCards
      jokerCombines :=
        caculateAllCardsCombines allJokerCards 1 allJokerCards.length }
  (self, allCards) ::
    match searchStraightFlush self allCards with
    | none => []
    | some straiGroup =>
        loopCalls
          (searchFirstGroup validCardNumStop allCards allJokerCards
            straiGroup)
          (searchFirstGroupCalls validCardNumStop allCards allJokerCards
            straiGroup)
          self (searchPureStraightFlush straiGroup)

section Calls

variable {jokerPoint : Nat} {validCardNumStop : Nat}

/-! ### The third and the fourth group leave the object alone -/

theorem searchFourthGroup_keeps {first second third fourth : CardGroup}
    {cards3 : List PokerCard} {self self' : Combination}
    {out : List CombinationInfo} {stop : Bool}
    (h : searchFourthGroup validCardNumStop first second third cards3 self
      fourth = some (self', out, stop)) : self' = self := by
  unfold searchFourthGroup at h
  simp only at h
  split_ifs at h
  · exact (Prod.mk.inj (Option.some.inj h)).1.symm
  · exact (Prod.mk.inj (Option.some.inj h)).1.symm

theorem searchThirdGroup_keeps {first second third : CardGroup}
    {cards2 : List PokerCard} {groups : List CardGroup}
    {self self' : Combination} {out : List CombinationInfo} {stop : Bool}
    (h : searchThirdGroup validCardNumStop first second cards2 groups self
      third = some (self', out, stop)) : self' = self := by
  unfold searchThirdGroup at h
  simp only [Option.bind_eq_bind] at h
  split_ifs at h
  · exact (Prod.mk.inj (Option.some.inj h)).1.symm
  · obtain ⟨allGroup3, -, h⟩ := Option.bind_eq_some_iff.mp h
    split_ifs at h
    · exact (Prod.mk.inj (Option.some.inj h)).1.symm
    · exact loopUntil_keeps (I := fun s => s = self)
        (fun s fourth s' out stop hs hf =>
          (searchFourthGroup_keeps hf).trans hs) rfl h

/-! ### What the calls find -/

theorem refreshJokers_ready {self : Combination}
    (hready : self.Ready jokerPoint) (jokerCards : List PokerCard) :
    (refreshJokers self jokerCards).Ready jokerPoint := by
  unfold refreshJokers
  split_ifs
  · exact ⟨hready.jokerPoint, rfl⟩
  · exact hready

theorem searchSecondGroup_keeps {first second : CardGroup}
    {cards1 jokerCards1 : List PokerCard} {self self' : Combination}
    {out : List CombinationInfo} {stop : Bool}
    (hready : self.Ready jokerPoint)
    (h : searchSecondGroup validCardNumStop first cards1 jokerCards1 self
      second = some (self', out, stop)) : self'.Ready jokerPoint := by
  have hkeep := refreshJokers_ready hready (removeCards second jokerCards1)
  unfold searchSecondGroup at h
  simp only [Option.bind_eq_bind] at h
  split_ifs at h
  · obtain ⟨rfl, -⟩ := Prod.mk.inj (Option.some.inj h)
    exact hready
  · obtain ⟨straights, -, h⟩ := Option.bind_eq_some_iff.mp h
    obtain ⟨sets, -, h⟩ := Option.bind_eq_some_iff.mp h
    split_ifs at h
    · obtain ⟨rfl, -⟩ := Prod.mk.inj (Option.some.inj h)
      exact hkeep
    · refine loopUntil_keeps (I := fun s => s.Ready jokerPoint) ?_ hkeep h
      intro s third s' out stop hs hf
      rw [searchThirdGroup_keeps hf]
      exact hs

theorem searchSecondGroupCalls_fresh {second : CardGroup}
    {cards1 jokerCards1 : List PokerCard} {self : Combination}
    (hready : self.Ready jokerPoint)
    (hjokers : jokerCards1 = searchJokerCards jokerPoint cards1) :
    ∀ call ∈ searchSecondGroupCalls cards1 jokerCards1 self second,
      call.1.Fresh call.2 := by
  intro call hcall
  unfold searchSecondGroupCalls at hcall
  simp only at hcall
  split_ifs at hcall
  · simp at hcall
  · obtain rfl := List.mem_singleton.mp hcall
    have hjokers2 : removeCards second jokerCards1 =
        searchJokerCards jokerPoint (removeCards second cards1) := by
      rw [hjokers, searchJokerCards, searchJokerCards, filter_removeCards]
    exact (refreshJokers_caches hready hjokers2).2.fresh

theorem searchFirstGroup_keeps {first : CardGroup}
    {allCards allJokerCards : List PokerCard} {groups : List CardGroup}
    {self self' : Combination} {out : List CombinationInfo} {stop : Bool}
    (hready : self.Ready jokerPoint)
    (h : searchFirstGroup validCardNumStop allCards allJokerCards groups self
      first = some (self', out, stop)) : self'.Ready jokerPoint := by
  unfold searchFirstGroup at h
  simp only [Option.bind_eq_bind] at h
  split_ifs at h
  · obtain ⟨rfl, -⟩ := Prod.mk.inj (Option.some.inj h)
    exact hready
  · obtain ⟨secondlifeGroup, -, h⟩ := Option.bind_eq_some_iff.mp h
    split_ifs at h
    · obtain ⟨rfl, -⟩ := Prod.mk.inj (Option.some.inj h)
      exact hready
    · exact loopUntil_keeps
        (fun s second s' out stop hs hf => searchSecondGroup_keeps hs hf)
        hready h

theorem searchFirstGroupCalls_fresh {first : CardGroup}
    {allCards allJokerCards : List PokerCard} {groups : List CardGroup}
    {self : Combination} (hready : self.Ready jokerPoint)
    (hjokers : allJokerCards = searchJokerCards jokerPoint allCards) :
    ∀ call ∈ searchFirstGroupCalls validCardNumStop allCards allJokerCards
      groups self first, call.1.Fresh call.2 := by
  intro call hcall
  unfold searchFirstGroupCalls at hcall
  simp only at hcall
  split_ifs at hcall
  · simp at hcall
  · split at hcall
    · simp at hcall
    · have hjokers1 : removeCards first allJokerCards =
          searchJokerCards jokerPoint (removeCards first allCards) := by
        rw [hjokers, searchJokerCards, searchJokerCards, filter_removeCards]
      exact loopCalls_forall
        (fun s second s' out stop hs hf => searchSecondGroup_keeps hs hf)
        (fun s second hs => searchSecondGroupCalls_fresh hs hjokers1)
        hready _ call hcall

theorem searchAllGroupCalls_fresh (self : Combination)
    (hand : List PokerCard) (jokerPoint validCardNumStop : Nat) :
    ∀ call ∈ searchAllGroupCalls { self with jokerPoint := jokerPoint } hand
      validCardNumStop, call.1.Fresh call.2 := by
  have hready : (cachedFor jokerPoint hand).Ready jokerPoint := ⟨rfl, rfl⟩
  intro call hcall
  rcases List.mem_cons.mp hcall with rfl | hcall
  · exact Combination.Caches.fresh ⟨rfl, rfl⟩
  · split at hcall
    · simp at hcall
    · exact loopCalls_forall
        (fun s first s' out stop hs hf => searchFirstGroup_keeps hs hf)
        (fun s first hs => searchFirstGroupCalls_fresh hs rfl)
        hready _ call hcall

end Calls

/-! ## The search with other calls -/

section Other

/-- `searchSecondGroup` with the two searches it calls on as parameters. -/
def searchSecondGroupWith
    (straightFlush threeOfKind :
      Combination → List PokerCard → Option (List CardGroup))
    (validCardNumStop : Nat) (first : CardGroup)
    (cards1 jokerCards1 : List PokerCard) (self : Combination)
    (second : CardGroup) :
    Option (Combination × List CombinationInfo × Bool) := do
  let cards2 := removeCards second cards1
  let jokerCards2 := removeCards second jokerCards1
  if cards2 = [] then
    some (self, [completeInfo [first, second]], true)
  else
    let self := refreshJokers self jokerCards2
    let straights ← straightFlush self cards2
    let sets ← threeOfKind self cards2
    let allGroup2 := straights ++ sets
    if allGroup2 = [] then
      some (self, [looseInfo self [first, second] cards2 true true],
        decide (cards2.length ≤ validCardNumStop))
    else
      loopUntil
        (searchThirdGroup validCardNumStop first second cards2 allGroup2)
        self allGroup2

def searchFirstGroupWith
    (straightFlush threeOfKind :
      Combination → List PokerCard → Option (List CardGroup))
    (validCardNumStop : Nat) (allCards allJokerCards : List PokerCard)
    (straiGroup : List CardGroup) (self : Combination) (first : CardGroup) :
    Option (Combination × List CombinationInfo × Bool) := do
  let cards1 := removeCards first allCards
  let jokerCards1 := removeCards first allJokerCards
  if cards1 = [] then some (self, [], false)
  else
    let secondlifeGroup ← removeCardGroup cards1 straiGroup
    if secondlifeGroup = [] then
      some (self, [looseInfo self [first] cards1 true false], false)
    else
      loopUntil
        (searchSecondGroupWith straightFlush threeOfKind validCardNumStop
          first cards1 jokerCards1)
        self secondlifeGroup

def searchAllGroupWith
    (straightFlush threeOfKind :
      Combination → List PokerCard → Option (List CardGroup))
    (self : Combination) (allCards : List PokerCard)
    (validCardNumStop : Nat) :
    Option (Combination × List CombinationInfo) := do
  let allJokerCards := searchJokerCards self.jokerPoint allCards
  let self : Combination :=
    { self with
      jokerCards := allJokerCards
      jokerCombines :=
        caculateAllCardsCombines allJokerCards 1 allJokerCards.length }
  let straiGroup ← straightFlush self allCards
  let fistlifeGroup := searchPureStraightFlush straiGroup
  if fistlifeGroup = [] then
    some (self, [looseInfo self [] allCards false false])
  else
    let (self, cardCombs, _) ←
      loopUntil
        (searchFirstGroupWith straightFlush threeOfKind validCardNumStop
          allCards allJokerCards straiGroup)
        self fistlifeGroup
    some (self, cardCombs)

variable {straightFlush threeOfKind :
    Combination → List PokerCard → Option (List CardGroup)}
  {validCardNumStop : Nat}

example :
    searchAllGroupWith searchStraightFlush searchThreeOfKind =
      searchAllGroup :=
  rfl

def Agrees (straightFlush threeOfKind :
      Combination → List PokerCard → Option (List CardGroup))
    (call : Combination × List PokerCard) : Prop :=
  straightFlush call.1 call.2 = searchStraightFlush call.1 call.2 ∧
    threeOfKind call.1 call.2 = searchThreeOfKind call.1 call.2

theorem searchSecondGroupWith_eq {first second : CardGroup}
    {cards1 jokerCards1 : List PokerCard} {self : Combination}
    (h : ∀ call ∈ searchSecondGroupCalls cards1 jokerCards1 self second,
      Agrees straightFlush threeOfKind call) :
    searchSecondGroupWith straightFlush threeOfKind validCardNumStop first
        cards1 jokerCards1 self second =
      searchSecondGroup validCardNumStop first cards1 jokerCards1 self
        second := by
  unfold searchSecondGroupWith searchSecondGroup
  unfold searchSecondGroupCalls at h
  by_cases hnil : removeCards second cards1 = []
  · simp [hnil]
  · simp only [hnil, if_false, List.mem_singleton, forall_eq] at h ⊢
    rw [h.1, h.2]

theorem searchFirstGroupWith_eq {first : CardGroup}
    {allCards allJokerCards : List PokerCard} {groups : List CardGroup}
    {self : Combination}
    (h : ∀ call ∈ searchFirstGroupCalls validCardNumStop allCards
      allJokerCards groups self first,
      Agrees straightFlush threeOfKind call) :
    searchFirstGroupWith straightFlush threeOfKind validCardNumStop allCards
        allJokerCards groups self first =
      searchFirstGroup validCardNumStop allCards allJokerCards groups self
        first := by
  unfold searchFirstGroupWith searchFirstGroup
  unfold searchFirstGroupCalls at h
  by_cases hnil : removeCards first allCards = []
  · simp [hnil]
  · simp only [hnil, if_false] at h ⊢
    cases hgroup : removeCardGroup (removeCards first allCards) groups with
    | none => rfl
    | some secondlifeGroup =>
        rw [hgroup] at h
        simp only [Option.bind_eq_bind, Option.bind_some]
        rw [loopUntil_congr
          (fun s second hs => searchSecondGroupWith_eq hs) h]

theorem searchAllGroupWith_eq {self : Combination} {hand : List PokerCard}
    (h : ∀ call ∈ searchAllGroupCalls self hand validCardNumStop,
      Agrees straightFlush threeOfKind call) :
    searchAllGroupWith straightFlush threeOfKind self hand validCardNumStop =
      searchAllGroup self hand validCardNumStop := by
  obtain ⟨hfirst, hrest⟩ := List.forall_mem_cons.mp h
  unfold searchAllGroupWith searchAllGroup
  simp only at hfirst hrest ⊢
  rw [hfirst.1]
  split at hrest
  · rename_i hnone
    rw [hnone]
    rfl
  · rename_i straiGroup hsome
    rw [hsome]
    simp only [Option.bind_eq_bind, Option.bind_some]
    rw [loopUntil_congr (fun s first hs => searchFirstGroupWith_eq hs) hrest]

end Other

/--
At every call of the two searches the cache holds the jokers of the cards
being searched, in their order, and all their non-empty selections; a search
that would do anything else on a stale cache reports the same; and what the
two entry points return does not depend on the cache they start with.
-/
theorem jokerCache_never_stale (self : Combination) (hand : List PokerCard)
    (jokerPoint : Nat) :
    (∀ validCardNumStop, ∀ call ∈
      searchAllGroupCalls { self with jokerPoint := jokerPoint } hand
        validCardNumStop, call.1.Fresh call.2) ∧
    (∀ straightFlush threeOfKind,
      (∀ c cards, Combination.Fresh c cards →
        straightFlush c cards = searchStraightFlush c cards ∧
        threeOfKind c cards = searchThreeOfKind c cards) →
      ∀ validCardNumStop,
        searchAllGroupWith straightFlush threeOfKind
            { self with jokerPoint := jokerPoint } hand validCardNumStop =
          searchAllGroup { self with jokerPoint := jokerPoint } hand
            validCardNumStop) ∧
    ∀ self', defaultDeclare self hand jokerPoint =
        defaultDeclare self' hand jokerPoint ∧
      ∀ sort card, postBestCard sort self hand jokerPoint card =
        postBestCard sort self' hand jokerPoint card := by
  have hfresh := searchAllGroupCalls_fresh self hand jokerPoint
  refine ⟨hfresh, fun straightFlush threeOfKind hsame validCardNumStop => ?_,
    fun self' => ⟨rfl, fun sort card => rfl⟩⟩
  exact searchAllGroupWith_eq fun call hcall =>
    hsame call.1 call.2 (hfresh validCardNumStop call hcall)

end StarsGaming.Cards
