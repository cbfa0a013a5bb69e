import StarsGaming.Cards.Legal
import StarsGaming.Cards.Shorter

/-!
# The automatic discard

`postBestCard` looks for an arrangement of fourteen cards with at most one
card left over and gives away a loose card.  The search never gets to an
arrangement without loose cards: one of its groups would have four cards, and
the same arrangement without one of them ends the search earlier.
-/

namespace StarsGaming.Cards

open PokerCard
open StarsGaming.Foundation

/-! ## The loose card with the least relations -/

structure CardRelation where
  card : PokerCard
  relateDegree : Int
  deriving DecidableEq, Repr

/-- The first loop of `post_less_relation_card`, over sorted cards. -/
def splitRelations (jokerPoint : Nat) :
    List CardRelation → List CardRelation → List PokerCard →
      List CardRelation × List CardRelation
  | firstCards, repeatCards, [] => (firstCards, repeatCards)
  | firstCards, repeatCards, card :: rest =>
      if isJoker jokerPoint card then
        splitRelations jokerPoint firstCards repeatCards rest
      else
        match rest with
        | [] => (firstCards ++ [⟨card, 0⟩], repeatCards)
        | next :: _ =>
            if next = card then
              splitRelations jokerPoint firstCards
                (repeatCards ++ [⟨card, -1⟩]) rest
            else
              splitRelations jokerPoint (firstCards ++ [⟨card, 0⟩])
                repeatCards rest

def addRelation (relations : List CardRelation) (i j : Nat) (degree : Int) :
    List CardRelation :=
  let add := fun relation : CardRelation =>
    { relation with relateDegree := relation.relateDegree + degree }
  (relations.modify i add).modify j add

def pointDistance (card other : PokerCard) : Nat :=
  ((card.point : Int) - other.point).natAbs

/-- The loop over the cards behind `i`; a distance above two ends it. -/
def relateNext (i : Nat) : List CardRelation → List Nat → List CardRelation
  | relations, [] => relations
  | relations, j :: rest =>
      match relations[i]?, relations[j]? with
      | some it, some itNext =>
          if itNext.card.point = it.card.point then
            relateNext i (addRelation relations i j 2) rest
          else if pointDistance itNext.card it.card = 2 ∧
              itNext.card.color = it.card.color then
            relateNext i (addRelation relations i j 3) rest
          else if pointDistance itNext.card it.card = 1 ∧
              itNext.card.color = it.card.color then
            relateNext i (addRelation relations i j 4) rest
          else if 2 < pointDistance itNext.card it.card then relations
          else relateNext i relations rest
      | _, _ => relations

def relateAce (i : Nat) : List CardRelation → List Nat → List CardRelation
  | relations, [] => relations
  | relations, j :: rest =>
      match relations[i]?, relations[j]? with
      | some it, some itNext =>
          if itNext.card.point ≤ 3 then
            if itNext.card.color = it.card.color ∧
                itNext.card.point = P2 then
              relateAce i (addRelation relations i j 4) rest
            else if itNext.card.color = it.card.color ∧
                itNext.card.point = P3 then
              relateAce i (addRelation relations i j 3) rest
            else relateAce i relations rest
          else relations
      | _, _ => relations

def caculateCardsRelation (relations : List CardRelation) :
    List CardRelation :=
  (List.range relations.length).foldl
    (fun relations i =>
      let relations := relateNext i relations
        (List.range' (i + 1) (relations.length - (i + 1)))
      if (relations[i]?.map fun it => it.card.point) = some A then
        relateAce i relations (List.range relations.length)
      else relations)
    relations

def leastRelation (jokerPoint : Nat) (best : CardRelation) :
    List CardRelation → CardRelation
  | [] => best
  | relation :: rest =>
      if relation.relateDegree < best.relateDegree then
        leastRelation jokerPoint relation rest
      else if relation.relateDegree = best.relateDegree ∧
          getScore jokerPoint best.card < getScore jokerPoint relation.card then
        leastRelation jokerPoint relation rest
      else leastRelation jokerPoint best rest

/-- `none` is the failed assertion that there are cards. -/
def postLessRelationCard (handCard : List PokerCard) (jokerPoint : Nat) :
    Option PokerCard :=
  let cards := sortCards handCard
  let (firstCards, repeatCards) := splitRelations jokerPoint [] [] cards
  -- only jokers are left
  if firstCards = [] then cards.getLast?
  else
    match caculateCardsRelation firstCards ++
        caculateCardsRelation repeatCards with
    | [] => none
    | first :: rest => some (leastRelation jokerPoint first rest).card

/-! ## The highest card of a large group -/

def postOfGroup (jokerPoint : Nat) (cards : List PokerCard) : PokerCard :=
  let cards := sortCards cards
  let begin := cards.headD blank
  if (cards.filter fun card => !isJoker jokerPoint card).length ≤ 1 then
    (cards.filter (isJoker jokerPoint)).getLastD begin
  else (cards.filter fun card => !isJoker jokerPoint card).getLastD begin

def postValidGroupBigestCard (jokerPoint : Nat) :
    Int → PokerCard → List CardGroup → PokerCard
  | _, card, [] => card
  | score, card, group :: rest =>
      if group.cards.length < 4 then
        postValidGroupBigestCard jokerPoint score card rest
      else
        let post := postOfGroup jokerPoint group.cards
        if score < getScore jokerPoint post then
          postValidGroupBigestCard jokerPoint (getScore jokerPoint post) post
            rest
        else postValidGroupBigestCard jokerPoint score card rest

/-! ## The best arrangement -/

/-- `sort_combine_func`: first life, second life, then few loose cards. -/
def sortCombineFunc (left right : CombinationInfo) : Bool :=
  if left.isHasFirtlife = right.isHasFirtlife then
    if left.isHasFirtlife ∧
        left.isHasSecondelife ≠ right.isHasSecondelife then
      left.isHasSecondelife
    else left.validCards.length < right.validCards.length
  else left.isHasFirtlife

/--
`std::sort` puts the arrangements in the order of `sortCombineFunc`; where it
leaves equal ones is not specified.
-/
structure SortsInfos (sort : List CombinationInfo → List CombinationInfo) :
    Prop where
  perm : ∀ infos, (sort infos).Perm infos
  sorted : ∀ infos, (sort infos).Pairwise fun info info' =>
    sortCombineFunc info' info = false

/-- The second loop of `post_best_card`, with the least score so far. -/
def postBestFrom (jokerPoint : Nat) (itmin : CombinationInfo)
    (card : PokerCard) (minScore : Int) :
    List CombinationInfo → Option (PokerCard × Int)
  | [] => some (card, minScore)
  | it :: rest =>
      if itmin.isHasFirtlife ≠ it.isHasFirtlife ∨
          itmin.isHasSecondelife ≠ it.isHasSecondelife ∨
          itmin.validCards.length ≠ it.validCards.length then
        some (card, minScore)
      else if it.validCards = [] then
        some (postValidGroupBigestCard jokerPoint (-1) card it.cardGroup, 0)
      else do
        let postcard ← postLessRelationCard it.validCards jokerPoint
        let score : Int := it.score - getScore jokerPoint postcard
        if score < minScore then
          postBestFrom jokerPoint it postcard score rest
        else postBestFrom jokerPoint itmin card minScore rest

def postBestCard (sort : List CombinationInfo → List CombinationInfo)
    (self : Combination) (handCard : List PokerCard) (jokerPoint : Nat)
    (card : PokerCard) : Option (Combination × PokerCard × Int) := do
  let (self, cardCombs) ←
    searchAllGroup { self with jokerPoint := jokerPoint } handCard 1
  match sort cardCombs with
  | [] => none
  | itmin :: rest =>
      if itmin.validCards = [] then
        some (self,
          postValidGroupBigestCard jokerPoint (-1) card itmin.cardGroup, 0)
      else
        let card ← postLessRelationCard itmin.validCards jokerPoint
        let minScore : Int := itmin.score - getScore jokerPoint card
        let (card, score) ← postBestFrom jokerPoint itmin card minScore rest
        some (self, card, score)

/-! ## The discarded card is one of the loose cards -/

abbrev relationCards (relations : List CardRelation) : List PokerCard :=
  relations.map CardRelation.card

theorem addRelation_cards (relations : List CardRelation) (i j : Nat)
    (degree : Int) :
    relationCards (addRelation relations i j degree) =
      relationCards relations := by
  have hmodify : ∀ (relations : List CardRelation) (i : Nat),
      relationCards (relations.modify i fun relation =>
        { relation with relateDegree := relation.relateDegree + degree }) =
          relationCards relations := by
    intro relations i
    induction relations generalizing i with
    | nil => simp
    | cons relation rest ih =>
        cases i with
        | zero => rfl
        | succ i =>
            rw [List.modify_succ_cons, relationCards, List.map_cons]
            exact congrArg _ (ih i)
  rw [addRelation, hmodify, hmodify]

theorem relateNext_cards (i : Nat) (relations : List CardRelation)
    (js : List Nat) :
    relationCards (relateNext i relations js) = relationCards relations := by
  fun_induction relateNext i relations js with
  | case1 => rfl
  | case2 _ _ _ _ _ _ _ _ ih => rw [ih, addRelation_cards]
  | case3 _ _ _ _ _ _ _ _ _ ih => rw [ih, addRelation_cards]
  | case4 _ _ _ _ _ _ _ _ _ _ ih => rw [ih, addRelation_cards]
  | case5 => rfl
  | case6 _ _ _ _ _ _ _ _ _ _ _ ih => exact ih
  | case7 => rfl

theorem relateAce_cards (i : Nat) (relations : List CardRelation)
    (js : List Nat) :
    relationCards (relateAce i relations js) = relationCards relations := by
  fun_induction relateAce i relations js with
  | case1 => rfl
  | case2 _ _ _ _ _ _ _ _ _ ih => rw [ih, addRelation_cards]
  | case3 _ _ _ _ _ _ _ _ _ _ ih => rw [ih, addRelation_cards]
  | case4 _ _ _ _ _ _ _ _ _ _ ih => exact ih
  | case5 => rfl
  | case6 => rfl

theorem caculateCardsRelation_cards (relations : List CardRelation) :
    relationCards (caculateCardsRelation relations) =
      relationCards relations := by
  have hfold : ∀ (is : List Nat) (current : List CardRelation),
      relationCards (is.foldl (fun relations i =>
        let relations := relateNext i relations
          (List.range' (i + 1) (relations.length - (i + 1)))
        if (relations[i]?.map fun it => it.card.point) = some A then
          relateAce i relations (List.range relations.length)
        else relations) current) = relationCards current := by
    intro is
    induction is with
    | nil => exact fun _ => rfl
    | cons i is ih =>
        intro current
        rw [List.foldl_cons, ih]
        simp only
        split
        · rw [relateAce_cards, relateNext_cards]
        · rw [relateNext_cards]
  exact hfold _ relations

theorem splitRelations_subset {jokerPoint : Nat} {pool : List PokerCard}
    {firstCards repeatCards : List CardRelation} {cards : List PokerCard}
    (hfirst : relationCards firstCards ⊆ pool)
    (hrepeat : relationCards repeatCards ⊆ pool) (hcards : cards ⊆ pool) :
    relationCards
        (splitRelations jokerPoint firstCards repeatCards cards).1 ⊆ pool ∧
      relationCards
        (splitRelations jokerPoint firstCards repeatCards cards).2 ⊆ pool := by
  induction cards generalizing firstCards repeatCards with
  | nil => exact ⟨hfirst, hrepeat⟩
  | cons card rest ih =>
      obtain ⟨hcard, hrest⟩ := List.cons_subset.mp hcards
      have hsnoc : ∀ (relations : List CardRelation) (degree : Int),
          relationCards relations ⊆ pool →
          relationCards (relations ++ [⟨card, degree⟩]) ⊆ pool := by
        intro relations degree hsub
        simp only [relationCards, List.map_append, List.map_cons,
          List.map_nil]
        exact List.append_subset.mpr ⟨hsub, by simpa using hcard⟩
      rw [splitRelations.eq_def]
      simp only
      split
      · exact ih hfirst hrepeat hrest
      · split
        · exact ⟨hsnoc _ _ hfirst, hrepeat⟩
        · split
          · exact ih hfirst (hsnoc _ _ hrepeat) hrest
          · exact ih (hsnoc _ _ hfirst) hrepeat hrest

theorem leastRelation_mem (jokerPoint : Nat) (best : CardRelation)
    (rest : List CardRelation) :
    leastRelation jokerPoint best rest ∈ best :: rest := by
  induction rest generalizing best with
  | nil => simp [leastRelation]
  | cons relation rest ih =>
      rw [leastRelation]
      split
      · exact List.mem_cons_of_mem _ (ih relation)
      · split
        · exact List.mem_cons_of_mem _ (ih relation)
        · have := ih best
          simp only [List.mem_cons] at this ⊢
          tauto

theorem postLessRelationCard_mem {handCard : List PokerCard}
    (hne : handCard ≠ []) (jokerPoint : Nat) :
    ∃ card ∈ handCard,
      postLessRelationCard handCard jokerPoint = some card := by
  obtain ⟨hfirst, hrepeat⟩ := @splitRelations_subset jokerPoint
    (sortCards handCard) [] [] (sortCards handCard) (by simp) (by simp)
    (List.Subset.refl _)
  unfold postLessRelationCard
  simp only
  split
  · have hne' : sortCards handCard ≠ [] := by
      rw [← List.length_pos_iff, sortCards_length]
      exact List.length_pos_iff.mpr hne
    exact ⟨_, mem_sortCards.mp (List.getLast_mem hne'),
      List.getLast?_eq_some_getLast hne'⟩
  · rename_i hsome
    have hcards : ∀ relation ∈ caculateCardsRelation
          (splitRelations jokerPoint [] [] (sortCards handCard)).1 ++
        caculateCardsRelation
          (splitRelations jokerPoint [] [] (sortCards handCard)).2,
        relation.card ∈ handCard := by
      intro relation hmem
      have hin := List.mem_map_of_mem (f := CardRelation.card) hmem
      rw [List.map_append] at hin
      change relation.card ∈ relationCards _ ++ relationCards _ at hin
      rw [caculateCardsRelation_cards, caculateCardsRelation_cards] at hin
      rcases List.mem_append.mp hin with hin | hin
      · exact mem_sortCards.mp (hfirst hin)
      · exact mem_sortCards.mp (hrepeat hin)
    split
    · rename_i hnil
      have hempty := caculateCardsRelation_cards
        (splitRelations jokerPoint [] [] (sortCards handCard)).1
      rw [(List.append_eq_nil_iff.mp hnil).1] at hempty
      exact absurd (List.map_eq_nil_iff.mp hempty.symm) hsome
    · rename_i first rest heq
      rw [heq] at hcards
      exact ⟨_, hcards _ (leastRelation_mem jokerPoint first rest), rfl⟩

/-! ## What the levels of the search report -/

theorem Fill.arranges {jokerPoint : Nat} {hand cards loose : List PokerCard}
    {places : List Place} {melds : List CardGroup}
    (h : Fill (fun group place => place.Found jokerPoint hand group) places
      melds) (hperm : (laidCards melds ++ loose).Perm cards) :
    Arranges jokerPoint places cards loose := by
  refine ⟨melds.map CardGroup.cards, ?_, hperm⟩
  induction melds generalizing places loose cards with
  | nil => cases places <;> trivial
  | cons meld melds ih =>
      cases places with
      | nil => exact h.elim
      | cons place places =>
          exact ⟨h.1.accepts, @ih _ loose places h.2 (List.Perm.refl _)⟩

/--
A level of the search for a discard.  It returns early when the cards can be
laid down but for one, and an arrangement without loose cards consists of
groups of three.
-/
structure Discards (jokerPoint : Nat) (hand : List PokerCard)
    (places : List Place) (cards : List PokerCard) (least : Nat)
    (out : List CombinationInfo) (stop : Bool) : Prop where
  laid : ∀ info ∈ out, ∃ melds,
    Fill (fun group place => place.Found jokerPoint hand group) places melds ∧
      (laidCards melds ++ info.validCards).Perm cards ∧
      info.score = caculateCardScore info.validCards jokerPoint ∧
      (info.validCards = [] → ∀ meld ∈ melds, meld.cards.length = 3)
  ne_nil : least ≤ cards.length ∨ stop = true → out ≠ []
  stops : least ≤ cards.length → ∀ loose, loose.length ≤ 1 →
    Arranges jokerPoint places cards loose → stop = true

section Discards

variable {jokerPoint : Nat} {hand cards : List PokerCard}
  {places : List Place}

theorem Discards.complete (groups : List CardGroup) :
    Discards jokerPoint hand places [] 0 [completeInfo groups] true := by
  refine ⟨?_, by simp, by simp⟩
  intro info hinfo
  obtain rfl := List.mem_singleton.mp hinfo
  exact ⟨[], by cases places <;> trivial, by simp [laidCards, completeInfo],
    rfl, by simp⟩

theorem Discards.loose {self : Combination} (hready : self.Ready jokerPoint)
    (hnone : ∀ place rest, places = place :: rest → ∀ group,
      place.Accepts jokerPoint group → ¬ group.Subperm cards)
    {least : Nat} {stop : Bool} (hstop : least ≤ cards.length →
      cards.length ≤ 1 → stop = true) (groups : List CardGroup)
    (first second : Bool) (hne : cards ≠ []) :
    Discards jokerPoint hand places cards least
      [looseInfo self groups cards first second] stop := by
  refine ⟨?_, by simp, fun hleast loose hlen harranged => ?_⟩
  · intro info hinfo
    obtain rfl := List.mem_singleton.mp hinfo
    refine ⟨[], by cases places <;> trivial, by simp [laidCards, looseInfo],
      ?_, fun hnil => absurd hnil hne⟩
    simp only [looseInfo, hready.jokerPoint]
  · have hperm := harranged.perm_of_none hnone
    exact hstop hleast (hperm.length_eq ▸ hlen)

section Loop

variable {place : Place} {items : List CardGroup}
  {outs : List CombinationInfo} {stop : Bool}

private theorem arranges_shorter {group shorter : CardGroup}
    {melds : List CardGroup} {card : PokerCard}
    (hshort : (card :: shorter.cards).Perm group.cards)
    (hfill : Fill (fun group place => place.Found jokerPoint hand group) places
      melds) (hperm : (laidCards (group :: melds)).Perm cards) :
    Arranges jokerPoint places (removeCards shorter cards) [card] := by
  refine hfill.arranges (removeCards_perm_of_perm (.refl shorter.cards) ?_)
  rw [laidCards, List.flatMap_cons] at hperm
  refine List.Perm.trans ?_ hperm
  refine List.Perm.trans ?_ (hshort.append_right _)
  rw [← List.append_assoc]
  exact List.perm_append_comm

private theorem Discards.loop_laid (hsub : cards.Subperm hand)
    (hsound : ∀ group ∈ items, place.Found jokerPoint cards group)
    (hshort : Preceded Shortens Long items)
    (hrun : LoopRun (fun group => Discards jokerPoint hand places
      (removeCards group cards) 0) items outs stop) :
    ∀ info ∈ outs, ∃ melds,
      Fill (fun group place => place.Found jokerPoint hand group)
        (place :: places) melds ∧
      (laidCards melds ++ info.validCards).Perm cards ∧
      info.score = caculateCardScore info.validCards jokerPoint ∧
      (info.validCards = [] → ∀ meld ∈ melds, meld.cards.length = 3) := by
  intro info hinfo
  obtain ⟨pre, post, heq⟩ := List.append_of_mem hinfo
  obtain ⟨items₁, group, items₂, outs₁, out, stop', pre', post', rfl,
    hbefore, hlevel, rfl, -⟩ := hrun.split heq
  have hfound := hsound group (by simp)
  obtain ⟨melds, hfill, hperm, hscore, hthree⟩ :=
    hlevel.laid info (by simp)
  have hall := laidCards_cons_perm hfound.subperm hperm
  refine ⟨group :: melds, ⟨hfound.mono hsub, hfill⟩, hall, hscore, ?_⟩
  intro hnil meld hmeld
  rcases List.mem_cons.mp hmeld with rfl | hmeld
  · -- a longer group comes after one that leaves a single card
    by_contra hne
    have hlong : Long meld := by
      have := hfound.accepts.length
      simp only [Long]
      omega
    obtain ⟨shorter, hmem, card, hcard⟩ :=
      hshort items₁ meld items₂ rfl hlong
    obtain ⟨out', hlevel', -⟩ := hbefore.covers hmem
    rw [hnil, List.append_nil] at hall
    have := hlevel'.stops (Nat.zero_le _) [card] (by simp)
      (arranges_shorter hcard hfill hall)
    simp at this
  · exact hthree hnil meld hmeld

private theorem Discards.loop_stops (hitems : items ≠ [])
    (hsound : ∀ group ∈ items, place.Found jokerPoint cards group)
    (hcomplete : ∀ group, place.Accepts jokerPoint group →
      group.Subperm cards → ∃ found ∈ items, found.cards.Perm group)
    (hrun : LoopRun (fun group => Discards jokerPoint hand places
      (removeCards group cards) 0) items outs stop) {loose : List PokerCard}
    (hlen : loose.length ≤ 1)
    (harranged : Arranges jokerPoint (place :: places) cards loose) :
    stop = true := by
  rcases harranged.first_cases hcomplete with hperm | ⟨found, hfound, hrest⟩
  · obtain ⟨group, hgroup⟩ := List.exists_mem_of_ne_nil items hitems
    have hfound := hsound group hgroup
    have h₁ := hfound.accepts.length
    have h₂ := hfound.subperm.length_le
    have h₃ := hperm.length_eq
    omega
  · by_contra hstop
    obtain rfl : stop = false := by simpa using hstop
    obtain ⟨out, hlevel, -⟩ := hrun.covers hfound
    have := hlevel.stops (Nat.zero_le _) loose hlen hrest
    simp at this

theorem Discards.loop {least : Nat} (hitems : items ≠ [])
    (hsub : cards.Subperm hand)
    (hsound : ∀ group ∈ items, place.Found jokerPoint cards group)
    (hcomplete : ∀ group, place.Accepts jokerPoint group →
      group.Subperm cards → ∃ found ∈ items, found.cards.Perm group)
    (hshort : Preceded Shortens Long items)
    (hrun : LoopRun (fun group => Discards jokerPoint hand places
      (removeCards group cards) 0) items outs stop) :
    Discards jokerPoint hand (place :: places) cards least outs stop where
  laid := Discards.loop_laid hsub hsound hshort hrun
  ne_nil _ := by
    cases hrun with
    | done => exact absurd rfl hitems
    | stop h => exact h.ne_nil (Or.inl (Nat.zero_le _))
    | next h _ =>
        exact List.append_ne_nil_of_left_ne_nil
          (h.ne_nil (Or.inl (Nat.zero_le _))) _
  stops _ _ hlen harranged :=
    Discards.loop_stops hitems hsound hcomplete hrun hlen harranged

end Loop

end Discards

/-! ## The levels of the code -/

section Code

variable {jokerPoint : Nat} {hand : List PokerCard} {first second : CardGroup}

theorem removeCardGroup_shortened {cards : List PokerCard}
    {groups out : List CardGroup}
    (hblank : ∀ group ∈ groups, blank ∉ group.cards)
    (hshort : Preceded Shortens Long groups)
    (h : removeCardGroup cards groups = some out) :
    Preceded Shortens Long out := by
  unfold removeCardGroup at h
  split at h
  · obtain rfl := Option.some_inj.mp h
    refine hshort.filter fun shorter hshorter group hgroup hr hin => ?_
    rw [isInCards_iff (hblank group hgroup)] at hin
    rw [isInCards_iff (hblank shorter hshorter)]
    exact hr.subperm.trans hin
  · simp at h

theorem searchFourthGroup_discards {cards3 : List PokerCard}
    {third : CardGroup} {self : Combination} (hready : self.Ready jokerPoint)
    (hlen : cards3.length ≤ 5) {fourth : CardGroup}
    (hfound : Place.any.Found jokerPoint cards3 fourth) :
    ∃ self' out stop,
      searchFourthGroup 1 first second third cards3 self fourth =
        some (self', out, stop) ∧
      self'.Ready jokerPoint ∧
      Discards jokerPoint hand [] (removeCards fourth cards3) 0 out stop := by
  have htotal := removeCards_length hfound.subperm
  have hthree := hfound.accepts.length
  unfold searchFourthGroup
  simp only
  by_cases hnil : removeCards fourth cards3 = []
  · rw [if_pos hnil, hnil]
    exact ⟨self, _, true, rfl, hready, Discards.complete _⟩
  · have hpos := List.length_pos_iff.mpr hnil
    rw [if_neg hnil, if_pos (by omega)]
    exact ⟨self, _, _, rfl, hready, Discards.loose hready (by simp)
      (fun _ hone => decide_eq_true hone) _ true true hnil⟩

theorem searchThirdGroup_discards {cards2 : List PokerCard}
    {groups : List CardGroup} {self : Combination}
    (hready : self.Ready jokerPoint) (hs : Searchable cards2)
    (hlen : cards2.length ≤ 8) (hsub : cards2.Subperm hand)
    (hsound : ∀ group ∈ groups, Place.any.Found jokerPoint cards2 group)
    (hcomplete : ∀ group, Place.any.Accepts jokerPoint group →
      group.Subperm cards2 → ∃ found ∈ groups, found.cards.Perm group)
    (hshort : Preceded Shortens Long groups) {third : CardGroup}
    (hfound : Place.any.Found jokerPoint cards2 third) :
    ∃ self' out stop,
      searchThirdGroup 1 first second cards2 groups self third =
        some (self', out, stop) ∧
      self'.Ready jokerPoint ∧
      Discards jokerPoint hand [.any] (removeCards third cards2) 0 out
        stop := by
  have htotal := removeCards_length hfound.subperm
  have hthree := hfound.accepts.length
  unfold searchThirdGroup
  simp only
  by_cases hnil : removeCards third cards2 = []
  · rw [if_pos hnil, hnil]
    exact ⟨self, _, true, rfl, hready, Discards.complete _⟩
  · rw [if_neg hnil]
    have hblank : ∀ group ∈ groups, blank ∉ group.cards := fun group hgroup =>
      (hs.of_subperm (hsound group hgroup).subperm).blank_notMem
    obtain ⟨allGroup3, hremove, hmem⟩ :=
      @removeCardGroup_spec (removeCards third cards2) (by omega) groups hblank
    have hfits : ∀ group, Place.any.Accepts jokerPoint group →
        group.Subperm (removeCards third cards2) →
        ∃ found ∈ allGroup3, found.cards.Perm group := by
      intro group haccepts hgroup
      obtain ⟨found, hfound, hperm⟩ := hcomplete group haccepts
        (hgroup.trans (removeCards_subperm third cards2))
      exact ⟨found, (hmem found).mpr ⟨hfound, hperm.subperm.trans hgroup⟩,
        hperm⟩
    have hshort3 := removeCardGroup_shortened hblank hshort hremove
    rw [hremove]
    simp only [Option.bind_eq_bind, Option.bind_some]
    by_cases hnone : allGroup3 = []
    · rw [if_pos hnone]
      exact ⟨self, _, _, rfl, hready,
        Discards.loose hready (not_subperm_of_found_nil hfits hnone)
          (fun _ hone => decide_eq_true hone) _ true true hnil⟩
    · rw [if_neg hnone]
      have hsound3 : ∀ group ∈ allGroup3,
          Place.any.Found jokerPoint (removeCards third cards2) group := by
        intro group hgroup
        obtain ⟨hgroup, hfit⟩ := (hmem group).mp hgroup
        exact (hsound group hgroup).restrict hfit
      obtain ⟨self', outs, stop, hloop, hready', hrun⟩ :=
        loopUntil_run (fun fourth hfourth s hs' =>
          @searchFourthGroup_discards jokerPoint hand first second
            (removeCards third cards2) third s hs' (by omega) fourth
            (hsound3 fourth hfourth)) hready
      exact ⟨self', outs, stop, hloop, hready', Discards.loop hnone
        ((removeCards_subperm third cards2).trans hsub) hsound3 hfits hshort3
        hrun⟩

theorem searchSecondGroup_discards {cards1 jokerCards1 : List PokerCard}
    {self : Combination} (hready : self.Ready jokerPoint)
    (hs : Searchable cards1) (hlen : cards1.length ≤ 11)
    (hsub : cards1.Subperm hand)
    (hjokers : jokerCards1 = searchJokerCards jokerPoint cards1)
    (hfound : StraightOf jokerPoint cards1 second) :
    ∃ self' out stop,
      searchSecondGroup 1 first cards1 jokerCards1 self second =
        some (self', out, stop) ∧
      self'.Ready jokerPoint ∧
      Discards jokerPoint hand [.any, .any] (removeCards second cards1) 0 out
        stop := by
  have htotal := removeCards_length hfound.subperm
  have hthree := hfound.fillable.1
  have hsub2 := removeCards_subperm second cards1
  have hs2 := hs.of_subperm hsub2
  unfold searchSecondGroup
  simp only
  by_cases hnil : removeCards second cards1 = []
  · rw [if_pos hnil, hnil]
    exact ⟨self, _, true, rfl, hready, Discards.complete _⟩
  · rw [if_neg hnil]
    have hjokers2 : removeCards second jokerCards1 =
        searchJokerCards jokerPoint (removeCards second cards1) := by
      rw [hjokers, searchJokerCards, searchJokerCards, filter_removeCards]
    obtain ⟨hready2, hcaches⟩ := refreshJokers_caches hready hjokers2
    obtain ⟨straights, hstraight, hstraights, hfillable⟩ :=
      searchStraightFlush_spec hs2 hcaches
    obtain ⟨sets, hset, hsets, hshape, -⟩ :=
      searchThreeOfKind_spec hs2 hcaches
    have hshort := (straights_shortened hs2 hcaches hstraight).append
      (sets_shortened hcaches hset)
    rw [hready2.jokerPoint] at hstraights hfillable hsets hshape
    rw [hstraight, hset]
    simp only [Option.bind_eq_bind, Option.bind_some]
    have hcomplete := exists_found_append hfillable hshape
    by_cases hnone : straights ++ sets = []
    · rw [if_pos hnone]
      exact ⟨_, _, _, rfl, hready2,
        Discards.loose hready2 (not_subperm_of_found_nil hcomplete hnone)
          (fun _ hone => decide_eq_true hone) _ true true hnil⟩
    · rw [if_neg hnone]
      have hsound := found_append hstraights hsets
      obtain ⟨self', outs, stop, hloop, hready', hrun⟩ :=
        loopUntil_run (fun third hthird s hs' =>
          @searchThirdGroup_discards jokerPoint hand first second
            (removeCards second cards1) (straights ++ sets) s hs' hs2
            (by omega) (hsub2.trans hsub) hsound hcomplete hshort third
            (hsound third hthird)) hready2
      exact ⟨self', outs, stop, hloop, hready', Discards.loop hnone
        (hsub2.trans hsub) hsound hcomplete hshort hrun⟩

/-- After a first straight the loose cards alone do not end the search. -/
theorem searchFirstGroup_discards {self : Combination} (hs : Searchable hand)
    (hready : self.Ready jokerPoint) {first : CardGroup}
    (hfound : StraightOf jokerPoint hand first) :
    ∃ self' out stop,
      searchFirstGroup 1 hand (searchJokerCards jokerPoint hand)
          (allStraights jokerPoint hand) self first =
        some (self', out, stop) ∧
      self'.Ready jokerPoint ∧
      (Discards jokerPoint hand [.straight, .any, .any]
        (removeCards first hand) 2 out stop ∧
          (removeCards first hand = [] → out = [])) := by
  have htotal := removeCards_length hfound.subperm
  have hthree := hfound.fillable.1
  have hlen := hs.length
  have hsub := removeCards_subperm first hand
  have hs1 := hs.of_subperm hsub
  obtain ⟨hremove, hsound, hcomplete⟩ :=
    @straightsWithin_spec jokerPoint hand hs _ hsub
  unfold searchFirstGroup
  simp only
  by_cases hnil : removeCards first hand = []
  · rw [if_pos hnil, hnil]
    exact ⟨self, [], false, rfl, hready, ⟨by simp, by simp, by simp⟩,
      fun _ => rfl⟩
  · rw [if_neg hnil]
    obtain ⟨hstraights, hfound', -⟩ := @allStraights_spec jokerPoint hand hs
    have hshort := removeCardGroup_shortened
      (fun group hgroup =>
        (hs.of_subperm (hfound' group hgroup).subperm).blank_notMem)
      (straights_shortened hs ⟨rfl, rfl⟩ hstraights) hremove
    rw [hremove]
    simp only [Option.bind_eq_bind, Option.bind_some]
    by_cases hnone : straightsWithin jokerPoint hand
        (removeCards first hand) = []
    · rw [if_pos hnone]
      exact ⟨self, _, false, rfl, hready,
        Discards.loose hready
          (@not_subperm_of_found_nil _ _ _ .straight _ hcomplete hnone)
          (fun htwo hone => absurd hone (by omega)) _ true false hnil,
        fun hnil' => absurd hnil' hnil⟩
    · rw [if_neg hnone]
      have hjokers : removeCards first (searchJokerCards jokerPoint hand) =
          searchJokerCards jokerPoint (removeCards first hand) := by
        rw [searchJokerCards, searchJokerCards, filter_removeCards]
      obtain ⟨self', outs, stop, hloop, hready', hrun⟩ :=
        loopUntil_run (fun second hsecond s hs' =>
          @searchSecondGroup_discards jokerPoint hand first second
            (removeCards first hand) _ s hs' hs1 (by omega) hsub hjokers
            (hsound second hsecond)) hready
      exact ⟨self', outs, stop, hloop, hready', Discards.loop hnone hsub
        hsound hcomplete hshort hrun, fun hnil' => absurd hnil' hnil⟩

end Code

/-! ## Every arrangement has a loose card -/

structure LeavesLoose (jokerPoint : Nat) (hand : List PokerCard)
    (info : CombinationInfo) : Prop where
  ne_nil : info.validCards ≠ []
  score : info.score = caculateCardScore info.validCards jokerPoint
  arranged : info.validCards.Perm hand ∨
    ∃ first ∈ searchPureStraightFlush (allStraights jokerPoint hand),
      Arranges jokerPoint [.straight, .any, .any] (removeCards first hand)
        info.validCards

section Hand

variable {jokerPoint : Nat} {hand : List PokerCard}

theorem LeavesLoose.mem {info : CombinationInfo}
    (h : LeavesLoose jokerPoint hand info) {card : PokerCard}
    (hcard : card ∈ info.validCards) : card ∈ hand := by
  rcases h.arranged with hperm | ⟨first, -, groups, -, hperm⟩
  · exact hperm.subset hcard
  · exact (removeCards_subperm first hand).subset
      (hperm.subset (List.mem_append_right _ hcard))

theorem LeavesLoose.getScore_le {info : CombinationInfo}
    (h : LeavesLoose jokerPoint hand info) {card : PokerCard}
    (hcard : card ∈ info.validCards) :
    getScore jokerPoint card ≤ info.score := by
  rw [h.score, caculateCardScore_perm (List.perm_cons_erase hcard)]
  simp [caculateCardScore]

private theorem laidCards_length {melds : List CardGroup}
    (h : ∀ meld ∈ melds, meld.cards.length = 3) :
    (laidCards melds).length = 3 * melds.length := by
  induction melds with
  | nil => rfl
  | cons meld melds ih =>
      have h₁ := h meld List.mem_cons_self
      have h₂ := ih fun m hm => h m (List.mem_cons_of_mem _ hm)
      rw [laidCards, List.flatMap_cons, List.length_append, List.length_cons]
      rw [laidCards] at h₂
      omega

theorem Fill.length_le {β : Type*} {P : β → Place → Prop}
    {places : List Place} {items : List β} (h : Fill P places items) :
    items.length ≤ places.length := by
  induction items generalizing places with
  | nil => exact Nat.zero_le _
  | cons b items ih =>
      cases places with
      | nil => exact h.elim
      | cons place places => exact Nat.succ_le_succ (ih h.2)

theorem firstlife_shortened (hs : Searchable hand) :
    Preceded PureShortens LongPure
      (searchPureStraightFlush (allStraights jokerPoint hand)) := by
  obtain ⟨hstraights, -⟩ := @allStraights_spec jokerPoint hand hs
  exact (pure_straights_shortened hs ⟨rfl, rfl⟩ hstraights).filter
    fun _ _ _ _ hr _ => hr.1

private theorem firstRun_leavesLoose (hs : Searchable hand)
    (hlen : hand.length = 14) {outs : List CombinationInfo} {stop : Bool}
    (hrun : LoopRun (fun first out stop => Discards jokerPoint hand
        [.straight, .any, .any] (removeCards first hand) 2 out stop ∧
          (removeCards first hand = [] → out = []))
      (searchPureStraightFlush (allStraights jokerPoint hand)) outs stop)
    {info : CombinationInfo} (hinfo : info ∈ outs) :
    LeavesLoose jokerPoint hand info := by
  obtain ⟨-, hsound, -⟩ := @allStraights_spec jokerPoint hand hs
  have hfound : ∀ first ∈
      searchPureStraightFlush (allStraights jokerPoint hand),
      StraightOf jokerPoint hand first := fun first hfirst =>
    hsound first (List.mem_of_mem_filter hfirst)
  obtain ⟨pre, post, heq⟩ := List.append_of_mem hinfo
  obtain ⟨firsts₁, first, firsts₂, outs₁, out, stop', pre', post', hfirsts,
    hbefore, ⟨hlevel, hskipped⟩, rfl, -⟩ := hrun.split heq
  have hfirst : first ∈
      searchPureStraightFlush (allStraights jokerPoint hand) := by
    simp [hfirsts]
  obtain ⟨melds, hfill, hperm, hscore, hthree⟩ := hlevel.laid info (by simp)
  refine ⟨fun hnil => ?_, hscore,
    Or.inr ⟨first, hfirst, hfill.arranges hperm⟩⟩
  have hmelds := laidCards_length (hthree hnil)
  have hsize := hperm.length_eq
  have htotal := removeCards_length (hfound first hfirst).subperm
  have hcount := hfill.length_le
  rw [hnil, List.append_nil] at hsize
  simp only [List.length_cons, List.length_nil] at hcount
  by_cases hwhole : removeCards first hand = []
  · -- a first straight of the whole hand is not reported
    simp at hskipped
    exact hskipped hwhole
  · have hpos := List.length_pos_iff.mpr hwhole
    have hlong : LongPure first :=
      ⟨by simp only [Long]; omega, (List.mem_filter.mp hfirst).2, by omega⟩
    obtain ⟨shorter, hmem, -, card, hcard⟩ :=
      @firstlife_shortened jokerPoint hand hs firsts₁ first firsts₂ hfirsts
        hlong
    obtain ⟨out', ⟨hlevel', -⟩, -⟩ := hbefore.covers hmem
    have hshorter : shorter ∈
        searchPureStraightFlush (allStraights jokerPoint hand) := by
      rw [hfirsts]
      exact List.mem_append_left _ hmem
    have htotal' := removeCards_length (hfound shorter hshorter).subperm
    have hcards := hcard.length_eq
    rw [List.length_cons] at hcards
    have hall := laidCards_cons_perm (hfound first hfirst).subperm hperm
    rw [hnil, List.append_nil] at hall
    have := hlevel'.stops (by omega) [card] (by simp)
      (arranges_shorter hcard hfill hall)
    simp at this

theorem searchAllGroup_discards (self : Combination) (hs : Searchable hand)
    (hlen : hand.length = 14) :
    ∃ self' infos,
      searchAllGroup { self with jokerPoint := jokerPoint } hand 1 =
        some (self', infos) ∧
      infos ≠ [] ∧ ∀ info ∈ infos, LeavesLoose jokerPoint hand info := by
  obtain ⟨hstraights, hsound, -⟩ := @allStraights_spec jokerPoint hand hs
  have hready : (cachedFor jokerPoint hand).Ready jokerPoint := ⟨rfl, rfl⟩
  have hne : hand ≠ [] := List.length_pos_iff.mp (by omega)
  rw [searchAllGroup_eq, hstraights, Option.bind_some]
  by_cases hnone :
      searchPureStraightFlush (allStraights jokerPoint hand) = []
  · rw [if_pos hnone]
    refine ⟨_, _, rfl, by simp, fun info hinfo => ?_⟩
    obtain rfl := List.mem_singleton.mp hinfo
    exact ⟨hne, rfl, Or.inl (.refl _)⟩
  · rw [if_neg hnone]
    obtain ⟨self', outs, stop, hloop, -, hrun⟩ :=
      loopUntil_run (fun first
          (hfirst : first ∈
            searchPureStraightFlush (allStraights jokerPoint hand)) s hs' =>
        @searchFirstGroup_discards jokerPoint hand s hs hs' first
          (hsound first (List.mem_of_mem_filter hfirst))) hready
    rw [hloop]
    refine ⟨self', outs, rfl, ?_,
      fun info hinfo => firstRun_leavesLoose hs hlen hrun hinfo⟩
    cases stop with
    | true =>
        obtain ⟨firsts₁, first, firsts₂, out, -, -, ⟨hlevel, -⟩, hsuffix⟩ :=
          hrun.stopped
        intro hnil
        exact hlevel.ne_nil (Or.inr rfl)
          (List.suffix_nil.mp (hnil ▸ hsuffix))
    | false =>
        obtain ⟨first, hfirst, hthree⟩ := exists_first_of_three hs hnone
        obtain ⟨out, ⟨hlevel, -⟩, hout⟩ := hrun.covers hfirst
        have htotal := removeCards_length
          (hsound first (List.mem_of_mem_filter hfirst)).subperm
        have hne' := hlevel.ne_nil (Or.inl (by omega))
        exact List.ne_nil_of_mem (hout (List.head_mem hne'))

end Hand

/-! ## The hand without the discarded card -/

section Rest

variable {jokerPoint : Nat} {hand : List PokerCard}

private theorem fillable_drop_three {c0 c1 c2 : PokerCard}
    {rest : List PokerCard}
    (hsorted : (c0 :: c1 :: c2 :: rest).Pairwise (· ≤ ·))
    (hdeal : ∀ card ∈ c0 :: c1 :: c2 :: rest, Deal card)
    (hflush : Flush (nonJokers jokerPoint (c0 :: c1 :: c2 :: rest)))
    (hpure : isCardsPureStraight (c0 :: c1 :: c2 :: rest) = true)
    (hlen : 10 ≤ rest.length) : Fillable jokerPoint rest := by
  obtain ⟨c0', c1', c2', rest', heq, -, -, -, -, hcases⟩ :=
    isCardsPureStraight_cases hpure
  obtain ⟨rfl, rfl, rfl, rfl⟩ :
      c0 = c0' ∧ c1 = c1' ∧ c2 = c2' ∧ rest = rest' := by
    simpa using heq
  have htail : Flush (nonJokers jokerPoint (c2 :: rest)) :=
    hflush.sublist (List.Sublist.filter _ (by simp))
  have hrest : Flush (nonJokers jokerPoint rest) :=
    htail.sublist ((List.sublist_cons_self c2 rest).filter _)
  have hpoints : ∀ card ∈ nonJokers jokerPoint rest,
      5 ≤ card.point ∧ card.point ≤ A := by
    intro card hcard
    have hmem := nonJokers_subset hcard
    have hnon : ¬ isJoker jokerPoint card := by
      simpa using List.of_mem_filter hcard
    have hd := hdeal card (by simp [hmem])
    have hd0 := hdeal c0 (by simp)
    have hle : c2.point ≤ card.point := point_le_of_le
      (List.rel_of_pairwise_cons hsorted.of_cons.of_cons hmem)
    have hle' : c1.point ≤ c2.point := point_le_of_le
      (List.rel_of_pairwise_cons hsorted.of_cons (by simp))
    have hne : c2.point ≠ card.point := by
      intro hsame
      have hnon' : ¬ isJoker jokerPoint c2 := by
        rwa [isJoker_congr hsame]
      rw [nonJokers_cons hnon'] at htail
      have := (List.rel_of_pairwise_cons htail hcard).2
      omega
    have hpoint : card.point < JOKER1 := by
      simp only [isJoker, JOKER1, Bool.or_eq_true, decide_eq_true_eq,
        not_or] at hnon ⊢
      omega
    simp only [Deal, spades, diamonds, P2, A, JOKER1, JOKER2] at *
    omega
  refine ⟨by omega, _, .refl _, hrest, ?_⟩
  have htotal := length_nonJokers_add jokerPoint rest
  cases heq' : nonJokers jokerPoint rest with
  | nil => exact Or.inl rfl
  | cons first others =>
      rw [heq'] at htotal hpoints
      refine Or.inr (Or.inl ⟨first, others, rfl, ?_⟩)
      have hfirst := hpoints first (by simp)
      have hlast := hpoints _ (List.getLast_mem (List.cons_ne_nil first others))
      rw [gapsFrom_eq]
      simp only [List.length_cons, A] at *
      omega

theorem AllRun.reaches_pure (hs : Searchable hand) (hlen : 13 ≤ hand.length)
    {infos : List CombinationInfo} {stop : Bool}
    (hrun : AllRun jokerPoint hand infos stop) {first : CardGroup}
    (hfirst : first ∈ searchPureStraightFlush (allStraights jokerPoint hand))
    {loose : List PokerCard}
    (harranged : Arranges jokerPoint [.straight, .any, .any]
      (removeCards first hand) loose) :
    Reaches infos (caculateCardScore loose jokerPoint) := by
  by_cases hwhole : removeCards first hand = []
  · obtain ⟨-, hsound, -⟩ := @allStraights_spec jokerPoint hand hs
    have hfound := hsound first (List.mem_of_mem_filter hfirst)
    have hpure := (List.mem_filter.mp hfirst).2
    have hsorted := hfound.sorted.resolve_right
      (nonJokers_ne_nil_of_pure hpure)
    obtain ⟨-, cards, hcards, hflush, -⟩ := hfound.fillable
    have hnon := nonJokers_sortCards_eq hcards hflush
    rw [sortCards_eq_of_perm (.refl _) hsorted] at hnon
    have hall := removeCards_perm hfound.subperm
    rw [hwhole, List.append_nil] at hall
    obtain ⟨groups, -, hperm⟩ := harranged
    rw [hwhole] at hperm
    obtain rfl : loose = [] := (List.append_eq_nil_iff.mp hperm.eq_nil).2
    obtain ⟨c0, c1, c2, rest, heq, three, hthree, hcards'⟩ :=
      exists_first_take hs hfirst
    rw [heq] at hall hsorted hpure hnon
    have hrest : rest.Perm (removeCards three hand) :=
      removeCards_perm_of_perm (.refl _) (by rw [hcards']; exact hall)
    have hsize := hall.length_eq
    simp only [List.length_cons] at hsize
    refine hrun.reaches hs hthree (fun hnil => ?_)
      ⟨[rest], ⟨?_, trivial⟩, by simpa using hrest⟩
    · rw [hnil] at hrest
      rw [hrest.eq_nil, List.length_nil] at hsize
      omega
    · exact fillable_drop_three hsorted
        (fun card hcard => hs.deal card (hall.subset hcard))
        (hnon ▸ hflush) hpure (by omega)
  · exact hrun.reaches hs hfirst hwhole harranged

theorem LeavesLoose.reaches {info : CombinationInfo}
    (h : LeavesLoose jokerPoint hand info) (hs : Searchable hand)
    (hlen : hand.length = 14) {card : PokerCard}
    (hcard : card ∈ info.validCards) {rest : List PokerCard}
    (hperm : (card :: rest).Perm hand) {infos : List CombinationInfo}
    {stop : Bool} (hrun : AllRun jokerPoint rest infos stop) :
    Reaches infos (info.score - getScore jokerPoint card) := by
  have hsubperm : rest.Subperm hand :=
    (List.sublist_cons_self card rest).subperm.trans hperm.subperm
  have hs' := hs.of_subperm hsubperm
  have hsize := hperm.length_eq
  rw [List.length_cons, hlen] at hsize
  have herase := List.perm_cons_erase hcard
  have hscore : info.score - getScore jokerPoint card =
      caculateCardScore (info.validCards.erase card) jokerPoint := by
    rw [h.score, caculateCardScore_perm herase]
    simp [caculateCardScore]
  rw [hscore]
  rcases h.arranged with hloose | ⟨first, hfirst, groups, hfill, hgroups⟩
  · have hrest : (info.validCards.erase card).Perm rest :=
      (List.perm_cons card).mp
        (herase.symm.trans (hloose.trans hperm.symm))
    rw [caculateCardScore_perm hrest]
    exact hrun.reaches_hand hs' (by omega)
  · obtain ⟨-, hsound, -⟩ := @allStraights_spec jokerPoint hand hs
    obtain ⟨-, hsound', hcomplete'⟩ := @allStraights_spec jokerPoint rest hs'
    have hfound := hsound first (List.mem_of_mem_filter hfirst)
    have hpure := (List.mem_filter.mp hfirst).2
    have hsorted := hfound.sorted.resolve_right
      (nonJokers_ne_nil_of_pure hpure)
    -- the first straight is still found and is still pure
    have hrest : (first.cards ++ (groups.flatten ++
        info.validCards.erase card)).Perm rest := by
      refine (List.perm_cons card).mp (List.Perm.trans ?_ hperm.symm)
      refine List.Perm.trans ?_ ((hgroups.append_left first.cards).trans
        (removeCards_perm hfound.subperm))
      rw [List.perm_iff_count]
      intro other
      have := herase.count_eq other
      simp only [List.count_append, List.count_cons] at this ⊢
      omega
    obtain ⟨first', hfirst', hsame⟩ := hcomplete' first.cards hfound.fillable
      ((List.sublist_append_left _ _).subperm.trans hrest.subperm)
    have heq := (hsound' first' hfirst').eq_of_perm_pure hsorted hpure hsame
    have hpure' : first' ∈
        searchPureStraightFlush (allStraights jokerPoint rest) :=
      List.mem_filter.mpr ⟨hfirst', by rw [heq]; exact hpure⟩
    exact hrun.reaches_pure hs' (by omega) hpure'
      ⟨groups, hfill, removeCards_perm_of_perm hsame hrest⟩

end Rest

/-! ## The automatic discard is sound -/

def Discarded (jokerPoint : Nat) (infos : List CombinationInfo)
    (card : PokerCard) (score : Int) : Prop :=
  ∃ info ∈ infos, card ∈ info.validCards ∧
    score = (info.score : Int) - getScore jokerPoint card

private theorem postBestFrom_discarded {jokerPoint : Nat}
    {infos rest : List CombinationInfo} {itmin : CombinationInfo}
    {card : PokerCard} {minScore : Int}
    (hinfos : ∀ info ∈ infos, info.validCards ≠ []) (hrest : rest ⊆ infos)
    (h : Discarded jokerPoint infos card minScore) :
    ∃ card' score, postBestFrom jokerPoint itmin card minScore rest =
        some (card', score) ∧ Discarded jokerPoint infos card' score := by
  induction rest generalizing itmin card minScore with
  | nil => exact ⟨card, minScore, rfl, h⟩
  | cons it rest ih =>
      obtain ⟨hit, hrest'⟩ := List.cons_subset.mp hrest
      rw [postBestFrom]
      split
      · exact ⟨card, minScore, rfl, h⟩
      · rw [if_neg (hinfos it hit)]
        obtain ⟨postcard, hpost, heq⟩ :=
          postLessRelationCard_mem (hinfos it hit) jokerPoint
        rw [heq]
        simp only [Option.bind_eq_bind, Option.bind_some]
        split
        · exact ih hrest' ⟨it, hit, hpost, rfl⟩
        · exact ih hrest' h

theorem postBestCard_discarded
    {sort : List CombinationInfo → List CombinationInfo}
    (hsort : SortsInfos sort) (self : Combination) {hand : List PokerCard}
    (hs : Searchable hand) (hlen : hand.length = 14) (jokerPoint : Nat)
    (card : PokerCard) :
    ∃ self' card' score infos,
      postBestCard sort self hand jokerPoint card =
        some (self', card', score) ∧
      (∀ info ∈ infos, LeavesLoose jokerPoint hand info) ∧
      Discarded jokerPoint infos card' score := by
  obtain ⟨self', infos, hsearch, hne, hloose⟩ :=
    @searchAllGroup_discards jokerPoint hand self hs hlen
  have hperm := hsort.perm infos
  have hinfos : ∀ info ∈ sort infos, info.validCards ≠ [] := fun info hinfo =>
    (hloose info (hperm.subset hinfo)).ne_nil
  rw [postBestCard, hsearch]
  simp only [Option.bind_eq_bind, Option.bind_some]
  cases heq : sort infos with
  | nil => exact absurd (heq ▸ hperm).symm.eq_nil hne
  | cons itmin rest =>
      rw [heq] at hinfos hperm
      have hitmin := hinfos itmin List.mem_cons_self
      obtain ⟨card', hcard', hpost⟩ :=
        postLessRelationCard_mem hitmin jokerPoint
      obtain ⟨card'', score, hloop, hdiscarded⟩ :=
        @postBestFrom_discarded jokerPoint (itmin :: rest) rest itmin card' _
          hinfos (List.subset_cons_self _ _)
          ⟨itmin, List.mem_cons_self, hcard', rfl⟩
      refine ⟨self', card'', score, itmin :: rest, ?_,
        fun info hinfo => hloose info (hperm.subset hinfo), hdiscarded⟩
      simp [hitmin, hpost, hloop]

/--
The discarded card is one of the hand, and however the remaining cards are
ordered, the automatic declare scores them no higher than was reported.
-/
theorem postBestCard_sound
    {sort : List CombinationInfo → List CombinationInfo}
    (hsort : SortsInfos sort) (self : Combination) {hand : List PokerCard}
    (hdeck : FromDeck hand) (hlen : hand.length = 14) (jokerPoint : Nat)
    (card : PokerCard) :
    ∃ self' card' score,
      postBestCard sort self hand jokerPoint card =
        some (self', card', score) ∧
      card' ∈ hand ∧
      ∀ rest, (card' :: rest).Perm hand → ∀ self₁ : Combination,
        ∃ self₂ score' groups,
          defaultDeclare self₁ rest jokerPoint =
            some (self₂, score', groups) ∧ (score' : Int) ≤ score := by
  have hs := hdeck.searchable (by omega)
  obtain ⟨self', card', score, infos, hpost, hloose, info, hinfo, hcard,
    hscore⟩ := postBestCard_discarded hsort self hs hlen jokerPoint card
  have hinfo' := hloose info hinfo
  refine ⟨self', card', score, hpost, hinfo'.mem hcard,
    fun rest hperm self₁ => ?_⟩
  have hsize := hperm.length_eq
  rw [List.length_cons, hlen] at hsize
  have hs' := hs.of_subperm
    ((List.sublist_cons_self card' rest).subperm.trans hperm.subperm)
  obtain ⟨self₂, infos', stop, hsearch, hrun⟩ :=
    @searchAllGroup_run jokerPoint rest self₁ hs'
      (List.length_pos_iff.mp (by omega))
  obtain ⟨best, hbest, hle⟩ :=
    chooseInfo_le (hinfo'.reaches hs hlen hcard hperm hrun)
  refine ⟨self₂, best.score, best.cardGroup,
    by simp [defaultDeclare, hsearch, hbest], ?_⟩
  have := hinfo'.getScore_le hcard
  omega

/-- A stable sort is one of those that `std::sort` may be. -/
def stableSort (infos : List CombinationInfo) : List CombinationInfo :=
  infos.mergeSort fun info info' => !sortCombineFunc info' info

theorem stableSort_sorts : SortsInfos stableSort := by
  refine ⟨fun infos => List.mergeSort_perm infos _, fun infos => ?_⟩
  refine (List.pairwise_mergeSort ?_ ?_ infos).imp fun h => by simpa using h
  · intro first second third
    unfold sortCombineFunc
    grind
  · intro first second
    unfold sortCombineFunc
    grind

def discardHand : List PokerCard := ⟨2, 13⟩ :: sampleHand

theorem postBestCard_discardHand :
    ∃ self' card' score,
      postBestCard stableSort ⟨[], [], 0⟩ discardHand 12 blank =
        some (self', card', score) ∧
      card' ∈ discardHand ∧
      ∀ rest, (card' :: rest).Perm discardHand → ∀ self₁ : Combination,
        ∃ self₂ score' groups,
          defaultDeclare self₁ rest 12 = some (self₂, score', groups) ∧
            (score' : Int) ≤ score :=
  postBestCard_sound stableSort_sorts ⟨[], [], 0⟩ (by decide +kernel)
    (by decide) 12 blank

end StarsGaming.Cards
