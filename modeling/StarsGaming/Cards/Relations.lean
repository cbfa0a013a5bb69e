import StarsGaming.Cards.Discard
import StarsGaming.Foundation.Pairs

/-!
# The relations of loose cards

`caculateCardsRelation` looks at the cards behind each card until one is more
than two points away, and for an Ace once more at the front of the list.  On
sorted cards every pair adds its weight to both of its cards exactly once.
-/

namespace StarsGaming.Cards

open PokerCard
open StarsGaming.Foundation

/-! ## The pairwise definition -/

def Adjacent (card other : PokerCard) : Prop :=
  pointDistance card other = 1 ∨
    (card.point = A ∧ other.point = P2) ∨ (card.point = P2 ∧ other.point = A)

instance (card other : PokerCard) : Decidable (Adjacent card other) :=
  inferInstanceAs (Decidable (_ ∨ _))

def TwoApart (card other : PokerCard) : Prop :=
  pointDistance card other = 2 ∨
    (card.point = A ∧ other.point = P3) ∨ (card.point = P3 ∧ other.point = A)

instance (card other : PokerCard) : Decidable (TwoApart card other) :=
  inferInstanceAs (Decidable (_ ∨ _))

def relationWeight (card other : PokerCard) : Int :=
  if card.point = other.point then 2
  else if card.color = other.color ∧ Adjacent card other then 4
  else if card.color = other.color ∧ TwoApart card other then 3
  else 0

/-- The weights of the entry `k` with all other entries. -/
def relateDegreeWith (relations : List CardRelation) (k : Nat)
    (card : PokerCard) : Int :=
  ((relations.eraseIdx k).map fun other =>
    relationWeight card other.card).sum

/-! ## What the two loops see of a pair -/

def nextWeight (card other : PokerCard) : Int :=
  if other.point = card.point then 2
  else if pointDistance other card = 2 ∧ other.color = card.color then 3
  else if pointDistance other card = 1 ∧ other.color = card.color then 4
  else 0

def aceWeight (card other : PokerCard) : Int :=
  if card.point = A then
    if other.color = card.color ∧ other.point = P2 then 4
    else if other.color = card.color ∧ other.point = P3 then 3
    else 0
  else 0

theorem pointDistance_comm (card other : PokerCard) :
    pointDistance card other = pointDistance other card := by
  unfold pointDistance
  omega

theorem pointDistance_eq_iff {card other : PokerCard} {distance : Nat} :
    pointDistance card other = distance ↔
      card.point = other.point + distance ∨
        other.point = card.point + distance := by
  unfold pointDistance
  omega

theorem nextWeight_comm (card other : PokerCard) :
    nextWeight card other = nextWeight other card := by
  unfold nextWeight
  rw [pointDistance_comm other card]
  simp only [eq_comm]

theorem nextWeight_eq_zero {card other : PokerCard}
    (h : card.point + 2 < other.point) : nextWeight card other = 0 := by
  unfold nextWeight pointDistance
  rw [if_neg (by omega), if_neg (by omega), if_neg (by omega)]

theorem aceWeight_eq_zero {card other : PokerCard} (h : 3 < other.point) :
    aceWeight card other = 0 := by
  simp only [aceWeight, A, P2, P3]
  split
  · rw [if_neg (by omega), if_neg (by omega)]
  · rfl

@[simp] theorem aceWeight_self (card : PokerCard) : aceWeight card card = 0 := by
  simp only [aceWeight, A, P2, P3]
  split
  · rw [if_neg (by omega), if_neg (by omega)]
  · rfl

theorem relationWeight_eq (card other : PokerCard) :
    relationWeight card other =
      nextWeight card other + (aceWeight card other + aceWeight other card) := by
  obtain ⟨color, point⟩ := card
  obtain ⟨color', point'⟩ := other
  simp only [relationWeight, nextWeight, aceWeight, Adjacent, TwoApart,
    pointDistance_eq_iff, A, P2, P3]
  by_cases hcolor : color = color'
  · subst hcolor
    simp only [true_and, and_true]
    grind
  · simp only [hcolor, Ne.symm hcolor, false_and, and_false, if_false]
    grind

/-! ## Entries that gain degrees -/

def gain (degree : Nat → Int) (relations : List CardRelation) :
    List CardRelation :=
  relations.mapIdx fun k relation =>
    { relation with relateDegree := relation.relateDegree + degree k }

section Gain

variable {relations : List CardRelation}

theorem gain_congr {degree degree' : Nat → Int}
    (h : ∀ k < relations.length, degree k = degree' k) :
    gain degree relations = gain degree' relations := by
  unfold gain
  refine List.ext_getElem (by simp) fun k hk hk' => ?_
  simp only [List.getElem_mapIdx]
  rw [h k (by simpa using hk)]

@[simp] theorem gain_zero : gain (fun _ => 0) relations = relations := by
  refine List.ext_getElem (by simp [gain]) fun k hk hk' => ?_
  simp [gain]

theorem gain_gain (degree degree' : Nat → Int) :
    gain degree (gain degree' relations) =
      gain (fun k => degree' k + degree k) relations := by
  refine List.ext_getElem (by simp [gain]) fun k hk hk' => ?_
  simp [gain, add_assoc]

@[simp] theorem gain_cards (degree : Nat → Int) :
    relationCards (gain degree relations) = relationCards relations := by
  refine List.ext_getElem (by simp [gain]) fun k hk hk' => ?_
  simp [gain]

theorem addRelation_eq_gain (i j : Nat) (degree : Int) :
    addRelation relations i j degree =
      gain (pairShare i j degree) relations := by
  refine List.ext_getElem (by simp [gain, addRelation]) fun k hk hk' => ?_
  simp only [addRelation, gain, pairShare, List.getElem_modify,
    List.getElem_mapIdx, @eq_comm _ k]
  split <;> split <;> simp [add_assoc]

@[simp] theorem addRelation_zero (i j : Nat) :
    addRelation relations i j 0 = relations := by
  have hzero : pairShare i j (0 : Int) = fun _ => 0 :=
    funext (pairShare_zero i j)
  rw [addRelation_eq_gain, hzero, gain_zero]

theorem gain_shares_of_zero (i : Nat) {js : List Nat} {weight : Nat → Int}
    (hzero : ∀ j ∈ js, weight j = 0) :
    gain (fun k => (js.map fun j => pairShare i j (weight j) k).sum)
      relations = relations := by
  refine Eq.trans (gain_congr fun k _ => ?_) gain_zero
  refine List.sum_eq_zero fun share hshare => ?_
  obtain ⟨j, hmem, rfl⟩ := List.mem_map.mp hshare
  rw [hzero j hmem, pairShare_zero]

end Gain

/-! ## The loops -/

section Loops

variable {relations : List CardRelation} {it itNext : CardRelation}
  {i j : Nat}

theorem relateNext_cons (hit : relations[i]? = some it)
    (hnext : relations[j]? = some itNext) (js : List Nat) :
    relateNext i relations (j :: js) =
      if 2 < pointDistance itNext.card it.card then relations
      else relateNext i
        (addRelation relations i j (nextWeight it.card itNext.card)) js := by
  rw [relateNext, hit, hnext]
  simp only [nextWeight]
  have hsame : itNext.card.point = it.card.point →
      pointDistance itNext.card it.card = 0 := by
    intro hpoint
    rw [pointDistance_eq_iff]
    omega
  split
  · rename_i hpoint
    rw [hsame hpoint, if_neg (by omega)]
  · split
    · rename_i htwo
      rw [htwo.1, if_neg (by omega)]
    · split
      · rename_i hone
        rw [hone.1, if_neg (by omega)]
      · rw [addRelation_zero]

theorem relateAce_cons (hit : relations[i]? = some it)
    (hnext : relations[j]? = some itNext) (hace : it.card.point = A)
    (js : List Nat) :
    relateAce i relations (j :: js) =
      if itNext.card.point ≤ 3 then relateAce i
        (addRelation relations i j (aceWeight it.card itNext.card)) js
      else relations := by
  rw [relateAce, hit, hnext]
  simp only [aceWeight, if_pos hace]
  split
  · split
    · rfl
    · split
      · rfl
      · rw [addRelation_zero]
  · rfl

end Loops

section Sorted

variable {cards : List PokerCard} {relations : List CardRelation}

def cardAt (cards : List PokerCard) (j : Nat) : PokerCard :=
  cards.getD j blank

theorem exists_relation (hcards : relationCards relations = cards) {j : Nat}
    (hj : j < cards.length) :
    ∃ it, relations[j]? = some it ∧ it.card = cardAt cards j := by
  subst hcards
  rw [relationCards, List.length_map] at hj
  refine ⟨relations[j], List.getElem?_eq_getElem hj, ?_⟩
  rw [cardAt, List.getD_eq_getElem _ _ (by simpa using hj)]
  simp

theorem relateNext_eq_gain {i : Nat} (hi : i < cards.length) {js : List Nat}
    (hjs : ∀ j ∈ js, j < cards.length)
    (hnext : ∀ j ∈ js, (cardAt cards i).point ≤ (cardAt cards j).point)
    (hsorted : js.Pairwise fun j j' =>
      (cardAt cards j).point ≤ (cardAt cards j').point)
    (hcards : relationCards relations = cards) :
    relateNext i relations js = gain (fun k => (js.map fun j =>
      pairShare i j (nextWeight (cardAt cards i) (cardAt cards j)) k).sum)
        relations := by
  induction js generalizing relations with
  | nil => simp [relateNext]
  | cons j js ih =>
      obtain ⟨it, hit, hcard⟩ := exists_relation hcards hi
      obtain ⟨itNext, hitNext, hcard'⟩ :=
        exists_relation hcards (hjs j List.mem_cons_self)
      have hle := hnext j List.mem_cons_self
      obtain ⟨hfirst, hrest⟩ := List.pairwise_cons.mp hsorted
      rw [relateNext_cons hit hitNext, hcard, hcard']
      split
      · rename_i hfar
        have hzero : ∀ j' ∈ j :: js,
            nextWeight (cardAt cards i) (cardAt cards j') = 0 := by
          intro j' hmem
          have hle' : (cardAt cards j).point ≤ (cardAt cards j').point := by
            rcases List.mem_cons.mp hmem with rfl | hmem
            · exact Nat.le_refl _
            · exact hfirst j' hmem
          unfold pointDistance at hfar
          exact nextWeight_eq_zero (by omega)
        exact (gain_shares_of_zero i hzero).symm
      · rw [ih (fun j' hmem => hjs j' (List.mem_cons_of_mem _ hmem))
            (fun j' hmem => hnext j' (List.mem_cons_of_mem _ hmem)) hrest
            (by rw [addRelation_cards, hcards]), addRelation_eq_gain,
          gain_gain]
        rfl

theorem relateAce_eq_gain {i : Nat} (hi : i < cards.length)
    (hace : (cardAt cards i).point = A) {js : List Nat}
    (hjs : ∀ j ∈ js, j < cards.length)
    (hsorted : js.Pairwise fun j j' =>
      (cardAt cards j).point ≤ (cardAt cards j').point)
    (hcards : relationCards relations = cards) :
    relateAce i relations js = gain (fun k => (js.map fun j =>
      pairShare i j (aceWeight (cardAt cards i) (cardAt cards j)) k).sum)
        relations := by
  induction js generalizing relations with
  | nil => simp [relateAce]
  | cons j js ih =>
      obtain ⟨it, hit, hcard⟩ := exists_relation hcards hi
      obtain ⟨itNext, hitNext, hcard'⟩ :=
        exists_relation hcards (hjs j List.mem_cons_self)
      obtain ⟨hfirst, hrest⟩ := List.pairwise_cons.mp hsorted
      rw [relateAce_cons hit hitNext (hcard ▸ hace), hcard, hcard']
      split
      · rw [ih (fun j' hmem => hjs j' (List.mem_cons_of_mem _ hmem)) hrest
            (by rw [addRelation_cards, hcards]), addRelation_eq_gain,
          gain_gain]
        rfl
      · rename_i hhigh
        refine (gain_shares_of_zero i fun j' hmem => ?_).symm
        have hle : (cardAt cards j).point ≤ (cardAt cards j').point := by
          rcases List.mem_cons.mp hmem with rfl | hmem
          · exact Nat.le_refl _
          · exact hfirst j' hmem
        exact aceWeight_eq_zero (by omega)

end Sorted

/-! ## All pairs -/

/-- What the round of `i` adds to the pair of `i` and `j`. -/
def roundWeight (cards : List PokerCard) (i j : Nat) : Int :=
  (if i < j then nextWeight (cardAt cards i) (cardAt cards j) else 0) +
    aceWeight (cardAt cards i) (cardAt cards j)

def relateRound (relations : List CardRelation) (i : Nat) :
    List CardRelation :=
  let relations := relateNext i relations
    (List.range' (i + 1) (relations.length - (i + 1)))
  if (relations[i]?.map fun it => it.card.point) = some A then
    relateAce i relations (List.range relations.length)
  else relations

theorem caculateCardsRelation_eq_foldl (relations : List CardRelation) :
    caculateCardsRelation relations =
      (List.range relations.length).foldl relateRound relations :=
  rfl

section Rounds

variable {cards : List PokerCard} {relations : List CardRelation}

theorem cardAt_point_le (hsorted : cards.Pairwise (· ≤ ·)) {j j' : Nat}
    (hj' : j' < cards.length) (hle : j ≤ j') :
    (cardAt cards j).point ≤ (cardAt cards j').point := by
  have hj : j < cards.length := by omega
  rw [cardAt, cardAt, List.getD_eq_getElem _ _ hj,
    List.getD_eq_getElem _ _ hj']
  rcases Nat.lt_or_eq_of_le hle with hlt | rfl
  · exact point_le_of_le (List.pairwise_iff_getElem.mp hsorted _ _ hj hj' hlt)
  · exact Nat.le_refl _

theorem relationCards_length (hcards : relationCards relations = cards) :
    relations.length = cards.length := by
  rw [← hcards, relationCards, List.length_map]

theorem relateNext_round (hsorted : cards.Pairwise (· ≤ ·)) {i : Nat}
    (hi : i < cards.length) (hcards : relationCards relations = cards) :
    relateNext i relations
        (List.range' (i + 1) (relations.length - (i + 1))) =
      gain (fun k => ∑ j ∈ Finset.range cards.length, pairShare i j
        (if i < j then nextWeight (cardAt cards i) (cardAt cards j) else 0) k)
        relations := by
  rw [relationCards_length hcards]
  have hbehind : ∀ j ∈ List.range' (i + 1) (cards.length - (i + 1)),
      i ≤ j ∧ j < cards.length := by
    intro j hmem
    rw [List.mem_range'_1] at hmem
    omega
  have hordered : (List.range' (i + 1) (cards.length - (i + 1))).Pairwise
      fun j j' => (cardAt cards j).point ≤ (cardAt cards j').point := by
    refine List.Pairwise.imp_of_mem (fun _ hmem hlt => ?_)
      List.pairwise_lt_range'
    exact cardAt_point_le hsorted (hbehind _ hmem).2 (Nat.le_of_lt hlt)
  rw [relateNext_eq_gain hi (fun j hmem => (hbehind j hmem).2)
    (fun j hmem => cardAt_point_le hsorted (hbehind j hmem).2
      (hbehind j hmem).1) hordered hcards]
  refine gain_congr fun k _ => ?_
  rw [sum_range'_eq_range]
  refine Finset.sum_congr rfl fun j _ => ?_
  split
  · rfl
  · rw [pairShare_zero]

theorem relateAce_round (hsorted : cards.Pairwise (· ≤ ·)) {i : Nat}
    (hi : i < cards.length) (hcards : relationCards relations = cards) :
    (if (relations[i]?.map fun it => it.card.point) = some A then
      relateAce i relations (List.range relations.length)
    else relations) =
      gain (fun k => ∑ j ∈ Finset.range cards.length,
        pairShare i j (aceWeight (cardAt cards i) (cardAt cards j)) k)
        relations := by
  obtain ⟨it, hit, hcard⟩ := exists_relation hcards hi
  have hpoint : (relations[i]?.map fun it => it.card.point) = some A ↔
      (cardAt cards i).point = A := by
    rw [hit, Option.map_some, hcard, Option.some_inj]
  rw [relationCards_length hcards]
  split
  · rename_i hace
    have hordered : (List.range cards.length).Pairwise fun j j' =>
        (cardAt cards j).point ≤ (cardAt cards j').point := by
      refine List.Pairwise.imp_of_mem (fun _ hmem hlt => ?_)
        List.pairwise_lt_range
      exact cardAt_point_le hsorted (List.mem_range.mp hmem)
        (Nat.le_of_lt hlt)
    rw [relateAce_eq_gain hi (hpoint.mp hace)
      (fun j hmem => List.mem_range.mp hmem) hordered hcards]
    rfl
  · rename_i hother
    refine (Eq.trans (gain_congr fun k _ => ?_) gain_zero).symm
    refine Finset.sum_eq_zero fun j _ => ?_
    rw [aceWeight, if_neg (mt hpoint.mpr hother), pairShare_zero]

theorem relateRound_eq_gain (hsorted : cards.Pairwise (· ≤ ·)) {i : Nat}
    (hi : i < cards.length) (hcards : relationCards relations = cards) :
    relateRound relations i = gain (fun k =>
      ∑ j ∈ Finset.range cards.length,
        pairShare i j (roundWeight cards i j) k) relations := by
  rw [relateRound, relateNext_round hsorted hi hcards]
  rw [relateAce_round hsorted hi (by rw [gain_cards, hcards]), gain_gain]
  refine gain_congr fun k _ => ?_
  rw [← Finset.sum_add_distrib]
  exact Finset.sum_congr rfl fun j _ => (pairShare_add _ _ _ _ _).symm

theorem foldl_relateRound (hsorted : cards.Pairwise (· ≤ ·)) {is : List Nat}
    (his : ∀ i ∈ is, i < cards.length)
    (hcards : relationCards relations = cards) :
    is.foldl relateRound relations = gain (fun k => (is.map fun i =>
      ∑ j ∈ Finset.range cards.length,
        pairShare i j (roundWeight cards i j) k).sum) relations := by
  induction is generalizing relations with
  | nil => simp
  | cons i is ih =>
      rw [List.foldl_cons,
        relateRound_eq_gain hsorted (his i List.mem_cons_self) hcards,
        ih (fun i' hmem => his i' (List.mem_cons_of_mem _ hmem))
          (by rw [gain_cards, hcards]), gain_gain]
      rfl

theorem roundWeight_add {j k : Nat} (hne : j ≠ k) :
    roundWeight cards k j + roundWeight cards j k =
      relationWeight (cardAt cards k) (cardAt cards j) := by
  rw [relationWeight_eq, roundWeight, roundWeight]
  rcases Nat.lt_or_gt_of_ne hne with hlt | hgt
  · rw [if_neg (by omega), if_pos hlt,
      nextWeight_comm (cardAt cards j) (cardAt cards k)]
    omega
  · rw [if_pos hgt, if_neg (by omega)]
    omega

@[simp] theorem roundWeight_self (k : Nat) : roundWeight cards k k = 0 := by
  simp [roundWeight]

theorem sum_roundWeight {k : Nat} (hk : k < cards.length) :
    ∑ i ∈ Finset.range cards.length, ∑ j ∈ Finset.range cards.length,
      pairShare i j (roundWeight cards i j) k =
    ((cards.eraseIdx k).map (relationWeight (cardAt cards k))).sum := by
  have hmem : k ∈ Finset.range cards.length := Finset.mem_range.mpr hk
  rw [sum_pairShare hk, sum_eraseIdx_eq_range hk _ blank,
    ← Finset.add_sum_erase _ _ hmem]
  simp only [roundWeight_self, zero_add]
  exact Finset.sum_congr rfl fun j hj =>
    roundWeight_add (Finset.ne_of_mem_erase hj)

end Rounds

/--
Sorted entries gain the pairwise weights with all other entries, and their
cards stay as they are.
-/
theorem caculateCardsRelation_eq (relations : List CardRelation)
    (hsorted : (relationCards relations).Pairwise (· ≤ ·)) :
    caculateCardsRelation relations = relations.mapIdx fun k relation =>
      { relation with
        relateDegree := relation.relateDegree +
          relateDegreeWith relations k relation.card } := by
  have hlen := relationCards_length (Eq.refl (relationCards relations))
  rw [caculateCardsRelation_eq_foldl, hlen, foldl_relateRound hsorted
    (fun i hmem => List.mem_range.mp hmem) rfl]
  refine List.ext_getElem (by simp [gain]) fun k hk hk' => ?_
  have hk : k < relations.length := by simpa using hk'
  have hcard : cardAt (relationCards relations) k = relations[k].card := by
    rw [cardAt, List.getD_eq_getElem _ _ (hlen ▸ hk)]
    simp
  have hgain := sum_roundWeight (hlen ▸ hk)
  rw [hcard, relationCards, List.eraseIdx_map, List.map_map] at hgain
  simp only [gain, List.getElem_mapIdx, relateDegreeWith]
  congr 2

theorem ace_relations :
    caculateCardsRelation
      [⟨⟨1, 2⟩, 0⟩, ⟨⟨2, 3⟩, 0⟩, ⟨⟨1, 13⟩, 0⟩, ⟨⟨3, 13⟩, 0⟩, ⟨⟨1, 14⟩, 0⟩] =
        [⟨⟨1, 2⟩, 4⟩, ⟨⟨2, 3⟩, 0⟩, ⟨⟨1, 13⟩, 6⟩, ⟨⟨3, 13⟩, 2⟩, ⟨⟨1, 14⟩, 8⟩] :=
  (caculateCardsRelation_eq _ (by decide)).trans (by decide)

/-! ## The callers -/

end StarsGaming.Cards
