import StarsGaming.Desk.Dealer

/-!
# The loops of the card dealer

The dealer as the code has it: two vectors, every draw by an index that may
be out of range, and a vector that stops shrinking at one card.  An index out
of range, a division by zero or a failed assertion is `none`.  The loops draw
what `swapDraw` draws, so they refine `CardDealer`.
-/

namespace StarsGaming.Desk

open Cards PokerCard

/-- The values that `rand` is still to return. -/
abbrev Rand := Nat → Nat

def Rand.after (rand : Rand) (calls : Nat) : Rand :=
  fun call => rand (calls + call)

/-- Take a card out by its index; the last card left is not taken out. -/
def pickCard (cards : List PokerCard) (index : Nat) :
    Option (PokerCard × List PokerCard) := do
  let card ← cards[index]?
  if 1 < cards.length then
    let back ← cards.getLast?
    some (card, (cards.set index back).dropLast)
  else some (card, cards)

/-- The loop of `rand_rank_cards` and `rand_deal_card`. -/
def pickCards : Nat → Rand → List PokerCard → List PokerCard →
    Option (Rand × List PokerCard)
  | 0, rand, _, lstCard => some (rand, lstCard)
  | count + 1, rand, cards, lstCard =>
      if cards.length = 0 then none
      else do
        let (card, cards) ← pickCard cards (rand 0 % cards.length)
        pickCards count (rand.after 1) cards (lstCard ++ [card])

def writeCards : Nat → List PokerCard → List PokerCard →
    Option (List PokerCard)
  | _, [], cards => some cards
  | index, card :: rest, cards =>
      if index < cards.length then
        writeCards (index + 1) rest (cards.set index card)
      else none

namespace CardDealer

/-- The members of a `CardDealer`. -/
structure Members where
  cards : List PokerCard
  allCard : List PokerCard
  deriving DecidableEq, Repr

namespace Members

def randRankCards (rand : Rand) (self : Members) : Option (Rand × Members) :=
  if self.cards.length = CARD_COUNT then do
    let (rand, cards) ← pickCards CARD_COUNT rand self.cards []
    some (rand, { self with cards := cards })
  else none

def rankTimes : Nat → Rand → Members → Option (Rand × Members)
  | 0, rand, self => some (rand, self)
  | times + 1, rand, self => do
      let (rand, self) ← self.randRankCards rand
      rankTimes times rand self

/-- The members once the cards are written, before any shuffle. -/
def written : Option Members := do
  let cards ← writeCards 0 Cards.initCards (List.replicate CARD_COUNT blank)
  some ⟨cards, cards⟩

def initCards (rand : Rand) : Option (Rand × Members) := do
  let self ← written
  rankTimes 1000 rand self

def randDealCard (rand : Rand) (self : Members) (lstCard : List PokerCard)
    (count : Nat) : Option (Rand × Members × List PokerCard) :=
  if count ≤ CARD_COUNT then do
    let (rand, self) ← self.randRankCards rand
    let (rand, lstCard) ← pickCards count rand self.cards lstCard
    some (rand, self, lstCard)
  else none

def dealCard (rand : Rand) (self : Members) (lstCard : List PokerCard)
    (count : Nat) : Option (Rand × Members × List PokerCard) :=
  self.randDealCard rand lstCard count

def dealCalls : Rand → Members → List (List PokerCard × Nat) →
    Option (List (Members × List PokerCard))
  | _, _, [] => some []
  | rand, self, (lstCard, count) :: calls => do
      let (rand, self, lstCard) ← self.dealCard rand lstCard count
      let results ← dealCalls rand self calls
      some ((self, lstCard) :: results)

end Members

end CardDealer

/-! ## The loop draws what `swapDraw` draws -/

theorem pickCard_eq {cards : List PokerCard} {index : Nat} {card : PokerCard}
    (hmany : 1 < cards.length) (h : cards[index]? = some card) :
    pickCard cards index = some (card, swapRemove cards index) := by
  have hne : cards ≠ [] := by
    rintro rfl
    simp at hmany
  rw [pickCard, h, swapRemove, List.getLast?_eq_some_getLast hne]
  simp [hmany]

/-- The values of the stream in the order in which `swapDraw` counts. -/
def Rand.countdown (rand : Rand) (count : Nat) : Nat → Nat :=
  fun call => rand (count - 1 - call)

theorem swapDraw_congr {rand rand' : Nat → Nat} {count : Nat}
    {cards : List PokerCard} (h : ∀ call < count, rand call = rand' call) :
    swapDraw rand count cards = swapDraw rand' count cards := by
  induction count generalizing cards with
  | zero => rfl
  | succ count ih =>
      have hrest := @ih (swapRemove cards (rand' count % cards.length))
        fun call hcall => h call (Nat.lt_succ_of_lt hcall)
      rw [swapDraw, swapDraw, h count (Nat.lt_succ_self count), hrest]

theorem pickCards_eq {count : Nat} {cards : List PokerCard}
    (hcount : count ≤ cards.length) (rand : Rand)
    (lstCard : List PokerCard) :
    pickCards count rand cards lstCard =
      some (rand.after count,
        lstCard ++ swapDraw (rand.countdown count) count cards) := by
  induction count generalizing cards rand lstCard with
  | zero =>
      have hafter : rand.after 0 = rand := by
        funext call
        simp [Rand.after]
      simp [pickCards, swapDraw, hafter]
  | succ count ih =>
      have hpos : cards.length ≠ 0 := by omega
      have hlt : rand 0 % cards.length < cards.length :=
        Nat.mod_lt _ (by omega)
      have hget := List.getElem?_eq_getElem hlt
      have hcountdown : rand.countdown (count + 1) count = rand 0 := by
        simp [Rand.countdown]
      have hafter : (rand.after 1).after count = rand.after (count + 1) := by
        funext call
        simp only [Rand.after]
        congr 1
        omega
      have hdraw : swapDraw ((rand.after 1).countdown count) count
            (swapRemove cards (rand 0 % cards.length)) =
          swapDraw (rand.countdown (count + 1)) count
            (swapRemove cards (rand 0 % cards.length)) := by
        refine swapDraw_congr fun call hcall => ?_
        simp only [Rand.countdown, Rand.after]
        congr 1
        omega
      rw [pickCards, if_neg hpos, swapDraw, hcountdown, hget]
      by_cases hmany : 1 < cards.length
      · have hlen := (swapRemove_perm hget).length_eq
        rw [List.length_cons] at hlen
        rw [pickCard_eq hmany hget]
        simp only [Option.bind_eq_bind, Option.bind_some]
        rw [ih (by omega), hafter, hdraw]
        simp
      · -- the last card stays, but the loop is over
        obtain rfl : count = 0 := by omega
        simp [pickCard, hget, hmany, pickCards, swapDraw]

theorem swapDraw_length (rand : Nat → Nat) {count : Nat}
    {cards : List PokerCard} (h : count ≤ cards.length) :
    (swapDraw rand count cards).length = count := by
  induction count generalizing cards with
  | zero => rfl
  | succ count ih =>
      have hlt : rand count % cards.length < cards.length :=
        Nat.mod_lt _ (by omega)
      have hget := List.getElem?_eq_getElem hlt
      have hlen := (swapRemove_perm hget).length_eq
      rw [List.length_cons] at hlen
      simp only [swapDraw, hget, List.length_cons]
      rw [ih (by omega)]

theorem swapDraw_subperm (rand : Nat → Nat) {count : Nat}
    {cards : List PokerCard} (h : count ≤ cards.length) :
    (swapDraw rand count cards).Subperm cards := by
  induction count generalizing cards with
  | zero => exact List.nil_subperm
  | succ count ih =>
      have hlt : rand count % cards.length < cards.length :=
        Nat.mod_lt _ (by omega)
      have hget := List.getElem?_eq_getElem hlt
      have hperm := swapRemove_perm hget
      have hlen := hperm.length_eq
      rw [List.length_cons] at hlen
      simp only [swapDraw, hget]
      exact ((List.subperm_cons _).mpr (ih (by omega))).trans hperm.subperm

theorem writeCards_eq {rest old : List PokerCard}
    (h : old.length = rest.length) (front : List PokerCard) :
    writeCards front.length rest (front ++ old) = some (front ++ rest) := by
  induction rest generalizing front old with
  | nil =>
      obtain rfl := List.eq_nil_of_length_eq_zero h
      rfl
  | cons card rest ih =>
      obtain ⟨first, old, rfl⟩ := List.exists_cons_of_length_eq_add_one h
      have hset : (front ++ first :: old).set front.length card =
          (front ++ [card]) ++ old := by
        rw [List.set_append_right _ _ (Nat.le_refl _)]
        simp
      have hnext := @ih old (by simpa using h) (front ++ [card])
      rw [List.length_append, List.length_singleton] at hnext
      rw [writeCards, if_pos (by simp), hset, hnext]
      simp

/-! ## The members refine the dealer -/

namespace CardDealer

namespace Members

theorem written_eq : written = some ⟨Cards.initCards, Cards.initCards⟩ := by
  have hwrite := @writeCards_eq Cards.initCards
    (List.replicate CARD_COUNT blank)
    ((List.length_replicate ..).trans initCards_length.symm) []
  rw [List.nil_append, List.nil_append, List.length_nil] at hwrite
  rw [written, hwrite]
  rfl

theorem randRankCards_eq (dealer : CardDealer) (rand : Rand)
    (allCard : List PokerCard) :
    Members.randRankCards rand ⟨dealer.cards, allCard⟩ =
      some (rand.after CARD_COUNT,
        ⟨(dealer.randRankCards (rand.countdown CARD_COUNT)).cards,
          allCard⟩) := by
  have hpick := pickCards_eq (Nat.le_of_eq dealer.length.symm) rand []
  rw [randRankCards, if_pos dealer.length, hpick]
  simp [CardDealer.randRankCards]

theorem rankTimes_eq (times : Nat) (dealer : CardDealer) (rand : Rand)
    (allCard : List PokerCard) :
    ∃ rand' dealer', rankTimes times rand ⟨dealer.cards, allCard⟩ =
      some (rand', ⟨CardDealer.cards dealer', allCard⟩) := by
  induction times generalizing dealer rand with
  | zero => exact ⟨rand, dealer, rfl⟩
  | succ times ih =>
      rw [rankTimes, randRankCards_eq]
      exact ih _ _

/-- What one call of `deal_card` hands out. -/
structure Dealt (call : List PokerCard × Nat)
    (result : Members × List PokerCard) : Prop where
  cards : result.1.cards.Perm Cards.initCards
  allCard : result.1.allCard = Cards.initCards
  appended : ∃ dealt, result.2 = call.1 ++ dealt ∧ dealt.length = call.2 ∧
    FromDeck dealt ∧ (call.2 = CARD_COUNT → dealt.Perm Cards.initCards)

theorem randDealCard_eq (dealer : CardDealer) (rand : Rand)
    {call : List PokerCard × Nat} (hcount : call.2 ≤ CARD_COUNT) :
    ∃ rand' dealer' lstCard,
      Members.randDealCard rand ⟨dealer.cards, Cards.initCards⟩ call.1
        call.2 =
        some (rand', ⟨CardDealer.cards dealer', Cards.initCards⟩, lstCard) ∧
      Dealt call (⟨CardDealer.cards dealer', Cards.initCards⟩, lstCard) := by
  let ranked := dealer.randRankCards (rand.countdown CARD_COUNT)
  let rand₁ := rand.after CARD_COUNT
  have hle : call.2 ≤ ranked.cards.length := by
    rw [ranked.length]
    exact hcount
  have hlen := swapDraw_length (rand₁.countdown call.2) hle
  have hsub := swapDraw_subperm (rand₁.countdown call.2) hle
  refine ⟨rand₁.after call.2, ranked,
    call.1 ++ swapDraw (rand₁.countdown call.2) call.2 ranked.cards, ?_,
    ranked.perm, rfl, _, rfl, hlen, hsub.trans ranked.perm.subperm,
    fun hall => ?_⟩
  · rw [randDealCard, if_pos hcount, randRankCards_eq]
    simp only [Option.bind_eq_bind, Option.bind_some]
    rw [pickCards_eq hle]
    rfl
  · refine (hsub.perm_of_length_le ?_).trans ranked.perm
    rw [hlen, hall, ranked.length]

theorem dealCalls_dealt (dealer : CardDealer) (rand : Rand)
    {calls : List (List PokerCard × Nat)}
    (hcount : ∀ call ∈ calls, call.2 ≤ CARD_COUNT) :
    ∃ results, dealCalls rand ⟨dealer.cards, Cards.initCards⟩ calls =
      some results ∧ List.Forall₂ Dealt calls results := by
  induction calls generalizing dealer rand with
  | nil => exact ⟨[], rfl, .nil⟩
  | cons call calls ih =>
      obtain ⟨hcall, hcalls⟩ := List.forall_mem_cons.mp hcount
      obtain ⟨rand', dealer', lstCard, hdeal, hdealt⟩ :=
        randDealCard_eq dealer rand hcall
      obtain ⟨results, hresults, hall⟩ := ih dealer' rand' hcalls
      refine ⟨_ :: results, ?_, .cons hdealt hall⟩
      rw [dealCalls, dealCard, hdeal]
      simp only [Option.bind_eq_bind, Option.bind_some]
      rw [hresults]
      rfl

end Members

/--
The constructor and every later call succeed for every sequence of random
values: after each reshuffle and each call the dealer's cards are the double
deck in some order, and a call appends as many cards of it as it was asked
for.
-/
theorem dealing_conserves_deck (rand : Rand)
    (calls : List (List PokerCard × Nat))
    (hcount : ∀ call ∈ calls, call.2 ≤ CARD_COUNT) :
    (∃ self, Members.written = some self ∧ self.cards = Cards.initCards ∧
      ∀ times, ∃ rand' self',
        Members.rankTimes times rand self = some (rand', self') ∧
        self'.cards.Perm Cards.initCards) ∧
    ∃ rand' self results, Members.initCards rand = some (rand', self) ∧
      self.cards.Perm Cards.initCards ∧
      self.allCard = Cards.initCards ∧
      Members.dealCalls rand' self calls = some results ∧
      List.Forall₂ Members.Dealt calls results := by
  let first : CardDealer := ⟨Cards.initCards, List.Perm.refl _⟩
  have hrank : ∀ times, _ := fun times =>
    Members.rankTimes_eq times first rand Cards.initCards
  constructor
  · refine ⟨_, Members.written_eq, rfl, fun times => ?_⟩
    obtain ⟨rand', dealer', h⟩ := hrank times
    exact ⟨rand', _, h, dealer'.perm⟩
  · obtain ⟨rand', dealer', h⟩ := hrank 1000
    obtain ⟨results, hresults, hall⟩ :=
      Members.dealCalls_dealt dealer' rand' hcount
    refine ⟨rand', _, results, ?_, dealer'.perm, rfl, hresults, hall⟩
    rw [Members.initCards, Members.written_eq]
    exact h

theorem dealing_conserves_deck_sample :
    ∃ rand' self results,
      Members.initCards (fun call => 7 * call) = some (rand', self) ∧
      Members.dealCalls rand' self [([], 108), ([blank], 13)] =
        some results ∧
      List.Forall₂ Members.Dealt [([], 108), ([blank], 13)] results := by
  obtain ⟨-, rand', self, results, hinit, -, -, hcalls, hall⟩ :=
    dealing_conserves_deck (fun call => 7 * call) [([], 108), ([blank], 13)]
      (by decide)
  exact ⟨rand', self, results, hinit, hcalls, hall⟩

end CardDealer

end StarsGaming.Desk
