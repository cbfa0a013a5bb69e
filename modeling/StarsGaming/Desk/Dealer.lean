import Mathlib.Data.List.Induction
import StarsGaming.Cards.Card

/-!
# The card dealer

Cards are shuffled by drawing at random positions; the hole is filled with the
last card.  The same loop ranks the dealer's cards, deals them and reshuffles
the discard pile.
-/

namespace StarsGaming.Desk

open Cards

def swapRemove (cards : List PokerCard) (index : Nat) : List PokerCard :=
  match cards.getLast? with
  | none => []
  | some back => (cards.set index back).dropLast

/-- Draw `count` cards; `rand` is read once for every card. -/
def swapDraw (rand : Nat → Nat) : Nat → List PokerCard → List PokerCard
  | 0, _ => []
  | count + 1, cards =>
      match cards[rand count % cards.length]? with
      | none => []
      | some card =>
          card ::
            swapDraw rand count
              (swapRemove cards (rand count % cards.length))

theorem swapRemove_perm {cards : List PokerCard} {index : Nat}
    {card : PokerCard} (h : cards[index]? = some card) :
    (card :: swapRemove cards index).Perm cards := by
  obtain ⟨hlt, rfl⟩ := List.getElem?_eq_some_iff.mp h
  induction cards using List.reverseRecOn with
  | nil => simp at hlt
  | append_singleton front back _ =>
      simp only [swapRemove, List.getLast?_append, List.getLast?_singleton,
        Option.some_or]
      by_cases hin : index < front.length
      · have hset := List.set_perm_cons_eraseIdx hin back
        rw [List.set_append_left _ _ hin, List.dropLast_concat,
          List.getElem_append_left hin]
        exact (hset.cons _).trans ((List.Perm.swap _ _ _).trans
          (((List.getElem_cons_eraseIdx_perm hin).cons _).trans
            (List.perm_append_singleton back front).symm))
      · have hindex : index = front.length := by
          simp at hlt
          omega
        subst hindex
        simpa using (List.perm_append_singleton back front).symm

theorem swapDraw_perm (rand : Nat → Nat) {count : Nat}
    {cards : List PokerCard} (h : cards.length = count) :
    (swapDraw rand count cards).Perm cards := by
  induction count generalizing cards with
  | zero => simp [swapDraw, List.length_eq_zero_iff.mp h]
  | succ count ih =>
      have hlt : rand count % cards.length < cards.length :=
        Nat.mod_lt _ (by omega)
      have hget := List.getElem?_eq_getElem hlt
      have hperm := swapRemove_perm hget
      have hlen := hperm.length_eq
      simp only [swapDraw, hget]
      exact ((ih (by simp at hlen; omega)).cons _).trans hperm

/-- The dealer's cards are always the double deck in some order. -/
structure CardDealer where
  cards : List PokerCard
  perm : cards.Perm initCards

namespace CardDealer

abbrev HAND_CARD_COUNT : Nat := 13
abbrev CARD_COUNT : Nat := 108

theorem length (dealer : CardDealer) : dealer.cards.length = CARD_COUNT :=
  dealer.perm.length_eq.trans initCards_length

def randRankCards (rand : Nat → Nat) (dealer : CardDealer) : CardDealer :=
  ⟨swapDraw rand CARD_COUNT dealer.cards,
    (swapDraw_perm rand dealer.length).trans dealer.perm⟩

def dealCard (rand : Nat → Nat) (dealer : CardDealer) :
    CardDealer × List PokerCard :=
  let dealer := dealer.randRankCards rand
  (dealer, swapDraw (fun call => rand (CARD_COUNT + call)) CARD_COUNT
    dealer.cards)

theorem dealCard_perm (rand : Nat → Nat) (dealer : CardDealer) :
    (dealer.dealCard rand).2.Perm initCards :=
  (swapDraw_perm (fun call => rand (CARD_COUNT + call)) (length _)).trans
    (dealer.randRankCards rand).perm

end CardDealer

end StarsGaming.Desk
