import Mathlib.Data.Fintype.Perm
import StarsGaming.Cards.Exact
import StarsGaming.Cards.Least

/-!
# The automatic declare and the suits

Renaming the suits of a hand renames its arrangements.  Only the test for pure
straights looks at the order of the suits, and only where wild Aces of several
suits follow a two: there it may find a first straight in one of two hands
that differ in their suits alone.
-/

namespace StarsGaming.Cards

open PokerCard
open StarsGaming.Foundation

/-! ## Renaming the suits -/

def suitColor (σ : Equiv.Perm (Fin 4)) (color : Nat) : Nat :=
  if h : spades ≤ color ∧ color ≤ diamonds then
    (σ ⟨color - 1, by simp only [spades, diamonds] at h; omega⟩).val + 1
  else color

def recolor (σ : Equiv.Perm (Fin 4)) (card : PokerCard) : PokerCard :=
  { card with color := suitColor σ card.color }

section Suits

variable {σ : Equiv.Perm (Fin 4)}

@[simp] theorem recolor_point (card : PokerCard) :
    (recolor σ card).point = card.point := rfl

@[simp] theorem recolor_color (card : PokerCard) :
    (recolor σ card).color = suitColor σ card.color := rfl

theorem suitColor_range (color : Nat) :
    (spades ≤ suitColor σ color ∧ suitColor σ color ≤ diamonds) ↔
      (spades ≤ color ∧ color ≤ diamonds) := by
  unfold suitColor
  split
  · rename_i h
    have hlt := (σ ⟨color - 1, by simp only [spades, diamonds] at h; omega⟩).isLt
    simp only [spades, diamonds] at h ⊢
    omega
  · rfl

theorem suitColor_symm (color : Nat) :
    suitColor σ.symm (suitColor σ color) = color := by
  have hrange := @suitColor_range σ color
  by_cases h : spades ≤ color ∧ color ≤ diamonds
  · rw [suitColor, dif_pos (hrange.mpr h)]
    have hcolor : suitColor σ color =
        (σ ⟨color - 1, by simp only [spades, diamonds] at h; omega⟩).val + 1 :=
      dif_pos h
    simp only [hcolor, Nat.add_sub_cancel, Fin.eta, Equiv.symm_apply_apply]
    simp only [spades] at h
    omega
  · rw [suitColor, dif_neg (hrange.not.mpr h), suitColor, dif_neg h]

theorem suitColor_inj {color color' : Nat} :
    suitColor σ color = suitColor σ color' ↔ color = color' := by
  constructor
  · intro h
    rw [← @suitColor_symm σ color, h, suitColor_symm]
  · rintro rfl
    rfl

theorem recolor_symm (card : PokerCard) :
    recolor σ.symm (recolor σ card) = card := by
  cases card
  simp [recolor, suitColor_symm]

theorem map_recolor_symm (cards : List PokerCard) :
    (cards.map (recolor σ)).map (recolor σ.symm) = cards := by
  rw [List.map_map]
  exact (List.map_congr_left fun card _ => recolor_symm card).trans
    (List.map_id cards)

theorem recolor_injective : Function.Injective (recolor σ) :=
  fun first second h => by rw [← @recolor_symm σ first, h, recolor_symm]

private theorem suits_perm (σ : Equiv.Perm (Fin 4)) :
    ((List.range diamonds).map fun i => suitColor σ (i + 1)).Perm
      ((List.range diamonds).map fun i => i + 1) := by
  revert σ
  decide

private theorem suitCards_recolor (σ : Equiv.Perm (Fin 4)) (color : Nat) :
    (suitCards color).map (recolor σ) = suitCards (suitColor σ color) := by
  rw [suitCards, suitCards, List.map_flatMap]
  rfl

private theorem initCards_recolor (σ : Equiv.Perm (Fin 4)) :
    (initCards.map (recolor σ)).Perm initCards := by
  have hsuits := (suits_perm σ).flatMap_right suitCards
  rw [List.flatMap_map, List.flatMap_map] at hsuits
  rw [initCards, List.map_append, List.map_flatMap]
  simp only [suitCards_recolor]
  exact hsuits.append_right _

theorem FromDeck.recolor {hand : List PokerCard} (h : FromDeck hand)
    (σ : Equiv.Perm (Fin 4)) : FromDeck (hand.map (Cards.recolor σ)) :=
  (h.map recolor_injective).trans (initCards_recolor σ).subperm

/-! ## What does not look at the suits -/

variable {jokerPoint : Nat}

@[simp] theorem caculateCardScore_recolor (cards : List PokerCard) :
    caculateCardScore (cards.map (recolor σ)) jokerPoint =
      caculateCardScore cards jokerPoint := by
  rw [caculateCardScore, caculateCardScore, List.map_map]
  rfl

theorem nonJokers_recolor (cards : List PokerCard) :
    nonJokers jokerPoint (cards.map (recolor σ)) =
      (nonJokers jokerPoint cards).map (recolor σ) := by
  rw [nonJokers, nonJokers, List.filter_map]
  rfl

theorem jokerCount_recolor (cards : List PokerCard) :
    jokerCount jokerPoint (cards.map (recolor σ)) =
      jokerCount jokerPoint cards := by
  rw [jokerCount, jokerCount, List.countP_map]
  rfl

theorem Flush.recolor {cards : List PokerCard} (h : Flush cards) :
    Flush (cards.map (Cards.recolor σ)) :=
  List.pairwise_map.mpr (h.imp fun hab =>
    ⟨congrArg (suitColor σ) hab.1, hab.2⟩)

theorem gapsFrom_recolor (last : PokerCard) (rest : List PokerCard) :
    gapsFrom (recolor σ last) (rest.map (recolor σ)) = gapsFrom last rest := by
  induction rest generalizing last with
  | nil => rfl
  | cons card rest ih =>
      rw [List.map_cons, gapsFrom, gapsFrom, ih]
      rfl

theorem Fits.recolor {cards : List PokerCard} {jokers : Nat}
    (h : Fits cards jokers) : Fits (cards.map (Cards.recolor σ)) jokers := by
  rcases h with rfl | ⟨first, rest, rfl, hgap⟩ |
    ⟨first, rest, ace, rfl, hace, hgap⟩
  · exact Or.inl rfl
  · exact Or.inr (Or.inl ⟨_, _, rfl, by rwa [gapsFrom_recolor]⟩)
  · refine Or.inr (Or.inr ⟨Cards.recolor σ first,
      rest.map (Cards.recolor σ), Cards.recolor σ ace, by simp, hace, ?_⟩)
    rwa [gapsFrom_recolor]

theorem Fillable.recolor {group : List PokerCard}
    (h : Fillable jokerPoint group) :
    Fillable jokerPoint (group.map (Cards.recolor σ)) := by
  obtain ⟨hlen, cards, hperm, hflush, hfits⟩ := h
  refine ⟨by rwa [List.length_map], cards.map (Cards.recolor σ), ?_,
    hflush.recolor, ?_⟩
  · rw [nonJokers_recolor]
    exact hperm.map _
  · rw [jokerCount_recolor]
    exact hfits.recolor

theorem SetShape.recolor {group : List PokerCard}
    (h : SetShape jokerPoint group) :
    SetShape jokerPoint (group.map (Cards.recolor σ)) := by
  refine ⟨by rw [List.length_map]; exact h.length, ?_, ?_, ?_⟩
  · rw [nonJokers_recolor, List.length_map]
    exact h.nonJokers
  · rw [nonJokers_recolor]
    exact h.nodup.map recolor_injective
  · rw [nonJokers_recolor]
    intro card hcard card' hcard'
    obtain ⟨first, hfirst, rfl⟩ := List.mem_map.mp hcard
    obtain ⟨second, hsecond, rfl⟩ := List.mem_map.mp hcard'
    exact h.point first hfirst second hsecond

theorem Place.Accepts.recolor {place : Place} {group : List PokerCard}
    (h : place.Accepts jokerPoint group) :
    place.Accepts jokerPoint (group.map (Cards.recolor σ)) := by
  cases place with
  | straight => exact Fillable.recolor h
  | any => exact h.imp Fillable.recolor SetShape.recolor

theorem Fill.map {α β : Type*} {P : α → Place → Prop} {Q : β → Place → Prop}
    {f : α → β} {places : List Place} {items : List α}
    (h : Fill P places items) (hf : ∀ a place, P a place → Q (f a) place) :
    Fill Q places (items.map f) := by
  induction items generalizing places with
  | nil => cases places <;> trivial
  | cons a items ih =>
      cases places with
      | nil => exact h.elim
      | cons place places => exact ⟨hf a place h.1, ih h.2⟩

theorem Arranges.recolor {places : List Place} {cards loose : List PokerCard}
    (h : Arranges jokerPoint places cards loose) :
    Arranges jokerPoint places (cards.map (Cards.recolor σ))
      (loose.map (Cards.recolor σ)) := by
  obtain ⟨groups, hfill, hperm⟩ := h
  refine ⟨groups.map (List.map (Cards.recolor σ)),
    hfill.map fun group place haccepts => haccepts.recolor, ?_⟩
  rw [← List.map_flatten, ← List.map_append]
  exact hperm.map _

/-! ## What the test for pure straights sees -/

private theorem pureStraightFrom_recolor (first last : PokerCard)
    (cards : List PokerCard) :
    pureStraightFrom (recolor σ first) (recolor σ last)
        (cards.map (recolor σ)) = pureStraightFrom first last cards := by
  induction cards generalizing last with
  | nil => rfl
  | cons card rest ih =>
      have hcolor : (recolor σ last).color ≠ (recolor σ card).color ↔
          last.color ≠ card.color := suitColor_inj.not
      rw [List.map_cons, pureStraightFrom, pureStraightFrom, ih]
      exact if_congr (or_congr_left hcolor) rfl rfl

theorem isCardsPureStraight_recolor (cards : List PokerCard) :
    isCardsPureStraight (cards.map (recolor σ)) =
      isCardsPureStraight cards := by
  cases cards with
  | nil => rfl
  | cons first rest =>
      unfold isCardsPureStraight
      rw [List.length_map]
      split
      · rfl
      · exact pureStraightFrom_recolor first first rest

def Steady (σ : Equiv.Perm (Fin 4)) (cards : List PokerCard) : Prop :=
  (cards.map (recolor σ)).Pairwise (· ≤ ·)

theorem Steady.pure {cards : List PokerCard} (h : Steady σ cards)
    (hpure : isCardsPureStraight cards = true) :
    isCardsPureStraight (sortCards (cards.map (recolor σ))) = true := by
  rwa [sortCards_eq_of_perm (.refl _) h, isCardsPureStraight_recolor]

theorem steady_of_oneSuit {cards : List PokerCard} (h : OneSuit cards)
    (hsorted : cards.Pairwise (· ≤ ·)) : Steady σ cards := by
  refine List.pairwise_map.mpr (hsorted.imp_of_mem ?_)
  intro card card' hcard hcard' hle
  have hcolor := congrArg (suitColor σ) (h card hcard card' hcard')
  rw [le_iff] at hle ⊢
  simp only [recolor_point, recolor_color, hcolor, Nat.le_refl, and_true]
  omega

theorem isCardsPureStraight_front {cards rest : List PokerCard}
    (h : isCardsPureStraight (cards ++ rest) = true)
    (hlen : 3 ≤ cards.length) : isCardsPureStraight cards = true := by
  cases cards with
  | nil => simp at hlen
  | cons first cards =>
      unfold isCardsPureStraight at h ⊢
      rw [if_neg (by simp only [List.length_append]; omega)] at h
      rw [if_neg (by omega)]
      exact pureStraightFrom_append h

structure AceAfterAce (cards run : List PokerCard)
    (last ace other : PokerCard) (extra : List PokerCard) : Prop where
  split : cards = run ++ last :: ace :: other :: extra
  two : (run ++ [last]).head?.map PokerCard.point = some P2
  chain : (run ++ [last]).IsChain PureStep
  color : ace.color = last.color
  ace : ace.point = A
  gap : last.point + 1 ≠ A
  other : other.point = A

private theorem oneSuit_upto {run : List PokerCard} {last ace : PokerCard}
    (htwo : (run ++ [last]).head?.map PokerCard.point = some P2)
    (hchain : (run ++ [last]).IsChain PureStep)
    (hcolor : ace.color = last.color) : OneSuit (run ++ [last, ace]) := by
  obtain ⟨first, run', hrun'⟩ := List.exists_cons_of_ne_nil
    (List.concat_ne_nil last run)
  rw [hrun'] at htwo hchain
  have hall := chain_uniform hchain (by
    have : first.point = P2 := by simpa using htwo
    simp [this])
  have hcards : ∀ card ∈ run ++ [last, ace], card.color = first.color := by
    intro card hcard
    have hlast := hall last (by simp [← hrun'])
    rw [← hrun'] at hall
    simp only [List.mem_append, List.mem_cons, List.not_mem_nil,
      or_false] at hcard hall
    rcases hcard with hcard | rfl | rfl
    · exact (hall card (Or.inl hcard)).1
    · exact hlast.1
    · exact hcolor.trans hlast.1
  intro card hcard card' hcard'
  rw [hcards card hcard, hcards card' hcard']

private theorem steady_append {cards printed : List PokerCard}
    (hsuit : OneSuit cards) (hsorted : (cards ++ printed).Pairwise (· ≤ ·))
    (hbelow : ∀ card ∈ cards, card.point ≤ A)
    (hprinted : ∀ card ∈ printed, card.color = 0 ∧ A < card.point) :
    Steady σ (cards ++ printed) := by
  obtain ⟨hcards, hjokers, -⟩ := List.pairwise_append.mp hsorted
  have hsame : printed.map (recolor σ) = printed := by
    refine (List.map_congr_left fun card hcard => ?_).trans (List.map_id _)
    obtain ⟨color, point⟩ := card
    obtain rfl : color = 0 := (hprinted _ hcard).1
    rfl
  rw [Steady, List.map_append, hsame]
  refine List.pairwise_append.mpr
    ⟨steady_of_oneSuit hsuit hcards, hjokers, fun card hcard card' hcard' => ?_⟩
  obtain ⟨first, hfirst, rfl⟩ := List.mem_map.mp hcard
  have h₁ := hbelow first hfirst
  have h₂ := (hprinted card' hcard').2
  exact le_iff.mpr (Or.inl (by rw [recolor_point]; omega))

/-- Only wild Aces of several suits can change places in a pure group. -/
private theorem steady_or_aces {cards : List PokerCard}
    (hsorted : cards.Pairwise (· ≤ ·)) (hdeal : ∀ card ∈ cards, Deal card)
    (hfillable : Fillable jokerPoint cards)
    (hpure : isCardsPureStraight cards = true) :
    Steady σ cards ∨ (jokerPoint = A ∧
      ∃ run last ace other extra, AceAfterAce cards run last ace other
        extra) := by
  rcases pureRun_or_earlyAce hpure with hrun |
    ⟨run, last, ace, extra, hsplit, hextra, htwo, hchain, hcolor, hace, hgap⟩
  · exact Or.inl (steady_of_oneSuit hrun.oneSuit hsorted)
  · obtain ⟨other, extra, rfl⟩ := List.exists_cons_of_ne_nil hextra
    have htail := (List.pairwise_append.mp (hsplit ▸ hsorted)).2.1
    by_cases hpoint : other.point = A
    · refine Or.inr ⟨?_, run, last, ace, other, extra, hsplit, htwo, hchain,
        hcolor, hace, hgap, hpoint⟩
      -- two Aces that are no jokers do not ascend
      by_contra hjp
      obtain ⟨-, others, hperm, hflush, -⟩ := hfillable
      have hnon := nonJokers_sortCards_eq hperm hflush
      rw [sortCards_eq_of_perm (.refl _) hsorted] at hnon
      have hpair : [ace, other].Sublist (nonJokers jokerPoint cards) := by
        have hjokers : nonJokers jokerPoint [ace, other] = [ace, other] := by
          have hne : ¬ A = jokerPoint := fun heq => hjp heq.symm
          simp only [A] at hne hace hpoint
          simp [nonJokers, isJoker, hace, hpoint, hne]
        rw [← hjokers, hsplit]
        refine List.Sublist.filter _ (List.Sublist.trans ?_
          (List.sublist_append_right run _))
        exact (((List.nil_sublist extra).cons_cons other).cons_cons
          ace).cons last
      rw [hnon] at hpair
      have := (List.rel_of_pairwise_cons (hflush.sublist hpair)
        List.mem_cons_self).2
      omega
    · left
      have hsplit' : cards = (run ++ [last, ace]) ++ other :: extra := by
        rw [hsplit]
        simp
      have hother := point_le_of_le (List.rel_of_pairwise_cons htail.of_cons
        List.mem_cons_self)
      rw [hsplit'] at hsorted hdeal ⊢
      refine steady_append (oneSuit_upto htwo hchain hcolor) hsorted ?_ ?_
      · intro card hcard
        have hhead := hsorted.sublist (List.sublist_append_left _ _)
        rw [List.append_cons] at hhead hcard
        rcases List.mem_append.mp hcard with hcard | hcard
        · have hle := (List.pairwise_append.mp hhead).2.2 card hcard ace
            List.mem_cons_self
          exact hace ▸ point_le_of_le hle
        · rw [List.mem_singleton.mp hcard, hace]
      · intro card hcard
        have hle : other.point ≤ card.point :=
          head_point_le htail.of_cons.of_cons card hcard
        have hd := hdeal card (List.mem_append_right _ hcard)
        simp only [Deal, spades, diamonds, P2, A, JOKER1, JOKER2] at *
        omega

/-! ## Arrangements under other suits -/

/-- An arrangement that opens with wild Aces of two suits behind a two. -/
def AceOpening (σ : Equiv.Perm (Fin 4)) (jokerPoint : Nat)
    (hand loose : List PokerCard) : Prop :=
  jokerPoint = A ∧ ∃ color color' rest, color < color' ∧
    suitColor σ color' < suitColor σ color ∧
    ([⟨color, P2⟩, ⟨color, A⟩, ⟨color', A⟩] ++ rest).Perm hand ∧
    Arranges jokerPoint [.straight, .any, .any] rest loose

private theorem Arranges.append {places : List Place}
    {cards loose : List PokerCard}
    (h : Arranges jokerPoint places cards loose) (extra : List PokerCard) :
    Arranges jokerPoint places (extra ++ cards) (extra ++ loose) := by
  obtain ⟨groups, hfill, hperm⟩ := h
  refine ⟨groups, hfill, List.Perm.trans ?_ (hperm.append_left extra)⟩
  rw [← List.append_assoc, ← List.append_assoc]
  exact List.perm_append_comm.append_right loose

/-- The opening group without its jokers opens the renamed hand as well. -/
private theorem opening_of_front {hand pure jokers rest loose : List PokerCard}
    (hpure : isCardsPureStraight pure = true) (hsteady : Steady σ pure)
    (hfillable : Fillable jokerPoint pure)
    (hscore : caculateCardScore jokers jokerPoint = 0)
    (hsplit : (pure ++ jokers ++ rest).Perm hand)
    (harranged : Arranges jokerPoint [.straight, .any, .any] rest loose) :
    ∃ loose', Opening jokerPoint (hand.map (recolor σ)) loose' ∧
      caculateCardScore loose' jokerPoint =
        caculateCardScore loose jokerPoint := by
  refine ⟨(jokers ++ loose).map (recolor σ), ⟨pure.map (recolor σ),
    (jokers ++ rest).map (recolor σ), hsteady.pure hpure, hfillable.recolor,
    ?_, (harranged.append jokers).recolor⟩, ?_⟩
  · rw [← List.map_append, ← List.append_assoc]
    exact hsplit.map _
  · rw [caculateCardScore_recolor, caculateCardScore_append, hscore,
      Nat.zero_add]

private instance : Trans Ascends Ascends Ascends := ⟨Ascends.trans⟩

private theorem gapsFrom_chain {first : PokerCard} {rest : List PokerCard}
    (h : (first :: rest).IsChain PureStep) : gapsFrom first rest = 0 := by
  induction rest generalizing first with
  | nil => rfl
  | cons card rest ih =>
      obtain ⟨⟨-, hnext, -⟩, hrest⟩ := List.isChain_cons_cons.mp h
      rw [gapsFrom, ih hrest]
      omega

private theorem fillable_run_jokers {run jokers : List PokerCard}
    (hne : run ≠ []) (hchain : run.IsChain PureStep)
    (hlow : ∀ card ∈ run, card.point < A)
    (hjokers : ∀ card ∈ jokers, A ≤ card.point)
    (hlen : 3 ≤ run.length + jokers.length) : Fillable A (run ++ jokers) := by
  have hnon : nonJokers A (run ++ jokers) = run := by
    rw [nonJokers, List.filter_append, List.filter_eq_self.mpr,
      List.filter_eq_nil_iff.mpr, List.append_nil]
    · intro card hcard
      have := hjokers card hcard
      simp only [isJoker, A, JOKER1] at this ⊢
      grind
    · intro card hcard
      have := hlow card hcard
      simp only [isJoker, A, JOKER1] at this ⊢
      grind
  have hascends : run.IsChain Ascends := hchain.imp fun card next hstep =>
    ⟨hstep.1, by have := hstep.2.1; omega⟩
  have hflush : Flush run := hascends.pairwise
  obtain ⟨first, rest, rfl⟩ := List.exists_cons_of_ne_nil hne
  refine ⟨by rw [List.length_append]; omega, first :: rest, ?_, hflush,
    Or.inr (Or.inl ⟨first, rest, rfl, ?_⟩)⟩
  · rw [hnon]
  · rw [gapsFrom_chain hchain]
    omega

private theorem chain_point {first : PokerCard} {rest : List PokerCard}
    (h : (first :: rest).IsChain PureStep) :
    ∀ card ∈ first :: rest,
      card.point ≤ ((first :: rest).getLast (by simp)).point ∧
      ((first :: rest).getLast (by simp)).point =
        first.point + rest.length := by
  induction rest generalizing first with
  | nil => simp
  | cons next rest ih =>
      obtain ⟨⟨-, hnext, -⟩, hrest⟩ := List.isChain_cons_cons.mp h
      have hall := ih hrest
      rw [List.getLast_cons_cons, List.length_cons]
      intro card hcard
      rcases List.mem_cons.mp hcard with rfl | hcard
      · have := hall next List.mem_cons_self
        omega
      · have := hall card hcard
        omega

private theorem AceAfterAce.low {cards run extra : List PokerCard}
    {last ace other : PokerCard}
    (h : AceAfterAce cards run last ace other extra)
    (hlen : cards.length ≤ 14) : ∀ card ∈ run ++ [last], card.point < A := by
  obtain ⟨first, run', hrun'⟩ := List.exists_cons_of_ne_nil
    (List.concat_ne_nil last run)
  have htwo := h.two
  have hchain := h.chain
  have hsize := congrArg List.length hrun'
  have hlast : (first :: run').getLast (by simp) = last := by
    simp only [← hrun', List.getLast_concat]
  rw [hrun'] at htwo hchain
  have hpoint := chain_point hchain
  rw [hlast] at hpoint
  have hfirst : first.point = 2 := by simpa using htwo
  have hgap := h.gap
  rw [h.split] at hlen
  simp only [List.length_append, List.length_cons, List.length_nil] at hlen hsize
  intro card hcard
  rw [hrun'] at hcard
  have := hpoint card hcard
  simp only [A] at hgap ⊢
  omega

private theorem aces_score {cards : List PokerCard}
    (h : ∀ card ∈ cards, A ≤ card.point) : caculateCardScore cards A = 0 := by
  refine List.sum_eq_zero fun score hscore => ?_
  obtain ⟨card, hcard, rfl⟩ := List.mem_map.mp hscore
  have := h card hcard
  rw [getScore, if_neg (by omega)]

theorem AceOpening.opening {hand loose : List PokerCard}
    (h : AceOpening σ jokerPoint hand loose) :
    Opening jokerPoint hand loose := by
  obtain ⟨rfl, color, color', rest, hlt, -, hsplit, harranged⟩ := h
  have hsorted : [(⟨color, P2⟩ : PokerCard), ⟨color, A⟩,
      ⟨color', A⟩].Pairwise (· ≤ ·) := by
    simp only [List.pairwise_cons, List.mem_cons, List.not_mem_nil, le_iff]
    simp
    omega
  refine ⟨_, rest, ?_, ?_, hsplit, harranged⟩
  · rw [sortCards_eq_of_perm (.refl _) hsorted]
    exact EarlyAce.isCardsPureStraight ⟨[], ⟨color, P2⟩, ⟨color, A⟩,
      [⟨color', A⟩], rfl, by simp, rfl, .singleton _, rfl, rfl, by simp⟩
  · exact @fillable_run_jokers [⟨color, P2⟩] [⟨color, A⟩, ⟨color', A⟩]
      (by simp) (.singleton _) (by simp) (by simp) (by simp)

private theorem card_mk {card : PokerCard} {color point : Nat}
    (hcolor : card.color = color) (hpoint : card.point = point) :
    card = ⟨color, point⟩ := by
  rw [← hcolor, ← hpoint]

section Aces

variable {hand cards run extra rest loose : List PokerCard}
  {last ace other : PokerCard}

private theorem AceAfterAce.behind
    (h : AceAfterAce cards run last ace other extra)
    (hsorted : cards.Pairwise (· ≤ ·)) : ∀ card ∈ extra, A ≤ card.point := by
  rw [h.split] at hsorted
  have hbehind := (List.pairwise_append.mp hsorted).2.1.of_cons.of_cons
  exact fun card hcard =>
    h.other ▸ point_le_of_le (List.rel_of_pairwise_cons hbehind hcard)

private theorem AceAfterAce.turns_or
    (h : AceAfterAce cards [] last ace other extra)
    (hsorted : cards.Pairwise (· ≤ ·))
    (hpure : isCardsPureStraight cards = true)
    (hsplit : (cards ++ rest).Perm hand)
    (harranged : Arranges A [.straight, .any, .any] rest loose) :
    (∃ loose', Opening A (hand.map (Cards.recolor σ)) loose' ∧
      caculateCardScore loose' A = caculateCardScore loose A) ∨
    ∃ loose', AceOpening σ A hand loose' ∧
      caculateCardScore loose' A = caculateCardScore loose A := by
  have hextra := h.behind hsorted
  obtain ⟨rfl, htwo, -, hcolor, hace, -, hother⟩ := h
  rw [List.nil_append] at hsorted hpure hsplit
  have htwo' : last.point = P2 := by simpa using htwo
  have hlow : last.point < A := by simp [htwo']
  by_cases hturn : suitColor σ other.color < suitColor σ ace.color
  · right
    have hle := le_iff.mp (List.rel_of_pairwise_cons hsorted.of_cons
      (List.mem_cons_self (a := other)))
    have hne : ace.color ≠ other.color := fun hsame => by
      rw [hsame] at hturn
      omega
    refine ⟨extra ++ loose, ⟨rfl, ace.color, other.color, extra ++ rest,
      by omega, hturn, ?_, harranged.append extra⟩, ?_⟩
    · rw [← card_mk hcolor.symm htwo', ← card_mk rfl hace,
        ← card_mk rfl hother]
      simpa using hsplit
    · rw [caculateCardScore_append, aces_score hextra, Nat.zero_add]
  · left
    have hfill : Fillable A [last, ace, other] :=
      @fillable_run_jokers [last] [ace, other] (by simp) (.singleton _)
        (by simpa using hlow) (by simp [hace, hother]) (by simp)
    refine @opening_of_front σ _ _ _ extra _ _
      (@isCardsPureStraight_front [last, ace, other] extra hpure (by simp))
      ?_ hfill (aces_score hextra) (by simpa using hsplit) harranged
    simp only [Steady, List.map_cons, List.map_nil, List.pairwise_cons,
      List.mem_cons, List.not_mem_nil, le_iff, recolor_point,
      recolor_color, hace, hother, forall_eq_or_imp]
    exact ⟨⟨Or.inl hlow, Or.inl hlow, by simp⟩,
      ⟨Or.inr ⟨trivial, Nat.le_of_not_lt hturn⟩, by simp⟩, by simp⟩

private theorem AceAfterAce.stays
    (h : AceAfterAce cards run last ace other extra) (hrun : run ≠ [])
    (hsorted : cards.Pairwise (· ≤ ·)) (hlen : cards.length ≤ 14)
    (hpure : isCardsPureStraight cards = true)
    (hsplit : (cards ++ rest).Perm hand)
    (harranged : Arranges A [.straight, .any, .any] rest loose) :
    ∃ loose', Opening A (hand.map (Cards.recolor σ)) loose' ∧
      caculateCardScore loose' A = caculateCardScore loose A := by
  have hextra := h.behind hsorted
  have hlow := h.low hlen
  obtain ⟨rfl, htwo, hchain, hcolor, hace, -, hother⟩ := h
  have hthree : 3 ≤ (run ++ [last, ace]).length := by
    have := List.length_pos_iff.mpr hrun
    rw [List.length_append, List.length_cons, List.length_singleton]
    omega
  have hjokers : ∀ card ∈ other :: extra, A ≤ card.point :=
    List.forall_mem_cons.mpr ⟨Nat.le_of_eq hother.symm, hextra⟩
  rw [List.append_cons, List.append_cons] at hsorted hsplit hpure
  rw [List.append_assoc run] at hsorted hsplit hpure
  refine @opening_of_front σ _ _ _ (other :: extra) _ _
    (isCardsPureStraight_front hpure hthree) ?_ ?_ (aces_score hjokers)
    hsplit harranged
  · exact steady_of_oneSuit (oneSuit_upto htwo hchain hcolor)
      (List.pairwise_append.mp hsorted).1
  · rw [← List.append_assoc]
    refine fillable_run_jokers (by simp) hchain hlow ?_ ?_
    · simp [hace]
    · simp only [List.length_append, List.length_cons,
        List.length_nil] at hthree ⊢
      omega

end Aces

/-- Other suits keep the score unless the Aces of the first group turn. -/
private theorem Opening.recolor_or {hand loose : List PokerCard}
    (hs : Searchable hand) (h : Opening jokerPoint hand loose) :
    (∃ loose', Opening jokerPoint (hand.map (Cards.recolor σ)) loose' ∧
      caculateCardScore loose' jokerPoint =
        caculateCardScore loose jokerPoint) ∨
    ∃ loose', AceOpening σ jokerPoint hand loose' ∧
      caculateCardScore loose' jokerPoint =
        caculateCardScore loose jokerPoint := by
  obtain ⟨pure, rest, hpure, hfillable, hsplit, harranged⟩ := h
  have hperm := sortCards_perm pure
  have hsub : (sortCards pure).Subperm hand := hperm.subperm.trans
    ((List.sublist_append_left _ _).subperm.trans hsplit.subperm)
  have hsorted := sortCards_pairwise pure
  have hsplit' : (sortCards pure ++ rest).Perm hand :=
    (hperm.append_right rest).trans hsplit
  have hfillable' := hfillable.perm hperm.symm
  rcases @steady_or_aces σ jokerPoint _ hsorted
    (fun card hcard => hs.deal card (hsub.subset hcard)) hfillable' hpure with
    hsteady | ⟨rfl, run, last, ace, other, extra, haces⟩
  · exact Or.inl (@opening_of_front σ _ _ _ [] _ _ hpure hsteady hfillable'
      rfl (by simpa using hsplit') harranged)
  · by_cases hrun : run = []
    · subst hrun
      exact haces.turns_or hsorted hpure hsplit' harranged
    · exact Or.inl (haces.stays hrun hsorted
        (hsub.length_le.trans hs.length) hpure hsplit' harranged)

/--
Some arrangement of the hand opens with wild Aces that turn in the renamed
hand, and leaves less than every arrangement of the renamed hand.
-/
def Favoured (σ : Equiv.Perm (Fin 4)) (jokerPoint : Nat)
    (hand : List PokerCard) : Prop :=
  ∃ loose, AceOpening σ jokerPoint hand loose ∧
    ∀ score ∈ Scores jokerPoint (hand.map (recolor σ)),
      caculateCardScore loose jokerPoint < score

theorem favoured_iff_lt {hand : List PokerCard} (hs : Searchable hand)
    {score score' : Nat} (hleast : IsLeast (Scores jokerPoint hand) score)
    (hleast' : IsLeast (Scores jokerPoint (hand.map (recolor σ))) score') :
    Favoured σ jokerPoint hand ↔ score < score' := by
  constructor
  · rintro ⟨loose, haces, hless⟩
    have hle := hleast.2 (Or.inr ⟨loose, haces.opening, rfl⟩)
    exact Nat.lt_of_le_of_lt hle (hless score' hleast'.1)
  · intro hlt
    have hmiss : score ∉ Scores jokerPoint (hand.map (recolor σ)) :=
      fun hmem => Nat.not_lt.mpr (hleast'.2 hmem) hlt
    rcases hleast.1 with rfl | ⟨loose, hopening, rfl⟩
    · exact absurd (Or.inl (caculateCardScore_recolor hand).symm) hmiss
    · rcases hopening.recolor_or hs with
        ⟨loose', hopening', hscore⟩ | ⟨loose', haces, hscore⟩
      · exact absurd (Or.inr ⟨loose', hopening', hscore.symm⟩) hmiss
      · refine ⟨loose', haces, fun score hmem => ?_⟩
        rw [hscore]
        exact Nat.lt_of_lt_of_le hlt (hleast'.2 hmem)

/-- A two with an Ace of its suit and an Ace of another suit. -/
def TwoWithAces (hand : List PokerCard) : Prop :=
  ∃ color color', color ≠ color' ∧
    [⟨color, P2⟩, ⟨color, A⟩, ⟨color', A⟩].Subperm hand

theorem TwoWithAces.recolor {hand : List PokerCard} (h : TwoWithAces hand) :
    TwoWithAces (hand.map (Cards.recolor σ)) := by
  obtain ⟨color, color', hne, cards, hperm, hsub⟩ := h
  refine ⟨suitColor σ color, suitColor σ color', fun heq => hne ?_,
    cards.map (Cards.recolor σ), hperm.map _, hsub.map _⟩
  have hcard : Cards.recolor σ ⟨color, A⟩ = Cards.recolor σ ⟨color', A⟩ := by
    simp only [Cards.recolor, heq]
  exact congrArg PokerCard.color (recolor_injective hcard)

theorem Favoured.cards {hand : List PokerCard}
    (h : Favoured σ jokerPoint hand) :
    jokerPoint = A ∧ TwoWithAces hand := by
  obtain ⟨loose, ⟨hjp, color, color', rest, hlt, hturn, hsplit, -⟩, -⟩ := h
  exact ⟨hjp, color, color', Nat.ne_of_lt hlt,
    (List.sublist_append_left _ _).subperm.trans hsplit.subperm⟩

end Suits

/--
Renaming the suits keeps the score of the automatic declare exactly when
neither hand is favoured by the order of its suits.  A favoured hand needs wild
Aces and a two with an Ace of its suit and another one.
-/
theorem defaultDeclare_recolor_iff (self self' : Combination)
    (σ : Equiv.Perm (Fin 4)) {hand : List PokerCard} (hdeck : FromDeck hand)
    (hlen : hand.length = 13) (jokerPoint : Nat) :
    ((∃ after after' score groups groups',
      defaultDeclare self hand jokerPoint = some (after, score, groups) ∧
      defaultDeclare self' (hand.map (recolor σ)) jokerPoint =
        some (after', score, groups')) ↔
      ¬ (Favoured σ jokerPoint hand ∨
        Favoured σ.symm jokerPoint (hand.map (recolor σ)))) ∧
    (Favoured σ jokerPoint hand ∨
        Favoured σ.symm jokerPoint (hand.map (recolor σ)) →
      jokerPoint = A ∧ TwoWithAces hand) := by
  have hdeck' := hdeck.recolor σ
  have hlen' : (hand.map (recolor σ)).length = 13 := by
    rw [List.length_map, hlen]
  obtain ⟨after, score, groups, hdeclare, hleast⟩ :=
    @defaultDeclare_isLeast jokerPoint hand self hdeck (Or.inl hlen)
  obtain ⟨after', score', groups', hdeclare', hleast'⟩ :=
    @defaultDeclare_isLeast jokerPoint _ self' hdeck' (Or.inl hlen')
  have hsame : (∃ after after' score groups groups',
      defaultDeclare self hand jokerPoint = some (after, score, groups) ∧
      defaultDeclare self' (hand.map (recolor σ)) jokerPoint =
        some (after', score, groups')) ↔ score = score' := by
    rw [hdeclare, hdeclare']
    simp only [Option.some.injEq, Prod.mk.injEq]
    constructor
    · rintro ⟨_, _, _, _, _, ⟨-, rfl, -⟩, -, rfl, -⟩
      rfl
    · rintro rfl
      exact ⟨after, after', score, groups, groups', ⟨rfl, rfl, rfl⟩,
        rfl, rfl, rfl⟩
  have hback : IsLeast
      (Scores jokerPoint ((hand.map (recolor σ)).map (recolor σ.symm)))
        score := by
    rwa [map_recolor_symm]
  constructor
  · rw [hsame, favoured_iff_lt (hdeck.searchable (by omega)) hleast hleast',
      favoured_iff_lt (hdeck'.searchable (by omega)) hleast' hback]
    omega
  · rintro (hfavoured | hfavoured)
    · exact hfavoured.cards
    · refine ⟨hfavoured.cards.1, ?_⟩
      have haces := @TwoWithAces.recolor σ.symm _ hfavoured.cards.2
      rwa [map_recolor_symm] at haces

def turnedAces : List PokerCard :=
  [⟨1, 2⟩, ⟨1, 14⟩, ⟨2, 14⟩, ⟨1, 4⟩, ⟨2, 4⟩, ⟨3, 4⟩, ⟨4, 4⟩, ⟨1, 7⟩, ⟨2, 7⟩,
   ⟨3, 7⟩, ⟨4, 7⟩, ⟨1, 10⟩, ⟨2, 10⟩]

theorem turnedAces_scores :
    ¬ ∀ (self self' : Combination) (σ : Equiv.Perm (Fin 4))
      (hand : List PokerCard) (jokerPoint : Nat), FromDeck hand →
      hand.length = 13 → 2 ≤ jokerPoint → jokerPoint ≤ 14 →
      ∃ after after' score groups groups',
        defaultDeclare self hand jokerPoint = some (after, score, groups) ∧
        defaultDeclare self' (hand.map (recolor σ)) jokerPoint =
          some (after', score, groups') := by
  intro hequal
  obtain ⟨after, after', score, groups, groups', hdeclare, hdeclare'⟩ :=
    hequal ⟨[], [], 0⟩ ⟨[], [], 0⟩ (Equiv.swap 0 1) turnedAces 14
      (by decide +kernel) (by decide) (by decide) (by decide)
  have hscore : (defaultDeclare ⟨[], [], 0⟩ turnedAces 14).map
      (fun result => result.2.1) = some 64 := by
    decide +kernel
  have hscore' : (defaultDeclare ⟨[], [], 0⟩
      (turnedAces.map (recolor (Equiv.swap 0 1))) 14).map
        (fun result => result.2.1) = some 66 := by
    decide +kernel
  rw [hdeclare, Option.map_some] at hscore
  rw [hdeclare', Option.map_some] at hscore'
  simp at hscore hscore'
  omega

theorem defaultDeclare_recolor_sample :
    ((∃ after after' score groups groups',
      defaultDeclare ⟨[], [], 0⟩ sampleHand 12 =
        some (after, score, groups) ∧
      defaultDeclare ⟨[], [], 0⟩
        (sampleHand.map (recolor (Equiv.swap 0 3))) 12 =
          some (after', score, groups')) ↔
      ¬ (Favoured (Equiv.swap 0 3) 12 sampleHand ∨
        Favoured (Equiv.swap 0 3).symm 12
          (sampleHand.map (recolor (Equiv.swap 0 3))))) ∧
    (Favoured (Equiv.swap 0 3) 12 sampleHand ∨
        Favoured (Equiv.swap 0 3).symm 12
          (sampleHand.map (recolor (Equiv.swap 0 3))) →
      12 = A ∧ TwoWithAces sampleHand) :=
  defaultDeclare_recolor_iff ⟨[], [], 0⟩ ⟨[], [], 0⟩ (Equiv.swap 0 3)
    (by decide +kernel) (by decide) 12

end StarsGaming.Cards
