import Mathlib.Data.List.Dedup
import StarsGaming.Cards.Search

/-!
# What the straight search emits

The search emits exactly the groups whose non-jokers ascend in one suit with
gaps that the jokers of the group can fill (`Fillable`), up to the order of
the cards.  Each of them passes the validator `isCardsStraight`.
-/

namespace StarsGaming.Cards

open PokerCard
open StarsGaming.Foundation

/-! ## Searchable cards -/

structure Searchable (cards : List PokerCard) : Prop where
  deal : ∀ card ∈ cards, Deal card
  count : ∀ card, cards.count card ≤ 2
  length : cards.length ≤ 14

theorem FromDeck.searchable {hand : List PokerCard} (h : FromDeck hand)
    (hlen : hand.length ≤ 14) : Searchable hand :=
  ⟨fun _ hmem => h.deal hmem, h.count_le, hlen⟩

theorem Searchable.of_subperm {cards cards' : List PokerCard}
    (h : Searchable cards) (hsub : cards'.Subperm cards) :
    Searchable cards' :=
  ⟨fun card hmem => h.deal card (hsub.subset hmem),
    fun card => (hsub.count_le card).trans (h.count card),
    hsub.length_le.trans h.length⟩

theorem Searchable.blank_notMem {cards : List PokerCard}
    (h : Searchable cards) : blank ∉ cards := by
  intro hmem
  have := h.deal blank hmem
  simp [Deal, blank] at this

/-- The joker cache belongs to `cards`. -/
structure Combination.Caches (c : Combination)
    (cards : List PokerCard) : Prop where
  jokers : c.jokerCards = searchJokerCards c.jokerPoint cards
  combines : c.jokerCombines =
    caculateAllCardsCombines c.jokerCards 1 c.jokerCards.length

theorem Combination.Caches.mem_combines {self : Combination}
    {cards combine : List PokerCard} (h : self.Caches cards) :
    combine ∈ self.jokerCombines ↔
      combine.Sublist (searchJokerCards self.jokerPoint cards) ∧
        combine ≠ [] := by
  rw [h.combines, mem_caculateAllCardsCombines, h.jokers]

/-! ## Jokers and non-jokers of a group -/

def nonJokers (jokerPoint : Nat) (cards : List PokerCard) : List PokerCard :=
  cards.filter fun card => !isJoker jokerPoint card

def jokerCount (jokerPoint : Nat) (cards : List PokerCard) : Nat :=
  cards.countP (isJoker jokerPoint)

section Cons

variable {jokerPoint : Nat} {card : PokerCard} {cards : List PokerCard}

theorem nonJokers_cons_joker (h : isJoker jokerPoint card) :
    nonJokers jokerPoint (card :: cards) = nonJokers jokerPoint cards := by
  simp [nonJokers, h]

theorem nonJokers_cons (h : ¬ isJoker jokerPoint card) :
    nonJokers jokerPoint (card :: cards) =
      card :: nonJokers jokerPoint cards := by
  simp [nonJokers, h]

theorem jokerCount_cons_joker (h : isJoker jokerPoint card) :
    jokerCount jokerPoint (card :: cards) =
      jokerCount jokerPoint cards + 1 := by
  simp [jokerCount, h]

theorem jokerCount_cons (h : ¬ isJoker jokerPoint card) :
    jokerCount jokerPoint (card :: cards) = jokerCount jokerPoint cards := by
  simp [jokerCount, h]

end Cons

theorem jokerCount_eq_length (jokerPoint : Nat) (cards : List PokerCard) :
    jokerCount jokerPoint cards =
      (searchJokerCards jokerPoint cards).length :=
  List.countP_eq_length_filter

theorem length_nonJokers_add (jokerPoint : Nat) (cards : List PokerCard) :
    (nonJokers jokerPoint cards).length + jokerCount jokerPoint cards =
      cards.length := by
  have h := List.length_eq_countP_add_countP (isJoker jokerPoint) (l := cards)
  rw [nonJokers, jokerCount, ← List.countP_eq_length_filter]
  simp only [Bool.not_eq_true, Bool.decide_eq_false] at h
  omega

theorem nonJokers_perm {first second : List PokerCard}
    (h : first.Perm second) (jokerPoint : Nat) :
    (nonJokers jokerPoint first).Perm (nonJokers jokerPoint second) :=
  h.filter _

theorem jokerCount_perm {first second : List PokerCard}
    (h : first.Perm second) (jokerPoint : Nat) :
    jokerCount jokerPoint first = jokerCount jokerPoint second :=
  h.countP_eq _

theorem nonJokers_append_jokers_perm (jokerPoint : Nat)
    (cards : List PokerCard) :
    (nonJokers jokerPoint cards ++ searchJokerCards jokerPoint cards).Perm
      cards := by
  refine List.perm_append_comm.trans ?_
  exact List.filter_append_perm (isJoker jokerPoint) cards

/-! ## Ascending cards of one suit and their gaps -/

def Ascends (first second : PokerCard) : Prop :=
  first.color = second.color ∧ first.point < second.point

abbrev Flush (cards : List PokerCard) : Prop := cards.Pairwise Ascends

theorem Flush.sorted {cards : List PokerCard} (h : Flush cards) :
    cards.Pairwise (· ≤ ·) :=
  h.imp fun hab => le_iff.mpr (Or.inl hab.2)

theorem Flush.nodup {cards : List PokerCard} (h : Flush cards) :
    cards.Nodup :=
  h.imp fun hab heq => by
    subst heq
    exact Nat.lt_irrefl _ hab.2

def gapsFrom : PokerCard → List PokerCard → Int
  | _, [] => 0
  | last, card :: rest =>
      ((card.point : Int) - last.point - 1) + gapsFrom card rest

theorem gapsFrom_nonneg {last : PokerCard} {rest : List PokerCard}
    (h : Flush (last :: rest)) : 0 ≤ gapsFrom last rest := by
  induction rest generalizing last with
  | nil => simp [gapsFrom]
  | cons card rest ih =>
      have hrest := ih h.of_cons
      have hlt := (List.rel_of_pairwise_cons h List.mem_cons_self).2
      simp only [gapsFrom]
      omega

theorem gapsFrom_eq (last : PokerCard) (rest : List PokerCard) :
    gapsFrom last rest =
      (((last :: rest).getLast (by simp)).point : Int) - last.point -
        rest.length := by
  induction rest generalizing last with
  | nil => simp [gapsFrom]
  | cons card rest ih =>
      simp only [gapsFrom, ih card, List.length_cons,
        List.getLast_cons_cons]
      omega

/--
The jokers fill the gaps of ascending cards; a final Ace may also be played
before the other cards, as a one.
-/
def Fits (cards : List PokerCard) (jokers : Nat) : Prop :=
  cards = [] ∨
    (∃ first rest, cards = first :: rest ∧ gapsFrom first rest ≤ jokers) ∨
    (∃ first rest ace, cards = first :: rest ++ [ace] ∧ ace.point = A ∧
      ((first.point : Int) - 2) + gapsFrom first rest ≤ jokers)

/-- The groups of the straight search, whatever the order of their cards. -/
def Fillable (jokerPoint : Nat) (group : List PokerCard) : Prop :=
  3 ≤ group.length ∧ ∃ cards, cards.Perm (nonJokers jokerPoint group) ∧
    Flush cards ∧ Fits cards (jokerCount jokerPoint group)

theorem Fillable.perm {jokerPoint : Nat} {group group' : List PokerCard}
    (h : Fillable jokerPoint group) (hperm : group.Perm group') :
    Fillable jokerPoint group' := by
  obtain ⟨hlen, cards, hcards, hflush, hfits⟩ := h
  refine ⟨hperm.length_eq ▸ hlen, cards,
    hcards.trans (nonJokers_perm hperm jokerPoint), hflush, ?_⟩
  rwa [← jokerCount_perm hperm jokerPoint]

/-! ## The validator accepts what the jokers fill -/

private theorem straightScan_run {jokerPoint : Nat} {cards : List PokerCard}
    (scan : StraightScan) (last : PokerCard) (hlast : scan.last = some last)
    (hflush : Flush (last :: nonJokers jokerPoint cards)) :
    ∃ last', straightScan jokerPoint scan cards =
      some ⟨scan.jokerCount + jokerCount jokerPoint cards,
        scan.needJokerCount + gapsFrom last (nonJokers jokerPoint cards),
        scan.tempcards ++ nonJokers jokerPoint cards, last'⟩ := by
  induction cards generalizing scan last with
  | nil =>
      exact ⟨scan.last,
        by simp [straightScan, jokerCount, nonJokers, gapsFrom]⟩
  | cons card rest ih =>
      by_cases hjoker : isJoker jokerPoint card
      · rw [nonJokers_cons_joker hjoker] at hflush ⊢
        obtain ⟨last', hscan⟩ := ih
          { scan with jokerCount := scan.jokerCount + 1 } last hlast hflush
        refine ⟨last', ?_⟩
        rw [straightScan, if_pos hjoker, hscan, jokerCount_cons_joker hjoker]
        simp only [Nat.add_assoc, Nat.add_comm 1]
      · rw [nonJokers_cons hjoker] at hflush ⊢
        obtain ⟨hcolor, hpoint⟩ :=
          List.rel_of_pairwise_cons hflush List.mem_cons_self
        have hdiff : ¬ ((card.point : Int) - last.point = 0) := by omega
        obtain ⟨last', hscan⟩ := ih
          { scan with
            needJokerCount := scan.needJokerCount +
              ((card.point : Int) - last.point - 1)
            tempcards := scan.tempcards ++ [card]
            last := some card }
          card rfl hflush.of_cons
        refine ⟨last', ?_⟩
        rw [straightScan, if_neg hjoker, hlast]
        simp only [hcolor, ne_eq, not_true_eq_false, if_false, hdiff]
        rw [hscan, jokerCount_cons hjoker]
        simp [gapsFrom, Int.add_assoc]

private theorem straightScan_start {jokerPoint : Nat}
    {cards : List PokerCard} (hflush : Flush (nonJokers jokerPoint cards))
    (jokers : Nat) :
    ∃ need last',
      straightScan jokerPoint ⟨jokers, 0, [], none⟩ cards = some
        ⟨jokers + jokerCount jokerPoint cards, need,
          nonJokers jokerPoint cards, last'⟩ ∧
      (nonJokers jokerPoint cards = [] → need = 0) ∧
      ∀ first rest, nonJokers jokerPoint cards = first :: rest →
        need = gapsFrom first rest := by
  induction cards generalizing jokers with
  | nil => exact ⟨0, none, by simp [straightScan, jokerCount, nonJokers]⟩
  | cons card rest ih =>
      by_cases hjoker : isJoker jokerPoint card
      · rw [nonJokers_cons_joker hjoker] at hflush ⊢
        obtain ⟨need, last', hscan, hneed⟩ := ih hflush (jokers + 1)
        refine ⟨need, last', ?_, hneed⟩
        rw [straightScan, if_pos hjoker, hscan, jokerCount_cons_joker hjoker]
        simp only [Nat.add_assoc, Nat.add_comm 1]
      · rw [nonJokers_cons hjoker] at hflush ⊢
        obtain ⟨last', hscan⟩ := straightScan_run
          ⟨jokers, 0, [card], some card⟩ card rfl hflush
        refine ⟨gapsFrom card (nonJokers jokerPoint rest), last', ?_, by simp, ?_⟩
        · rw [straightScan, if_neg hjoker]
          simp only [List.nil_append]
          rw [hscan, jokerCount_cons hjoker]
          simp
        · intro first rest' heq
          obtain ⟨rfl, rfl⟩ := List.cons.inj heq
          simp

private theorem straightRescan_run {last : PokerCard} {cards : List PokerCard}
    (hflush : Flush (last :: cards)) (need : Int) :
    straightRescan (some last) need cards =
      some (need + gapsFrom last cards) := by
  induction cards generalizing last need with
  | nil => simp [straightRescan, gapsFrom]
  | cons card rest ih =>
      obtain ⟨hcolor, hpoint⟩ :=
        List.rel_of_pairwise_cons hflush List.mem_cons_self
      have hdiff : ¬ ((card.point : Int) - last.point = 0) := by omega
      rw [straightRescan]
      simp only [hcolor, ne_eq, not_true_eq_false, if_false, hdiff]
      rw [ih hflush.of_cons, gapsFrom, Int.add_assoc]

private theorem sortCards_map_aceToOne {cards : List PokerCard}
    {ace : PokerCard} (hflush : Flush (cards ++ [ace])) (hace : ace.point = A)
    (hpoints : ∀ card ∈ cards, 2 ≤ card.point) :
    sortCards ((cards ++ [ace]).map aceToOne) = ⟨ace.color, 1⟩ :: cards ∧
      Flush (⟨ace.color, 1⟩ :: cards) := by
  have hbelow : ∀ card ∈ cards, Ascends card ace := fun card hmem =>
    (List.pairwise_append.mp hflush).2.2 card hmem ace (by simp)
  have hsame : cards.map aceToOne = cards := by
    refine (List.map_congr_left fun card hmem => ?_).trans (List.map_id cards)
    have hpoint := (hbelow card hmem).2
    rw [hace] at hpoint
    rw [aceToOne, if_neg (Nat.ne_of_lt hpoint), id]
  have hrun : Flush (⟨ace.color, 1⟩ :: cards) := by
    refine List.pairwise_cons.mpr ⟨fun card hmem => ?_,
      (List.pairwise_append.mp hflush).1⟩
    exact ⟨(hbelow card hmem).1.symm, hpoints card hmem⟩
  refine ⟨sortCards_eq_of_perm ?_ hrun.sorted, hrun⟩
  rw [List.map_append, hsame]
  simp only [List.map_cons, List.map_nil, aceToOne, hace, if_true]
  exact List.perm_append_comm

theorem nonJokers_sortCards_eq {jokerPoint : Nat} {group cards : List PokerCard}
    (hperm : cards.Perm (nonJokers jokerPoint group)) (hflush : Flush cards) :
    nonJokers jokerPoint (sortCards group) = cards :=
  ((nonJokers_perm (sortCards_perm group) jokerPoint).trans
    hperm.symm).eq_of_pairwise'
    ((sortCards_pairwise group).filter _) hflush.sorted

theorem Fillable.isCardsStraight {jokerPoint : Nat} {group : List PokerCard}
    (h : Fillable jokerPoint group) (hdeal : ∀ card ∈ group, Deal card) :
    isCardsStraight (sortCards group) jokerPoint = true := by
  obtain ⟨hlen, cards, hperm, hflush, hfits⟩ := h
  have hnon := nonJokers_sortCards_eq hperm hflush
  obtain ⟨need, last', hscan, hnil, hcons⟩ :=
    straightScan_start (hnon ▸ hflush) 0
  rw [hnon] at hscan hnil hcons
  rw [Nat.zero_add, jokerCount_perm (sortCards_perm group)] at hscan
  have hlen' : ¬ (sortCards group).length < 3 := by
    rw [sortCards_length]
    omega
  rw [Cards.isCardsStraight, if_neg hlen', hscan]
  simp only
  by_cases hneed : need ≤ jokerCount jokerPoint group
  · rw [if_pos hneed]
  · rw [if_neg hneed]
    rcases hfits with rfl | ⟨first, rest, rfl, hgap⟩ |
      ⟨first, rest, ace, rfl, hace, hgap⟩
    · exact absurd (hnil rfl) (by omega)
    · exact absurd (hcons first rest rfl) (by omega)
    · have hmem : ∀ card ∈ first :: rest ++ [ace],
          card ∈ group ∧ ¬ isJoker jokerPoint card := by
        intro card hcard
        have := hperm.subset hcard
        simpa [nonJokers] using this
      have hpoints : ∀ card ∈ first :: rest, 2 ≤ card.point := by
        intro card hcard
        have := hdeal card (hmem card (by simp at hcard ⊢; tauto)).1
        simp only [Deal, spades, diamonds, P2, A, JOKER1, JOKER2] at this
        omega
      have hjp : ¬ jokerPoint = A := by
        have := (hmem ace (by simp)).2
        simp [isJoker, hace] at this
        simp
        omega
      obtain ⟨hsort, hrun⟩ := sortCards_map_aceToOne hflush hace hpoints
      rw [hsort]
      have hlastA : (first :: rest ++ [ace]).getLast?.map PokerCard.point =
          some A := by
        rw [List.getLast?_concat, Option.map_some, hace]
      rw [if_neg (by simp only [hjp, hlastA]; simp)]
      rw [straightRescan, straightRescan_run hrun]
      refine decide_eq_true ?_
      simp only [gapsFrom]
      omega

/-! ## The validator accepts nothing else -/

theorem Ascends.trans {first second third : PokerCard}
    (h : Ascends first second) (h' : Ascends second third) :
    Ascends first third :=
  ⟨h.1.trans h'.1, Nat.lt_trans h.2 h'.2⟩

private theorem flush_of_straightScan_run {jokerPoint : Nat}
    {cards : List PokerCard} {scan out : StraightScan} {last : PokerCard}
    (hlast : scan.last = some last)
    (hsorted : (last :: cards).Pairwise (· ≤ ·))
    (h : straightScan jokerPoint scan cards = some out) :
    Flush (last :: nonJokers jokerPoint cards) := by
  induction cards generalizing scan last with
  | nil => exact List.pairwise_singleton _ _
  | cons card rest ih =>
      by_cases hjoker : isJoker jokerPoint card
      · rw [straightScan, if_pos hjoker] at h
        rw [nonJokers_cons_joker hjoker]
        exact @ih { scan with jokerCount := scan.jokerCount + 1 } last hlast
          (hsorted.sublist (by simp)) h
      · rw [straightScan, if_neg hjoker, hlast] at h
        simp only at h
        split at h
        · simp at h
        · rename_i hcolor
          split at h
          · simp at h
          · rename_i hdiff
            have hle := point_le_of_le
              (List.rel_of_pairwise_cons hsorted List.mem_cons_self)
            have hnext : Ascends last card := ⟨by omega, by omega⟩
            have hflush := ih rfl hsorted.of_cons h
            rw [nonJokers_cons hjoker]
            refine List.pairwise_cons.mpr ⟨fun other hother => ?_, hflush⟩
            rcases List.mem_cons.mp hother with rfl | hother
            · exact hnext
            · exact hnext.trans (List.rel_of_pairwise_cons hflush hother)

private theorem flush_of_straightScan {jokerPoint jokers : Nat}
    {cards : List PokerCard} {out : StraightScan}
    (hsorted : cards.Pairwise (· ≤ ·))
    (h : straightScan jokerPoint ⟨jokers, 0, [], none⟩ cards = some out) :
    Flush (nonJokers jokerPoint cards) := by
  induction cards generalizing jokers with
  | nil => exact List.Pairwise.nil
  | cons card rest ih =>
      by_cases hjoker : isJoker jokerPoint card
      · rw [straightScan, if_pos hjoker] at h
        rw [nonJokers_cons_joker hjoker]
        exact ih hsorted.of_cons h
      · rw [straightScan, if_neg hjoker] at h
        rw [nonJokers_cons hjoker]
        exact @flush_of_straightScan_run jokerPoint rest
          ⟨jokers, 0, [card], some card⟩ out card rfl hsorted h

theorem fillable_of_isCardsStraight {jokerPoint : Nat}
    {group : List PokerCard} (hdeal : ∀ card ∈ group, Deal card)
    (h : isCardsStraight (sortCards group) jokerPoint = true) :
    Fillable jokerPoint group := by
  rw [isCardsStraight] at h
  split at h
  · simp at h
  · rename_i hlen
    rw [sortCards_length] at hlen
    split at h
    · simp at h
    · rename_i scan hscan
      have hflush := flush_of_straightScan (sortCards_pairwise group) hscan
      have hperm := nonJokers_perm (sortCards_perm group) jokerPoint
      refine ⟨by omega, _, hperm, hflush, ?_⟩
      obtain ⟨need, last', hrun, hnil, hcons⟩ := straightScan_start hflush 0
      obtain rfl := Option.some_inj.mp (hscan.symm.trans hrun)
      rw [Nat.zero_add, jokerCount_perm (sortCards_perm group)] at h
      simp only at h
      rcases List.eq_nil_or_concat' (nonJokers jokerPoint (sortCards group))
        with hempty | ⟨init, last, hconcat⟩
      · exact Or.inl hempty
      · rw [hconcat] at h hflush hcons hperm ⊢
        by_cases hneed : need ≤ jokerCount jokerPoint group
        · obtain ⟨first, rest, heq⟩ :=
            List.exists_cons_of_ne_nil (List.concat_ne_nil last init)
          exact Or.inr (Or.inl ⟨first, rest, heq, by
            rwa [← hcons first rest heq]⟩)
        · rw [if_neg hneed] at h
          split at h
          · simp at h
          · rename_i hlast
            have hace : last.point = A := by
              rw [List.getLast?_concat, Option.map_some, not_or,
                not_not] at hlast
              exact Option.some_inj.mp hlast.2
            cases init with
            | nil => exact absurd (hcons last [] rfl) (by simp [gapsFrom]; omega)
            | cons first rest =>
                have hpoints : ∀ card ∈ first :: rest, 2 ≤ card.point := by
                  intro card hcard
                  have hmem := hperm.subset (List.mem_append_left _ hcard)
                  have := hdeal card (List.mem_of_mem_filter hmem)
                  simp only [Deal, spades, diamonds, P2, A, JOKER1,
                    JOKER2] at this
                  omega
                obtain ⟨hsort, hlow⟩ :=
                  sortCards_map_aceToOne hflush hace hpoints
                rw [hsort, straightRescan, straightRescan_run hlow] at h
                have hgap := of_decide_eq_true h
                simp only [gapsFrom] at hgap
                exact Or.inr (Or.inr ⟨first, rest, last, rfl, hace, by omega⟩)

/-! ## Pure straights among ascending cards -/

private theorem not_stops {last card : PokerCard} {rest : List PokerCard}
    (hflush : Flush (last :: card :: rest))
    (hpoints : ∀ card' ∈ last :: card :: rest, card'.point ≤ A) :
    ¬ (last.color ≠ card.color ∨ JOKER1 ≤ last.point ∨
      JOKER1 ≤ card.point) := by
  have hcolor := (List.rel_of_pairwise_cons hflush List.mem_cons_self).1
  have hlast := hpoints last (by simp)
  have hcard := hpoints card (by simp)
  simp only [A, JOKER1] at *
  omega

private theorem pureStraightFrom_gap {first last card : PokerCard}
    {rest : List PokerCard} (hflush : Flush (last :: card :: rest))
    (hpoints : ∀ card' ∈ last :: card :: rest, card'.point ≤ A)
    (hnext : last.point + 1 ≠ card.point) :
    pureStraightFrom first last (card :: rest) = true ↔
      gapsFrom last (card :: rest) = 0 ∨
        ∃ init ace, card :: rest = init ++ [ace] ∧ ace.point = A ∧
          first.point = 2 ∧ gapsFrom last init = 0 := by
  obtain ⟨-, hpoint⟩ := List.rel_of_pairwise_cons hflush List.mem_cons_self
  have hnonneg := gapsFrom_nonneg hflush.of_cons
  have hgap : gapsFrom last (card :: rest) ≠ 0 := by
    rw [gapsFrom]
    omega
  rw [pureStraightFrom, if_neg (not_stops hflush hpoints),
    if_pos (by simpa using hnext)]
  by_cases hace : card.point = A
  · have hnil : rest = [] := by
      cases rest with
      | nil => rfl
      | cons other rest =>
          have hlt := (List.rel_of_pairwise_cons hflush.of_cons
            List.mem_cons_self).2
          have hle := hpoints other (by simp)
          omega
    subst hnil
    simp only [hace, ne_eq, not_true_eq_false, if_false]
    constructor
    · intro hfirst
      exact Or.inr ⟨[], card, rfl, hace, by simpa using hfirst, rfl⟩
    · rintro (hzero | ⟨init, ace, -, -, hfirst, -⟩)
      · exact absurd hzero hgap
      · simpa using hfirst
  · simp only [hace, ne_eq, not_false_eq_true, if_true,
      Bool.false_eq_true, false_iff]
    rintro (hzero | ⟨init, ace, heq, hace', -, hinit⟩)
    · exact hgap hzero
    · cases init with
      | nil =>
          obtain ⟨rfl, rfl⟩ := List.cons.inj heq
          exact hace hace'
      | cons card' init =>
          obtain ⟨rfl, rfl⟩ := List.cons.inj heq
          have hflush' : Flush (card :: init) :=
            hflush.of_cons.sublist (by simp)
          have := gapsFrom_nonneg hflush'
          rw [gapsFrom] at hinit
          omega

private theorem pureStraightFrom_iff {first last : PokerCard}
    {rest : List PokerCard} (hflush : Flush (last :: rest))
    (hpoints : ∀ card ∈ last :: rest, card.point ≤ A) :
    pureStraightFrom first last rest = true ↔
      gapsFrom last rest = 0 ∨
        ∃ init ace, rest = init ++ [ace] ∧ ace.point = A ∧
          first.point = 2 ∧ gapsFrom last init = 0 := by
  induction rest generalizing last with
  | nil => simp [pureStraightFrom, gapsFrom]
  | cons card rest ih =>
      by_cases hnext : last.point + 1 = card.point
      · have hzero : (card.point : Int) - last.point - 1 = 0 := by omega
        rw [pureStraightFrom, if_neg (not_stops hflush hpoints),
          if_neg (by simp [hnext]), ih hflush.of_cons fun card' hmem =>
            hpoints card' (List.mem_cons_of_mem _ hmem),
          gapsFrom, hzero, Int.zero_add]
        refine or_congr_right' fun hgap => ⟨?_, ?_⟩
        · rintro ⟨init, ace, rfl, hace, hfirst, hinit⟩
          exact ⟨card :: init, ace, rfl, hace, hfirst,
            by rw [gapsFrom, hzero, hinit, Int.zero_add]⟩
        · rintro ⟨init, ace, heq, hace, hfirst, hinit⟩
          cases init with
          | nil =>
              obtain ⟨rfl, rfl⟩ := List.cons.inj heq
              exact absurd rfl hgap
          | cons card' init =>
              obtain ⟨rfl, rfl⟩ := List.cons.inj heq
              rw [gapsFrom, hzero, Int.zero_add] at hinit
              exact ⟨init, ace, rfl, hace, hfirst, hinit⟩
      · exact pureStraightFrom_gap hflush hpoints hnext

/-- An ascending run without jokers is pure when it has no gaps at all. -/
theorem isCardsPureStraight_iff_fits {cards : List PokerCard}
    (hflush : Flush cards)
    (hpoints : ∀ card ∈ cards, 2 ≤ card.point ∧ card.point ≤ A) :
    isCardsPureStraight cards = true ↔ 3 ≤ cards.length ∧ Fits cards 0 := by
  cases cards with
  | nil => simp [isCardsPureStraight]
  | cons first rest =>
      rw [isCardsPureStraight]
      by_cases hlen : (first :: rest).length < 3
      · rw [if_pos hlen]
        simp only [Bool.false_eq_true, false_iff]
        omega
      · rw [if_neg hlen,
          pureStraightFrom_iff hflush fun card hmem => (hpoints card hmem).2]
        have hnonneg := gapsFrom_nonneg hflush
        have hfirst := (hpoints first (by simp)).1
        constructor
        · rintro (hgap | ⟨init, ace, rfl, hace, htwo, hinit⟩)
          · exact ⟨by omega, Or.inr (Or.inl ⟨first, rest, rfl, by omega⟩)⟩
          · exact ⟨by omega, Or.inr (Or.inr
              ⟨first, init, ace, rfl, hace, by omega⟩)⟩
        · rintro ⟨-, hnil | ⟨first', rest', heq, hgap⟩ |
            ⟨first', rest', ace, heq, hace, hgap⟩⟩
          · simp at hnil
          · obtain ⟨rfl, rfl⟩ := List.cons.inj heq
            exact Or.inl (by omega)
          · obtain ⟨rfl, rfl⟩ := List.cons.inj heq
            have hflush' : Flush (first :: rest') :=
              hflush.sublist (by simp)
            have := gapsFrom_nonneg hflush'
            exact Or.inr ⟨rest', ace, rfl, hace, by omega, by omega⟩

theorem pureStraightFrom_append {first last : PokerCard}
    {cards rest : List PokerCard}
    (h : pureStraightFrom first last (cards ++ rest) = true) :
    pureStraightFrom first last cards = true := by
  induction cards generalizing last with
  | nil => rfl
  | cons card cards ih =>
      rw [List.cons_append, pureStraightFrom] at h
      rw [pureStraightFrom]
      split
      · rename_i hbad
        simp [hbad] at h
      · rename_i hgood
        rw [if_neg hgood] at h
        split
        · rename_i hgap
          rwa [if_pos hgap] at h
        · rename_i hnext
          rw [if_neg hnext] at h
          exact ih h

theorem isCardsPureStraight_cases {cards : List PokerCard}
    (h : isCardsPureStraight cards = true) :
    ∃ c0 c1 c2 rest, cards = c0 :: c1 :: c2 :: rest ∧
      isCardsPureStraight [c0, c1, c2] = true ∧ c0.color = c1.color ∧
      c0.point < JOKER1 ∧ c1.point < JOKER1 ∧
      ((c1.color = c2.color ∧ c2.point < JOKER1 ∧ c1.point = c0.point + 1 ∧
          (c2.point = c1.point + 1 ∨ (c2.point = A ∧ c0.point = P2))) ∨
        (c1.point = A ∧ c0.point = P2)) := by
  obtain ⟨c0, c1, c2, rest, rfl⟩ :
      ∃ c0 c1 c2 rest, cards = c0 :: c1 :: c2 :: rest := by
    match cards with
    | [] | [_] | [_, _] => simp [isCardsPureStraight] at h
    | c0 :: c1 :: c2 :: rest => exact ⟨c0, c1, c2, rest, rfl⟩
  have hlong : ¬ (c0 :: c1 :: c2 :: rest).length < 3 := by simp
  rw [isCardsPureStraight, if_neg hlong] at h
  refine ⟨c0, c1, c2, rest, rfl, ?_, ?_⟩
  · exact @pureStraightFrom_append c0 c0 [c1, c2] rest h
  · simp only [pureStraightFrom] at h
    split at h
    · simp at h
    · rename_i hfirst
      split at h
      · split at h
        · simp at h
        · rename_i hace
          have htwo : c0.point = P2 := by simpa using h
          exact ⟨by omega, by omega, by omega, Or.inr ⟨by omega, htwo⟩⟩
      · rename_i hnext
        split at h
        · simp at h
        · rename_i hsecond
          refine ⟨by omega, by omega, by omega, Or.inl ⟨by omega, by omega,
            by omega, ?_⟩⟩
          split at h
          · split at h
            · simp at h
            · have htwo : c0.point = P2 := by simpa using h
              exact Or.inr ⟨by omega, htwo⟩
          · exact Or.inl (by omega)

theorem nonJokers_ne_nil_of_pure {jokerPoint : Nat} {cards : List PokerCard}
    (h : isCardsPureStraight cards = true) :
    nonJokers jokerPoint cards ≠ [] := by
  obtain ⟨c0, c1, c2, rest, rfl, -, -, h0, h1, hcases⟩ :=
    isCardsPureStraight_cases h
  intro hnil
  have hjoker := List.filter_eq_nil_iff.mp hnil
  have hj0 := hjoker c0 (by simp)
  have hj1 := hjoker c1 (by simp)
  simp only [isJoker, JOKER1, A, P2, Bool.not_eq_true', Bool.not_eq_false,
    Bool.or_eq_true, beq_iff_eq, decide_eq_true_eq] at hj0 hj1 h0 h1 hcases
  omega

/-! ## First and second copies -/

theorem Flush.snoc {cards : List PokerCard} {card : PokerCard}
    (h : Flush cards) (hcolor : ∀ card' ∈ cards, card'.color = card.color)
    (hle : ∀ card' ∈ cards, card'.point ≤ card.point)
    (hne : cards.getLast?.map PokerCard.point ≠ some card.point) :
    Flush (cards ++ [card]) := by
  refine List.pairwise_append.mpr ⟨h, List.pairwise_singleton _ _, ?_⟩
  intro card' hmem other hother
  obtain rfl := List.mem_singleton.mp hother
  refine ⟨hcolor card' hmem, Nat.lt_of_le_of_ne (hle card' hmem) fun heq => ?_⟩
  obtain ⟨init, last, rfl⟩ :=
    List.eq_nil_or_concat'  cards |>.resolve_left (List.ne_nil_of_mem hmem)
  rw [List.getLast?_concat, Option.map_some, ne_eq, Option.some_inj] at hne
  rcases List.mem_append.mp hmem with hinit | hlast
  · have hlt := ((List.pairwise_append.mp h).2.2 card' hinit last (by simp)).2
    have := hle last (by simp)
    omega
  · obtain rfl := List.mem_singleton.mp hlast
    exact hne heq

private theorem popRepeat_run {jokerPoint color : Nat}
    {cards pop rep : List PokerCard}
    (hpops : ∀ card ∈ pop, card.color = color)
    (hcards : ∀ card ∈ cards, card.color = color)
    (hsorted : cards.Pairwise (· ≤ ·)) (hflush : Flush pop)
    (hbelow : PointsBelow pop cards) :
    ∃ pop' rep', popRepeat jokerPoint pop rep cards = (pop', rep ++ rep') ∧
      Flush pop' ∧ pop ⊆ pop' ∧ nonJokers jokerPoint cards ⊆ pop' ∧
      rep'.Sublist (nonJokers jokerPoint cards) ∧
      (pop' ++ rep').Perm (pop ++ nonJokers jokerPoint cards) := by
  induction cards generalizing pop rep with
  | nil =>
      exact ⟨pop, [], by simp [popRepeat], hflush, by simp [nonJokers]⟩
  | cons card rest ih =>
      have hrest : rest.Pairwise (· ≤ ·) := hsorted.of_cons
      obtain ⟨hcolor, hcolors⟩ := List.forall_mem_cons.mp hcards
      by_cases hjoker : isJoker jokerPoint card
      · rw [popRepeat, if_pos hjoker, nonJokers_cons_joker hjoker]
        exact ih hpops hcolors hrest hflush hbelow.tail
      · rw [popRepeat, if_neg hjoker, nonJokers_cons hjoker]
        by_cases hlast : pop.getLast?.map PokerCard.point = some card.point
        · rw [if_pos hlast]
          obtain ⟨last, hlast', hpoint⟩ := Option.map_eq_some_iff.mp hlast
          have hmem : last ∈ pop := List.mem_of_getLast? hlast'
          have hcard : last = card := by
            have hlast := hpops last hmem
            cases last
            cases card
            simp_all
          obtain ⟨pop', rep', heq, hflush', hpop, hnon, hsub, hperm⟩ :=
            @ih pop (rep ++ [card]) hpops hcolors hrest hflush hbelow.tail
          refine ⟨pop', card :: rep', by simp [heq], hflush', hpop, ?_,
            hsub.cons_cons card, ?_⟩
          · exact List.cons_subset.mpr ⟨hpop (hcard ▸ hmem), hnon⟩
          · exact (List.perm_middle.trans (hperm.cons card)).trans
              List.perm_middle.symm
        · rw [if_neg hlast]
          have hflush' : Flush (pop ++ [card]) :=
            hflush.snoc
              (fun card' hmem => (hpops card' hmem).trans hcolor.symm)
              (fun card' hmem => hbelow card' hmem card List.mem_cons_self)
              hlast
          obtain ⟨pop', rep', heq, hflush'', hpop, hnon, hsub, hperm⟩ :=
            @ih (pop ++ [card]) rep
              (List.forall_mem_append.mpr
                ⟨hpops, List.forall_mem_singleton.mpr hcolor⟩)
              hcolors hrest hflush' (hbelow.snoc hsorted)
          refine ⟨pop', rep', heq, hflush'', ?_, ?_, hsub.cons card, ?_⟩
          · exact fun card' hmem => hpop (by simp [hmem])
          · exact List.cons_subset.mpr ⟨hpop (by simp), hnon⟩
          · simpa using hperm

theorem popRepeat_spec {jokerPoint color : Nat} {cards : List PokerCard}
    (hcolor : ∀ card ∈ cards, card.color = color)
    (hcount : ∀ card, cards.count card ≤ 2) :
    ∃ pop rep, popRepeat jokerPoint [] [] (sortCards cards) = (pop, rep) ∧
      Flush pop ∧ Flush rep ∧ nonJokers jokerPoint cards ⊆ pop ∧
      (pop ++ rep).Perm (nonJokers jokerPoint cards) := by
  obtain ⟨pop, rep, heq, hflush, -, hsub, hrep, hperm⟩ :=
    @popRepeat_run jokerPoint color (sortCards cards) [] []
      (List.forall_mem_nil _) (by simpa using hcolor)
      (sortCards_pairwise cards) List.Pairwise.nil (PointsBelow.nil _)
  have hnon := nonJokers_perm (sortCards_perm cards) jokerPoint
  rw [List.nil_append] at heq hperm
  refine ⟨pop, rep, heq, hflush, ?_, List.Subset.trans hnon.symm.subset hsub,
    hperm.trans hnon⟩
  have hnodup : rep.Nodup := by
    rw [List.nodup_iff_count_le_one]
    intro card
    by_cases hmem : card ∈ rep
    · have hpos := List.count_pos_iff.mpr (hsub (hrep.subset hmem))
      have htotal := (hperm.trans hnon).count_eq card
      have hle : (nonJokers jokerPoint cards).count card ≤ cards.count card :=
        List.filter_sublist.count_le card
      have := hcount card
      rw [List.count_append] at htotal
      omega
    · simp [List.count_eq_zero.mpr hmem]
  have hmem : ∀ card ∈ rep, card.color = color := fun card hcard =>
    hcolor card (List.mem_of_mem_filter (hnon.subset (hrep.subset hcard)))
  have hsorted : rep.Pairwise (· ≤ ·) :=
    ((sortCards_pairwise cards).filter _).sublist hrep
  refine List.Pairwise.imp_of_mem ?_ (hsorted.and hnodup)
  rintro ⟨color₁, point₁⟩ ⟨color₂, point₂⟩ h₁ h₂ ⟨hle, hne⟩
  have hcolor₁ : color₁ = color := hmem _ h₁
  have hcolor₂ : color₂ = color := hmem _ h₂
  simp only [le_iff, ne_eq, PokerCard.mk.injEq, Ascends] at hle hne ⊢
  omega

/-! ## The straights made of one selection -/

private theorem fillNumFrom_eq {last : PokerCard} {rest : List PokerCard}
    (hflush : Flush (last :: rest))
    (hpoints : ∀ card ∈ rest, card.point ≤ A) (fillNum : Int) :
    fillNumFrom last fillNum rest = fillNum + gapsFrom last rest := by
  induction rest generalizing last fillNum with
  | nil => simp [fillNumFrom, gapsFrom]
  | cons card rest ih =>
      have hlt := (List.rel_of_pairwise_cons hflush List.mem_cons_self).2
      have hcard := hpoints card List.mem_cons_self
      have hne : last.point ≠ A := by omega
      rw [fillNumFrom, gapsFrom]
      simp only [hne, if_false]
      rw [ih hflush.of_cons
        fun card' hmem => hpoints card' (List.mem_cons_of_mem _ hmem)]
      omega

theorem toStraightFillJokerNum_eq (self : Combination)
    {first : PokerCard} {rest : List PokerCard}
    (hfill : 0 ≤ fillNumFrom first 0 rest) :
    ∃ need : Int, 1 ≤ need ∧
      (∀ count : Nat, need ≤ count ↔ 1 ≤ count ∧
        fillNumFrom first 0 rest ≤ count ∧
        3 ≤ (first :: rest).length + count) ∧
      toStraightFillJokerNum self (first :: rest) =
        some (if need ≤ self.jokerCards.length then
          (need, (self.jokerCards.length : Int)) else (0, 0)) := by
  refine ⟨max (max (fillNumFrom first 0 rest)
    (3 - ((first :: rest).length : Int))) 1, by omega, fun count => by omega,
    ?_⟩
  simp only [toStraightFillJokerNum]
  split_ifs <;> simp only [Option.some.injEq, Prod.mk.injEq] <;> omega

theorem combineWithJokerCard_spec {self : Combination}
    {cards : List PokerCard} (hcaches : self.Caches cards)
    {first : PokerCard} {rest : List PokerCard}
    (hfill : 0 ≤ fillNumFrom first 0 rest) :
    ∃ groups, combineWithJokerCard self (first :: rest) = some groups ∧
      ∀ group, group ∈ groups ↔ ∃ combine ∈ self.jokerCombines,
        fillNumFrom first 0 rest ≤ combine.length ∧
        3 ≤ (first :: rest).length + combine.length ∧
        group = ⟨GROUP_STAIGHT, sortCards (first :: rest ++ combine)⟩ := by
  have hbound : ∀ combine ∈ self.jokerCombines,
      1 ≤ combine.length ∧ combine.length ≤ self.jokerCards.length := by
    intro combine hmem
    obtain ⟨hsub, hne⟩ := hcaches.mem_combines.mp hmem
    rw [hcaches.jokers]
    exact ⟨List.length_pos_iff.mpr hne, hsub.length_le⟩
  obtain ⟨need, hpos, hneed, heq⟩ := toStraightFillJokerNum_eq self hfill
  rw [combineWithJokerCard, heq]
  by_cases henough : need ≤ self.jokerCards.length
  · have hzero : ¬ need = 0 := by omega
    simp only [henough, if_true, Option.bind_eq_bind, Option.bind_some, hzero,
      if_false]
    refine ⟨_, rfl, fun group => ?_⟩
    simp only [List.mem_flatMap, List.mem_range, List.mem_map,
      List.mem_filter, decide_eq_true_eq]
    constructor
    · rintro ⟨k, hk, combine, ⟨hmem, hlen⟩, rfl⟩
      have := (hneed combine.length).mp (by omega)
      exact ⟨combine, hmem, this.2.1, this.2.2, rfl⟩
    · rintro ⟨combine, hmem, hfit, hlen, rfl⟩
      have hb := hbound combine hmem
      have := (hneed combine.length).mpr ⟨hb.1, hfit, hlen⟩
      exact ⟨(combine.length - need).toNat, by omega, combine,
        ⟨hmem, by omega⟩, rfl⟩
  · simp only [henough, if_false, Option.bind_eq_bind, Option.bind_some,
      if_true]
    refine ⟨[], rfl, fun group => ?_⟩
    simp only [List.not_mem_nil, false_iff]
    rintro ⟨combine, hmem, hfit, hlen, -⟩
    have hb := hbound combine hmem
    have := (hneed combine.length).mpr ⟨hb.1, hfit, hlen⟩
    omega

/-- A selection is filled with no joker at all or with cached jokers. -/
def FilledBy (self : Combination) (hand combine : List PokerCard) : Prop :=
  (combine = [] ∨ combine ∈ self.jokerCombines) ∧
    Fits hand combine.length ∧ 3 ≤ hand.length + combine.length

theorem fits_cons_iff {first : PokerCard} {rest : List PokerCard}
    {jokers : Nat} : Fits (first :: rest) jokers ↔
      gapsFrom first rest ≤ jokers ∨ ∃ init ace, rest = init ++ [ace] ∧
        ace.point = A ∧
        ((first.point : Int) - 2) + gapsFrom first init ≤ jokers := by
  constructor
  · rintro (hnil | ⟨first', rest', heq, hgap⟩ |
      ⟨first', rest', ace, heq, hace, hgap⟩)
    · simp at hnil
    · obtain ⟨rfl, rfl⟩ := List.cons.inj heq
      exact Or.inl hgap
    · obtain ⟨rfl, rfl⟩ := List.cons.inj heq
      exact Or.inr ⟨rest', ace, rfl, hace, hgap⟩
  · rintro (hgap | ⟨init, ace, rfl, hace, hgap⟩)
    · exact Or.inr (Or.inl ⟨first, rest, rfl, hgap⟩)
    · exact Or.inr (Or.inr ⟨first, init, ace, rfl, hace, hgap⟩)

theorem mem_pureGroup {hand : List PokerCard} (hflush : Flush hand)
    (hpoints : ∀ card ∈ hand, 2 ≤ card.point ∧ card.point ≤ A)
    (group : CardGroup) :
    group ∈ (if isCardsPureStraight hand then
        [(⟨GROUP_STAIGHT, hand⟩ : CardGroup)] else []) ↔
      Fits hand 0 ∧ 3 ≤ hand.length ∧
        group = ⟨GROUP_STAIGHT, sortCards (hand ++ [])⟩ := by
  have hsort : sortCards (hand ++ []) = hand :=
    sortCards_eq_of_perm (by simp) hflush.sorted
  have hiff := isCardsPureStraight_iff_fits hflush hpoints
  rw [hsort]
  by_cases hpure : isCardsPureStraight hand
  · have := hiff.mp hpure
    simp [hpure, this]
  · have hfail : ¬ (3 ≤ hand.length ∧ Fits hand 0) := fun h =>
      hpure (hiff.mpr h)
    simp only [hpure, Bool.false_eq_true, if_false, List.not_mem_nil,
      false_iff]
    tauto

private theorem mem_pureGroup_append {self : Combination}
    {hand : List PokerCard} (hflush : Flush hand)
    (hpoints : ∀ card ∈ hand, 2 ≤ card.point ∧ card.point ≤ A)
    {groups : List CardGroup}
    (hgroups : ∀ group, group ∈ groups ↔ ∃ combine ∈ self.jokerCombines,
      Fits hand combine.length ∧ 3 ≤ hand.length + combine.length ∧
      group = ⟨GROUP_STAIGHT, sortCards (hand ++ combine)⟩)
    (group : CardGroup) :
    group ∈ (if isCardsPureStraight hand then
        [(⟨GROUP_STAIGHT, hand⟩ : CardGroup)] else []) ++ groups ↔
      ∃ combine, FilledBy self hand combine ∧
        group = ⟨GROUP_STAIGHT, sortCards (hand ++ combine)⟩ := by
  rw [List.mem_append, mem_pureGroup hflush hpoints, hgroups]
  constructor
  · rintro (⟨hfits, hlen, heq⟩ | ⟨combine, hmem, hfits, hlen, heq⟩)
    · exact ⟨[], ⟨Or.inl rfl, hfits, hlen⟩, heq⟩
    · exact ⟨combine, ⟨Or.inr hmem, hfits, hlen⟩, heq⟩
  · rintro ⟨combine, ⟨rfl | hmem, hfits, hlen⟩, heq⟩
    · exact Or.inl ⟨hfits, hlen, heq⟩
    · exact Or.inr ⟨combine, hmem, hfits, hlen, heq⟩

private theorem fillNumFrom_ace {first ace : PokerCard}
    {init : List PokerCard} (hflush : Flush (first :: init))
    (hace : ace.point = A) (hpoints : ∀ card ∈ init, card.point ≤ A) :
    fillNumFrom ace 0 (first :: init) =
      ((first.point : Int) - 2) + gapsFrom first init := by
  rw [fillNumFrom]
  simp only [hace, if_true]
  rw [fillNumFrom_eq hflush hpoints]
  omega

/--
The groups of one selection: the selection itself when it is pure, then those
with a final Ace high, then those with the Ace low.
-/
structure SelectionBlocks (c : Combination) (first : PokerCard)
    (rest : List PokerCard) (high low : List CardGroup) : Prop where
  eq : straightsOfSelection c (first :: rest) =
    some ((if isCardsPureStraight (first :: rest) then
      [⟨GROUP_STAIGHT, first :: rest⟩] else []) ++ (high ++ low))
  fillHigh : fillNumFrom first 0 rest = gapsFrom first rest ∧
    0 ≤ gapsFrom first rest
  high : combineWithJokerCard c (first :: rest) = some high
  low : (low = [] ∧ ¬ ∃ init ace, rest = init ++ [ace] ∧ ace.point = A) ∨
    ∃ init ace, rest = init ++ [ace] ∧ ace.point = A ∧
      fillNumFrom ace 0 (first :: init) =
        ((first.point : Int) - 2) + gapsFrom first init ∧
      0 ≤ fillNumFrom ace 0 (first :: init) ∧
      combineWithJokerCard c (ace :: first :: init) = some low

theorem exists_selectionBlocks {self : Combination} {cards : List PokerCard}
    (hcaches : self.Caches cards) {first : PokerCard}
    {rest : List PokerCard} (hflush : Flush (first :: rest))
    (hpoints : ∀ card ∈ first :: rest, 2 ≤ card.point ∧ card.point ≤ A) :
    ∃ high low, SelectionBlocks self first rest high low := by
  have hle : ∀ card ∈ rest, card.point ≤ A := fun card hmem =>
    (hpoints card (List.mem_cons_of_mem _ hmem)).2
  have hfill : fillNumFrom first 0 rest = gapsFrom first rest := by
    rw [fillNumFrom_eq hflush hle, Int.zero_add]
  have hnonneg := gapsFrom_nonneg hflush
  obtain ⟨high, hhigh, -⟩ :=
    @combineWithJokerCard_spec self cards hcaches first rest (by omega)
  by_cases hace : ∃ init ace, rest = init ++ [ace] ∧ ace.point = A
  · obtain ⟨init, ace, rfl, hace⟩ := hace
    have hflush' : Flush (first :: init) := hflush.sublist (by simp)
    have hlow := fillNumFrom_ace hflush' hace
      fun card hcard => hle card (by simp [hcard])
    have hfirst := hpoints first (by simp)
    have hnonneg' := gapsFrom_nonneg hflush'
    obtain ⟨low, hlowEq, -⟩ :=
      @combineWithJokerCard_spec self cards hcaches ace (first :: init)
        (by omega)
    refine ⟨high, low, ?_, ⟨hfill, hnonneg⟩, hhigh,
      Or.inr ⟨init, ace, rfl, hace, hlow, by omega, hlowEq⟩⟩
    rw [straightsOfSelection, hhigh]
    have hlast : (first :: (init ++ [ace])).getLast? = some ace := by
      rw [← List.cons_append, List.getLast?_concat]
    have hinit : (first :: (init ++ [ace])).dropLast = first :: init := by
      rw [← List.cons_append, List.dropLast_concat]
    simp [hlast, hinit, hace, hlowEq]
  · refine ⟨high, [], ?_, ⟨hfill, hnonneg⟩, hhigh, Or.inl ⟨rfl, hace⟩⟩
    rw [straightsOfSelection, hhigh]
    obtain ⟨init, last, hlast⟩ :=
      (List.eq_nil_or_concat' (first :: rest)).resolve_left (by simp)
    have hlow : ¬ (1 < (first :: rest).length ∧ last.point = A) := by
      rintro ⟨hlen, hpoint⟩
      cases init with
      | nil =>
          rw [hlast] at hlen
          simp at hlen
      | cons first' init =>
          obtain ⟨-, rfl⟩ := List.cons.inj hlast
          exact hace ⟨init, last, rfl, hpoint⟩
    have hgetLast : (first :: rest).getLast? = some last := by
      rw [hlast, List.getLast?_concat]
    simp only [Option.bind_eq_bind, Option.bind_some, hgetLast, if_neg hlow,
      List.append_nil]

theorem sortCards_ace_first (first ace : PokerCard)
    (init combine : List PokerCard) :
    sortCards (ace :: first :: init ++ combine) =
      sortCards (first :: (init ++ [ace]) ++ combine) :=
  sortCards_congr
    ((@List.perm_append_comm _ [ace] (first :: init)).append_right combine)

theorem straightsOfSelection_spec {self : Combination}
    {cards hand : List PokerCard} (hcaches : self.Caches cards)
    (hne : hand ≠ []) (hflush : Flush hand)
    (hpoints : ∀ card ∈ hand, 2 ≤ card.point ∧ card.point ≤ A) :
    ∃ groups, straightsOfSelection self hand = some groups ∧
      ∀ group, group ∈ groups ↔ ∃ combine, FilledBy self hand combine ∧
        group = ⟨GROUP_STAIGHT, sortCards (hand ++ combine)⟩ := by
  obtain ⟨first, rest, rfl⟩ := List.exists_cons_of_ne_nil hne
  obtain ⟨high, low, hblocks⟩ := exists_selectionBlocks hcaches hflush hpoints
  obtain ⟨hfill, hnonneg⟩ := hblocks.fillHigh
  obtain ⟨high', hhigh', hmem⟩ :=
    @combineWithJokerCard_spec self cards hcaches first rest (by omega)
  obtain rfl := Option.some_inj.mp (hblocks.high.symm.trans hhigh')
  simp only [hfill] at hmem
  refine ⟨_, hblocks.eq, @mem_pureGroup_append self _ hflush hpoints
    (high ++ low) fun group => ?_⟩
  rcases hblocks.low with ⟨rfl, hace⟩ | ⟨init, ace, rfl, hace, hfill', hpos,
    hlow⟩
  · rw [List.append_nil, hmem]
    simp only [fits_cons_iff]
    refine exists_congr fun combine => and_congr_right fun _ =>
      and_congr_left fun _ => ⟨Or.inl, ?_⟩
    rintro (hfits | ⟨init, ace, heq, hpoint, -⟩)
    · exact hfits
    · exact absurd ⟨init, ace, heq, hpoint⟩ hace
  · obtain ⟨low', hlow', hmemA1⟩ :=
      @combineWithJokerCard_spec self cards hcaches ace (first :: init) hpos
    obtain rfl := Option.some_inj.mp (hlow.symm.trans hlow')
    have hlen : (ace :: first :: init).length =
        (first :: (init ++ [ace])).length := by simp
    simp only [List.mem_append, hmem, hmemA1, fits_cons_iff,
      sortCards_ace_first, hlen, hfill']
    constructor
    · rintro (⟨combine, hcombine, hfits, rest⟩ |
        ⟨combine, hcombine, hfits, rest⟩)
      · exact ⟨combine, hcombine, Or.inl hfits, rest⟩
      · exact ⟨combine, hcombine, Or.inr ⟨init, ace, rfl, hace, hfits⟩,
          rest⟩
    · rintro ⟨combine, hcombine, hfits | ⟨init', ace', heq, -, hfits⟩, rest⟩
      · exact Or.inl ⟨combine, hcombine, hfits, rest⟩
      · obtain ⟨rfl, -⟩ := List.append_inj' heq rfl
        exact Or.inr ⟨combine, hcombine, hfits, rest⟩

/-! ## The whole search -/

theorem searchStraightFlushSelectN_spec {self : Combination}
    {cards pop : List PokerCard} (hcaches : self.Caches cards)
    (hpop : Flush pop)
    (hpoints : ∀ card ∈ pop, 2 ≤ card.point ∧ card.point ≤ A) {n : Nat}
    (hn : 1 ≤ n ∧ n ≤ 14) :
    ∃ out, searchStraightFlushSelectN self pop n = some out ∧
      ∀ group, group ∈ out ↔ ∃ hand, hand.Sublist pop ∧ hand.length = n ∧
        ∃ combine, FilledBy self hand combine ∧
          group = ⟨GROUP_STAIGHT, sortCards (hand ++ combine)⟩ := by
  rw [searchStraightFlushSelectN, if_pos hn]
  by_cases hshort : pop.length < n
  · refine ⟨[], if_pos hshort, fun group => ?_⟩
    simp only [List.not_mem_nil, false_iff]
    rintro ⟨hand, hsub, rfl, -⟩
    exact absurd hsub.length_le (by omega)
  · rw [if_neg hshort]
    obtain ⟨outs, houts, hmem⟩ := collect_mem fun hand
        (hhand : hand ∈ caculateAllChoices pop n) => by
      obtain ⟨hsub, hlen⟩ := mem_caculateAllChoices.mp hhand
      exact straightsOfSelection_spec hcaches
        (List.length_pos_iff.mp (by omega)) (hpop.sublist hsub)
        fun card hcard => hpoints card (hsub.subset hcard)
    refine ⟨outs, houts, fun group => ?_⟩
    rw [hmem]
    simp only [mem_caculateAllChoices, and_assoc]

theorem searchStraightFlushI_spec {self : Combination}
    {cards pop rep : List PokerCard} (hcaches : self.Caches cards)
    (hpop : Flush pop) (hrep : Flush rep)
    (hpoints : ∀ card ∈ pop ++ rep, 2 ≤ card.point ∧ card.point ≤ A)
    (hlen : pop.length + self.jokerCards.length ≤ 14) :
    ∃ groups, searchStraightFlushI self pop rep = some groups ∧
      ∀ group, group ∈ groups ↔ ∃ hand combine,
        ((hand.Sublist pop ∧ hand ≠ [] ∧ FilledBy self hand combine) ∨
          (hand.Sublist rep ∧ combine = [] ∧ FilledBy self hand combine)) ∧
        group = ⟨GROUP_STAIGHT, sortCards (hand ++ combine)⟩ := by
  have hselect : ∀ n ∈ List.range' 1 (pop.length + self.jokerCards.length),
      ∃ out, searchStraightFlushSelectN self pop n = some out ∧
        ∀ group, group ∈ out ↔ ∃ hand, hand.Sublist pop ∧ hand.length = n ∧
          ∃ combine, FilledBy self hand combine ∧
            group = ⟨GROUP_STAIGHT, sortCards (hand ++ combine)⟩ := by
    intro n hn
    rw [List.mem_range'_1] at hn
    exact searchStraightFlushSelectN_spec hcaches hpop
      (fun card hcard => hpoints card (List.mem_append_left _ hcard))
      (by omega)
  obtain ⟨outs, houts, hmem⟩ := collect_mem hselect
  refine ⟨_, by rw [searchStraightFlushI, houts]; rfl, fun group => ?_⟩
  have hpure : ∀ hand : List PokerCard, hand.Sublist rep →
      (isCardsPureStraight hand = true ↔ FilledBy self hand []) ∧
        sortCards (hand ++ []) = hand := by
    intro hand hsub
    have hflush : Flush hand := hrep.sublist hsub
    rw [isCardsPureStraight_iff_fits hflush fun card hcard =>
      hpoints card (by simp [hsub.subset hcard])]
    refine ⟨?_, sortCards_eq_of_perm (by simp) hflush.sorted⟩
    simp only [FilledBy, true_or, true_and, List.length_nil, Nat.add_zero]
    exact and_comm
  simp only [List.mem_append, hmem, List.mem_flatMap, List.mem_range'_1,
    List.mem_map, List.mem_filter, mem_caculateAllChoices]
  constructor
  · rintro (⟨n, hn, hand, hsub, hlen', combine, hfilled, rfl⟩ |
      ⟨i, hi, hand, ⟨⟨hsub, hlen'⟩, hhand⟩, rfl⟩)
    · exact ⟨hand, combine, Or.inl ⟨hsub,
        List.length_pos_iff.mp (by omega), hfilled⟩, rfl⟩
    · obtain ⟨hiff, hsort⟩ := hpure hand hsub
      exact ⟨hand, [], Or.inr ⟨hsub, rfl, hiff.mp hhand⟩, by rw [hsort]⟩
  · rintro ⟨hand, combine, ⟨hsub, hne, hfilled⟩ | ⟨hsub, rfl, hfilled⟩, rfl⟩
    · have hpos := List.length_pos_iff.mpr hne
      have hle := hsub.length_le
      exact Or.inl ⟨hand.length, by omega, hand, hsub, rfl, combine, hfilled,
        rfl⟩
    · obtain ⟨hiff, hsort⟩ := hpure hand hsub
      have hlong := hfilled.2.2
      have hle := hsub.length_le
      rw [List.length_nil] at hlong
      exact Or.inr ⟨hand.length, by omega, hand,
        ⟨⟨hsub, rfl⟩, hiff.mpr hfilled⟩, by rw [hsort]⟩

/-- A group of the straight search over `cards`. -/
structure StraightOf (jokerPoint : Nat) (cards : List PokerCard)
    (group : CardGroup) : Prop where
  type : group.type = GROUP_STAIGHT
  fillable : Fillable jokerPoint group.cards
  subperm : group.cards.Subperm cards
  sorted : group.cards.Pairwise (· ≤ ·) ∨
    nonJokers jokerPoint group.cards = []

theorem nonJokers_subset {jokerPoint : Nat} {cards : List PokerCard} :
    nonJokers jokerPoint cards ⊆ cards :=
  fun _ hmem => List.mem_of_mem_filter hmem

theorem filter_parts {jokerPoint : Nat}
    {hand combine cards : List PokerCard}
    (hhand : hand ⊆ nonJokers jokerPoint cards)
    (hcombine : combine ⊆ searchJokerCards jokerPoint cards) :
    nonJokers jokerPoint (hand ++ combine) = hand ∧
      jokerCount jokerPoint (hand ++ combine) = combine.length := by
  have hnon : ∀ card ∈ hand, ¬ isJoker jokerPoint card := fun card hmem => by
    simpa using List.of_mem_filter (hhand hmem)
  have hjoker : ∀ card ∈ combine, isJoker jokerPoint card := fun card hmem =>
    List.of_mem_filter (hcombine hmem)
  constructor
  · rw [nonJokers, List.filter_append, List.filter_eq_self.mpr,
      List.filter_eq_nil_iff.mpr, List.append_nil]
    · simpa using hjoker
    · simpa using hnon
  · rw [jokerCount, List.countP_append, List.countP_eq_zero.mpr hnon,
      List.countP_eq_length.mpr hjoker, Nat.zero_add]

private theorem filled_straightOf {self : Combination}
    {cards hand combine : List PokerCard} (hcaches : self.Caches cards)
    (hsub : hand.Subperm (nonJokers self.jokerPoint cards))
    (hflush : Flush hand) (hfilled : FilledBy self hand combine) :
    StraightOf self.jokerPoint cards
      ⟨GROUP_STAIGHT, sortCards (hand ++ combine)⟩ := by
  obtain ⟨hcombine, hfits, hlen⟩ := hfilled
  have hcombine' :
      combine.Sublist (searchJokerCards self.jokerPoint cards) := by
    rcases hcombine with rfl | hmem
    · exact List.nil_sublist _
    · exact (hcaches.mem_combines.mp hmem).1
  obtain ⟨hnon, hcount⟩ := filter_parts hsub.subset hcombine'.subset
  have hperm := sortCards_perm (hand ++ combine)
  refine ⟨rfl, ⟨?_, hand, ?_, hflush, ?_⟩, ?_,
    Or.inl (sortCards_pairwise _)⟩
  · rw [sortCards_length, List.length_append]
    exact hlen
  · have := nonJokers_perm hperm self.jokerPoint
    rw [hnon] at this
    exact this.symm
  · rw [jokerCount_perm hperm, hcount]
    exact hfits
  · refine hperm.subperm.trans ((hsub.append hcombine'.subperm).trans ?_)
    exact (nonJokers_append_jokers_perm self.jokerPoint cards).subperm

theorem Searchable.points {cards : List PokerCard} (h : Searchable cards)
    {jokerPoint : Nat} {card : PokerCard}
    (hmem : card ∈ nonJokers jokerPoint cards) :
    2 ≤ card.point ∧ card.point ≤ A := by
  have hdeal := h.deal card (nonJokers_subset hmem)
  have hnon := List.of_mem_filter hmem
  simp only [isJoker, JOKER1, Bool.not_eq_true', Bool.or_eq_false_iff,
    decide_eq_false_iff_not] at hnon
  simp only [Deal, spades, diamonds, P2, A, JOKER1, JOKER2] at hdeal ⊢
  omega

theorem mem_flushColors {cards : List PokerCard} {color : Nat} :
    color ∈ flushColors cards ↔ ∃ card ∈ cards, card.color = color := by
  rw [flushColors, (List.perm_insertionSort _ _).mem_iff, List.mem_dedup,
    List.mem_map]

def SuitStraight (self : Combination) (cards : List PokerCard) (color : Nat)
    (group : CardGroup) : Prop :=
  ∃ hand combine, hand ≠ [] ∧ Flush hand ∧
    hand.Subperm (nonJokers self.jokerPoint cards) ∧
    (∀ card ∈ hand, card.color = color) ∧ FilledBy self hand combine ∧
    group = ⟨GROUP_STAIGHT, sortCards (hand ++ combine)⟩

theorem exists_suitSplit {self : Combination} {cards : List PokerCard}
    (hs : Searchable cards) (hcaches : self.Caches cards) (color : Nat) :
    ∃ pop rep, popRepeat self.jokerPoint [] []
        (sortCards (cards.filter fun card => card.color = color)) =
          (pop, rep) ∧
      Flush pop ∧ Flush rep ∧
      nonJokers self.jokerPoint
        (cards.filter fun card => card.color = color) ⊆ pop ∧
      (pop ++ rep).Perm (nonJokers self.jokerPoint
        (cards.filter fun card => card.color = color)) ∧
      (pop ++ rep).Subperm (nonJokers self.jokerPoint cards) ∧
      pop.length + self.jokerCards.length ≤ 14 := by
  obtain ⟨pop, rep, heq, hpop, hrep, hsub, hperm⟩ :=
    @popRepeat_spec self.jokerPoint color
      (cards.filter fun card => card.color = color)
      (fun card hmem => by simpa using List.of_mem_filter hmem)
      fun card => (List.filter_sublist.count_le card).trans (hs.count card)
  have hall : (pop ++ rep).Subperm (nonJokers self.jokerPoint cards) :=
    hperm.subperm.trans (List.filter_sublist.filter _).subperm
  refine ⟨pop, rep, heq, hpop, hrep, hsub, hperm, hall, ?_⟩
  have h₁ := hall.length_le
  have h₂ := length_nonJokers_add self.jokerPoint cards
  have h₃ := hs.length
  rw [jokerCount_eq_length, ← hcaches.jokers] at h₂
  rw [List.length_append] at h₁
  omega

private theorem searchSuit_spec {self : Combination}
    {cards : List PokerCard} (hs : Searchable cards)
    (hcaches : self.Caches cards) (color : Nat) :
    ∃ groups, (let leftCards :=
        sortCards (cards.filter fun card => card.color = color)
      let (popCards, repeatCards) := popRepeat self.jokerPoint [] [] leftCards
      searchStraightFlushI self popCards repeatCards) = some groups ∧
      ∀ group, group ∈ groups ↔ SuitStraight self cards color group := by
  have hcolor : ∀ card ∈ cards.filter fun card => card.color = color,
      card.color = color := fun card hmem => by
    simpa using List.of_mem_filter hmem
  obtain ⟨pop, rep, heq, hpop, hrep, hsub, hperm, hall, hlen⟩ :=
    exists_suitSplit hs hcaches color
  simp only [heq]
  obtain ⟨groups, hgroups, hmem⟩ := searchStraightFlushI_spec hcaches hpop hrep
    (fun card hcard => hs.points (hall.subset hcard)) hlen
  refine ⟨groups, hgroups, fun group => ?_⟩
  rw [hmem]
  constructor
  · rintro ⟨hand, combine, hparts, rfl⟩
    have hhand : hand ≠ [] ∧ Flush hand ∧ hand.Sublist (pop ++ rep) ∧
        FilledBy self hand combine := by
      rcases hparts with ⟨hpart, hne, hfilled⟩ | ⟨hpart, rfl, hfilled⟩
      · exact ⟨hne, hpop.sublist hpart,
          hpart.trans (List.sublist_append_left pop rep), hfilled⟩
      · refine ⟨?_, hrep.sublist hpart,
          hpart.trans (List.sublist_append_right pop rep), hfilled⟩
        have := hfilled.2.2
        rintro rfl
        simp at this
    obtain ⟨hne, hflush, hpart, hfilled⟩ := hhand
    exact ⟨hand, combine, hne, hflush, hpart.subperm.trans hall,
      fun card hcard => hcolor card
        (nonJokers_subset (hperm.subset (hpart.subset hcard))), hfilled, rfl⟩
  · rintro ⟨hand, combine, hne, hflush, hhand, hcolors, hfilled, rfl⟩
    refine ⟨hand, combine, Or.inl ⟨?_, hne, hfilled⟩, rfl⟩
    refine List.sublist_of_subperm_of_pairwise
      (hflush.nodup.subperm fun card hcard => hsub ?_) hflush.sorted
      hpop.sorted
    have hcard' := hhand.subset hcard
    simp only [nonJokers, List.mem_filter] at hcard' ⊢
    exact ⟨⟨hcard'.1, by simpa using hcolors card hcard⟩, hcard'.2⟩

private theorem exists_suitStraight {self : Combination}
    {cards group : List PokerCard} (hcaches : self.Caches cards)
    (hfillable : Fillable self.jokerPoint group) (hsub : group.Subperm cards)
    (hne : nonJokers self.jokerPoint group ≠ []) :
    ∃ color ∈ flushColors cards, ∃ found,
      SuitStraight self cards color found ∧ found.cards.Perm group := by
  obtain ⟨hlen, hand, hhand, hflush, hfits⟩ := hfillable
  obtain ⟨combine, hcombine, hcombine'⟩ :=
    hsub.filter (isJoker self.jokerPoint)
  have hcount : combine.length = jokerCount self.jokerPoint group := by
    rw [jokerCount_eq_length]
    exact hcombine.length_eq
  cases hand with
  | nil => exact absurd hhand.symm.eq_nil hne
  | cons first rest =>
      have hpart : (first :: rest).Subperm
          (nonJokers self.jokerPoint cards) :=
        hhand.subperm.trans (hsub.filter _)
      have htotal := length_nonJokers_add self.jokerPoint group
      refine ⟨first.color, mem_flushColors.mpr ⟨first, ?_, rfl⟩, _,
        ⟨first :: rest, combine, by simp, hflush, hpart, ?_,
          ⟨?_, by rwa [hcount], ?_⟩, rfl⟩, ?_⟩
      · exact nonJokers_subset (hpart.subset List.mem_cons_self)
      · intro card hcard
        rcases List.mem_cons.mp hcard with rfl | hcard
        · rfl
        · exact (List.rel_of_pairwise_cons hflush hcard).1.symm
      · rw [hcaches.mem_combines]
        by_cases hnil : combine = []
        · exact Or.inl hnil
        · exact Or.inr ⟨hcombine', hnil⟩
      · rw [hhand.length_eq]
        omega
      · refine (sortCards_perm _).trans ((hhand.append hcombine).trans ?_)
        exact nonJokers_append_jokers_perm self.jokerPoint group

theorem searchStraightFlush_spec {self : Combination}
    {cards : List PokerCard} (hs : Searchable cards)
    (hcaches : self.Caches cards) :
    ∃ groups, searchStraightFlush self cards = some groups ∧
      (∀ group ∈ groups, StraightOf self.jokerPoint cards group) ∧
      ∀ group, Fillable self.jokerPoint group → group.Subperm cards →
        ∃ found ∈ groups, found.cards.Perm group := by
  obtain ⟨groups, hgroups, hmem⟩ := collect_mem
    fun color (_ : color ∈ flushColors cards) =>
      searchSuit_spec hs hcaches color
  refine ⟨_, by rw [searchStraightFlush, hgroups]; rfl, ?_, ?_⟩
  · intro group hgroup
    rcases List.mem_append.mp hgroup with hgroup | hgroup
    · obtain ⟨color, -, hand, combine, -, hflush, hsub, -, hfilled, rfl⟩ :=
        (hmem group).mp hgroup
      exact filled_straightOf hcaches hsub hflush hfilled
    · obtain ⟨combine, hcombine, rfl⟩ := List.mem_map.mp hgroup
      rw [List.mem_filter, hcaches.mem_combines] at hcombine
      obtain ⟨⟨hsub, -⟩, hlen⟩ := hcombine
      obtain ⟨hnon, -⟩ := filter_parts (List.nil_subset _) hsub.subset
      rw [List.nil_append] at hnon
      refine ⟨rfl, ⟨by simpa using hlen, [], ?_, List.Pairwise.nil,
        Or.inl rfl⟩, hsub.subperm.trans List.filter_sublist.subperm,
        Or.inr hnon⟩
      rw [hnon]
  · intro group hfillable hsub
    by_cases hne : nonJokers self.jokerPoint group = []
    · obtain ⟨combine, hcombine, hcombine'⟩ :=
        hsub.filter (isJoker self.jokerPoint)
      have hall := nonJokers_append_jokers_perm self.jokerPoint group
      rw [hne, List.nil_append] at hall
      have hperm : combine.Perm group := hcombine.trans hall
      have hlen : 3 ≤ combine.length := hperm.length_eq ▸ hfillable.1
      refine ⟨⟨GROUP_STAIGHT, combine⟩, List.mem_append_right _
        (List.mem_map_of_mem (List.mem_filter.mpr ⟨?_, by simpa using hlen⟩)),
        hperm⟩
      exact hcaches.mem_combines.mpr ⟨hcombine',
        List.length_pos_iff.mp (by omega)⟩
    · obtain ⟨color, hcolor, found, hfound, hperm⟩ :=
        exists_suitStraight hcaches hfillable hsub hne
      exact ⟨found, List.mem_append_left _
        ((hmem found).mpr ⟨color, hcolor, hfound⟩), hperm⟩

/--
Read as multisets, the groups of the straight search are the sub-multisets of
three or more cards that the validator accepts once they are sorted.
-/
theorem searchStraightFlush_exact {self : Combination}
    {cards : List PokerCard} (hdeck : FromDeck cards)
    (hlen : cards.length ≤ 14) (hcaches : self.Caches cards) :
    ∃ groups, searchStraightFlush self cards = some groups ∧
      ∀ group, (∃ found ∈ groups, found.cards.Perm group) ↔
        group.Subperm cards ∧ 3 ≤ group.length ∧
          isCardsStraight (sortCards group) self.jokerPoint = true := by
  obtain ⟨groups, hgroups, hsound, hcomplete⟩ :=
    searchStraightFlush_spec (hdeck.searchable hlen) hcaches
  refine ⟨groups, hgroups, fun group => ⟨?_, ?_⟩⟩
  · rintro ⟨found, hfound, hperm⟩
    obtain ⟨-, hfillable, hsub, -⟩ := hsound found hfound
    have hsub' := hperm.symm.subperm.trans hsub
    have hfillable' := hfillable.perm hperm
    exact ⟨hsub', hfillable'.1, hfillable'.isCardsStraight
      fun card hcard => hdeck.deal (hsub'.subset hcard)⟩
  · rintro ⟨hsub, -, hstraight⟩
    exact hcomplete group (fillable_of_isCardsStraight
      (fun card hcard => hdeck.deal (hsub.subset hcard)) hstraight) hsub

def wildCards : List PokerCard := [⟨1, 7⟩, ⟨1, 8⟩, ⟨1, 9⟩, ⟨0, 15⟩]

theorem wildCards_straights :
    ∃ groups,
      searchStraightFlush ⟨[⟨1, 9⟩, ⟨0, 15⟩],
        [[⟨1, 9⟩], [⟨0, 15⟩], [⟨1, 9⟩, ⟨0, 15⟩]], 9⟩ wildCards =
          some groups ∧
      ∀ group, (∃ found ∈ groups, found.cards.Perm group) ↔
        group.Subperm wildCards ∧ 3 ≤ group.length ∧
          isCardsStraight (sortCards group) 9 = true :=
  searchStraightFlush_exact (by decide +kernel) (by decide)
    ⟨by decide, by decide⟩

end StarsGaming.Cards
