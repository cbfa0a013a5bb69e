import Mathlib.Data.List.Pairwise
import StarsGaming.Cards.AllGroups

/-!
# Legal arrangements and the automatic declare

The rules of the game: a straight is a run of consecutive points of one suit
in which jokers stand for any point and the Ace counts as `1` or `14`; a set
has cards of one point and of different suits.  The score of the automatic
declare is at most the score of the cards that any legal arrangement leaves
ungrouped.
-/

namespace StarsGaming.Cards

open PokerCard
open StarsGaming.Foundation

/-! ## The rules -/

def NaturalAt (color : Nat) (card : PokerCard) (point : Nat) : Prop :=
  card.color = color ∧ (card.point = point ∨ (card.point = A ∧ point = 1))

def PlaysAt (jokerPoint color : Nat) (card : PokerCard) (point : Nat) :
    Prop :=
  isJoker jokerPoint card = true ∨ NaturalAt color card point

def RunOf (plays : PokerCard → Nat → Prop) (group : List PokerCard) : Prop :=
  ∃ cards start, cards.Perm group ∧ 3 ≤ cards.length ∧ 1 ≤ start ∧
    start + cards.length ≤ A + 1 ∧
    List.Forall₂ plays cards (List.range' start cards.length)

def LegalStraight (jokerPoint : Nat) (group : List PokerCard) : Prop :=
  ∃ color, RunOf (PlaysAt jokerPoint color) group

def LegalPure (group : List PokerCard) : Prop :=
  ∃ color, RunOf (NaturalAt color) group

structure LegalSet (jokerPoint : Nat) (group : List PokerCard) : Prop where
  three : 3 ≤ group.length
  four : group.length ≤ 4
  two : 2 ≤ (group.filter fun card => !isJoker jokerPoint card).length
  kind : (group.filter fun card => !isJoker jokerPoint card).Pairwise
    fun card card' => card.point = card'.point ∧ card.color ≠ card'.color

/-- The hand is divided into straights, sets and ungrouped cards. -/
structure LegalArrangement (jokerPoint : Nat) (hand : List PokerCard)
    (straights sets : List (List PokerCard)) (loose : List PokerCard) :
    Prop where
  perm : (straights.flatten ++ sets.flatten ++ loose).Perm hand
  straight : ∀ group ∈ straights, LegalStraight jokerPoint group
  set : ∀ group ∈ sets, LegalSet jokerPoint group
  pure : straights ++ sets ≠ [] → ∃ group ∈ straights, LegalPure group
  second : sets ≠ [] → 2 ≤ straights.length

/-! ## Runs are fillable -/

private def ExactAt (jokerPoint color : Nat) (card : PokerCard)
    (point : Nat) : Prop :=
  isJoker jokerPoint card = true ∨ (card.color = color ∧ card.point = point)

private theorem exactRun_nonJokers {jokerPoint color : Nat}
    {cards : List PokerCard} {start : Nat}
    (h : List.Forall₂ (ExactAt jokerPoint color) cards
      (List.range' start cards.length)) :
    Flush (nonJokers jokerPoint cards) ∧
      (∀ card ∈ nonJokers jokerPoint cards, card.color = color ∧
        start ≤ card.point ∧ card.point < start + cards.length) ∧
      ∀ first rest, nonJokers jokerPoint cards = first :: rest →
        ((first.point : Int) - start) + gapsFrom first rest ≤
          jokerCount jokerPoint cards := by
  induction cards generalizing start with
  | nil => simp [nonJokers]
  | cons card cards ih =>
      rw [List.length_cons, List.range'_succ, List.forall₂_cons] at h
      obtain ⟨hflush, hrange, hgap⟩ := ih h.2
      by_cases hjoker : isJoker jokerPoint card
      · rw [nonJokers_cons_joker hjoker, jokerCount_cons_joker hjoker,
          List.length_cons]
        refine ⟨hflush, fun card' hmem => ?_, fun first rest heq => ?_⟩
        · have := hrange card' hmem
          omega
        · have := hgap first rest heq
          omega
      · obtain ⟨hcolor, hpoint⟩ := h.1.resolve_left hjoker
        rw [nonJokers_cons hjoker, jokerCount_cons hjoker, List.length_cons]
        refine ⟨List.pairwise_cons.mpr ⟨fun card' hmem => ?_, hflush⟩,
          fun card' hmem => ?_, fun first rest heq => ?_⟩
        · have := hrange card' hmem
          exact ⟨by omega, by omega⟩
        · rcases List.mem_cons.mp hmem with rfl | hmem
          · omega
          · have := hrange card' hmem
            omega
        · obtain ⟨rfl, rfl⟩ := List.cons.inj heq
          cases hrest : nonJokers jokerPoint cards with
          | nil =>
              simp only [gapsFrom]
              omega
          | cons next rest =>
              have := hgap next rest hrest
              simp only [gapsFrom]
              omega

private theorem PlaysAt.exact {jokerPoint color : Nat} {card : PokerCard}
    {point : Nat} (h : PlaysAt jokerPoint color card point)
    (hpoint : 2 ≤ point) : ExactAt jokerPoint color card point := by
  rcases h with hjoker | ⟨hcolor, hsame | ⟨-, hone⟩⟩
  · exact Or.inl hjoker
  · exact Or.inr ⟨hcolor, hsame⟩
  · omega

private theorem exact_of_plays {jokerPoint color : Nat}
    {cards : List PokerCard} {start : Nat} (hstart : 2 ≤ start)
    (h : List.Forall₂ (PlaysAt jokerPoint color) cards
      (List.range' start cards.length)) :
    List.Forall₂ (ExactAt jokerPoint color) cards
      (List.range' start cards.length) := by
  induction cards generalizing start with
  | nil => simp
  | cons card cards ih =>
      rw [List.length_cons, List.range'_succ, List.forall₂_cons] at h ⊢
      exact ⟨h.1.exact hstart, ih (by omega) h.2⟩

/-- Without an Ace played as a one the non-jokers ascend as they stand. -/
private theorem fillable_of_exact {jokerPoint color : Nat}
    {cards : List PokerCard} {start : Nat} (hlen : 3 ≤ cards.length)
    (h : List.Forall₂ (ExactAt jokerPoint color) cards
      (List.range' start cards.length)) : Fillable jokerPoint cards := by
  obtain ⟨hflush, hrange, hgap⟩ := exactRun_nonJokers h
  refine ⟨hlen, _, List.Perm.refl _, hflush, ?_⟩
  cases hnon : nonJokers jokerPoint cards with
  | nil => exact Or.inl rfl
  | cons first rest =>
      have hstart := hrange first (by simp [hnon])
      have := hgap first rest hnon
      exact Or.inr (Or.inl ⟨first, rest, rfl, by omega⟩)

private theorem fillable_of_ace {jokerPoint color : Nat} {ace : PokerCard}
    {cards : List PokerCard} (hlen : 2 ≤ cards.length)
    (hshort : cards.length ≤ 12) (hcolor : ace.color = color)
    (hace : ace.point = A) (hjoker : ¬ isJoker jokerPoint ace)
    (h : List.Forall₂ (ExactAt jokerPoint color) cards
      (List.range' 2 cards.length)) : Fillable jokerPoint (ace :: cards) := by
  obtain ⟨hflush, hrange, hgap⟩ := exactRun_nonJokers h
  refine ⟨by rw [List.length_cons]; omega, nonJokers jokerPoint cards ++ [ace],
    ?_, ?_, ?_⟩
  · rw [nonJokers_cons hjoker]
    exact List.perm_append_singleton ace _
  · refine List.pairwise_append.mpr ⟨hflush, List.pairwise_singleton _ _, ?_⟩
    intro card hcard other hother
    obtain rfl := List.mem_singleton.mp hother
    obtain ⟨hcolor', -, hpoint⟩ := hrange card hcard
    refine ⟨hcolor'.trans hcolor.symm, ?_⟩
    rw [hace]
    simp only [A]
    omega
  · rw [jokerCount_cons hjoker]
    cases hnon : nonJokers jokerPoint cards with
    | nil => exact Or.inr (Or.inl ⟨ace, [], rfl, by simp [gapsFrom]⟩)
    | cons first rest =>
        have := hgap first rest hnon
        exact Or.inr (Or.inr ⟨first, rest, ace, rfl, hace, by omega⟩)

theorem LegalStraight.fillable {jokerPoint : Nat} {group : List PokerCard}
    (h : LegalStraight jokerPoint group) (hlen : group.length ≤ 13) :
    Fillable jokerPoint group := by
  obtain ⟨color, cards, start, hperm, hthree, hone, -, hplays⟩ := h
  refine Fillable.perm ?_ hperm
  rw [← hperm.length_eq] at hlen
  by_cases hstart : 2 ≤ start
  · exact fillable_of_exact hthree (exact_of_plays hstart hplays)
  · obtain rfl : start = 1 := by omega
    cases cards with
    | nil => simp at hthree
    | cons card cards =>
        rw [List.length_cons, List.range'_succ, List.forall₂_cons] at hplays
        rw [List.length_cons] at hthree hlen
        have hrest := exact_of_plays (Nat.le_refl 2) hplays.2
        by_cases hexact : ExactAt jokerPoint color card 1
        · refine @fillable_of_exact jokerPoint color (card :: cards) 1 hthree ?_
          rw [List.length_cons, List.range'_succ, List.forall₂_cons]
          exact ⟨hexact, hrest⟩
        · have hjoker : ¬ isJoker jokerPoint card := fun hjoker =>
            hexact (Or.inl hjoker)
          obtain ⟨hcolor, hpoint | ⟨hace, -⟩⟩ := hplays.1.resolve_left hjoker
          · exact absurd (Or.inr ⟨hcolor, hpoint⟩) hexact
          · exact fillable_of_ace (by omega) (by omega) hcolor hace hjoker
              hrest

/-! ## Pure straights -/

theorem LegalPure.straight {group : List PokerCard} (h : LegalPure group)
    (jokerPoint : Nat) : LegalStraight jokerPoint group := by
  obtain ⟨color, cards, start, hperm, hthree, hone, hend, hplays⟩ := h
  exact ⟨color, cards, start, hperm, hthree, hone, hend,
    hplays.imp fun _ _ hnatural => Or.inr hnatural⟩

private theorem natural_point_le {color start : Nat}
    {cards : List PokerCard} (hend : start + cards.length ≤ A + 1)
    (h : List.Forall₂ (NaturalAt color) cards
      (List.range' start cards.length)) :
    ∀ card ∈ cards, card.point ≤ A := by
  induction cards generalizing start with
  | nil => simp
  | cons card cards ih =>
      rw [List.length_cons, List.range'_succ, List.forall₂_cons] at h
      rw [List.length_cons] at hend
      intro card' hmem
      rcases List.mem_cons.mp hmem with rfl | hmem
      · have := h.1.2
        omega
      · exact ih (by omega) h.2 card' hmem

theorem LegalPure.point_le {group : List PokerCard} (h : LegalPure group) :
    ∀ card ∈ group, card.point ≤ A := by
  obtain ⟨color, cards, start, hperm, -, -, hend, hplays⟩ := h
  exact fun card hcard =>
    natural_point_le hend hplays card (hperm.mem_iff.mpr hcard)

/-- Among cards of points `2` to `14` nothing is a joker of point `0`. -/
private theorem nonJokers_zero {cards : List PokerCard}
    (h : ∀ card ∈ cards, 2 ≤ card.point ∧ card.point ≤ A) :
    nonJokers 0 cards = cards ∧ jokerCount 0 cards = 0 := by
  have hnon : ∀ card ∈ cards, ¬ isJoker 0 card := by
    intro card hcard
    have := h card hcard
    simp only [A] at this
    simp only [isJoker, JOKER1, Bool.or_eq_true, beq_iff_eq,
      decide_eq_true_eq]
    omega
  exact ⟨List.filter_eq_self.mpr fun card hcard => by simp [hnon card hcard],
    List.countP_eq_zero.mpr hnon⟩

theorem LegalPure.sorted {group : List PokerCard} (h : LegalPure group)
    (hdeal : ∀ card ∈ group, Deal card) (hlen : group.length ≤ 13) :
    Flush (sortCards group) ∧ isCardsPureStraight (sortCards group) := by
  have hpoints : ∀ card ∈ group, 2 ≤ card.point ∧ card.point ≤ A := by
    intro card hcard
    have hd := hdeal card hcard
    have hle := h.point_le card hcard
    simp only [Deal, spades, diamonds, P2, A, JOKER1, JOKER2] at hd hle ⊢
    omega
  -- with no joker at all the run is filled by its own cards
  obtain ⟨hthree, cards, hperm, hflush, hfits⟩ := (h.straight 0).fillable hlen
  obtain ⟨hnon, hcount⟩ := nonJokers_zero hpoints
  rw [hnon] at hperm
  rw [hcount] at hfits
  have hsort : sortCards group = cards :=
    sortCards_eq_of_perm hperm.symm hflush.sorted
  rw [hsort]
  refine ⟨hflush, (isCardsPureStraight_iff_fits hflush fun card hcard =>
    hpoints card (hperm.mem_iff.mp hcard)).mpr ⟨?_, hfits⟩⟩
  rw [hperm.length_eq]
  exact hthree

theorem LegalPure.nonJokers_ne_nil {group : List PokerCard}
    (h : LegalPure group) (hdeal : ∀ card ∈ group, Deal card)
    (hlen : group.length ≤ 13) (jokerPoint : Nat) :
    nonJokers jokerPoint group ≠ [] := by
  intro hnil
  obtain ⟨hflush, -⟩ := h.sorted hdeal hlen
  have hjoker : ∀ card ∈ sortCards group, card.point = jokerPoint := by
    intro card hcard
    rw [mem_sortCards] at hcard
    have hle := h.point_le card hcard
    have := List.filter_eq_nil_iff.mp hnil card hcard
    simp only [isJoker, A, JOKER1, Bool.not_eq_true', Bool.not_eq_false,
      Bool.or_eq_true, beq_iff_eq, decide_eq_true_eq] at this hle
    omega
  have hthree : 3 ≤ (sortCards group).length := by
    rw [sortCards_length]
    exact ((h.straight 0).fillable hlen).1
  cases hsort : sortCards group with
  | nil => simp [hsort] at hthree
  | cons first rest =>
      cases rest with
      | nil => simp [hsort] at hthree
      | cons second rest =>
          rw [hsort] at hflush hjoker
          have hlt := (List.rel_of_pairwise_cons hflush List.mem_cons_self).2
          have h₁ := hjoker first (by simp)
          have h₂ := hjoker second (by simp)
          omega

theorem LegalPure.exists_first {jokerPoint : Nat}
    {hand group : List PokerCard} (hs : Searchable hand)
    (h : LegalPure group) (hsub : group.Subperm hand)
    (hlen : group.length ≤ 13) :
    ∃ first ∈ searchPureStraightFlush (allStraights jokerPoint hand),
      first.cards.Perm group := by
  have hdeal : ∀ card ∈ group, Deal card := fun card hcard =>
    hs.deal card (hsub.subset hcard)
  obtain ⟨-, hsound, hcomplete⟩ := @allStraights_spec jokerPoint hand hs
  obtain ⟨first, hfirst, hperm⟩ :=
    hcomplete group ((h.straight jokerPoint).fillable hlen) hsub
  refine ⟨first, List.mem_filter.mpr ⟨hfirst, ?_⟩, hperm⟩
  rcases (hsound first hfirst).sorted with hsorted | hnil
  · rw [← sortCards_eq_of_perm hperm.symm hsorted]
    exact (h.sorted hdeal hlen).2
  · have := (nonJokers_perm hperm jokerPoint).symm
    rw [hnil] at this
    exact absurd this.eq_nil (h.nonJokers_ne_nil hdeal hlen jokerPoint)

/-! ## A pure straight that does not take the whole hand -/

private theorem legalStraight_three {jokerPoint color start : Nat}
    {group : List PokerCard} {a b c : PokerCard}
    (hperm : [a, b, c].Perm group) (hone : 1 ≤ start)
    (hend : start + 3 ≤ A + 1) (ha : PlaysAt jokerPoint color a start)
    (hb : PlaysAt jokerPoint color b (start + 1))
    (hc : PlaysAt jokerPoint color c (start + 2)) :
    LegalStraight jokerPoint group :=
  ⟨color, [a, b, c], start, hperm, by simp, hone, hend,
    .cons ha (.cons hb (.cons hc .nil))⟩

private theorem legalStraight_take {jokerPoint : Nat}
    {c0 c1 c2 : PokerCard} {rest : List PokerCard}
    (hflush : Flush (nonJokers jokerPoint (c0 :: c1 :: c2 :: rest)))
    (hsorted : (c0 :: c1 :: c2 :: rest).Pairwise (· ≤ ·))
    (hdeal : ∀ card ∈ c0 :: c1 :: c2 :: rest, Deal card)
    (hpure : isCardsPureStraight (c0 :: c1 :: c2 :: rest) = true) :
    LegalStraight jokerPoint [c0, c1, c2] := by
  obtain ⟨c0', c1', c2', rest', heq, -, hcolor, h0, h1, hcases⟩ :=
    isCardsPureStraight_cases hpure
  obtain ⟨rfl, rfl, rfl, rfl⟩ :
      c0 = c0' ∧ c1 = c1' ∧ c2 = c2' ∧ rest = rest' := by
    simpa using heq
  have hd0 := hdeal c0 (by simp)
  simp only [Deal, spades, diamonds, P2, A, JOKER1, JOKER2] at hd0 h0 h1
  have hrotate : [c2, c0, c1].Perm [c0, c1, c2] :=
    @List.perm_append_comm _ [c2] [c0, c1]
  rcases hcases with ⟨hcolor', h2, hnext, hnext' | ⟨hace, htwo⟩⟩ |
    ⟨hace, htwo⟩
  · simp only [JOKER1] at h2
    exact @legalStraight_three jokerPoint c0.color c0.point _ c0 c1 c2
      (.refl _) (by omega) (by simp only [A]; omega)
      (Or.inr ⟨rfl, Or.inl rfl⟩) (Or.inr ⟨hcolor.symm, Or.inl hnext⟩)
      (Or.inr ⟨by omega, Or.inl (by omega)⟩)
  · exact @legalStraight_three jokerPoint c0.color 1 _ c2 c0 c1 hrotate
      (by simp) (by simp) (Or.inr ⟨by omega, Or.inr ⟨hace, rfl⟩⟩)
      (Or.inr ⟨rfl, Or.inl htwo⟩)
      (Or.inr ⟨hcolor.symm, Or.inl (by rw [hnext, htwo])⟩)
  · -- after the early end of the loop the third card can only be a joker
    have hjoker : isJoker jokerPoint c2 = true := by
      by_contra hnon
      have hd2 := hdeal c2 (by simp)
      have hle : c1.point ≤ c2.point := point_le_of_le
        (List.rel_of_pairwise_cons hsorted.of_cons List.mem_cons_self)
      have hsame : c2.point = c1.point := by
        simp only [isJoker, JOKER1, Bool.or_eq_true, beq_iff_eq,
          decide_eq_true_eq, not_or] at hnon
        simp only [Deal, spades, diamonds, P2, A, JOKER1, JOKER2] at hd2 hace
        omega
      have hnon1 : ¬ isJoker jokerPoint c1 := by
        rwa [isJoker_congr hsame.symm]
      have htail : Flush (nonJokers jokerPoint (c1 :: c2 :: rest)) :=
        hflush.sublist ((List.sublist_cons_self c0 _).filter _)
      rw [nonJokers_cons hnon1, nonJokers_cons hnon] at htail
      have := (List.rel_of_pairwise_cons htail List.mem_cons_self).2
      omega
    refine @legalStraight_three jokerPoint c0.color 1 _ c1 c0 c2
      (List.Perm.swap c0 c1 [c2]) (by simp) (by simp)
      (Or.inr ⟨hcolor.symm, Or.inr ⟨hace, rfl⟩⟩) (Or.inr ⟨rfl, Or.inl htwo⟩)
      (Or.inl hjoker)

/-- A found group that is a permutation of a sorted pure one is the same. -/
theorem StraightOf.eq_of_perm_pure {jokerPoint : Nat}
    {hand cards : List PokerCard} {group : CardGroup}
    (h : StraightOf jokerPoint hand group)
    (hsorted : cards.Pairwise (· ≤ ·))
    (hpure : isCardsPureStraight cards = true)
    (hperm : group.cards.Perm cards) : group.cards = cards := by
  rcases h.sorted with hgroup | hnil
  · exact hperm.eq_of_pairwise' hgroup hsorted
  · have := (nonJokers_perm hperm jokerPoint).symm
    rw [hnil] at this
    exact absurd this.eq_nil (nonJokers_ne_nil_of_pure hpure)

theorem exists_first_take {jokerPoint : Nat} {hand : List PokerCard}
    (hs : Searchable hand) {group : CardGroup}
    (hgroup : group ∈
      searchPureStraightFlush (allStraights jokerPoint hand)) :
    ∃ c0 c1 c2 rest, group.cards = c0 :: c1 :: c2 :: rest ∧
      ∃ first ∈ searchPureStraightFlush (allStraights jokerPoint hand),
        first.cards = [c0, c1, c2] := by
  obtain ⟨-, hsound, hcomplete⟩ := @allStraights_spec jokerPoint hand hs
  obtain ⟨hgroup, hpure⟩ := List.mem_filter.mp hgroup
  have hfound := hsound group hgroup
  have hsorted := hfound.sorted.resolve_right (nonJokers_ne_nil_of_pure hpure)
  obtain ⟨-, cards, hperm, hflush, -⟩ := hfound.fillable
  have hnon := nonJokers_sortCards_eq hperm hflush
  rw [sortCards_eq_of_perm (.refl _) hsorted] at hnon
  obtain ⟨c0, c1, c2, rest, heq, hpure', -⟩ := isCardsPureStraight_cases hpure
  have hsublist : [c0, c1, c2].Sublist group.cards := by simp [heq]
  have hsub : [c0, c1, c2].Subperm hand :=
    hsublist.subperm.trans hfound.subperm
  have hstraight : LegalStraight jokerPoint [c0, c1, c2] := by
    rw [heq] at hsorted hpure hnon
    refine @legalStraight_take jokerPoint c0 c1 c2 rest (hnon ▸ hflush)
      hsorted ?_ hpure
    exact fun card hcard => hs.deal card (hfound.subperm.subset (heq ▸ hcard))
  obtain ⟨first, hfirst, hfperm⟩ :=
    hcomplete _ (hstraight.fillable (by simp)) hsub
  have hsame := (hsound first hfirst).eq_of_perm_pure
    (hsorted.sublist hsublist) hpure' hfperm
  exact ⟨c0, c1, c2, rest, heq, first,
    List.mem_filter.mpr ⟨hfirst, by rw [hsame]; exact hpure'⟩, hsame⟩

theorem exists_first_of_three {jokerPoint : Nat} {hand : List PokerCard}
    (hs : Searchable hand)
    (hsome : searchPureStraightFlush (allStraights jokerPoint hand) ≠ []) :
    ∃ first ∈ searchPureStraightFlush (allStraights jokerPoint hand),
      first.cards.length = 3 := by
  obtain ⟨group, hgroup⟩ := List.exists_mem_of_ne_nil _ hsome
  obtain ⟨c0, c1, c2, rest, -, first, hfirst, hcards⟩ :=
    exists_first_take hs hgroup
  exact ⟨first, hfirst, by simp [hcards]⟩

/-! ## The search reaches every legal arrangement -/

/-- A report that lets `default_declare` settle on at most `score`. -/
def Reaches (infos : List CombinationInfo) (score : Nat) : Prop :=
  (∃ back, infos.getLast? = some back ∧ back.score = 0) ∨
    ∃ info ∈ infos, info.score ≤ score

theorem SecondRun.stopped {jokerPoint : Nat} {hand : List PokerCard}
    (hs : Searchable hand) {first : CardGroup} {out : List CombinationInfo}
    (h : SecondRun jokerPoint hand first out true) :
    ∃ back, out.getLast? = some back ∧ back.score = 0 := by
  have hne : removeCards first hand ≠ [] := by
    cases h with
    | loop hne _ _ => exact hne
  obtain ⟨info, melds, hlast, -, -, hreport⟩ := (h.level hs hne).stopped rfl
  exact ⟨info, hlast, by rw [hreport.score]; rfl⟩

theorem AllRun.reaches {jokerPoint : Nat} {hand : List PokerCard}
    (hs : Searchable hand) {infos : List CombinationInfo} {stop : Bool}
    (h : AllRun jokerPoint hand infos stop) {first : CardGroup}
    (hfirst : first ∈ searchPureStraightFlush (allStraights jokerPoint hand))
    (hne : removeCards first hand ≠ []) {loose : List PokerCard}
    (harranged : Arranges jokerPoint [.straight, .any, .any]
      (removeCards first hand) loose) :
    Reaches infos (caculateCardScore loose jokerPoint) := by
  cases h with
  | loose hnone _ => simp [hnone] at hfirst
  | loop _ hrun =>
      cases stop with
      | true =>
          obtain ⟨items₁, first', items₂, out, -, -, hout, pre, rfl⟩ :=
            hrun.stopped
          obtain ⟨back, hback, hzero⟩ := hout.stopped hs
          exact Or.inl ⟨back, by rw [List.getLast?_append, hback]; rfl, hzero⟩
      | false =>
          obtain ⟨out, hout, hsub⟩ := hrun.covers hfirst
          obtain ⟨info, hinfo, hscore⟩ :=
            (hout.level hs hne).best rfl loose harranged
          exact Or.inr ⟨info, hsub hinfo, hscore⟩

private theorem fill_of_forall {β : Type*} {P : β → Place → Prop}
    {places : List Place} {items : List β}
    (h : ∀ b ∈ items, ∀ place ∈ places, P b place)
    (hlen : items.length ≤ places.length) : Fill P places items := by
  induction items generalizing places with
  | nil => cases places <;> trivial
  | cons b items ih =>
      cases places with
      | nil => simp at hlen
      | cons place places =>
          refine ⟨h b (by simp) place (by simp), ih ?_ (by simpa using hlen)⟩
          exact fun b' hb' place' hplace' =>
            h b' (by simp [hb']) place' (by simp [hplace'])

private theorem three_mul_length_le {groups : List (List PokerCard)}
    (h : ∀ group ∈ groups, 3 ≤ group.length) :
    3 * groups.length ≤ groups.flatten.length := by
  induction groups with
  | nil => simp
  | cons group groups ih =>
      have h₁ := h group List.mem_cons_self
      have h₂ := ih fun g hg => h g (List.mem_cons_of_mem _ hg)
      rw [List.flatten_cons, List.length_append, List.length_cons]
      omega

theorem LegalSet.shape {jokerPoint : Nat} {group : List PokerCard}
    (h : LegalSet jokerPoint group) : SetShape jokerPoint group := by
  have hkind := h.kind
  have hsymm : Std.Symm fun card card' : PokerCard =>
      card.point = card'.point := ⟨fun _ _ hpoint => hpoint.symm⟩
  refine ⟨h.three, h.two, hkind.imp fun hab heq => hab.2 (by rw [heq]), ?_⟩
  intro card hcard card' hcard'
  exact List.Pairwise.forall_of_forall
    (R := fun card card' : PokerCard => card.point = card'.point)
    (fun _ _ => rfl) (hkind.imp And.left) hcard hcard'

section Arrangement

variable {jokerPoint : Nat} {hand : List PokerCard}
  {straights sets : List (List PokerCard)} {loose : List PokerCard}

private theorem LegalArrangement.arranges {first : List PokerCard}
    {straights₁ straights₂ : List (List PokerCard)}
    (h : LegalArrangement jokerPoint hand
      (straights₁ ++ first :: straights₂) sets loose)
    (hlen : hand.length ≤ 14) {rest : List PokerCard}
    (hrest : ((straights₁ ++ straights₂).flatten ++ sets.flatten ++
      loose).Perm rest) (htotal : first.length + rest.length = hand.length) :
    Arranges jokerPoint [.straight, .any, .any] rest loose := by
  have hthree : 3 ≤ first.length := by
    obtain ⟨color, cards, start, hperm, hthree, -⟩ :=
      h.straight first (by simp)
    exact hperm.length_eq ▸ hthree
  have hsize := hrest.length_eq
  simp only [List.length_append] at hsize
  have hshort : ∀ group ∈ straights₁ ++ straights₂, group.length ≤ 13 := by
    intro group hgroup
    have := (List.sublist_flatten_of_mem hgroup).length_le
    simp only [List.flatten_append, List.length_append] at this hsize
    omega
  have hfillable : ∀ group ∈ straights₁ ++ straights₂,
      Fillable jokerPoint group := fun group hgroup =>
    (h.straight group (by
      simp only [List.mem_append, List.mem_cons] at hgroup ⊢
      tauto)).fillable (hshort group hgroup)
  have hshape : ∀ group ∈ sets, SetShape jokerPoint group :=
    fun group hgroup => (h.set group hgroup).shape
  have hcount₁ := three_mul_length_le fun group hgroup =>
    (hfillable group hgroup).1
  have hcount₂ := three_mul_length_le fun group hgroup =>
    (hshape group hgroup).length
  refine ⟨straights₁ ++ straights₂ ++ sets, ?_, by simpa using hrest⟩
  have hany : ∀ group ∈ straights₁ ++ straights₂ ++ sets,
      Place.any.Accepts jokerPoint group := by
    intro group hgroup
    rcases List.mem_append.mp hgroup with hgroup | hgroup
    · exact Or.inl (hfillable group hgroup)
    · exact Or.inr (hshape group hgroup)
  cases hother : straights₁ ++ straights₂ with
  | nil =>
      have hnone : sets = [] := by
        by_contra hsets
        have := h.second hsets
        have := congrArg List.length hother
        simp only [List.length_append, List.length_cons,
          List.length_nil] at *
        omega
      rw [hnone]
      trivial
  | cons second others =>
      rw [hother] at hany hfillable hcount₁
      refine ⟨hfillable second (by simp), fill_of_forall ?_ ?_⟩
      · intro group hgroup place hplace
        obtain rfl : place = .any := by simpa using hplace
        exact hany group (by simpa using Or.inr hgroup)
      · rw [← hother] at hcount₁
        have hsecond := congrArg List.length hother
        change (others ++ sets).length ≤ 2
        simp only [List.flatten_append, List.length_append,
          List.length_cons] at *
        omega

private theorem LegalPure.split {group : List PokerCard}
    (h : LegalPure group) (hlong : 6 ≤ group.length) :
    ∃ first rest, LegalPure first ∧ LegalPure rest ∧ first.length = 3 ∧
      (first ++ rest).Perm group := by
  obtain ⟨color, cards, start, hperm, -, hone, hend, hplays⟩ := h
  rw [← hperm.length_eq] at hlong
  match cards with
  | [] | [_] | [_, _] => simp at hlong
  | c0 :: c1 :: c2 :: rest =>
      simp only [List.length_cons] at hlong hend
      simp only [List.length_cons, List.range'_succ,
        List.forall₂_cons] at hplays
      obtain ⟨h0, h1, h2, hrest⟩ := hplays
      refine ⟨[c0, c1, c2], rest, ⟨color, [c0, c1, c2], start, .refl _,
        by simp, hone, ?_, .cons h0 (.cons h1 (.cons h2 .nil))⟩,
        ⟨color, rest, start + 3, .refl _, by omega, by omega, by omega,
          hrest⟩, rfl, hperm⟩
      simp only [List.length_cons, List.length_nil]
      omega

private theorem LegalPure.reaches {group rest : List PokerCard}
    (hs : Searchable hand) {infos : List CombinationInfo} {stop : Bool}
    (hrun : AllRun jokerPoint hand infos stop) (h : LegalPure group)
    (hperm : (group ++ rest).Perm hand) (hne : rest ≠ [])
    (harranged : Arranges jokerPoint [.straight, .any, .any] rest loose) :
    Reaches infos (caculateCardScore loose jokerPoint) := by
  have hsub : group.Subperm hand :=
    (List.sublist_append_left _ _).subperm.trans hperm.subperm
  have hlen : group.length ≤ 13 := by
    have := hperm.length_eq
    have := hs.length
    have := List.length_pos_iff.mpr hne
    rw [List.length_append] at *
    omega
  obtain ⟨first, hfirst, hfperm⟩ := @h.exists_first jokerPoint _ _ hs hsub hlen
  have hrest : rest.Perm (removeCards first hand) :=
    removeCards_perm_of_perm hfperm hperm
  refine hrun.reaches hs hfirst (fun hnil => hne ?_) ?_
  · rw [hnil] at hrest
    exact hrest.eq_nil
  · obtain ⟨groups, hfill, hgroups⟩ := harranged
    exact ⟨groups, hfill, hgroups.trans hrest⟩

theorem AllRun.reaches_hand (hs : Searchable hand)
    (hlen : 13 ≤ hand.length) {infos : List CombinationInfo} {stop : Bool}
    (hrun : AllRun jokerPoint hand infos stop) :
    Reaches infos (caculateCardScore hand jokerPoint) := by
  by_cases hsome :
      searchPureStraightFlush (allStraights jokerPoint hand) = []
  · cases hrun with
    | loose _ hinfo =>
        exact Or.inr ⟨_, List.mem_singleton.mpr rfl, by rw [hinfo.score]⟩
    | loop hsome' _ => exact absurd hsome hsome'
  · obtain ⟨first, hfirst, hthree⟩ := exists_first_of_three hs hsome
    obtain ⟨-, hsound, -⟩ := @allStraights_spec jokerPoint hand hs
    have hfound := hsound first (List.mem_of_mem_filter hfirst)
    have htotal := removeCards_length hfound.subperm
    have hne : removeCards first hand ≠ [] :=
      List.length_pos_iff.mp (by omega)
    have hreach := @AllRun.reaches jokerPoint hand hs infos stop hrun first
      hfirst hne (removeCards first hand) ⟨[], trivial, by simp⟩
    have hscore := caculateCardScore_perm
      (removeCards_perm hfound.subperm) jokerPoint
    rw [caculateCardScore_append] at hscore
    rcases hreach with hback | ⟨info, hinfo, hle⟩
    · exact Or.inl hback
    · exact Or.inr ⟨info, hinfo, by omega⟩

theorem AllRun.infos_ne_nil (hs : Searchable hand) (hlen : 13 ≤ hand.length)
    {infos : List CombinationInfo} {stop : Bool}
    (hrun : AllRun jokerPoint hand infos stop) : infos ≠ [] := by
  rcases hrun.reaches_hand hs hlen with ⟨back, hback, -⟩ | ⟨info, hinfo, -⟩
  · exact List.ne_nil_of_mem (List.mem_of_getLast? hback)
  · exact List.ne_nil_of_mem hinfo

theorem defaultDeclare_total (self : Combination) {hand : List PokerCard}
    (hdeck : FromDeck hand)
    (hlen : hand.length = 0 ∨ hand.length = 13 ∨ hand.length = 14)
    (jokerPoint : Nat) :
    ∃ result, defaultDeclare self hand jokerPoint = some result := by
  by_cases hempty : hand = []
  · subst hempty
    exact Option.isSome_iff_exists.mp rfl
  · have hpos := List.length_pos_iff.mpr hempty
    have hs := hdeck.searchable (by omega)
    obtain ⟨self', infos, stop, hsearch, hrun⟩ :=
      @searchAllGroup_run jokerPoint hand self hs hempty
    obtain ⟨info, hinfo, -⟩ :=
      chooseInfo_spec (hrun.infos_ne_nil hs (by omega))
    exact ⟨_, by simp [defaultDeclare, hsearch, hinfo]; rfl⟩

theorem LegalArrangement.reaches
    (h : LegalArrangement jokerPoint hand straights sets loose)
    (hs : Searchable hand) (hlen : 13 ≤ hand.length)
    {infos : List CombinationInfo} {stop : Bool}
    (hrun : AllRun jokerPoint hand infos stop) :
    Reaches infos (caculateCardScore loose jokerPoint) := by
  by_cases hgroups : straights ++ sets = []
  · obtain ⟨rfl, rfl⟩ := List.append_eq_nil_iff.mp hgroups
    rw [caculateCardScore_perm (show loose.Perm hand by simpa using h.perm)]
    exact hrun.reaches_hand hs hlen
  · obtain ⟨first, hfirst, hpure⟩ := h.pure hgroups
    obtain ⟨straights₁, straights₂, rfl⟩ := List.append_of_mem hfirst
    have hperm : (first ++ ((straights₁ ++ straights₂).flatten ++
        sets.flatten ++ loose)).Perm hand := by
      refine List.Perm.trans ?_ h.perm
      rw [List.perm_iff_count]
      intro card
      simp only [List.flatten_append, List.flatten_cons, List.count_append]
      omega
    have htotal := hperm.length_eq
    rw [List.length_append] at htotal
    by_cases hrest : (straights₁ ++ straights₂).flatten ++ sets.flatten ++
        loose = []
    · -- a hand that is one pure straight is laid down as two
      rw [hrest, List.append_nil] at hperm
      rw [hrest, List.length_nil] at htotal
      obtain ⟨group, rest, hpure₁, hpure₂, hthree, hsplit⟩ :=
        hpure.split (by omega)
      have hsize := hsplit.length_eq
      rw [List.length_append] at hsize
      have hmax := hs.length
      have hloose : loose = [] := (List.append_eq_nil_iff.mp hrest).2
      refine hpure₁.reaches hs hrun (hsplit.trans hperm)
        (List.length_pos_iff.mp (by omega)) ⟨[rest], ⟨?_, trivial⟩, ?_⟩
      · exact (hpure₂.straight jokerPoint).fillable (by omega)
      · simp [hloose]
    · exact hpure.reaches hs hrun hperm hrest
        (h.arranges hs.length (.refl _) htotal)

end Arrangement

/-! ## Optimality -/

/--
The automatic declare scores no more than the cards that a legal arrangement
of the hand leaves ungrouped.
-/
theorem defaultDeclare_optimal (self : Combination) {hand : List PokerCard}
    (hdeck : FromDeck hand) (hlen : hand.length = 13 ∨ hand.length = 14)
    (jokerPoint : Nat) {straights sets : List (List PokerCard)}
    {loose : List PokerCard}
    (h : LegalArrangement jokerPoint hand straights sets loose) :
    ∃ self' score groups,
      defaultDeclare self hand jokerPoint = some (self', score, groups) ∧
        score ≤ (loose.map (getScore jokerPoint)).sum := by
  have hs := hdeck.searchable (by omega)
  obtain ⟨self', infos, stop, hsearch, hrun⟩ :=
    @searchAllGroup_run jokerPoint hand self hs
      (List.length_pos_iff.mp (by omega))
  obtain ⟨info, hinfo, hscore⟩ :=
    chooseInfo_le (h.reaches hs (by omega) hrun)
  exact ⟨self', info.score, info.cardGroup,
    by simp [defaultDeclare, hsearch, hinfo], hscore⟩

def sampleHand : List PokerCard :=
  [⟨1, 2⟩, ⟨1, 3⟩, ⟨1, 4⟩, ⟨2, 5⟩, ⟨2, 6⟩, ⟨0, 15⟩, ⟨1, 9⟩, ⟨2, 9⟩, ⟨3, 9⟩,
   ⟨4, 13⟩, ⟨4, 11⟩, ⟨3, 2⟩, ⟨4, 6⟩]

theorem sampleHand_arrangement :
    LegalArrangement 12 sampleHand
      [[⟨1, 2⟩, ⟨1, 3⟩, ⟨1, 4⟩], [⟨2, 5⟩, ⟨2, 6⟩, ⟨0, 15⟩]]
      [[⟨1, 9⟩, ⟨2, 9⟩, ⟨3, 9⟩]]
      [⟨4, 13⟩, ⟨4, 11⟩, ⟨3, 2⟩, ⟨4, 6⟩] where
  perm := .refl _
  straight := by
    simp only [List.forall_mem_cons, List.not_mem_nil, false_implies,
      implies_true, and_true]
    exact ⟨@legalStraight_three 12 1 2 _ _ _ _ (.refl _) (by decide)
        (by decide) (by simp [PlaysAt, NaturalAt])
        (by simp [PlaysAt, NaturalAt]) (by simp [PlaysAt, NaturalAt]),
      @legalStraight_three 12 2 5 _ _ _ _ (.refl _) (by decide)
        (by decide) (by simp [PlaysAt, NaturalAt])
        (by simp [PlaysAt, NaturalAt]) (by simp [PlaysAt, isJoker])⟩
  set := by
    simp only [List.forall_mem_cons, List.not_mem_nil, false_implies,
      implies_true, and_true]
    exact ⟨by decide, by decide, by decide, by decide⟩
  pure := fun _ => ⟨_, List.mem_cons_self, 1, _, 2, .refl _, by decide,
    by decide, by decide, by simp [List.range', NaturalAt]⟩
  second := fun _ => by decide

theorem defaultDeclare_optimal_sample :
    ∃ self' score groups,
      defaultDeclare ⟨[], [], 0⟩ sampleHand 12 =
        some (self', score, groups) ∧ score ≤ 28 :=
  defaultDeclare_optimal ⟨[], [], 0⟩ (by decide +kernel) (by decide) 12
    sampleHand_arrangement

/-! ## The set search against the rules -/

def kindsAt (jokerPoint : Nat) (cards : List PokerCard) (point : Nat) :
    List PokerCard :=
  ((nonJokers jokerPoint cards).filter fun card => card.point = point).dedup

theorem mem_kindsAt {jokerPoint point : Nat} {cards : List PokerCard}
    {card : PokerCard} : card ∈ kindsAt jokerPoint cards point ↔
      card ∈ nonJokers jokerPoint cards ∧ card.point = point := by
  simp [kindsAt]

theorem SetShape.legalSet {jokerPoint : Nat} {group : List PokerCard}
    (h : SetShape jokerPoint group) (hfour : group.length ≤ 4) :
    LegalSet jokerPoint group :=
  ⟨h.length, hfour, h.nonJokers,
    h.pairwise.imp fun hkind => ⟨hkind.1.symm, hkind.2.symm⟩⟩

private theorem kindsAt_setShape {jokerPoint point : Nat}
    {cards : List PokerCard}
    (htwo : 2 ≤ (kindsAt jokerPoint cards point).length)
    (hthree : 3 ≤ (kindsAt jokerPoint cards point ++
      searchJokerCards jokerPoint cards).length) :
    SetShape jokerPoint (kindsAt jokerPoint cards point ++
      searchJokerCards jokerPoint cards) := by
  obtain ⟨hnon, -⟩ := @filter_parts jokerPoint
    (kindsAt jokerPoint cards point) (searchJokerCards jokerPoint cards) cards
    (fun card hcard => (mem_kindsAt.mp hcard).1) (List.Subset.refl _)
  refine ⟨hthree, ?_, ?_, ?_⟩
  · rw [hnon]
    exact htwo
  · rw [hnon]
    exact List.nodup_dedup _
  · rw [hnon]
    intro card hcard card' hcard'
    rw [(mem_kindsAt.mp hcard).2, (mem_kindsAt.mp hcard').2]

private theorem kindsAt_subperm (jokerPoint point : Nat)
    (cards : List PokerCard) :
    (kindsAt jokerPoint cards point ++
      searchJokerCards jokerPoint cards).Subperm cards := by
  have hsub : (kindsAt jokerPoint cards point).Sublist
      (nonJokers jokerPoint cards) :=
    (List.dedup_sublist _).trans List.filter_sublist
  exact (hsub.append_right _).subperm.trans
    (nonJokers_append_jokers_perm jokerPoint cards).subperm

theorem SetShape.length_le_kindsAt {jokerPoint : Nat}
    {group cards : List PokerCard} (h : SetShape jokerPoint group)
    (hsub : group.Subperm cards) :
    ∃ point, 2 ≤ (kindsAt jokerPoint cards point).length ∧
      group.length ≤ (kindsAt jokerPoint cards point).length +
        jokerCount jokerPoint cards := by
  obtain ⟨card, hcard⟩ := List.exists_mem_of_length_pos
    (Nat.lt_of_lt_of_le Nat.zero_lt_two h.nonJokers)
  have hnon : (Cards.nonJokers jokerPoint group).length ≤
      (kindsAt jokerPoint cards card.point).length := by
    refine (h.nodup.subperm fun card' hcard' => ?_).length_le
    exact mem_kindsAt.mpr ⟨(hsub.filter _).subset hcard',
      h.point card' hcard' card hcard⟩
  have hjokers : jokerCount jokerPoint group ≤ jokerCount jokerPoint cards :=
    hsub.countP_le _
  have htotal := length_nonJokers_add jokerPoint group
  have htwo := h.nonJokers
  exact ⟨card.point, by omega, by omega⟩

/--
The set search emits the legal sets and nothing else exactly when no point
has two or more suits that make five cards together with all the jokers.
-/
theorem searchThreeOfKind_exact_iff {self : Combination}
    {cards : List PokerCard} (hdeck : FromDeck cards)
    (hlen : cards.length ≤ 14) (hcaches : self.Caches cards) :
    (∃ groups, searchThreeOfKind self cards = some groups ∧
      ∀ group, (∃ found ∈ groups, found.cards.Perm group) ↔
        group.Subperm cards ∧ LegalSet self.jokerPoint group) ↔
      ∀ point, 2 ≤ (kindsAt self.jokerPoint cards point).length →
        (kindsAt self.jokerPoint cards point).length +
          jokerCount self.jokerPoint cards ≤ 4 := by
  obtain ⟨groups, hgroups, hsound, hcomplete, -⟩ :=
    searchThreeOfKind_spec (hdeck.searchable hlen) hcaches
  constructor
  · rintro ⟨groups', hgroups', hexact⟩ point htwo
    obtain rfl := Option.some_inj.mp (hgroups.symm.trans hgroups')
    by_contra hlarge
    -- all suits of the point and all jokers are a group of the search
    have hsize : (kindsAt self.jokerPoint cards point ++
        searchJokerCards self.jokerPoint cards).length =
          (kindsAt self.jokerPoint cards point).length +
            jokerCount self.jokerPoint cards := by
      rw [List.length_append, jokerCount_eq_length]
    have hfound := hcomplete _ (kindsAt_setShape htwo (by omega))
      (kindsAt_subperm self.jokerPoint point cards)
    have := ((hexact _).mp hfound).2.four
    omega
  · intro hsmall
    refine ⟨groups, hgroups, fun group => ⟨?_, ?_⟩⟩
    · rintro ⟨found, hfound, hperm⟩
      obtain ⟨-, hshape, hsub⟩ := hsound found hfound
      have hshape' := hshape.perm hperm
      have hsub' := hperm.symm.subperm.trans hsub
      obtain ⟨point, htwo, hle⟩ := hshape'.length_le_kindsAt hsub'
      exact ⟨hsub', hshape'.legalSet (hle.trans (hsmall point htwo))⟩
    · rintro ⟨hsub, hlegal⟩
      exact hcomplete group hlegal.shape hsub

def fourFives : List PokerCard :=
  [⟨1, 5⟩, ⟨2, 5⟩, ⟨3, 5⟩, ⟨4, 5⟩, ⟨0, 15⟩]

theorem fourFives_oversized :
    ¬ ∃ groups, searchThreeOfKind ⟨[⟨0, 15⟩], [[⟨0, 15⟩]], 9⟩ fourFives =
        some groups ∧
      ∀ group, (∃ found ∈ groups, found.cards.Perm group) ↔
        group.Subperm fourFives ∧ LegalSet 9 group := by
  rintro ⟨groups, hgroups, hexact⟩
  have hfound : ∃ found ∈ groups, found.cards.Perm fourFives := by
    refine ⟨⟨2, fourFives⟩, ?_, List.Perm.refl _⟩
    have hmem : (searchThreeOfKind ⟨[⟨0, 15⟩], [[⟨0, 15⟩]], 9⟩
        fourFives).any (fun out => out.contains ⟨2, fourFives⟩) = true := by
      decide
    simpa [hgroups] using hmem
  exact absurd ((hexact fourFives).mp hfound).2.four (by decide)

theorem threeFives_exact :
    (∃ groups, searchThreeOfKind ⟨[⟨0, 15⟩], [[⟨0, 15⟩]], 9⟩
        [⟨1, 5⟩, ⟨2, 5⟩, ⟨3, 5⟩, ⟨0, 15⟩] = some groups ∧
      ∀ group, (∃ found ∈ groups, found.cards.Perm group) ↔
        group.Subperm [⟨1, 5⟩, ⟨2, 5⟩, ⟨3, 5⟩, ⟨0, 15⟩] ∧
          LegalSet 9 group) ↔
      ∀ point, 2 ≤ (kindsAt 9 [⟨1, 5⟩, ⟨2, 5⟩, ⟨3, 5⟩, ⟨0, 15⟩]
          point).length →
        (kindsAt 9 [⟨1, 5⟩, ⟨2, 5⟩, ⟨3, 5⟩, ⟨0, 15⟩] point).length +
          jokerCount 9 [⟨1, 5⟩, ⟨2, 5⟩, ⟨3, 5⟩, ⟨0, 15⟩] ≤ 4 :=
  @searchThreeOfKind_exact_iff ⟨[⟨0, 15⟩], [[⟨0, 15⟩]], 9⟩ _
    (by decide +kernel) (by decide) ⟨by decide, by decide⟩

end StarsGaming.Cards
