import Mathlib.Order.Bounds.Basic
import StarsGaming.Cards.Reported

/-!
# The score of the automatic declare as a minimum

Whatever the order in which the search meets the arrangements of a hand, and
wherever it stops, the score is the least that an arrangement opened by a pure
straight leaves over.  It depends on the cards of the hand only.
-/

namespace StarsGaming.Cards

open PokerCard
open StarsGaming.Foundation

/-- What is left over after a pure straight, a straight and two more groups. -/
def Opening (jokerPoint : Nat) (hand loose : List PokerCard) : Prop :=
  ∃ pure rest, isCardsPureStraight (sortCards pure) = true ∧
    Fillable jokerPoint pure ∧ (pure ++ rest).Perm hand ∧
    Arranges jokerPoint [.straight, .any, .any] rest loose

def Scores (jokerPoint : Nat) (hand : List PokerCard) : Set Nat :=
  fun score => score = caculateCardScore hand jokerPoint ∨
    ∃ loose, Opening jokerPoint hand loose ∧
      score = caculateCardScore loose jokerPoint

section Hand

variable {jokerPoint : Nat} {hand hand' : List PokerCard}

theorem Opening.perm {loose : List PokerCard}
    (h : Opening jokerPoint hand loose) (hperm : hand.Perm hand') :
    Opening jokerPoint hand' loose := by
  obtain ⟨pure, rest, hpure, hfillable, hsplit, harranged⟩ := h
  exact ⟨pure, rest, hpure, hfillable, hsplit.trans hperm, harranged⟩

theorem scores_perm (hperm : hand.Perm hand') :
    Scores jokerPoint hand = Scores jokerPoint hand' := by
  ext score
  refine or_congr ?_ (exists_congr fun loose => and_congr_left fun _ => ?_)
  · rw [caculateCardScore_perm hperm]
  · exact ⟨fun h => h.perm hperm, fun h => h.perm hperm.symm⟩

theorem exists_first_of_pure (hs : Searchable hand) {pure : List PokerCard}
    (hpure : isCardsPureStraight (sortCards pure) = true)
    (hfillable : Fillable jokerPoint pure) (hsub : pure.Subperm hand) :
    ∃ first ∈ searchPureStraightFlush (allStraights jokerPoint hand),
      first.cards.Perm pure := by
  obtain ⟨-, hsound, hcomplete⟩ := @allStraights_spec jokerPoint hand hs
  obtain ⟨first, hfirst, hperm⟩ := hcomplete pure hfillable hsub
  have hsort : first.cards = sortCards pure :=
    (hsound first hfirst).eq_of_perm_pure (sortCards_pairwise pure) hpure
      (hperm.trans (sortCards_perm pure).symm)
  exact ⟨first, List.mem_filter.mpr ⟨hfirst, by rwa [hsort]⟩, hperm⟩

theorem Opening.reaches {loose : List PokerCard} (hs : Searchable hand)
    (hlen : 13 ≤ hand.length) {infos : List CombinationInfo} {stop : Bool}
    (hrun : AllRun jokerPoint hand infos stop)
    (h : Opening jokerPoint hand loose) :
    Reaches infos (caculateCardScore loose jokerPoint) := by
  obtain ⟨pure, rest, hpure, hfillable, hsplit, groups, hfill, hgroups⟩ := h
  obtain ⟨first, hfirst, hperm⟩ := exists_first_of_pure hs hpure hfillable
    ((List.sublist_append_left _ _).subperm.trans hsplit.subperm)
  exact hrun.reaches_pure hs hlen hfirst
    ⟨groups, hfill, hgroups.trans (removeCards_perm_of_perm hperm hsplit)⟩

theorem reaches_of_scores {score : Nat} (hs : Searchable hand)
    (hlen : 13 ≤ hand.length) {infos : List CombinationInfo} {stop : Bool}
    (hrun : AllRun jokerPoint hand infos stop)
    (h : score ∈ Scores jokerPoint hand) : Reaches infos score := by
  rcases h with rfl | ⟨loose, hopening, rfl⟩
  · exact hrun.reaches_hand hs hlen
  · exact hopening.reaches hs hlen hrun

theorem LaidOut.score_mem {melds : List CardGroup} {loose : List PokerCard}
    {info : CombinationInfo}
    (h : LaidOut jokerPoint hand melds loose info) :
    info.score ∈ Scores jokerPoint hand := by
  have hperm := h.perm
  have hplaces := h.places
  rw [h.score]
  cases melds with
  | nil =>
      refine Or.inl (caculateCardScore_perm ?_ jokerPoint)
      simpa [laidCards] using hperm
  | cons first melds =>
      have hfound : StraightOf jokerPoint hand first := hplaces.1
      have hpure := h.pure first (by simp)
      have hsorted := hfound.sorted.resolve_right
        (nonJokers_ne_nil_of_pure hpure)
      refine Or.inr ⟨loose, ⟨first.cards, laidCards melds ++ loose, ?_,
        hfound.fillable, ?_, Fill.arranges hplaces.2 (.refl _)⟩, rfl⟩
      · rwa [sortCards_eq_of_perm (.refl _) hsorted]
      · rwa [laidCards, List.flatMap_cons, List.append_assoc] at hperm

theorem chooseInfo_mem {infos : List CombinationInfo} (hne : infos ≠ []) :
    ∃ info ∈ infos, chooseInfo infos = some info := by
  obtain ⟨info, hinfo, ⟨hlast, -⟩ | ⟨-, pre, post, rfl, -⟩⟩ :=
    chooseInfo_spec hne
  · exact ⟨info, List.mem_of_getLast? hlast, hinfo⟩
  · exact ⟨info, by simp, hinfo⟩

theorem defaultDeclare_isLeast (self : Combination) (hdeck : FromDeck hand)
    (hlen : hand.length = 13 ∨ hand.length = 14) :
    ∃ self' score groups,
      defaultDeclare self hand jokerPoint = some (self', score, groups) ∧
        IsLeast (Scores jokerPoint hand) score := by
  have hs := hdeck.searchable (by omega)
  obtain ⟨self', infos, stop, hsearch, hrun⟩ :=
    @searchAllGroup_run jokerPoint hand self hs
      (List.length_pos_iff.mp (by omega))
  obtain ⟨self'', infos', hsearch', -, hne, hall⟩ :=
    @searchAllGroup_laidOut jokerPoint hand self hs (by omega) 0
  obtain ⟨rfl, rfl⟩ : self' = self'' ∧ infos = infos' := by
    simpa using hsearch.symm.trans hsearch'
  obtain ⟨info, hinfo, hchoose⟩ := chooseInfo_mem hne
  obtain ⟨melds, loose, hlaid⟩ := hall info hinfo
  refine ⟨self', info.score, info.cardGroup,
    by simp [defaultDeclare, hsearch, hchoose], hlaid.score_mem, ?_⟩
  intro score hscore
  obtain ⟨info', hchoose', hle⟩ :=
    chooseInfo_le (reaches_of_scores hs (by omega) hrun hscore)
  obtain rfl : info = info' := Option.some_inj.mp
    (hchoose.symm.trans hchoose')
  exact hle

end Hand

/-- The score of the automatic declare does not depend on the hand's order. -/
theorem defaultDeclare_perm (self self' : Combination)
    {hand hand' : List PokerCard} (hdeck : FromDeck hand)
    (hlen : hand.length = 13 ∨ hand.length = 14) (jokerPoint : Nat)
    (hperm : hand.Perm hand') :
    ∃ after after' score groups groups',
      defaultDeclare self hand jokerPoint = some (after, score, groups) ∧
      defaultDeclare self' hand' jokerPoint =
        some (after', score, groups') := by
  obtain ⟨after, score, groups, hdeclare, hleast⟩ :=
    @defaultDeclare_isLeast jokerPoint hand self hdeck hlen
  obtain ⟨after', score', groups', hdeclare', hleast'⟩ :=
    @defaultDeclare_isLeast jokerPoint hand' self'
      (hperm.symm.subperm.trans hdeck) (hperm.length_eq ▸ hlen)
  rw [← scores_perm hperm] at hleast'
  obtain rfl := hleast.unique hleast'
  exact ⟨after, after', score, groups, groups', hdeclare, hdeclare'⟩

theorem defaultDeclare_perm_sample :
    ∃ after after' score groups groups',
      defaultDeclare ⟨[], [], 0⟩ sampleHand 12 = some (after, score, groups) ∧
      defaultDeclare ⟨[], [], 0⟩ sampleHand.reverse 12 =
        some (after', score, groups') :=
  defaultDeclare_perm ⟨[], [], 0⟩ ⟨[], [], 0⟩ (by decide +kernel) (by decide)
    12 (List.reverse_perm sampleHand).symm

end StarsGaming.Cards
