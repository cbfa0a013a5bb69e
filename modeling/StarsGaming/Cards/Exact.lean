import Mathlib.Data.List.Chain
import StarsGaming.Cards.Legal

/-!
# The predicates on single groups against the rules

`isCardsStraight` decides the rule for straights.  `isCardsPureStraight` ends
its loop at an Ace and `isCardsThreeOfKind` forgets a card behind a wild one,
and each of the two decides its rule except on the groups where this shows.
-/

namespace StarsGaming.Cards

open PokerCard
open StarsGaming.Foundation

/-! ## Pure straights -/

def Consecutive (points : List Nat) : Prop :=
  points.IsChain fun point next => point + 1 = next

def OneSuit (cards : List PokerCard) : Prop :=
  ∀ card ∈ cards, ∀ card' ∈ cards, card.color = card'.color

structure PureRun (cards : List PokerCard) : Prop where
  noJoker : ∀ card ∈ cards, card.point < JOKER1
  oneSuit : OneSuit cards
  points : Consecutive (cards.map PokerCard.point) ∨
    ∃ low, cards.map PokerCard.point = low ++ [A] ∧
      low.head? = some P2 ∧ Consecutive low

/-- What lets the loop of `is_cards_pure_straight` go on. -/
def PureStep (card next : PokerCard) : Prop :=
  card.color = next.color ∧ card.point + 1 = next.point ∧
    next.point < JOKER1

/-- After a run from the two an Ace of its suit comes too early. -/
def EarlyAce (cards : List PokerCard) : Prop :=
  ∃ run last ace extra, cards = run ++ last :: ace :: extra ∧ extra ≠ [] ∧
    (run ++ [last]).head?.map PokerCard.point = some P2 ∧
    (run ++ [last]).IsChain PureStep ∧ ace.color = last.color ∧
    ace.point = A ∧ last.point + 1 ≠ A

theorem pureStraightFrom_chain {first last : PokerCard}
    {run rest : List PokerCard} (h : (last :: run).IsChain PureStep)
    (hlast : last.point < JOKER1) :
    pureStraightFrom first last (run ++ rest) =
      pureStraightFrom first ((last :: run).getLast (by simp)) rest := by
  induction run generalizing last with
  | nil => rfl
  | cons card run ih =>
      obtain ⟨⟨hcolor, hnext, hcard⟩, hrun⟩ := List.isChain_cons_cons.mp h
      have hpass : ¬ (last.color ≠ card.color ∨ JOKER1 ≤ last.point ∨
          JOKER1 ≤ card.point) := by
        omega
      rw [List.cons_append, pureStraightFrom, if_neg hpass,
        if_neg (by simpa using hnext), ih hrun hcard, List.getLast_cons_cons]

theorem chain_of_pureStraightFrom {first last : PokerCard}
    {rest : List PokerCard}
    (h : pureStraightFrom first last rest = true) :
    (last :: rest).IsChain PureStep ∨
      ∃ run stop ace extra, last :: rest = run ++ stop :: ace :: extra ∧
        (run ++ [stop]).IsChain PureStep ∧ ace.color = stop.color ∧
        ace.point = A ∧ stop.point + 1 ≠ A ∧ first.point = P2 := by
  induction rest generalizing last with
  | nil => exact Or.inl (.singleton last)
  | cons card rest ih =>
      rw [pureStraightFrom] at h
      split at h
      · simp at h
      · rename_i hpass
        split at h
        · rename_i hgap
          split at h
          · simp at h
          · rename_i hace
            rw [ne_eq, not_not] at hace
            exact Or.inr ⟨[], last, card, rest, rfl, .singleton last,
              by omega, hace, hace ▸ hgap, beq_iff_eq.mp h⟩
        · rename_i hnext
          have hstep : PureStep last card := ⟨by omega, by omega, by omega⟩
          rcases ih h with hchain | ⟨run, stop, ace, extra, heq, hchain, hrest⟩
          · exact Or.inl (.cons_cons hstep hchain)
          · refine Or.inr ⟨last :: run, stop, ace, extra, by rw [heq]; rfl,
              ?_, hrest⟩
            cases run with
            | nil =>
                obtain ⟨rfl, -⟩ := List.cons.inj heq
                exact .cons_cons hstep hchain
            | cons head run =>
                obtain ⟨rfl, -⟩ := List.cons.inj heq
                exact .cons_cons hstep hchain

theorem chain_uniform {first : PokerCard} {rest : List PokerCard}
    (h : (first :: rest).IsChain PureStep) (hfirst : first.point < JOKER1) :
    ∀ card ∈ first :: rest,
      card.color = first.color ∧ card.point < JOKER1 := by
  induction rest generalizing first with
  | nil => simpa using hfirst
  | cons next rest ih =>
      obtain ⟨⟨hcolor, -, hnext⟩, hrest⟩ := List.isChain_cons_cons.mp h
      intro card hcard
      rcases List.mem_cons.mp hcard with rfl | hcard
      · exact ⟨rfl, hfirst⟩
      · have hcard' := ih hrest hnext card hcard
        exact ⟨hcard'.1.trans hcolor.symm, hcard'.2⟩

/-- Without printed jokers, and in one suit, only the points are left. -/
theorem PureRun.chain_iff {cards : List PokerCard} (h : PureRun cards)
    {run : List PokerCard} (hrun : run ⊆ cards) :
    run.IsChain PureStep ↔ Consecutive (run.map PokerCard.point) := by
  rw [Consecutive, List.isChain_map]
  refine List.IsChain.iff_of_mem_imp fun card next hcard hnext => ?_
  have hcolor := h.oneSuit card (hrun hcard) next (hrun hnext)
  have hpoint := h.noJoker next (hrun hnext)
  exact ⟨fun hstep => hstep.2.1, fun hpoints => ⟨hcolor, hpoints, hpoint⟩⟩

theorem PureRun.isCardsPureStraight {cards : List PokerCard}
    (h : PureRun cards) (hlen : 3 ≤ cards.length) :
    isCardsPureStraight cards = true := by
  cases cards with
  | nil => simp at hlen
  | cons first rest =>
      have hfirst := h.noJoker first List.mem_cons_self
      rw [Cards.isCardsPureStraight, if_neg (by omega)]
      rcases h.points with hpoints | ⟨low, hlow, htwo, hpoints⟩
      · have hchain := (h.chain_iff (List.Subset.refl _)).mpr hpoints
        have hall := @pureStraightFrom_chain first first rest [] hchain hfirst
        rw [List.append_nil] at hall
        exact hall
      · obtain ⟨run, tail, heq, rfl, htail⟩ := List.map_eq_append_iff.mp hlow
        obtain ⟨ace, rfl, hace⟩ := List.map_eq_singleton_iff.mp htail
        cases run with
        | nil => simp at htwo
        | cons head run =>
            obtain ⟨rfl, rfl⟩ := List.cons.inj heq
            have hchain := (@PureRun.chain_iff _ h (first :: run)
              (by rw [heq]; exact List.subset_append_left _ _)).mpr hpoints
            have hstop : (first :: run).getLast (by simp) ∈
                first :: (run ++ [ace]) := by
              rw [← List.cons_append]
              exact List.mem_append_left _ (List.getLast_mem _)
            have hcolor := h.oneSuit _ hstop ace (by simp)
            have hpoint := h.noJoker _ hstop
            have hace' := h.noJoker ace (by simp)
            change pureStraightFrom first first (run ++ [ace]) = true
            rw [pureStraightFrom_chain hchain hfirst, pureStraightFrom,
              if_neg (by omega)]
            split
            · rw [if_neg (by simpa using hace), beq_iff_eq]
              simpa using htwo
            · rfl

theorem pureRun_or_earlyAce {cards : List PokerCard}
    (h : isCardsPureStraight cards = true) :
    PureRun cards ∨ EarlyAce cards := by
  obtain ⟨first, second, third, rest, rfl, -, -, hfirst, -⟩ :=
    isCardsPureStraight_cases h
  have hlen : ¬ (first :: second :: third :: rest).length < 3 := by simp
  rw [isCardsPureStraight, if_neg hlen] at h
  rcases chain_of_pureStraightFrom h with hchain |
    ⟨run, stop, ace, extra, heq, hchain, hcolor, hace, hgap, htwo⟩
  · have hall := chain_uniform hchain hfirst
    refine Or.inl ⟨fun card hcard => (hall card hcard).2,
      fun card hcard card' hcard' => ?_, Or.inl ?_⟩
    · rw [(hall card hcard).1, (hall card' hcard').1]
    · rw [Consecutive, List.isChain_map]
      exact hchain.imp fun card next hstep => hstep.2.1
  · obtain ⟨run', hrun'⟩ : ∃ run', run ++ [stop] = first :: run' := by
      cases run with
      | nil => exact ⟨[], by rw [(List.cons.inj heq).1]; rfl⟩
      | cons head run => exact ⟨run ++ [stop], by rw [(List.cons.inj heq).1]; rfl⟩
    rw [hrun'] at hchain
    by_cases hextra : extra = []
    · subst hextra
      have hsplit : first :: second :: third :: rest =
          (first :: run') ++ [ace] := by
        rw [heq, ← hrun']
        simp
      have hall := chain_uniform hchain hfirst
      have hstop := hall stop (by simp [← hrun'])
      have hcards : ∀ card ∈ first :: second :: third :: rest,
          card.color = first.color ∧ card.point < JOKER1 := by
        intro card hcard
        rw [hsplit] at hcard
        rcases List.mem_append.mp hcard with hcard | hcard
        · exact hall card hcard
        · obtain rfl := List.mem_singleton.mp hcard
          exact ⟨hcolor.trans hstop.1, by simp only [A, JOKER1] at hace ⊢; omega⟩
      refine Or.inl ⟨fun card hcard => (hcards card hcard).2,
        fun card hcard card' hcard' => ?_,
        Or.inr ⟨(first :: run').map PokerCard.point, ?_, ?_, ?_⟩⟩
      · rw [(hcards card hcard).1, (hcards card' hcard').1]
      · rw [hsplit, List.map_append, List.map_singleton, hace]
      · rw [List.map_cons, List.head?_cons, htwo]
      · rw [Consecutive, List.isChain_map]
        exact hchain.imp fun card next hstep => hstep.2.1
    · refine Or.inr ⟨run, stop, ace, extra, heq, hextra, ?_, ?_, hcolor, hace,
        hgap⟩
      · rw [hrun', List.head?_cons, Option.map_some, htwo]
      · rwa [hrun']

theorem EarlyAce.isCardsPureStraight {cards : List PokerCard}
    (h : EarlyAce cards) : isCardsPureStraight cards = true := by
  obtain ⟨run, stop, ace, extra, rfl, hextra, hhead, hchain, hcolor, hace,
    hgap⟩ := h
  have hpos := List.length_pos_iff.mpr hextra
  obtain ⟨first, run', hrun'⟩ :
      ∃ first run', run ++ [stop] = first :: run' :=
    List.exists_cons_of_ne_nil (List.concat_ne_nil stop run)
  have hsplit : run ++ stop :: ace :: extra =
      first :: (run' ++ ace :: extra) := by
    rw [← List.cons_append, ← hrun']
    simp
  rw [hrun'] at hchain hhead
  have hfirst : first.point = P2 := by simpa using hhead
  have hlow : first.point < JOKER1 := by simp [hfirst]
  have hlast : (first :: run').getLast (by simp) = stop := by
    simp only [← hrun', List.getLast_concat]
  have hstop := chain_uniform hchain hlow stop (by simp [← hrun'])
  have hlen : ¬ (first :: (run' ++ ace :: extra)).length < 3 := by
    simp only [List.length_cons, List.length_append]
    omega
  rw [hsplit, Cards.isCardsPureStraight, if_neg hlen]
  change pureStraightFrom first first (run' ++ ace :: extra) = true
  rw [pureStraightFrom_chain hchain hlow, hlast, pureStraightFrom,
    if_neg (by simp only [A, JOKER1] at *; omega), if_pos (by rwa [hace]),
    if_neg (by simpa using hace), beq_iff_eq]
  exact hfirst

theorem EarlyAce.not_pureRun {cards : List PokerCard} (h : EarlyAce cards) :
    ¬ PureRun cards := by
  obtain ⟨run, stop, ace, extra, rfl, hextra, -, -, -, hace, hgap⟩ := h
  -- the gap before the Ace is inside the list, whatever comes last
  have hbroken : ∀ points : List Nat,
      run.map PokerCard.point ++ [stop.point, ace.point] <+: points →
      ¬ Consecutive points := by
    rintro points ⟨after, rfl⟩ hpoints
    have hpair := (List.IsChain.left_of_append hpoints).right_of_append
    exact hgap (hace ▸ (List.isChain_cons_cons.mp hpair).1)
  rintro ⟨-, -, hpoints | ⟨low, hlow, -, hpoints⟩⟩
  · refine hbroken _ ⟨extra.map PokerCard.point, by simp⟩ hpoints
  · obtain ⟨init, last, rfl⟩ :=
      (List.eq_nil_or_concat' extra).resolve_left hextra
    refine hbroken low ⟨init.map PokerCard.point, ?_⟩ hpoints
    have hsame : run.map PokerCard.point ++ [stop.point, ace.point] ++
        init.map PokerCard.point ++ [last.point] = low ++ [A] := by
      rw [← hlow]
      simp
    exact (List.append_inj' hsame rfl).1

/--
The predicate tells the pure runs from the other groups of three or more cards
exactly on the groups in which no Ace comes too early.
-/
theorem isCardsPureStraight_exact_iff {cards : List PokerCard}
    (hlen : 3 ≤ cards.length) :
    (isCardsPureStraight cards = true ↔ PureRun cards) ↔
      ¬ EarlyAce cards := by
  constructor
  · intro hexact hearly
    exact hearly.not_pureRun (hexact.mp hearly.isCardsPureStraight)
  · intro hearly
    exact ⟨fun h => (pureRun_or_earlyAce h).resolve_right hearly,
      fun h => h.isCardsPureStraight hlen⟩

def earlyAces : List PokerCard := [⟨1, 2⟩, ⟨1, 14⟩, ⟨2, 14⟩]

theorem earlyAces_accepted :
    ¬ ∀ cards : List PokerCard, 3 ≤ cards.length → cards.length ≤ 14 →
      (∀ card ∈ cards, Deal card) → cards.Pairwise (· ≤ ·) →
      (isCardsPureStraight cards = true ↔ PureRun cards) := by
  intro hexact
  have hpure := (hexact earlyAces (by decide) (by decide) (by decide)
    (by decide)).mp (by decide)
  exact absurd (hpure.oneSuit ⟨1, 2⟩ (by decide) ⟨2, 14⟩ (by decide))
    (by decide)

theorem isCardsPureStraight_exact_sample :
    (isCardsPureStraight [⟨1, 2⟩, ⟨1, 3⟩, ⟨1, 14⟩] = true ↔
        PureRun [⟨1, 2⟩, ⟨1, 3⟩, ⟨1, 14⟩]) ↔
      ¬ EarlyAce [⟨1, 2⟩, ⟨1, 3⟩, ⟨1, 14⟩] :=
  isCardsPureStraight_exact_iff (by decide)

/-! ## Straights -/

def CountsAs (jokerPoint : Nat) (card : PokerCard) (point : Nat) : Prop :=
  1 ≤ point ∧ point ≤ A ∧ (isJoker jokerPoint card = true ∨
    card.point = point ∨ (card.point = A ∧ point = 1))

/-- Points for the cards, all different and without a gap. -/
def Assignable (jokerPoint : Nat) (cards : List PokerCard) : Prop :=
  ∃ points, List.Forall₂ (CountsAs jokerPoint) cards points ∧
    ∃ start, points.Perm (List.range' start points.length)

private theorem flush_length_le {cards : List PokerCard} {start size : Nat}
    (hflush : Flush cards)
    (hpoints : ∀ card ∈ cards, start ≤ card.point ∧
      card.point < start + size) : cards.length ≤ size := by
  have hnodup : (cards.map PokerCard.point).Nodup :=
    List.pairwise_map.mpr (hflush.imp fun hlt => Nat.ne_of_lt hlt.2)
  have hsubset : cards.map PokerCard.point ⊆ List.range' start size := by
    intro point hpoint
    obtain ⟨card, hcard, rfl⟩ := List.mem_map.mp hpoint
    exact List.mem_range'_1.mpr (hpoints card hcard)
  have hle := (hnodup.subperm hsubset).length_le
  rwa [List.length_map, List.length_range'] at hle

private theorem exists_run {jokerPoint color : Nat}
    {cards jokers : List PokerCard} {start size : Nat}
    (hflush : Flush cards)
    (hcards : ∀ card ∈ cards, card.color = color ∧ start ≤ card.point ∧
      card.point < start + size)
    (hjokers : ∀ card ∈ jokers, isJoker jokerPoint card = true)
    (hsize : cards.length + jokers.length = size) :
    ∃ run, run.Perm (cards ++ jokers) ∧
      List.Forall₂ (PlaysAt jokerPoint color) run
        (List.range' start size) := by
  induction size generalizing cards jokers start with
  | zero =>
      obtain rfl := List.eq_nil_of_length_eq_zero
        (show cards.length = 0 by omega)
      obtain rfl := List.eq_nil_of_length_eq_zero
        (show jokers.length = 0 by omega)
      exact ⟨[], .refl _, .nil⟩
  | succ size ih =>
      rw [List.range'_succ]
      by_cases hstart : ∃ card rest, cards = card :: rest ∧ card.point = start
      · obtain ⟨card, rest, rfl, hpoint⟩ := hstart
        obtain ⟨run, hperm, hrun⟩ := @ih rest jokers (start + 1) hflush.of_cons
          (fun card' hcard' => by
            have hlt := (List.rel_of_pairwise_cons hflush hcard').2
            have := hcards card' (List.mem_cons_of_mem _ hcard')
            exact ⟨this.1, by omega, by omega⟩) hjokers
          (by simp only [List.length_cons] at hsize; omega)
        exact ⟨card :: run, hperm.cons card, .cons (Or.inr
          ⟨(hcards card List.mem_cons_self).1, Or.inl hpoint⟩) hrun⟩
      · have habove : ∀ card ∈ cards, start + 1 ≤ card.point ∧
            card.point < start + 1 + size := by
          intro card hcard
          have := hcards card hcard
          cases cards with
          | nil => simp at hcard
          | cons first rest =>
              have hfirst : first.point ≠ start := fun heq =>
                hstart ⟨first, rest, rfl, heq⟩
              have := hcards first List.mem_cons_self
              rcases List.mem_cons.mp hcard with rfl | hcard
              · omega
              · have := (List.rel_of_pairwise_cons hflush hcard).2
                omega
        have hle := flush_length_le hflush habove
        cases jokers with
        | nil =>
            rw [List.length_nil] at hsize
            omega
        | cons joker jokers =>
            obtain ⟨run, hperm, hrun⟩ := @ih cards jokers (start + 1) hflush
              (fun card hcard => ⟨(hcards card hcard).1, habove card hcard⟩)
              (fun card hcard => hjokers card (List.mem_cons_of_mem _ hcard))
              (by simp only [List.length_cons] at hsize; omega)
            exact ⟨joker :: run, (hperm.cons joker).trans
                List.perm_middle.symm,
              .cons (Or.inl (hjokers joker List.mem_cons_self)) hrun⟩

private theorem flush_span {first : PokerCard} {rest : List PokerCard}
    (hflush : Flush (first :: rest)) :
    ∀ card ∈ first :: rest, card.color = first.color ∧
      first.point ≤ card.point ∧
      (card.point : Int) ≤ first.point + rest.length + gapsFrom first rest := by
  induction rest generalizing first with
  | nil => simp [gapsFrom]
  | cons next rest ih =>
      have hnonneg := gapsFrom_nonneg hflush
      obtain ⟨hcolor, hpoint⟩ :=
        List.rel_of_pairwise_cons hflush List.mem_cons_self
      intro card hcard
      rw [List.length_cons]
      rcases List.mem_cons.mp hcard with rfl | hcard
      · exact ⟨rfl, Nat.le_refl _, by omega⟩
      · have := ih hflush.of_cons card hcard
        simp only [gapsFrom]
        exact ⟨this.1.trans hcolor.symm, by omega, by omega⟩

section Place

variable {jokerPoint : Nat} {group cards : List PokerCard}

private theorem legalStraight_of_window (hflush : Flush cards)
    (hall : (cards ++ searchJokerCards jokerPoint group).Perm group)
    (hthree : 3 ≤ group.length) (color start : Nat) (hone : 1 ≤ start)
    (hend : start + group.length ≤ A + 1)
    (hcards : ∀ card ∈ cards, card.color = color ∧ start ≤ card.point ∧
      card.point < start + group.length) : LegalStraight jokerPoint group := by
  have hsize := hall.length_eq
  rw [List.length_append] at hsize
  obtain ⟨run, hrun, hplays⟩ := exists_run hflush hcards
    (fun card hcard => List.of_mem_filter hcard) hsize
  have hlength := (hrun.trans hall).length_eq
  exact ⟨color, run, start, hrun.trans hall, by omega, hone, by omega,
    by rwa [hlength]⟩

private theorem legalStraight_of_gaps {first : PokerCard}
    {rest : List PokerCard} (hflush : Flush (first :: rest))
    (hall : ((first :: rest) ++ searchJokerCards jokerPoint group).Perm group)
    (hthree : 3 ≤ group.length) (hlen : group.length ≤ 13)
    (hpoints : ∀ card ∈ first :: rest, 2 ≤ card.point ∧ card.point ≤ A)
    (hgap : gapsFrom first rest ≤ (searchJokerCards jokerPoint group).length) :
    LegalStraight jokerPoint group := by
  have hspan := flush_span hflush
  have hfirst := hpoints first List.mem_cons_self
  have hsize := hall.length_eq
  rw [List.length_append, List.length_cons] at hsize
  simp only [A] at hfirst hpoints
  by_cases hlow : first.point + group.length ≤ A + 1
  · refine legalStraight_of_window hflush hall hthree first.color
      first.point (by omega) hlow ?_
    intro card hcard
    have := hspan card hcard
    exact ⟨this.1, this.2.1, by omega⟩
  · simp only [A] at hlow
    refine legalStraight_of_window hflush hall hthree first.color
      (15 - group.length) (by omega) (by simp only [A]; omega) ?_
    intro card hcard
    have := hspan card hcard
    have := hpoints card hcard
    exact ⟨by omega, by omega, by omega⟩

private theorem legalStraight_of_lowAce {first ace : PokerCard}
    {rest : List PokerCard} (hflush : Flush ((first :: rest) ++ [ace]))
    (hall : (((first :: rest) ++ [ace]) ++
      searchJokerCards jokerPoint group).Perm group)
    (hthree : 3 ≤ group.length) (hlen : group.length ≤ 13)
    (hpoints : ∀ card ∈ (first :: rest) ++ [ace],
      2 ≤ card.point ∧ card.point ≤ A) (hace : ace.point = A)
    (hgap : (first.point : Int) - 2 + gapsFrom first rest ≤
      (searchJokerCards jokerPoint group).length) :
    LegalStraight jokerPoint group := by
  obtain ⟨hlow, -, hbelow⟩ := List.pairwise_append.mp hflush
  have hspan := flush_span hlow
  have hfirst := hpoints first (by simp)
  have hsize := hall.length_eq
  simp only [List.length_append, List.length_cons, List.length_nil] at hsize
  have hcolor : ace.color = first.color :=
    (hbelow first List.mem_cons_self ace (by simp)).1.symm
  obtain ⟨size, hsize'⟩ : ∃ size, group.length = size + 1 :=
    ⟨group.length - 1, by omega⟩
  obtain ⟨run, hrun, hplays⟩ := @exists_run jokerPoint first.color
    (first :: rest) (searchJokerCards jokerPoint group) 2 size hlow
    (fun card hcard => by
      have := hspan card hcard
      have := hpoints card (List.mem_append_left _ hcard)
      exact ⟨by omega, by omega, by omega⟩)
    (fun card hcard => List.of_mem_filter hcard)
    (by rw [List.length_cons]; omega)
  have hgroup : (ace :: run).Perm group := by
    refine List.Perm.trans ?_ hall
    rw [List.append_assoc]
    exact (hrun.cons ace).trans List.perm_middle.symm
  have hlength := hgroup.length_eq
  refine ⟨first.color, ace :: run, 1, hgroup, by omega, Nat.le_refl 1,
    by simp only [A]; omega, ?_⟩
  rw [hlength, hsize', List.range'_succ]
  exact .cons (Or.inr ⟨hcolor, Or.inr ⟨hace, rfl⟩⟩) hplays

theorem Fillable.legalStraight (h : Fillable jokerPoint group)
    (hdeal : ∀ card ∈ group, Deal card) (hlen : group.length ≤ 13) :
    LegalStraight jokerPoint group := by
  obtain ⟨hthree, cards, hperm, hflush, hfits⟩ := h
  have hall : (cards ++ searchJokerCards jokerPoint group).Perm group :=
    (hperm.append_right _).trans (nonJokers_append_jokers_perm jokerPoint group)
  have hpoints : ∀ card ∈ cards, 2 ≤ card.point ∧ card.point ≤ A := by
    intro card hcard
    have hnon := hperm.subset hcard
    have hd := hdeal card (nonJokers_subset hnon)
    have := List.of_mem_filter hnon
    simp only [isJoker, JOKER1, Bool.not_eq_true', Bool.or_eq_false_iff,
      decide_eq_false_iff_not] at this
    simp only [Deal, spades, diamonds, P2, A, JOKER1, JOKER2] at hd ⊢
    omega
  rw [jokerCount_eq_length] at hfits
  rcases hfits with rfl | ⟨first, rest, rfl, hgap⟩ |
    ⟨first, rest, ace, rfl, hace, hgap⟩
  · exact legalStraight_of_window hflush hall hthree 0 1 (Nat.le_refl 1)
      (by simp only [A]; omega) (by simp)
  · exact legalStraight_of_gaps hflush hall hthree hlen hpoints hgap
  · exact legalStraight_of_lowAce hflush hall hthree hlen hpoints hace hgap

end Place

private theorem forall₂_mem {α β : Type*} {R : α → β → Prop} {xs : List α}
    {ys : List β} (h : List.Forall₂ R xs ys) :
    (∀ x ∈ xs, ∃ y ∈ ys, R x y) ∧ ∀ y ∈ ys, ∃ x ∈ xs, R x y := by
  induction h with
  | nil => simp
  | cons hxy _ ih =>
      refine ⟨List.forall_mem_cons.mpr ⟨⟨_, List.mem_cons_self, hxy⟩, ?_⟩,
        List.forall_mem_cons.mpr ⟨⟨_, List.mem_cons_self, hxy⟩, ?_⟩⟩
      · intro x hx
        obtain ⟨y, hy, hxy'⟩ := ih.1 x hx
        exact ⟨y, List.mem_cons_of_mem _ hy, hxy'⟩
      · intro y hy
        obtain ⟨x, hx, hxy'⟩ := ih.2 y hy
        exact ⟨x, List.mem_cons_of_mem _ hx, hxy'⟩

private theorem forall₂_and_mem {α β : Type*} {R : α → β → Prop}
    {xs : List α} {ys : List β} (h : List.Forall₂ R xs ys) :
    List.Forall₂ (fun x y => (x ∈ xs ∧ y ∈ ys) ∧ R x y) xs ys := by
  induction h with
  | nil => exact .nil
  | cons hxy _ ih =>
      refine .cons ⟨by simp, hxy⟩ (ih.imp fun x y hmem => ?_)
      exact ⟨⟨List.mem_cons_of_mem _ hmem.1.1,
        List.mem_cons_of_mem _ hmem.1.2⟩, hmem.2⟩

theorem LegalStraight.oneSuit {jokerPoint : Nat} {cards : List PokerCard}
    (h : LegalStraight jokerPoint cards) :
    OneSuit (nonJokers jokerPoint cards) := by
  obtain ⟨color, run, start, hperm, -, -, -, hplays⟩ := h
  have hcolor : ∀ card ∈ nonJokers jokerPoint cards,
      card.color = color := by
    intro card hcard
    obtain ⟨point, -, hplay⟩ := (forall₂_mem hplays).1 card
      (hperm.symm.subset (nonJokers_subset hcard))
    have hnon : ¬ isJoker jokerPoint card := by
      simpa using List.of_mem_filter hcard
    exact (hplay.resolve_left hnon).1
  intro card hcard card' hcard'
  rw [hcolor card hcard, hcolor card' hcard']

theorem LegalStraight.assignable {jokerPoint : Nat} {cards : List PokerCard}
    (h : LegalStraight jokerPoint cards) : Assignable jokerPoint cards := by
  obtain ⟨color, run, start, hperm, -, hone, hend, hplays⟩ := h
  have hcounts : List.Forall₂ (CountsAs jokerPoint) run
      (List.range' start run.length) := by
    refine (forall₂_and_mem hplays).imp fun card point h => ?_
    have hpoint := List.mem_range'_1.mp h.1.2
    refine ⟨by omega, by simp only [A] at hend ⊢; omega, ?_⟩
    exact h.2.imp_right And.right
  obtain ⟨points, hpoints, hrange⟩ :=
    List.perm_comp_forall₂ hperm.symm hcounts
  refine ⟨points, hpoints, start, ?_⟩
  have hlength := hrange.length_eq
  rw [List.length_range'] at hlength
  rwa [hlength]

private theorem OneSuit.exists_color {cards : List PokerCard}
    (h : OneSuit cards) : ∃ color, ∀ card ∈ cards, card.color = color := by
  cases cards with
  | nil => exact ⟨0, by simp⟩
  | cons first rest =>
      exact ⟨first.color, fun card hcard =>
        h card hcard first List.mem_cons_self⟩

theorem Assignable.legalStraight {jokerPoint : Nat} {cards : List PokerCard}
    (h : Assignable jokerPoint cards) (hlen : 3 ≤ cards.length)
    (hsuit : OneSuit (nonJokers jokerPoint cards)) :
    LegalStraight jokerPoint cards := by
  obtain ⟨points, hpoints, start, hrange⟩ := h
  have hlength := hpoints.length_eq
  have hbound : ∀ point ∈ List.range' start points.length,
      1 ≤ point ∧ point ≤ A := by
    intro point hpoint
    obtain ⟨card, -, hcounts⟩ :=
      (forall₂_mem hpoints).2 point (hrange.symm.subset hpoint)
    exact ⟨hcounts.1, hcounts.2.1⟩
  have hstart := hbound start (by
    rw [List.mem_range'_1]
    omega)
  have hend := hbound (start + points.length - 1) (by
    rw [List.mem_range'_1]
    omega)
  obtain ⟨color, hcolor⟩ := hsuit.exists_color
  have hplays : List.Forall₂ (PlaysAt jokerPoint color) cards points := by
    refine (forall₂_and_mem hpoints).imp fun card point h => ?_
    obtain ⟨⟨hcard, -⟩, -, -, hcount⟩ := h
    by_cases hjoker : isJoker jokerPoint card
    · exact Or.inl hjoker
    · have hnon : card ∈ nonJokers jokerPoint cards :=
        List.mem_filter.mpr ⟨hcard, by simpa using hjoker⟩
      exact Or.inr ⟨hcolor card hnon, hcount.resolve_left hjoker⟩
  have hcomp : Relation.Comp (List.Forall₂ (PlaysAt jokerPoint color))
      List.Perm cards (List.range' start points.length) :=
    ⟨points, hplays, hrange⟩
  rw [List.forall₂_comp_perm_eq_perm_comp_forall₂] at hcomp
  obtain ⟨run, hperm, hrun⟩ := hcomp
  have hsize := hperm.length_eq
  refine ⟨color, run, start, hperm.symm, by omega, hstart.1, ?_, ?_⟩
  · omega
  · rwa [← hsize, hlength]

theorem legalStraight_iff_assignable {jokerPoint : Nat}
    {cards : List PokerCard} (hlen : 3 ≤ cards.length) :
    LegalStraight jokerPoint cards ↔
      OneSuit (nonJokers jokerPoint cards) ∧ Assignable jokerPoint cards :=
  ⟨fun h => ⟨h.oneSuit, h.assignable⟩, fun h => h.2.legalStraight hlen h.1⟩

/--
Sorted groups of up to thirteen cards pass the test exactly when the jokers
can be given points that make the group a run.
-/
theorem isCardsStraight_exact {jokerPoint : Nat} {cards : List PokerCard}
    (hthree : 3 ≤ cards.length) (hlen : cards.length ≤ 13)
    (hdeal : ∀ card ∈ cards, Deal card)
    (hsorted : cards.Pairwise (· ≤ ·)) :
    isCardsStraight cards jokerPoint = true ↔
      OneSuit (nonJokers jokerPoint cards) ∧
        Assignable jokerPoint cards := by
  have hsort : sortCards cards = cards :=
    sortCards_eq_of_perm (.refl _) hsorted
  rw [← legalStraight_iff_assignable hthree]
  constructor
  · intro h
    rw [← hsort] at h
    exact (fillable_of_isCardsStraight hdeal h).legalStraight hdeal hlen
  · intro h
    have hstraight := (h.fillable hlen).isCardsStraight hdeal
    rwa [hsort] at hstraight

theorem isCardsStraight_exact_sample :
    isCardsStraight [⟨1, 3⟩, ⟨2, 9⟩, ⟨1, 14⟩, ⟨0, 15⟩] 9 = true ↔
      OneSuit (nonJokers 9 [⟨1, 3⟩, ⟨2, 9⟩, ⟨1, 14⟩, ⟨0, 15⟩]) ∧
        Assignable 9 [⟨1, 3⟩, ⟨2, 9⟩, ⟨1, 14⟩, ⟨0, 15⟩] :=
  isCardsStraight_exact (by decide) (by decide) (by decide) (by decide)

/-! ## Sets -/

/-- What lets the loop of `is_cards_three_of_kind` go on. -/
def KindStep (jokerPoint : Nat) (card next : PokerCard) : Prop :=
  isJoker jokerPoint card = true ∨ isJoker jokerPoint next = true ∨
    (next.point = card.point ∧ next.color ≠ card.color)

theorem threeOfKindFrom_eq_some {jokerPoint : Nat} {last : PokerCard}
    {cards : List PokerCard} {count total : Nat} :
    threeOfKindFrom jokerPoint last (isJoker jokerPoint last) count cards =
        some total ↔
      (last :: cards).IsChain (KindStep jokerPoint) ∧
        total = count + (nonJokers jokerPoint cards).length := by
  induction cards generalizing last count with
  | nil =>
      rw [threeOfKindFrom, Option.some_inj, eq_comm]
      simp [nonJokers]
  | cons card rest ih =>
      rw [threeOfKindFrom, List.isChain_cons_cons]
      by_cases hjoker : isJoker jokerPoint card = true
      · have hstep : KindStep jokerPoint last card := Or.inr (Or.inl hjoker)
        rw [if_pos hjoker, ← hjoker, ih, nonJokers_cons_joker hjoker,
          and_iff_right hstep]
      · have hstep : ¬ (!isJoker jokerPoint last ∧
            (card.point ≠ last.point ∨ card.color = last.color)) ↔
            KindStep jokerPoint last card := by
          cases hlast : isJoker jokerPoint last <;>
            simp [KindStep, hjoker, hlast]
        have hcard : isJoker jokerPoint card = false := by simpa using hjoker
        rw [if_neg hjoker, nonJokers_cons hjoker, List.length_cons]
        by_cases hbad : !isJoker jokerPoint last ∧
            (card.point ≠ last.point ∨ card.color = last.color)
        · rw [if_pos hbad, ← hstep]
          simp [hbad]
        · rw [if_neg hbad, ← hcard, ih, and_iff_right (hstep.mp hbad),
            Nat.add_assoc, Nat.add_comm 1]

theorem isCardsThreeOfKind_iff {jokerPoint : Nat} {cards : List PokerCard} :
    isCardsThreeOfKind cards jokerPoint = true ↔
      3 ≤ cards.length ∧ cards.length ≤ 4 ∧
        cards.IsChain (KindStep jokerPoint) ∧
        2 ≤ (nonJokers jokerPoint cards).length := by
  unfold isCardsThreeOfKind
  by_cases hlen : cards.length < 3 ∨ 4 < cards.length
  · rw [if_pos hlen]
    simp only [Bool.false_eq_true, false_iff]
    omega
  · rw [if_neg hlen]
    cases cards with
    | nil => simp at hlen
    | cons first rest =>
        have hcount : (if isJoker jokerPoint first then 0 else 1) +
            (nonJokers jokerPoint rest).length =
              (nonJokers jokerPoint (first :: rest)).length := by
          by_cases hjoker : isJoker jokerPoint first
          · rw [nonJokers_cons_joker hjoker, if_pos hjoker, Nat.zero_add]
          · rw [nonJokers_cons hjoker, if_neg hjoker, List.length_cons,
              Nat.add_comm]
        simp only
        cases hrun : threeOfKindFrom jokerPoint first
            (isJoker jokerPoint first)
            (if isJoker jokerPoint first then 0 else 1) rest with
        | none =>
            simp only [Bool.false_eq_true, false_iff]
            rintro ⟨-, -, hchain, -⟩
            have hsome := (@threeOfKindFrom_eq_some jokerPoint first rest
              (if isJoker jokerPoint first then 0 else 1) _).mpr
                ⟨hchain, rfl⟩
            rw [hrun] at hsome
            cases hsome
        | some total =>
            obtain ⟨hchain, rfl⟩ := threeOfKindFrom_eq_some.mp hrun
            rw [hcount]
            simp only [decide_eq_true_eq]
            exact ⟨fun htwo => ⟨by omega, by omega, hchain, htwo⟩,
              fun h => h.2.2.2⟩

def Kind (cards : List PokerCard) : Prop :=
  cards.Pairwise fun card card' =>
    card.point = card'.point ∧ card.color ≠ card'.color

theorem legalSet_iff {jokerPoint : Nat} {cards : List PokerCard} :
    LegalSet jokerPoint cards ↔
      3 ≤ cards.length ∧ cards.length ≤ 4 ∧
        Kind (nonJokers jokerPoint cards) ∧
        2 ≤ (nonJokers jokerPoint cards).length :=
  ⟨fun h => ⟨h.three, h.four, h.kind, h.two⟩,
    fun ⟨hthree, hfour, hkind, htwo⟩ => ⟨hthree, hfour, htwo, hkind⟩⟩

private theorem sorted_split {cards : List PokerCard} (p : PokerCard → Bool)
    (hsorted : cards.Pairwise (· ≤ ·))
    (hdown : ∀ card card', p card' = true → card ≤ card' → p card = true) :
    cards = cards.filter p ++ cards.filter fun card => !p card := by
  refine (List.filter_append_perm p cards).symm.eq_of_pairwise' hsorted ?_
  refine List.pairwise_append.mpr
    ⟨hsorted.filter _, hsorted.filter _, fun card hcard card' hcard' => ?_⟩
  rcases Std.Total.total (r := fun a b : PokerCard => a ≤ b) card card' with
    hle | hle
  · exact hle
  · have hp := hdown card' card (List.of_mem_filter hcard) hle
    have hn := List.of_mem_filter hcard'
    simp [hp] at hn

private def KindBelow (card card' : PokerCard) : Prop :=
  card.point = card'.point ∧ card.color < card'.color

private instance : Trans KindBelow KindBelow KindBelow :=
  ⟨fun h h' => ⟨h.1.trans h'.1, Nat.lt_trans h.2 h'.2⟩⟩

private theorem chain_below {jokerPoint : Nat} {cards : List PokerCard}
    (hsorted : cards.Pairwise (· ≤ ·))
    (hnon : ∀ card ∈ cards, ¬ isJoker jokerPoint card)
    (hchain : cards.IsChain (KindStep jokerPoint)) :
    cards.IsChain KindBelow := by
  induction hchain with
  | nil => exact .nil
  | singleton card => exact .singleton card
  | cons_cons hstep _ ih =>
      refine .cons_cons ?_
        (ih hsorted.of_cons (List.forall_mem_cons.mp hnon).2)
      have hle := le_iff.mp
        (List.rel_of_pairwise_cons hsorted List.mem_cons_self)
      rcases hstep with hjoker | hjoker | ⟨hpoint, hcolor⟩
      · exact absurd hjoker (hnon _ (by simp))
      · exact absurd hjoker (hnon _ (by simp))
      · exact ⟨hpoint.symm, by omega⟩

private theorem chain_kind_iff {jokerPoint : Nat} {cards : List PokerCard}
    (hsorted : cards.Pairwise (· ≤ ·))
    (hnon : ∀ card ∈ cards, ¬ isJoker jokerPoint card) :
    cards.IsChain (KindStep jokerPoint) ↔ Kind cards := by
  constructor
  · intro hchain
    exact (chain_below hsorted hnon hchain).pairwise.imp fun h =>
      ⟨h.1, Nat.ne_of_lt h.2⟩
  · intro hkind
    exact hkind.isChain.imp fun card card' h =>
      Or.inr (Or.inr ⟨h.1.symm, h.2.symm⟩)

private theorem chain_jokers {jokerPoint : Nat} {xs jokers ys : List PokerCard}
    (hjokers : ∀ card ∈ jokers, isJoker jokerPoint card = true)
    (hne : jokers ≠ []) :
    (xs ++ jokers ++ ys).IsChain (KindStep jokerPoint) ↔
      xs.IsChain (KindStep jokerPoint) ∧
        ys.IsChain (KindStep jokerPoint) := by
  obtain ⟨joker, rest, rfl⟩ := List.exists_cons_of_ne_nil hne
  have hinner : (joker :: rest).IsChain (KindStep jokerPoint) :=
    (List.pairwise_of_forall_mem_list fun card hcard _ _ =>
      Or.inl (hjokers card hcard)).isChain
  rw [List.isChain_append, List.isChain_append]
  constructor
  · rintro ⟨⟨hxs, -, -⟩, hys, -⟩
    exact ⟨hxs, hys⟩
  · rintro ⟨hxs, hys⟩
    refine ⟨⟨hxs, hinner, fun card _ next hnext => ?_⟩, hys,
      fun card hcard next _ => ?_⟩
    · exact Or.inr (Or.inl (hjokers next (List.mem_of_mem_head? hnext)))
    · refine Or.inl ?_
      rw [List.getLast?_append_of_ne_nil xs hne] at hcard
      exact hjokers card (List.mem_of_getLast? hcard)

def lowCards (jokerPoint : Nat) (cards : List PokerCard) : List PokerCard :=
  (nonJokers jokerPoint cards).filter fun card => card.point < jokerPoint

def highCards (jokerPoint : Nat) (cards : List PokerCard) : List PokerCard :=
  (nonJokers jokerPoint cards).filter fun card => jokerPoint < card.point

/-- A wild card keeps two kinds apart in a group of three or four. -/
structure KindsApart (jokerPoint : Nat) (cards : List PokerCard) : Prop where
  three : 3 ≤ cards.length
  four : cards.length ≤ 4
  wild : ∃ card ∈ cards, card.point = jokerPoint
  low_ne : lowCards jokerPoint cards ≠ []
  high_ne : highCards jokerPoint cards ≠ []
  low : Kind (lowCards jokerPoint cards)
  high : Kind (highCards jokerPoint cards)

private theorem nonJokers_eq_low_high {jokerPoint : Nat}
    {cards : List PokerCard} (hsorted : cards.Pairwise (· ≤ ·)) :
    nonJokers jokerPoint cards =
      lowCards jokerPoint cards ++ highCards jokerPoint cards := by
  have hsplit := @sorted_split (nonJokers jokerPoint cards)
    (fun card => decide (card.point < jokerPoint)) (hsorted.filter _)
    (fun card card' hlt hle => by
      have := point_le_of_le hle
      simp only [decide_eq_true_eq] at hlt ⊢
      omega)
  refine hsplit.trans (congrArg _ (List.filter_congr fun card hcard => ?_))
  have hnon := List.of_mem_filter hcard
  simp only [isJoker, Bool.not_eq_true', Bool.or_eq_false_iff,
    beq_eq_false_iff_ne] at hnon
  rw [← decide_not, decide_eq_decide]
  omega

private theorem sorted_blocks {jokerPoint : Nat} {cards : List PokerCard}
    (hjp : jokerPoint ≤ A) (hsorted : cards.Pairwise (· ≤ ·)) :
    cards = lowCards jokerPoint cards ++
      (cards.filter fun card => card.point = jokerPoint) ++
      highCards jokerPoint cards ++
      (cards.filter fun card => JOKER1 ≤ card.point) := by
  have hdown : ∀ bound : Nat, ∀ card card' : PokerCard,
      decide (card'.point < bound) = true → card ≤ card' →
      decide (card.point < bound) = true := by
    intro bound card card' hlt hle
    have := point_le_of_le hle
    simp only [decide_eq_true_eq] at hlt ⊢
    omega
  have hprinted := sorted_split _ hsorted (hdown JOKER1)
  have hhigh := sorted_split _ (hsorted.filter fun card =>
    decide (card.point < JOKER1)) (hdown (jokerPoint + 1))
  have hlow := sorted_split _ ((hsorted.filter fun card =>
    decide (card.point < JOKER1)).filter fun card =>
      decide (card.point < jokerPoint + 1)) (hdown jokerPoint)
  rw [hlow] at hhigh
  rw [hhigh] at hprinted
  refine hprinted.trans ?_
  simp only [A] at hjp
  simp only [lowCards, highCards, nonJokers, List.filter_filter]
  congr 1
  · congr 1
    · congr 1
      · refine List.filter_congr fun card _ => ?_
        rw [Bool.eq_iff_iff]
        simp [isJoker]
        omega
      · refine List.filter_congr fun card _ => ?_
        rw [Bool.eq_iff_iff]
        simp
        omega
    · refine List.filter_congr fun card _ => ?_
      rw [Bool.eq_iff_iff]
      simp [isJoker]
      omega
  · refine List.filter_congr fun card _ => ?_
    rw [Bool.eq_iff_iff]
    simp

private theorem chain_iff_kinds {jokerPoint : Nat} {cards : List PokerCard}
    (hjp : jokerPoint ≤ A) (hsorted : cards.Pairwise (· ≤ ·)) :
    cards.IsChain (KindStep jokerPoint) ↔
      if ∃ card ∈ cards, card.point = jokerPoint then
        Kind (lowCards jokerPoint cards) ∧ Kind (highCards jokerPoint cards)
      else Kind (nonJokers jokerPoint cards) := by
  have hnon : ∀ card ∈ nonJokers jokerPoint cards,
      ¬ isJoker jokerPoint card := fun card hcard => by
    simpa using List.of_mem_filter hcard
  have hkinds : ∀ block : List PokerCard,
      block.Sublist (nonJokers jokerPoint cards) →
      (block.IsChain (KindStep jokerPoint) ↔ Kind block) :=
    fun block hblock => chain_kind_iff
      ((hsorted.filter _).sublist hblock)
      fun card hcard => hnon card (hblock.subset hcard)
  have hprinted : ∀ card ∈ cards.filter fun card => JOKER1 ≤ card.point,
      isJoker jokerPoint card = true := fun card hcard => by
    have := List.of_mem_filter hcard
    simp only [isJoker, this, Bool.or_true]
  have hwild : ∀ card ∈ cards.filter fun card => card.point = jokerPoint,
      isJoker jokerPoint card = true := fun card hcard => by
    have := List.of_mem_filter hcard
    simp only [decide_eq_true_eq] at this
    simp only [isJoker, this, beq_self_eq_true, Bool.true_or]
  -- the printed jokers at the end hide nothing
  have hend : cards.IsChain (KindStep jokerPoint) ↔
      (lowCards jokerPoint cards ++
        (cards.filter fun card => card.point = jokerPoint) ++
        highCards jokerPoint cards).IsChain (KindStep jokerPoint) := by
    rw [congrArg (List.IsChain (KindStep jokerPoint))
      (sorted_blocks hjp hsorted)]
    by_cases hnone : (cards.filter fun card => JOKER1 ≤ card.point) = []
    · rw [hnone, List.append_nil]
    · have hlast := @chain_jokers jokerPoint
        (lowCards jokerPoint cards ++
          (cards.filter fun card => card.point = jokerPoint) ++
          highCards jokerPoint cards) _ [] hprinted hnone
      rw [List.append_nil] at hlast
      rw [hlast, and_iff_left .nil]
  rw [hend]
  by_cases hsome : ∃ card ∈ cards, card.point = jokerPoint
  · obtain ⟨card, hcard, hpoint⟩ := hsome
    have hne : (cards.filter fun card => card.point = jokerPoint) ≠ [] :=
      List.ne_nil_of_mem (List.mem_filter.mpr
        ⟨hcard, decide_eq_true hpoint⟩)
    rw [if_pos ⟨card, hcard, hpoint⟩, chain_jokers hwild hne]
    exact and_congr (hkinds _ List.filter_sublist)
      (hkinds _ List.filter_sublist)
  · have hnil : (cards.filter fun card => card.point = jokerPoint) = [] :=
      List.filter_eq_nil_iff.mpr fun card hcard => by
        simpa using fun hpoint => hsome ⟨card, hcard, hpoint⟩
    rw [if_neg hsome, hnil, List.append_nil, ← nonJokers_eq_low_high hsorted,
      hkinds _ (List.Sublist.refl _)]

/--
On sorted cards the test is exact except where a wild card lies between a kind
below it and a kind above it.
-/
theorem isCardsThreeOfKind_exact_iff {jokerPoint : Nat}
    {cards : List PokerCard} (hjp : jokerPoint ≤ A)
    (hsorted : cards.Pairwise (· ≤ ·)) :
    (isCardsThreeOfKind cards jokerPoint = true ↔
        LegalSet jokerPoint cards) ↔
      ¬ KindsApart jokerPoint cards := by
  have hparts := @nonJokers_eq_low_high jokerPoint cards hsorted
  rw [isCardsThreeOfKind_iff, legalSet_iff, chain_iff_kinds hjp hsorted]
  constructor
  · rintro hexact ⟨hthree, hfour, hwild, hlow, hhigh, hkindlow, hkindhigh⟩
    rw [if_pos hwild] at hexact
    have htwo : 2 ≤ (nonJokers jokerPoint cards).length := by
      have := List.length_pos_iff.mpr hlow
      have := List.length_pos_iff.mpr hhigh
      rw [hparts, List.length_append]
      omega
    obtain ⟨-, -, hkind, -⟩ :=
      hexact.mp ⟨hthree, hfour, ⟨hkindlow, hkindhigh⟩, htwo⟩
    rw [hparts] at hkind
    obtain ⟨low, hmemlow⟩ := List.exists_mem_of_ne_nil _ hlow
    obtain ⟨high, hmemhigh⟩ := List.exists_mem_of_ne_nil _ hhigh
    have hsame :=
      ((List.pairwise_append.mp hkind).2.2 low hmemlow high hmemhigh).1
    have hlt := List.of_mem_filter hmemlow
    have hgt := List.of_mem_filter hmemhigh
    simp only [decide_eq_true_eq] at hlt hgt
    omega
  · intro hapart
    by_cases hwild : ∃ card ∈ cards, card.point = jokerPoint
    · rw [if_pos hwild]
      constructor
      · rintro ⟨hthree, hfour, ⟨hkindlow, hkindhigh⟩, htwo⟩
        refine ⟨hthree, hfour, ?_, htwo⟩
        by_cases hlow : lowCards jokerPoint cards = []
        · rwa [hparts, hlow]
        · by_cases hhigh : highCards jokerPoint cards = []
          · rwa [hparts, hhigh, List.append_nil]
          · exact absurd ⟨hthree, hfour, hwild, hlow, hhigh, hkindlow,
              hkindhigh⟩ hapart
      · rintro ⟨hthree, hfour, hkind, htwo⟩
        exact ⟨hthree, hfour, ⟨hkind.sublist List.filter_sublist,
          hkind.sublist List.filter_sublist⟩, htwo⟩
    · rw [if_neg hwild]

def fiveAndQueen : List PokerCard := [⟨1, 5⟩, ⟨2, 9⟩, ⟨1, 12⟩]

theorem fiveAndQueen_accepted :
    ¬ ∀ (cards : List PokerCard) (jokerPoint : Nat), 2 ≤ jokerPoint →
      jokerPoint ≤ 14 → (∀ card ∈ cards, Deal card) →
      cards.Pairwise (· ≤ ·) →
      (isCardsThreeOfKind cards jokerPoint = true ↔
        LegalSet jokerPoint cards) := by
  intro hexact
  have hlegal := (hexact fiveAndQueen 9 (by decide) (by decide) (by decide)
    (by decide)).mp (by decide)
  exact absurd hlegal.kind (by decide)

theorem isCardsThreeOfKind_exact_sample :
    (isCardsThreeOfKind [⟨1, 5⟩, ⟨2, 5⟩, ⟨2, 9⟩] 9 = true ↔
        LegalSet 9 [⟨1, 5⟩, ⟨2, 5⟩, ⟨2, 9⟩]) ↔
      ¬ KindsApart 9 [⟨1, 5⟩, ⟨2, 5⟩, ⟨2, 9⟩] :=
  isCardsThreeOfKind_exact_iff (by decide) (by decide)

end StarsGaming.Cards
