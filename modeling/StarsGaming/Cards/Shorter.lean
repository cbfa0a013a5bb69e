import StarsGaming.Cards.Sets

/-!
# Shorter groups come first

The searches go through selections of growing size.  Every group of four or
more cards that they emit therefore comes after a group that lacks one of its
cards; among the pure straights it comes after a pure one.
-/

namespace StarsGaming.Cards

open PokerCard
open StarsGaming.Foundation

def Shortens (group other : CardGroup) : Prop :=
  ∃ card, (card :: group.cards).Perm other.cards

def Long (group : CardGroup) : Prop := 4 ≤ group.cards.length

theorem Shortens.subperm {group other : CardGroup}
    (h : Shortens group other) : group.cards.Subperm other.cards := by
  obtain ⟨card, hperm⟩ := h
  exact (List.sublist_cons_self card _).subperm.trans hperm.subperm

/-! ## The shape of a pure straight -/

/--
Consecutive points, and after a run from the two possibly an Ace; the loop of
`is_cards_pure_straight` does not look at what comes behind such an Ace.
-/
structure PureShape (cards run tail : List PokerCard) : Prop where
  eq : cards = run ++ tail
  points : ∃ start, run.map point = List.range' start run.length ∧
    (tail ≠ [] → start = P2)
  ne_nil : run ≠ []
  aces : ∀ card ∈ tail, A ≤ card.point

private theorem pureStraightFrom_shape {first last : PokerCard}
    {rest : List PokerCard} (hsorted : (last :: rest).Pairwise (· ≤ ·))
    (h : pureStraightFrom first last rest = true) :
    ∃ run tail, rest = run ++ tail ∧
      run.map point = List.range' (last.point + 1) run.length ∧
      (tail ≠ [] → first.point = P2) ∧ ∀ card ∈ tail, A ≤ card.point := by
  induction rest generalizing last with
  | nil => exact ⟨[], [], rfl, rfl, by simp, by simp⟩
  | cons card rest ih =>
      rw [pureStraightFrom] at h
      split at h
      · simp at h
      · split at h
        · split at h
          · simp at h
          · rename_i hace
            rw [ne_eq, not_not] at hace
            refine ⟨[], card :: rest, rfl, rfl, fun _ => by simpa using h, ?_⟩
            intro card' hcard'
            rcases List.mem_cons.mp hcard' with rfl | hcard'
            · exact hace.ge
            · have := point_le_of_le
                (List.rel_of_pairwise_cons hsorted.of_cons hcard')
              omega
        · rename_i hnext
          rw [ne_eq, not_not] at hnext
          obtain ⟨run, tail, rfl, hrun, hfirst, haces⟩ :=
            ih hsorted.of_cons h
          refine ⟨card :: run, tail, rfl, ?_, hfirst, haces⟩
          rw [List.map_cons, List.length_cons, List.range'_succ, hrun, hnext]

theorem exists_pureShape {cards : List PokerCard}
    (hsorted : cards.Pairwise (· ≤ ·))
    (h : isCardsPureStraight cards = true) :
    ∃ run tail, PureShape cards run tail := by
  cases cards with
  | nil => simp [isCardsPureStraight] at h
  | cons first rest =>
      rw [isCardsPureStraight] at h
      split at h
      · simp at h
      · obtain ⟨run, tail, rfl, hrun, hfirst, haces⟩ :=
          pureStraightFrom_shape hsorted h
        refine ⟨first :: run, tail, rfl, ⟨first.point, ?_, hfirst⟩, by simp,
          haces⟩
        rw [List.map_cons, List.length_cons, List.range'_succ, hrun]

theorem isCardsPureStraight_dropLast {cards : List PokerCard}
    (h : isCardsPureStraight cards = true) (hlen : 4 ≤ cards.length) :
    isCardsPureStraight cards.dropLast = true := by
  cases cards with
  | nil => simp at hlen
  | cons first rest =>
      rw [isCardsPureStraight, if_neg (by omega)] at h
      obtain ⟨init, last, rfl⟩ :=
        (List.eq_nil_or_concat' rest).resolve_left (by
          rintro rfl
          simp at hlen)
      rw [← List.cons_append, List.dropLast_concat, isCardsPureStraight,
        if_neg]
      · exact pureStraightFrom_append h
      · simp only [List.length_cons, List.length_append, List.length_nil]
          at hlen ⊢
        omega

section Shape

variable {jokerPoint : Nat} {cards run tail : List PokerCard}

theorem PureShape.mem_run (h : PureShape cards run tail) :
    ∃ start, (tail ≠ [] → start = P2) ∧
      (∀ card ∈ run, start ≤ card.point ∧
        card.point < start + run.length) ∧
      ∀ k < run.length, ∃ card ∈ run, card.point = start + k := by
  obtain ⟨start, hpoints, hstart⟩ := h.points
  have hiff : ∀ n, n ∈ run.map point ↔ start ≤ n ∧ n < start + run.length := by
    intro n
    rw [hpoints, List.mem_range'_1]
  refine ⟨start, hstart, fun card hcard => ?_, fun k hk => ?_⟩
  · exact (hiff card.point).mp (List.mem_map_of_mem hcard)
  · exact List.mem_map.mp ((hiff (start + k)).mpr ⟨by omega, by omega⟩)

theorem PureShape.mem (h : PureShape cards run tail) {card : PokerCard}
    (hcard : card ∈ nonJokers jokerPoint cards) :
    card ∈ run ∨ (card ∈ tail ∧ A ≤ card.point) := by
  have hmem := nonJokers_subset hcard
  rw [h.eq, List.mem_append] at hmem
  exact hmem.imp_right fun htail => ⟨htail, h.aces card htail⟩

theorem PureShape.length (h : PureShape cards run tail) :
    cards.length = run.length + tail.length := by
  rw [h.eq, List.length_append]

theorem PureShape.fits (h : PureShape cards run tail)
    (hflush : Flush (nonJokers jokerPoint cards))
    (hpoints : ∀ card ∈ nonJokers jokerPoint cards, card.point ≤ A) :
    Fits (nonJokers jokerPoint cards) (jokerCount jokerPoint cards) := by
  obtain ⟨start, hstart, hrun, -⟩ := h.mem_run
  have htotal := length_nonJokers_add jokerPoint cards
  have hlen := h.length
  have hmem := fun card => @PureShape.mem jokerPoint cards run tail h card
  generalize nonJokers jokerPoint cards = hand at *
  rcases List.eq_nil_or_concat' hand with rfl | ⟨init, last, rfl⟩
  · exact Or.inl rfl
  · cases init with
    | nil => exact Or.inr (Or.inl ⟨last, [], rfl, by simp [gapsFrom]⟩)
    | cons first init =>
        have hfirst := hmem first (by simp)
        have hlt := ((List.pairwise_append.mp hflush).2.2 first (by simp) last
          (by simp)).2
        have hlast := hpoints last (by simp)
        simp only [List.length_append, List.length_cons, List.length_nil]
          at htotal
        rcases hmem last (by simp) with hin | ⟨hin, hace⟩
        · -- all cards lie in the run
          have hfirst' : first ∈ run := hfirst.resolve_right fun hin' => by
            omega
          have h₁ := hrun first hfirst'
          have h₂ := hrun last hin
          refine Or.inr (Or.inl ⟨first, init ++ [last], rfl, ?_⟩)
          rw [gapsFrom_eq]
          simp only [List.length_append, List.length_cons, List.length_nil,
            ← List.cons_append, List.getLast_concat]
          omega
        · -- the Ace behind the run is played low
          have htwo := hstart (List.ne_nil_of_mem hin)
          have hsmall : ∀ card ∈ first :: init, card ∈ run := by
            intro card hcard
            refine (hmem card (List.mem_append_left _ hcard)).resolve_right
              fun hin' => ?_
            have := ((List.pairwise_append.mp hflush).2.2 card hcard last
              (by simp)).2
            omega
          have hpos := List.length_pos_of_mem hin
          have h₁ := hrun _ (hsmall _
            (List.getLast_mem (List.cons_ne_nil first init)))
          refine Or.inr (Or.inr ⟨first, init, last, rfl, by omega, ?_⟩)
          rw [gapsFrom_eq]
          simp only [P2] at htwo
          omega

theorem PureShape.getLast_point (h : PureShape cards run []) :
    ∃ start last, cards.getLast? = some last ∧
      last.point + 1 = start + cards.length ∧
      ∀ card ∈ cards, start ≤ card.point ∧
        card.point < start + cards.length := by
  obtain ⟨start, hpoints, -⟩ := h.points
  obtain ⟨init, last, rfl⟩ :=
    (List.eq_nil_or_concat' run).resolve_left h.ne_nil
  have heq := h.eq
  rw [List.append_nil] at heq
  subst heq
  refine ⟨start, last, List.getLast?_concat, ?_, fun card hcard => ?_⟩
  · rw [List.map_append, List.length_append, List.length_singleton,
      List.range'_concat, Nat.one_mul] at hpoints
    have hlast := (List.append_inj' hpoints rfl).2
    simp only [List.map_cons, List.map_nil, List.cons.injEq, and_true]
      at hlast
    rw [List.length_append, List.length_singleton]
    omega
  · have hmem := List.mem_map_of_mem (f := point) hcard
    rwa [hpoints, List.mem_range'_1] at hmem

private theorem PureShape.first_le_three (h : PureShape cards run tail)
    (htail : tail ≠ []) {first : PokerCard}
    (hfirst : first ∈ nonJokers jokerPoint cards)
    (hmin : ∀ card ∈ nonJokers jokerPoint cards, first.point ≤ card.point)
    (hlow : first.point < A) : first.point ≤ 3 := by
  obtain ⟨start, hstart, hrun, hpoint⟩ := h.mem_run
  have htwo : start = 2 := hstart htail
  have hin : first ∈ run := (h.mem hfirst).resolve_right fun hin => by omega
  have hmem : ∀ card ∈ run, isJoker jokerPoint card = false →
      first.point ≤ card.point := fun card hcard hnon =>
    hmin card (List.mem_filter.mpr
      ⟨by rw [h.eq]; exact List.mem_append_left _ hcard, by simp [hnon]⟩)
  obtain ⟨two, htwo', hpoint₂⟩ :=
    hpoint 0 (List.length_pos_iff.mpr h.ne_nil)
  by_cases hjoker : isJoker jokerPoint two
  · have hjp : jokerPoint = 2 := by
      simp only [isJoker, JOKER1, Bool.or_eq_true, beq_iff_eq,
        decide_eq_true_eq] at hjoker
      omega
    by_cases hlen : 1 < run.length
    · obtain ⟨three, hthree, hpoint₃⟩ := hpoint 1 hlen
      have := hmem three hthree (by
        simp only [isJoker, JOKER1, Bool.or_eq_false_iff,
          beq_eq_false_iff_ne, decide_eq_false_iff_not]
        omega)
      omega
    · have := hrun first hin
      omega
  · have := hmem two htwo' (by simpa using hjoker)
    omega

/--
If the last card is a joker and the jokers only just fill the gaps below a
high Ace, the group is too large to leave room for a second straight.
-/
theorem PureShape.large_of_tight (h : PureShape cards run tail)
    (hflush : Flush (nonJokers jokerPoint cards))
    (hpoints : ∀ card ∈ nonJokers jokerPoint cards, card.point ≤ A)
    {first : PokerCard} {rest : List PokerCard}
    (hhand : nonJokers jokerPoint cards = first :: rest)
    (hlast : ∀ last, cards.getLast? = some last → isJoker jokerPoint last)
    (htight : gapsFrom first rest = jokerCount jokerPoint cards)
    (hlong : 4 ≤ cards.length) : 12 ≤ cards.length := by
  have htotal := length_nonJokers_add jokerPoint cards
  have hlen := h.length
  have hmin : ∀ card ∈ nonJokers jokerPoint cards,
      first.point ≤ card.point := by
    intro card hcard
    rw [hhand] at hcard hflush
    rcases List.mem_cons.mp hcard with rfl | hcard
    · exact Nat.le_refl _
    · exact Nat.le_of_lt (List.rel_of_pairwise_cons hflush hcard).2
  have hfirst : first ∈ nonJokers jokerPoint cards := by simp [hhand]
  obtain ⟨top, htop, hspan⟩ : ∃ top ∈ nonJokers jokerPoint cards,
      top.point + 1 = first.point + cards.length := by
    have hne : first :: rest ≠ [] := by simp
    refine ⟨(first :: rest).getLast hne,
      by rw [hhand]; exact List.getLast_mem hne, ?_⟩
    rw [gapsFrom_eq] at htight
    rw [hhand, List.length_cons] at htotal
    omega
  have hle := hpoints top htop
  by_cases htail : tail = []
  · subst htail
    obtain ⟨start, last, hgetLast, hend, hbelow⟩ := h.getLast_point
    have hstart := hbelow first (nonJokers_subset hfirst)
    have htop' := hbelow top (nonJokers_subset htop)
    have hsame : top.point = last.point := by omega
    have hjoker := hlast last hgetLast
    rw [← isJoker_congr hsame] at hjoker
    have hnon := List.of_mem_filter htop
    simp [hjoker] at hnon
  · have hpos := List.length_pos_iff.mpr htail
    obtain ⟨start, hstart, hrun, -⟩ := h.mem_run
    have htwo := hstart htail
    rcases h.mem htop with hin | ⟨-, hace⟩
    · have h₁ := hrun top hin
      have h₂ : start ≤ first.point := by
        rcases h.mem hfirst with hin' | ⟨-, hace⟩
        · exact (hrun first hin').1
        · simp only [P2, A] at *
          omega
      omega
    · have := h.first_le_three htail hfirst hmin (by omega)
      simp only [A] at *
      omega

end Shape

/-! ## The order within one selection -/

section Selection

variable {self : Combination} {cards : List PokerCard}
  {pre post : List CardGroup} {group : CardGroup}

theorem combineWithJokerCard_before (hcaches : self.Caches cards)
    {first : PokerCard} {rest : List PokerCard}
    (hfill : 0 ≤ fillNumFrom first 0 rest)
    (h : combineWithJokerCard self (first :: rest) =
      some (pre ++ group :: post)) {shorter : List PokerCard}
    (hmem : shorter ∈ self.jokerCombines)
    (hfit : fillNumFrom first 0 rest ≤ shorter.length)
    (hthree : 3 ≤ (first :: rest).length + shorter.length)
    (hlt : (first :: rest).length + shorter.length < group.cards.length) :
    (⟨GROUP_STAIGHT, sortCards (first :: rest ++ shorter)⟩ : CardGroup) ∈
      pre := by
  obtain ⟨need, hpos, hneed, heq⟩ := toStraightFillJokerNum_eq self hfill
  have hshort := (hneed shorter.length).mpr ⟨List.length_pos_iff.mpr
    (hcaches.mem_combines.mp hmem).2, hfit, hthree⟩
  have hle : shorter.length ≤ self.jokerCards.length := by
    rw [hcaches.jokers]
    exact (hcaches.mem_combines.mp hmem).1.length_le
  have henough : need ≤ self.jokerCards.length := by omega
  have hzero : ¬ need = 0 := by omega
  rw [combineWithJokerCard, heq] at h
  simp only [henough, if_true, Option.bind_eq_bind, Option.bind_some, hzero,
    if_false, Option.some.injEq] at h
  obtain ⟨sizes₁, k, sizes₂, pre', post', hsizes, hk, -, hbefore⟩ :=
    flatMap_split h
  have hgroup : group ∈ pre' ++ group :: post' := by simp
  rw [← hk] at hgroup
  obtain ⟨combine, hcombine, rfl⟩ := List.mem_map.mp hgroup
  have hsize := of_decide_eq_true (List.mem_filter.mp hcombine).2
  have hsorted := List.pairwise_lt_range
    (n := ((self.jokerCards.length : Int) - need + 1).toNat)
  have hk' : (shorter.length - need).toNat ∈ List.range
      ((self.jokerCards.length : Int) - need + 1).toNat := by
    rw [List.mem_range]
    omega
  rw [hsizes] at hsorted hk'
  simp only [sortCards_length, List.length_append] at hlt
  refine hbefore _ (mem_before_of_lt hsorted hk' (by omega)) ?_
  exact List.mem_map.mpr ⟨shorter, List.mem_filter.mpr
    ⟨hmem, decide_eq_true (by omega)⟩, rfl⟩

def HighFits (hand : List PokerCard) (jokers : Nat) : Prop :=
  ∃ first rest, hand = first :: rest ∧ gapsFrom first rest ≤ jokers

theorem straightsOfSelection_before (hcaches : self.Caches cards)
    {hand shorter : List PokerCard} (hne : hand ≠ []) (hflush : Flush hand)
    (hpoints : ∀ card ∈ hand, 2 ≤ card.point ∧ card.point ≤ A)
    (h : straightsOfSelection self hand = some (pre ++ group :: post))
    (hfilled : FilledBy self hand shorter)
    (hlt : hand.length + shorter.length < group.cards.length)
    (hhigh : shorter = [] ∨ HighFits hand shorter.length ∨
      ¬ HighFits hand (group.cards.length - hand.length)) :
    (⟨GROUP_STAIGHT, sortCards (hand ++ shorter)⟩ : CardGroup) ∈ pre := by
  obtain ⟨first, rest, rfl⟩ := List.exists_cons_of_ne_nil hne
  obtain ⟨high, low, hblocks⟩ := exists_selectionBlocks hcaches hflush hpoints
  obtain ⟨hfill, hnonneg⟩ := hblocks.fillHigh
  obtain ⟨hcombine, hfits, hthree⟩ := hfilled
  have hsplit := Option.some_inj.mp (hblocks.eq.symm.trans h)
  rcases split_append hsplit with ⟨mid, hpure⟩ | ⟨mid, hrest, rfl⟩
  · -- the selection itself has no joker at all
    have hgroup : group ∈ pre ++ group :: mid := by simp
    rw [← hpure] at hgroup
    split at hgroup
    · obtain rfl := List.mem_singleton.mp hgroup
      simp only at hlt
      omega
    · simp at hgroup
  · rcases hcombine with rfl | hmem
    · exact List.mem_append_left _ ((mem_pureGroup hflush hpoints _).mpr
        ⟨hfits, hthree, rfl⟩)
    · refine List.mem_append_right _ ?_
      obtain ⟨high', hhigh', hmemHigh⟩ :=
        @combineWithJokerCard_spec self cards hcaches first rest (by omega)
      obtain rfl := Option.some_inj.mp (hblocks.high.symm.trans hhigh')
      simp only [hfill] at hmemHigh
      rcases split_append hrest with ⟨mid', rfl⟩ | ⟨mid', hlow, rfl⟩
      · have hfit : gapsFrom first rest ≤ shorter.length := by
          have hnil := (hcaches.mem_combines.mp hmem).2
          rcases hhigh with hnil' | ⟨first', rest', heq, hgap⟩ | hnot
          · exact absurd hnil' hnil
          · obtain ⟨rfl, rfl⟩ := List.cons.inj heq
            exact hgap
          · -- a group of this block has enough jokers for a high Ace
            obtain ⟨combine, -, hgap, -, rfl⟩ :=
              (hmemHigh group).mp (by simp)
            refine absurd ⟨first, rest, rfl, ?_⟩ hnot
            simp only [sortCards_length, List.length_append] at hgap ⊢
            omega
        exact combineWithJokerCard_before hcaches (by omega) hblocks.high
          hmem (by omega) hthree hlt
      · rcases fits_cons_iff.mp hfits with hgap | ⟨init, ace, rfl, hace, hgap⟩
        · exact List.mem_append_left _ ((hmemHigh _).mpr
            ⟨shorter, hmem, hgap, hthree, rfl⟩)
        · refine List.mem_append_right _ ?_
          rcases hblocks.low with ⟨-, hno⟩ |
            ⟨init', ace', heq, hace', hfill', hpos, hlowEq⟩
          · exact absurd ⟨init, ace, rfl, hace⟩ hno
          · obtain ⟨rfl, haces⟩ := List.append_inj' heq rfl
            obtain rfl := List.singleton_inj.mp haces
            rw [hlow] at hlowEq
            rw [← sortCards_ace_first]
            simp only [List.length_cons, List.length_append,
              List.length_nil] at hthree hlt
            refine combineWithJokerCard_before hcaches hpos hlowEq hmem
              (by omega) ?_ ?_
            · simp only [List.length_cons]
              omega
            · simp only [List.length_cons]
              omega

end Selection

/-! ## The order of the straights -/

def EarlierFilling (self : Combination)
    (hand combine hand' combine' : List PokerCard) : Prop :=
  FilledBy self hand' combine' ∧
    ((hand' ≠ [] ∧ hand'.Sublist hand ∧ hand'.length < hand.length) ∨
      (hand' = hand ∧ combine'.length < combine.length ∧
        (combine' = [] ∨ HighFits hand combine'.length ∨
          ¬ HighFits hand combine.length)))

/-- Every bad filling of cards in `pool` has a related earlier one. -/
def FillsEarlier (self : Combination) (pool : List PokerCard)
    (r : CardGroup → CardGroup → Prop) (bad : CardGroup → Prop) : Prop :=
  ∀ hand combine, hand ≠ [] → Flush hand → hand ⊆ pool →
    FilledBy self hand combine →
    bad ⟨GROUP_STAIGHT, sortCards (hand ++ combine)⟩ →
    ∃ hand' combine', EarlierFilling self hand combine hand' combine' ∧
      r ⟨GROUP_STAIGHT, sortCards (hand' ++ combine')⟩
        ⟨GROUP_STAIGHT, sortCards (hand ++ combine)⟩

section Order

variable {self : Combination} {cards pool : List PokerCard}
  {r : CardGroup → CardGroup → Prop} {bad : CardGroup → Prop}

section Suit

variable {pop : List PokerCard}

/-- A group with `n` cards of a suit, filled up with jokers. -/
def SelectedFrom (self : Combination) (pop : List PokerCard) (n : Nat)
    (group : CardGroup) : Prop :=
  ∃ hand, hand.Sublist pop ∧ hand.length = n ∧ ∃ combine,
    FilledBy self hand combine ∧
    group = ⟨GROUP_STAIGHT, sortCards (hand ++ combine)⟩

variable (hcaches : self.Caches cards) (hpop : Flush pop)
  (hpool : pop ⊆ pool)
  (hpoints : ∀ card ∈ pop, 2 ≤ card.point ∧ card.point ≤ A)
  (hearlier : FillsEarlier self pool r bad)

include hpop hpool hpoints hearlier

private theorem repeated_preceded {rep : List PokerCard} (hrep : Flush rep)
    (hsub : rep ⊆ pop) {i : Nat} {hand : List PokerCard}
    (hhand : hand ∈ (caculateAllChoices rep i).filter isCardsPureStraight)
    (hbad : bad ⟨GROUP_STAIGHT, hand⟩) :
    ∃ other m, 1 ≤ m ∧ m ≤ pop.length ∧ SelectedFrom self pop m other ∧
      r other ⟨GROUP_STAIGHT, hand⟩ := by
  obtain ⟨hchoice, hpure⟩ := List.mem_filter.mp hhand
  have hsublist := (mem_caculateAllChoices.mp hchoice).1
  have hflush : Flush hand := hrep.sublist hsublist
  have hsort : sortCards (hand ++ []) = hand :=
    sortCards_eq_of_perm (by simp) hflush.sorted
  have hin : hand ⊆ pop := List.Subset.trans hsublist.subset hsub
  obtain ⟨hthree, hfits⟩ := (isCardsPureStraight_iff_fits hflush
    fun card hcard => hpoints card (hin hcard)).mp hpure
  obtain ⟨hand', combine', ⟨hfilled', hcases⟩, hr⟩ :=
    hearlier hand [] (List.length_pos_iff.mp (by omega)) hflush
      (List.Subset.trans hin hpool)
      ⟨Or.inl rfl, hfits, by simpa using hthree⟩ (by rwa [hsort])
  rw [hsort] at hr
  rcases hcases with ⟨hne', hsub', hlt⟩ | ⟨-, hlt, -⟩
  · have hflush' : Flush hand' := hflush.sublist hsub'
    have hpop' : hand'.Sublist pop :=
      List.sublist_of_subperm_of_pairwise
        (hflush'.nodup.subperm (List.Subset.trans hsub'.subset hin))
        hflush'.sorted hpop.sorted
    exact ⟨_, hand'.length, List.length_pos_iff.mpr hne', hpop'.length_le,
      ⟨hand', hpop', rfl, combine', hfilled', rfl⟩, hr⟩
  · simp at hlt

include hcaches

private theorem selectN_preceded {n : Nat} (hn : 1 ≤ n ∧ n ≤ 14)
    {out : List CardGroup}
    (hout : searchStraightFlushSelectN self pop n = some out)
    {pre post : List CardGroup} {group : CardGroup}
    (heq : out = pre ++ group :: post) (hbad : bad group) :
    ∃ other, r other group ∧
      (other ∈ pre ∨ ∃ m, 1 ≤ m ∧ m < n ∧ SelectedFrom self pop m other) := by
  rw [searchStraightFlushSelectN, if_pos hn] at hout
  split at hout
  · obtain rfl := Option.some_inj.mp hout
    simp at heq
  · obtain ⟨hands₁, hand, hands₂, outs, pre', post', hhands, hhand, houts,
      hpre, -⟩ := collect_split hout heq
    have hchoice : hand ∈ caculateAllChoices pop n := by simp [hhands]
    obtain ⟨hsublist, rfl⟩ := mem_caculateAllChoices.mp hchoice
    have hne : hand ≠ [] := List.length_pos_iff.mp (by omega)
    have hflush : Flush hand := hpop.sublist hsublist
    have hbounds := fun card hcard => hpoints card (hsublist.subset hcard)
    obtain ⟨outs', houts', hspec⟩ :=
      straightsOfSelection_spec hcaches hne hflush hbounds
    obtain rfl := Option.some_inj.mp (hhand.symm.trans houts')
    obtain ⟨combine, hfilled, rfl⟩ := (hspec group).mp (by simp [houts])
    obtain ⟨hand', combine', ⟨hfilled', hcases⟩, hr⟩ :=
      hearlier hand combine hne hflush
        (List.Subset.trans hsublist.subset hpool) hfilled hbad
    refine ⟨_, hr, ?_⟩
    rcases hcases with ⟨hne', hsub', hlt⟩ | ⟨rfl, hlt, hhigh⟩
    · have hpos := List.length_pos_iff.mpr hne'
      exact Or.inr ⟨hand'.length, hpos, hlt, hand', hsub'.trans hsublist, rfl,
        combine', hfilled', rfl⟩
    · rw [houts] at hhand
      refine Or.inl (hpre (straightsOfSelection_before hcaches hne hflush
        hbounds hhand hfilled' ?_ ?_))
      · simpa using hlt
      · simpa using hhigh

private theorem searchStraightFlushI_preceded {rep : List PokerCard}
    (hrep : Flush rep) (hsub : rep ⊆ pop)
    (hlen : pop.length + self.jokerCards.length ≤ 14)
    {groups : List CardGroup}
    (h : searchStraightFlushI self pop rep = some groups) :
    Preceded r bad groups := by
  have hselect : ∀ n ∈ List.range' 1 (pop.length + self.jokerCards.length),
      ∃ out, searchStraightFlushSelectN self pop n = some out ∧
        ∀ group, group ∈ out ↔ SelectedFrom self pop n group := by
    intro n hn
    rw [List.mem_range'_1] at hn
    exact searchStraightFlushSelectN_spec hcaches hpop hpoints (by omega)
  obtain ⟨firsts, hfirsts, hmem⟩ := collect_mem hselect
  rw [searchStraightFlushI, hfirsts] at h
  obtain rfl := Option.some_inj.mp h
  refine Preceded.append_of_forall ?_ ?_
  · intro pre group post heq hbad
    obtain ⟨sizes₁, n, sizes₂, out, pre', post', hsizes, hn, hout, hpre,
      hbefore⟩ := collect_split hfirsts heq
    have hsorted := List.pairwise_lt_range' (s := 1)
      (n := pop.length + self.jokerCards.length)
    rw [hsizes] at hsorted hselect
    have hrange : n ∈ List.range' 1 (pop.length + self.jokerCards.length) := by
      simp [hsizes]
    rw [List.mem_range'_1] at hrange
    obtain ⟨other, hr, hearly | ⟨m, hpos, hlt, hother⟩⟩ := selectN_preceded
      hcaches hpop hpool hpoints hearlier (by omega) hn hout hbad
    · exact ⟨other, hpre hearly, hr⟩
    · have hbelow : m ∈ sizes₁ := by
        refine mem_before_of_lt hsorted ?_ hlt
        rw [← hsizes, List.mem_range'_1]
        omega
      obtain ⟨out', hout', hsub'⟩ := hbefore _ hbelow
      obtain ⟨out'', hout'', hmem''⟩ := hselect m
        (List.mem_append_left _ hbelow)
      obtain rfl := Option.some_inj.mp (hout'.symm.trans hout'')
      exact ⟨other, hsub' ((hmem'' _).mpr hother), hr⟩
  · intro group hgroup hbad
    obtain ⟨i, -, hgroup⟩ := List.mem_flatMap.mp hgroup
    obtain ⟨hand, hhand, rfl⟩ := List.mem_map.mp hgroup
    obtain ⟨other, m, hpos, hle, hother, hr⟩ := repeated_preceded hpop hpool
      hpoints hearlier hrep hsub hhand hbad
    refine ⟨other, (hmem _).mpr ⟨m, ?_, hother⟩, hr⟩
    rw [List.mem_range'_1]
    omega

end Suit

theorem searchStraightFlush_preceded (hs : Searchable cards)
    (hcaches : self.Caches cards)
    (hearlier : FillsEarlier self (nonJokers self.jokerPoint cards) r bad)
    (hjokers : ∀ combine ∈ self.jokerCombines, 3 ≤ combine.length →
      bad ⟨GROUP_STAIGHT, combine⟩ →
      ∃ shorter ∈ self.jokerCombines, 3 ≤ shorter.length ∧
        shorter.length < combine.length ∧
        r ⟨GROUP_STAIGHT, shorter⟩ ⟨GROUP_STAIGHT, combine⟩)
    {groups : List CardGroup}
    (h : searchStraightFlush self cards = some groups) :
    Preceded r bad groups := by
  rw [searchStraightFlush] at h
  simp only [Option.bind_eq_bind, Option.bind_eq_some_iff,
    Option.some.injEq] at h
  obtain ⟨suits, hsuits, rfl⟩ := h
  refine Preceded.append ?_ ?_
  · intro pre group post heq hbad
    obtain ⟨colors₁, color, colors₂, out, pre', post', -, hout, heq', hpre,
      -⟩ := collect_split hsuits heq
    obtain ⟨pop, rep, hsplit, hpop, hrep, hsub, hperm, hall, hlen⟩ :=
      exists_suitSplit hs hcaches color
    simp only [hsplit] at hout
    have hpool : pop ⊆ nonJokers self.jokerPoint cards := fun card hcard =>
      hall.subset (List.mem_append_left _ hcard)
    have hrepeat : rep ⊆ pop := fun card hcard =>
      hsub (hperm.subset (List.mem_append_right _ hcard))
    obtain ⟨group', hmem, hr⟩ := searchStraightFlushI_preceded hcaches hpop
      hpool (fun card hcard => hs.points (hpool hcard)) hearlier hrep hrepeat
      hlen hout pre' group post' heq' hbad
    exact ⟨group', hpre hmem, hr⟩
  · have hcombines : Preceded
        (fun shorter combine => 3 ≤ shorter.length ∧
          r ⟨GROUP_STAIGHT, shorter⟩ ⟨GROUP_STAIGHT, combine⟩)
        (fun combine => 3 ≤ combine.length ∧ bad ⟨GROUP_STAIGHT, combine⟩)
        self.jokerCombines := by
      rintro pre combine post heq ⟨hthree, hbad⟩
      obtain ⟨shorter, hmem, hlong, hlt, hr⟩ :=
        hjokers combine (by simp [heq]) hthree hbad
      exact ⟨shorter, hcaches.mem_before heq hmem hlt, hlong, hr⟩
    have hfilter := hcombines.filter (p := fun combine => 3 ≤ combine.length)
      fun shorter _ combine _ hr _ => decide_eq_true hr.1
    refine Preceded.map fun pre combine post heq hbad => ?_
    have hthree : combine ∈ self.jokerCombines.filter
        fun combine => 3 ≤ combine.length := by simp [heq]
    obtain ⟨shorter, hmem, -, hr⟩ := hfilter pre combine post heq
      ⟨by simpa using List.of_mem_filter hthree, hbad⟩
    exact ⟨shorter, hmem, hr⟩

end Order

/-! ## Straights without one card -/

private theorem gapsFrom_le_concat {first last : PokerCard}
    {rest : List PokerCard} (h : Flush (first :: rest ++ [last])) :
    gapsFrom first rest ≤ gapsFrom first (rest ++ [last]) := by
  induction rest generalizing first with
  | nil => exact gapsFrom_nonneg h
  | cons card rest ih =>
      have := ih h.of_cons
      simp only [List.cons_append, gapsFrom]
      omega

theorem Fits.dropLast {init : List PokerCard} {last : PokerCard}
    {jokers : Nat} (h : Fits (init ++ [last]) jokers) (hne : init ≠ [])
    (hflush : Flush (init ++ [last]))
    (hpoints : ∀ card ∈ init, 2 ≤ card.point) : Fits init jokers := by
  obtain ⟨first, rest, rfl⟩ := List.exists_cons_of_ne_nil hne
  refine Or.inr (Or.inl ⟨first, rest, rfl, ?_⟩)
  have hfirst := hpoints first (by simp)
  rcases fits_cons_iff.mp h with hgap | ⟨init', ace, heq, -, hgap⟩
  · exact (gapsFrom_le_concat hflush).trans hgap
  · obtain ⟨rfl, -⟩ := List.append_inj' heq rfl
    omega

theorem shortens_of_perm {cards cards' : List PokerCard} {card : PokerCard}
    {type type' : Int} (h : (card :: cards).Perm cards') :
    Shortens ⟨type, sortCards cards⟩ ⟨type', sortCards cards'⟩ :=
  ⟨card, ((sortCards_perm cards).cons card).trans
    (h.trans (sortCards_perm cards').symm)⟩

section Straights

variable {self : Combination} {cards : List PokerCard}

private theorem FilledBy.dropLast {init combine : List PokerCard}
    {last : PokerCard} (h : FilledBy self (init ++ [last]) combine)
    (hne : init ≠ []) (hflush : Flush (init ++ [last]))
    (hpoints : ∀ card ∈ init, 2 ≤ card.point)
    (hlong : 4 ≤ (init ++ [last]).length + combine.length) :
    EarlierFilling self (init ++ [last]) combine init combine := by
  refine ⟨⟨h.1, h.2.1.dropLast hne hflush hpoints, ?_⟩,
    Or.inl ⟨hne, by simp, by simp⟩⟩
  simp only [List.length_append, List.length_cons, List.length_nil] at hlong
  omega

private theorem mem_combines_of_sublist (hcaches : self.Caches cards)
    {combine shorter : List PokerCard}
    (hcombine : combine = [] ∨ combine ∈ self.jokerCombines)
    (hsub : shorter.Sublist combine) :
    shorter = [] ∨ shorter ∈ self.jokerCombines := by
  by_cases hnil : shorter = []
  · exact Or.inl hnil
  · rcases hcombine with rfl | hmem
    · exact absurd (List.sublist_nil.mp hsub) hnil
    · exact Or.inr (hcaches.mem_combines.mpr
        ⟨hsub.trans (hcaches.mem_combines.mp hmem).1, hnil⟩)

theorem straights_shortened (hs : Searchable cards)
    (hcaches : self.Caches cards) {groups : List CardGroup}
    (h : searchStraightFlush self cards = some groups) :
    Preceded Shortens Long groups := by
  refine searchStraightFlush_preceded hs hcaches ?_ ?_ h
  · intro hand combine hne hflush hpool hfilled hlong
    simp only [Long, sortCards_length, List.length_append] at hlong
    obtain ⟨init, last, rfl⟩ :=
      (List.eq_nil_or_concat' hand).resolve_left hne
    by_cases hinit : init = []
    · -- a single card is filled with one joker less
      subst hinit
      obtain ⟨joker, shorter, rfl⟩ := List.exists_cons_of_length_pos
        (l := combine) (by simp at hlong; omega)
      simp only [List.nil_append, List.length_cons, List.length_nil]
        at hlong ⊢
      have hhigh : HighFits [last] shorter.length :=
        ⟨last, [], rfl, by simp [gapsFrom]⟩
      refine ⟨[last], shorter, ⟨⟨mem_combines_of_sublist hcaches hfilled.1
        (List.sublist_cons_self joker shorter), Or.inr (Or.inl hhigh), ?_⟩,
        Or.inr ⟨rfl, by simp, Or.inr (Or.inl hhigh)⟩⟩, ?_⟩
      · simp only [List.length_cons, List.length_nil]
        omega
      · exact shortens_of_perm List.perm_middle.symm
    · refine ⟨init, combine, hfilled.dropLast hinit hflush (fun card hcard =>
        (hs.points (hpool (List.mem_append_left _ hcard))).1) ?_, ?_⟩
      · exact hlong
      · refine @shortens_of_perm _ _ last _ _ ?_
        rw [List.append_assoc]
        exact List.perm_middle.symm
  · intro combine hmem _ hlong
    simp only [Long] at hlong
    obtain ⟨joker, shorter, rfl⟩ := List.exists_cons_of_length_pos
      (l := combine) (by omega)
    simp only [List.length_cons] at hlong
    refine ⟨shorter, ?_, by omega, by simp, joker, List.Perm.refl _⟩
    exact (mem_combines_of_sublist hcaches (Or.inr hmem)
      (List.sublist_cons_self joker shorter)).resolve_left
        (List.length_pos_iff.mp (by omega))

def LongPure (group : CardGroup) : Prop :=
  Long group ∧ isCardsPureStraight group.cards = true ∧
    group.cards.length ≤ 11

def PureShortens (group other : CardGroup) : Prop :=
  isCardsPureStraight group.cards = true ∧ Shortens group other

private theorem sortCards_dropLast {cards rest init : List PokerCard}
    {last : PokerCard} (hsort : sortCards cards = init ++ [last])
    (hperm : cards.Perm (rest ++ [last])) : sortCards rest = init := by
  have hsorted : (init ++ [last]).Pairwise (· ≤ ·) :=
    hsort ▸ sortCards_pairwise cards
  have hlast : (rest ++ [last]).Perm (init ++ [last]) :=
    hperm.symm.trans (hsort ▸ (sortCards_perm cards).symm)
  exact sortCards_eq_of_perm ((List.perm_append_right_iff [last]).mp hlast)
    (List.pairwise_append.mp hsorted).1

private theorem jokerCount_of_split {jokerPoint : Nat}
    {cards hand combine : List PokerCard}
    (hperm : cards.Perm (hand ++ combine))
    (hhand : nonJokers jokerPoint cards = hand) :
    jokerCount jokerPoint cards = combine.length := by
  have htotal := length_nonJokers_add jokerPoint cards
  have hlength := hperm.length_eq
  rw [List.length_append] at hlength
  rw [hhand] at htotal
  omega

private theorem pure_without_card (hs : Searchable cards)
    {hand combine init : List PokerCard} {last : PokerCard}
    (hpool : hand ⊆ nonJokers self.jokerPoint cards) (hflush : Flush hand)
    (hfilled : FilledBy self hand combine)
    (hsort : sortCards (hand ++ combine) = init ++ [last])
    (hhand : nonJokers self.jokerPoint (init ++ [last]) = hand)
    (hpure : isCardsPureStraight init = true)
    (hlong : 4 ≤ (init ++ [last]).length)
    (hlast : ¬ isJoker self.jokerPoint last) :
    ∃ hand' combine', EarlierFilling self hand combine hand' combine' ∧
      PureShortens ⟨GROUP_STAIGHT, sortCards (hand' ++ combine')⟩
        ⟨GROUP_STAIGHT, sortCards (hand ++ combine)⟩ := by
  have hconcat : hand = nonJokers self.jokerPoint init ++ [last] := by
    rw [← hhand]
    simp [nonJokers, hlast]
  have hperm : (init ++ [last]).Perm (hand ++ combine) :=
    hsort ▸ sortCards_perm (hand ++ combine)
  have hshort : sortCards (nonJokers self.jokerPoint init ++ combine) =
      init := by
    refine sortCards_dropLast hsort ?_
    rw [hconcat, List.append_assoc, List.append_assoc]
    exact List.perm_append_comm.append_left _
  have hsize : 4 ≤ hand.length + combine.length := by
    rw [← List.length_append, ← hperm.length_eq]
    exact hlong
  rw [hconcat] at hfilled hflush hpool hsize ⊢
  refine ⟨_, combine, hfilled.dropLast (nonJokers_ne_nil_of_pure hpure) hflush
    (fun card hcard => (hs.points (hpool (List.mem_append_left _ hcard))).1)
    hsize, ?_, ?_⟩
  · rw [hshort]
    exact hpure
  · refine @shortens_of_perm _ _ last _ _ ?_
    rw [List.append_assoc]
    exact List.perm_middle.symm

/--
A joker that stands last is not needed for a high Ace: a tight filling would
leave no room for a second straight.
-/
private theorem highFits_without_last {hand init : List PokerCard}
    {last : PokerCard} {jokers : Nat}
    (hpoints : ∀ card ∈ hand, card.point ≤ A) (hflush : Flush hand)
    (hsorted : (init ++ [last]).Pairwise (· ≤ ·))
    (hhand : nonJokers self.jokerPoint (init ++ [last]) = hand)
    (hbad : LongPure ⟨GROUP_STAIGHT, init ++ [last]⟩)
    (hlast : isJoker self.jokerPoint last)
    (hcount : jokerCount self.jokerPoint (init ++ [last]) = jokers + 1)
    (h : HighFits hand (jokers + 1)) : HighFits hand jokers := by
  obtain ⟨first, rest, rfl, hgap⟩ := h
  by_contra hfew
  have hmore : ¬ gapsFrom first rest ≤ jokers :=
    fun hgap' => hfew ⟨first, rest, rfl, hgap'⟩
  obtain ⟨run, tail, hshape⟩ := exists_pureShape hsorted hbad.2.1
  have hlarge := @PureShape.large_of_tight self.jokerPoint _ _ _ hshape
    (by rwa [hhand]) (by rwa [hhand]) first rest hhand
    (fun last' hlast' => by
      rw [List.getLast?_concat, Option.some_inj] at hlast'
      exact hlast' ▸ hlast)
    (by rw [hcount]; omega) hbad.1
  have hsmall := hbad.2.2
  simp only at hsmall
  omega

private theorem pure_without_joker (hs : Searchable cards)
    (hcaches : self.Caches cards) {hand combine init : List PokerCard}
    {last : PokerCard} (hpool : hand ⊆ nonJokers self.jokerPoint cards)
    (hflush : Flush hand) (hfilled : FilledBy self hand combine)
    (hsort : sortCards (hand ++ combine) = init ++ [last])
    (hhand : nonJokers self.jokerPoint (init ++ [last]) = hand)
    (hbad : LongPure ⟨GROUP_STAIGHT, init ++ [last]⟩)
    (hpure : isCardsPureStraight init = true)
    (hlast : isJoker self.jokerPoint last) :
    ∃ hand' combine', EarlierFilling self hand combine hand' combine' ∧
      PureShortens ⟨GROUP_STAIGHT, sortCards (hand' ++ combine')⟩
        ⟨GROUP_STAIGHT, sortCards (hand ++ combine)⟩ := by
  have hhand' : nonJokers self.jokerPoint init = hand := by
    rw [← hhand]
    simp [nonJokers, hlast]
  have hperm : (init ++ [last]).Perm (hand ++ combine) :=
    hsort ▸ sortCards_perm (hand ++ combine)
  have hsorted : (init ++ [last]).Pairwise (· ≤ ·) :=
    hsort ▸ sortCards_pairwise (hand ++ combine)
  have hmem : last ∈ combine := by
    have hin : last ∈ hand ++ combine := hperm.subset (by simp)
    refine (List.mem_append.mp hin).resolve_left fun hin' => ?_
    have := List.of_mem_filter (hpool hin')
    simp [hlast] at this
  have herase := List.perm_cons_erase hmem
  have hshort : sortCards (hand ++ combine.erase last) = init := by
    refine sortCards_dropLast hsort ?_
    rw [List.append_assoc]
    exact (List.perm_append_comm.trans herase.symm).symm.append_left hand
  have hcount : jokerCount self.jokerPoint init =
      (combine.erase last).length :=
    jokerCount_of_split (hshort ▸ sortCards_perm _) hhand'
  have hle : ∀ card ∈ hand, card.point ≤ A := fun card hcard =>
    (hs.points (hpool hcard)).2
  obtain ⟨run, tail, hshape⟩ :=
    exists_pureShape (List.pairwise_append.mp hsorted).1 hpure
  have hfits := @PureShape.fits self.jokerPoint _ _ _ hshape
    (by rwa [hhand']) (by rwa [hhand'])
  rw [hhand', hcount] at hfits
  have hlong := hbad.1
  have hsmall := hbad.2.2
  have hsize := herase.length_eq
  have htotal := hperm.length_eq
  simp only [Long, List.length_append, List.length_cons, List.length_nil]
    at hlong hsmall hsize htotal
  refine ⟨hand, combine.erase last, ⟨⟨mem_combines_of_sublist hcaches
    hfilled.1 (List.erase_sublist), hfits, by omega⟩,
    Or.inr ⟨rfl, by omega, ?_⟩⟩, ?_, ?_⟩
  · have hcount' : jokerCount self.jokerPoint (init ++ [last]) =
        (combine.erase last).length + 1 :=
      (jokerCount_of_split hperm hhand).trans hsize
    rw [hsize]
    exact Or.inr (or_not_of_imp
      (highFits_without_last hle hflush hsorted hhand hbad hlast hcount'))
  · rw [hshort]
    exact hpure
  · exact @shortens_of_perm _ _ last _ _
      (List.perm_middle.symm.trans (herase.symm.append_left hand))

theorem pure_straights_shortened (hs : Searchable cards)
    (hcaches : self.Caches cards) {groups : List CardGroup}
    (h : searchStraightFlush self cards = some groups) :
    Preceded PureShortens LongPure groups := by
  refine searchStraightFlush_preceded hs hcaches ?_ ?_ h
  · intro hand combine hne hflush hpool hfilled hbad
    have hcombine : combine ⊆ searchJokerCards self.jokerPoint cards := by
      rcases hfilled.1 with rfl | hmem
      · exact List.nil_subset _
      · exact (hcaches.mem_combines.mp hmem).1.subset
    obtain ⟨hnon, -⟩ := filter_parts hpool hcombine
    have hhand := @nonJokers_sortCards_eq self.jokerPoint (hand ++ combine)
      hand (by rw [hnon]) hflush
    obtain ⟨init, last, hconcat⟩ :=
      (List.eq_nil_or_concat' (sortCards (hand ++ combine))).resolve_left (by
        intro hnil
        have := hbad.1
        simp [Long, hnil] at this)
    have hdrop := isCardsPureStraight_dropLast hbad.2.1 hbad.1
    simp only [hconcat, List.dropLast_concat] at hdrop hbad hhand
    by_cases hlast : isJoker self.jokerPoint last
    · exact pure_without_joker hs hcaches hpool hflush hfilled hconcat hhand
        hbad hdrop hlast
    · exact pure_without_card hs hpool hflush hfilled hconcat hhand hdrop
        hbad.1 hlast
  · intro combine hmem _ hbad
    refine absurd ?_ (@nonJokers_ne_nil_of_pure self.jokerPoint _ hbad.2.1)
    have hsub := (hcaches.mem_combines.mp hmem).1.subset
    have := (@filter_parts self.jokerPoint [] combine cards (by simp) hsub).1
    rwa [List.nil_append] at this

end Straights

/-! ## Sets without one card -/

section Sets

variable {self : Combination} {cards : List PokerCard}

private theorem setsOfSelection_shortened (hcaches : self.Caches cards)
    {hand : List PokerCard} {pre post : List CardGroup} {group : CardGroup}
    (heq : setsOfSelection self hand = pre ++ group :: post)
    (hlong : Long group) :
    (∃ shorter ∈ pre, Shortens shorter group) ∨
      group = ⟨GROUP_THREE_KIND, hand⟩ := by
  unfold setsOfSelection at heq
  rcases split_append heq with ⟨mid, hself⟩ | ⟨mid, hfilled, rfl⟩
  · have hgroup : group ∈ pre ++ group :: mid := by simp
    rw [← hself] at hgroup
    split at hgroup
    · exact Or.inr (List.mem_singleton.mp hgroup)
    · simp at hgroup
  · obtain ⟨combines, rest, hsplit, rfl, hrest⟩ :=
      List.map_eq_append_iff.mp hfilled
    obtain ⟨combine, rest', rfl, rfl, -⟩ := List.map_eq_cons_iff.mp hrest
    have hmem : combine ∈ self.jokerCombines := by simp [hsplit]
    obtain ⟨joker, shorter, rfl⟩ :=
      List.exists_cons_of_ne_nil (hcaches.mem_combines.mp hmem).2
    have hperm : (joker :: (hand ++ shorter)).Perm
        (hand ++ joker :: shorter) := List.perm_middle.symm
    refine Or.inl ?_
    by_cases hnil : shorter = []
    · subst hnil
      rw [List.append_nil] at hperm
      simp only [Long, List.length_append, List.length_singleton] at hlong
      refine ⟨⟨GROUP_THREE_KIND, hand⟩, List.mem_append_left _ ?_, joker,
        hperm⟩
      rw [if_pos (by omega)]
      exact List.mem_singleton.mpr rfl
    · have hshorter : shorter ∈ self.jokerCombines :=
        hcaches.mem_combines.mpr ⟨(List.sublist_cons_self joker shorter).trans
          (hcaches.mem_combines.mp hmem).1, hnil⟩
      have hbefore := hcaches.mem_before hsplit hshorter (by simp)
      exact ⟨_, List.mem_append_right _ (List.mem_map_of_mem hbefore), joker,
        hperm⟩

private theorem exists_three_of_four {hand pool : List PokerCard} {n : Nat}
    (hhand : hand ∈ caculateAllChoices pool n) (hlong : 4 ≤ hand.length)
    (hn : n ≤ 4) :
    n = 4 ∧ ∃ shorter ∈ caculateAllChoices pool 3,
      Shortens ⟨GROUP_THREE_KIND, shorter⟩ ⟨GROUP_THREE_KIND, hand⟩ := by
  obtain ⟨hsub, rfl⟩ := mem_caculateAllChoices.mp hhand
  obtain ⟨card, shorter, rfl⟩ := List.exists_cons_of_length_pos
    (l := hand) (by omega)
  simp only [List.length_cons] at hlong hn ⊢
  exact ⟨by omega, shorter, mem_caculateAllChoices.mpr
    ⟨(List.sublist_cons_self card shorter).trans hsub, by omega⟩, card,
    List.Perm.refl _⟩

private theorem searchThreeOfKindI_shortened (hcaches : self.Caches cards)
    {pop rep : List PokerCard} {groups : List CardGroup}
    (h : searchThreeOfKindI self pop rep = some groups) :
    Preceded Shortens Long groups := by
  rw [searchThreeOfKindI_eq] at h
  obtain rfl := Option.some_inj.mp h
  refine Preceded.append ?_ ?_
  · intro pre group post heq hlong
    obtain ⟨sizes₁, n, sizes₂, pre', post', hsizes, hn, hpre, hbefore⟩ :=
      flatMap_split heq
    obtain ⟨hands₁, hand, hands₂, pre'', post'', hhands, hhand, hpre', -⟩ :=
      flatMap_split hn
    rcases setsOfSelection_shortened hcaches hhand hlong with
      ⟨shorter, hmem, hshort⟩ | rfl
    · exact ⟨shorter, hpre (hpre' hmem), hshort⟩
    · have hsorted : ([2, 3, 4] : List Nat).Pairwise (· < ·) := by decide
      have hin : n ∈ [2, 3, 4] := by simp [hsizes]
      obtain ⟨rfl, shorter, hmem, hshort⟩ := @exists_three_of_four hand pop n
        (by simp [hhands]) hlong (by
          simp only [List.mem_cons, List.not_mem_nil, or_false] at hin
          omega)
      have hthree : 3 ∈ [2, 3, 4] := by decide
      rw [hsizes] at hsorted hthree
      refine ⟨_, hbefore 3 (mem_before_of_lt hsorted hthree (by omega))
        (List.mem_flatMap.mpr ⟨shorter, hmem, ?_⟩), hshort⟩
      have hlen := (mem_caculateAllChoices.mp hmem).2
      exact mem_setsOfSelection.mpr ⟨[], Or.inl ⟨rfl, by omega⟩, by simp⟩
  · intro pre group post heq hlong
    obtain ⟨sizes₁, n, sizes₂, pre', post', hsizes, hn, -, hbefore⟩ :=
      flatMap_split heq
    have hgroup : group ∈ pre' ++ group :: post' := by simp
    rw [← hn] at hgroup
    obtain ⟨hand, hhand, rfl⟩ := List.mem_map.mp hgroup
    have hsorted : ([3, 4] : List Nat).Pairwise (· < ·) := by decide
    have hin : n ∈ [3, 4] := by simp [hsizes]
    obtain ⟨rfl, shorter, hmem, hshort⟩ := @exists_three_of_four hand rep n
      hhand hlong (by
        simp only [List.mem_cons, List.not_mem_nil, or_false] at hin
        omega)
    have hthree : 3 ∈ [3, 4] := by decide
    rw [hsizes] at hsorted hthree
    exact ⟨_, hbefore 3 (mem_before_of_lt hsorted hthree (by omega))
      (List.mem_map_of_mem hmem), hshort⟩

theorem sets_shortened (hcaches : self.Caches cards)
    {groups : List CardGroup} (h : searchThreeOfKind self cards = some groups) :
    Preceded Shortens Long groups := by
  rw [searchThreeOfKind, searchThreeOfKindFrom_eq] at h
  intro pre group post heq hlong
  obtain ⟨blocks₁, block, blocks₂, out, pre', post', -, hout, heq', hpre, -⟩ :=
    collect_split h heq
  unfold flushThreeOfKind at hout
  split at hout
  · obtain ⟨shorter, hmem, hshort⟩ := searchThreeOfKindI_shortened hcaches
      hout pre' group post' heq' hlong
    exact ⟨shorter, hpre hmem, hshort⟩
  · obtain rfl := Option.some_inj.mp hout
    simp at heq'

end Sets

end StarsGaming.Cards
