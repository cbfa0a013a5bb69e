import StarsGaming.Cards.Legal

/-!
# The automatic declare and the validator

The groups of the automatic declare pass `checkLoseDeclare` with the declared
score unless one of them is a set of more than four cards, which the search
makes and the validator refuses.  With thirteen cards this happens exactly
when the first pair of straights that lets the search lay down the whole hand
leaves a set of five cards.
-/

namespace StarsGaming.Cards

open PokerCard
open StarsGaming.Foundation

/-! ## What the validator says of a report -/

def Bad (info : CombinationInfo) : Prop :=
  ∃ group ∈ info.cardGroup, group.type = GROUP_THREE_KIND ∧ Oversized group

def Declared (jokerPoint : Nat) (hand : List PokerCard)
    (melds : List CardGroup) : Prop :=
  melds = [] ∨ ∃ first rest, melds = first :: rest ∧
    StraightOf jokerPoint hand first ∧
    isCardsPureStraight (sortCards first.cards) = true ∧
    Fill (fun group place => place.Found jokerPoint hand group)
      [.straight, .any, .any] rest

section Declared

variable {jokerPoint : Nat} {hand : List PokerCard} {melds : List CardGroup}

private theorem fill_found {places : List Place} {rest : List CardGroup}
    (h : Fill (fun group place => place.Found jokerPoint hand group) places
      rest) :
    ∀ group ∈ rest, Place.any.Found jokerPoint hand group := by
  induction rest generalizing places with
  | nil => simp
  | cons group rest ih =>
      cases places with
      | nil => exact h.elim
      | cons place places =>
          intro group' hmem
          rcases List.mem_cons.mp hmem with rfl | hmem
          · cases place with
            | straight => exact Or.inl h.1
            | any => exact h.1
          · exact ih h.2 group' hmem

theorem Declared.found (h : Declared jokerPoint hand melds) :
    ∀ group ∈ melds, Place.any.Found jokerPoint hand group := by
  rcases h with rfl | ⟨first, rest, rfl, hfirst, -, hfill⟩
  · simp
  · intro group hgroup
    rcases List.mem_cons.mp hgroup with rfl | hgroup
    · exact Or.inl hfirst
    · exact fill_found hfill group hgroup

private theorem Declared.counts (h : Declared jokerPoint hand melds)
    (rest : List CardGroup) :
    (melds ≠ [] → 1 ≤ (melds ++ rest).countP isPureGroup) ∧
      ∀ group ∈ melds, group.type = GROUP_THREE_KIND →
        2 ≤ (melds ++ rest).countP isStraightGroup := by
  rcases h with rfl | ⟨first, others, rfl, hfirst, hpure, hfill⟩
  · simp
  · have hfirst' : isPureGroup first ∧ isStraightGroup first := by
      simp [isPureGroup, isStraightGroup, hfirst.type, hpure]
    refine ⟨fun _ => ?_, fun group hgroup htype => ?_⟩
    · rw [List.cons_append, List.countP_cons_of_pos hfirst'.1]
      omega
    · cases others with
      | nil =>
          obtain rfl := List.mem_singleton.mp hgroup
          simp [hfirst.type] at htype
      | cons second others =>
          have hsecond : isStraightGroup second := by
            have : StraightOf jokerPoint hand second := hfill.1
            simp [isStraightGroup, this.type]
          rw [List.cons_append, List.countP_cons_of_pos hfirst'.2,
            List.cons_append, List.countP_cons_of_pos hsecond]
          omega

private theorem looseScore_append_looseGroups
    (h : ∀ group ∈ melds, Place.any.Found jokerPoint hand group)
    (loose : List PokerCard) :
    looseScore (melds ++ looseGroups loose) jokerPoint =
      caculateCardScore loose jokerPoint := by
  have hnone : melds.filter (fun group => group.type = GROUP_INVALID) = [] := by
    rw [List.filter_eq_nil_iff]
    intro group hgroup
    rcases h group hgroup with h | h <;> simp [h.type]
  rw [looseScore, List.filter_append, hnone, List.nil_append, looseGroups]
  split
  · rename_i hnil
    rw [hnil]
    rfl
  · simp

theorem Declared.checkLoseDeclare_iff (h : Declared jokerPoint hand melds)
    (hdeal : ∀ card ∈ hand, Deal card) {loose : List PokerCard}
    {info : CombinationInfo} (hreport : Reports jokerPoint melds loose info) :
    checkLoseDeclare info.cardGroup jokerPoint = some info.score ↔
      ¬ Bad info := by
  obtain ⟨hpure, hstraight⟩ := h.counts (looseGroups loose)
  have hloose : ∀ group ∈ looseGroups loose, group.type = GROUP_INVALID := by
    intro group hgroup
    unfold looseGroups at hgroup
    split at hgroup
    · simp at hgroup
    · rw [List.mem_singleton.mp hgroup]
  rw [Bad, hreport.cardGroup, hreport.score, checkLoseDeclare_eq_some,
    looseScore_append_looseGroups h.found]
  constructor
  · rintro ⟨hchecked, -, -⟩ ⟨group, hgroup, htype, hlarge⟩
    have hkind := (hchecked group hgroup).2 htype
    rcases List.mem_append.mp hgroup with hgroup | hgroup
    · rcases h.found group hgroup with hfound | hfound
      · simp [hfound.type] at htype
      · rw [hfound.shape.isCardsThreeOfKind, decide_eq_true_eq] at hkind
        simp only [Oversized] at hlarge
        omega
    · simp [hloose group hgroup] at htype
  · intro hgood
    refine ⟨fun group hgroup => ?_, fun group hgroup => ?_, rfl⟩
    · rcases List.mem_append.mp hgroup with hmeld | hmeld
      · rcases h.found group hmeld with hfound | hfound
        · refine ⟨fun _ => hfound.fillable.isCardsStraight fun card hcard =>
            hdeal card (hfound.subperm.subset hcard), ?_⟩
          simp [hfound.type]
        · refine ⟨by simp [hfound.type], fun htype => ?_⟩
          rw [hfound.shape.isCardsThreeOfKind, decide_eq_true_eq]
          have hsmall : ¬ Oversized group := fun hlarge =>
            hgood ⟨group, hgroup, htype, hlarge⟩
          simp only [Oversized] at hsmall
          omega
      · simp [TypeChecked, hloose group hmeld]
    · rcases List.mem_append.mp hgroup with hmeld | hmeld
      · have hpos := hpure (List.ne_nil_of_mem hmeld)
        rcases h.found group hmeld with hfound | hfound
        · exact Or.inr (Or.inl ⟨hfound.type, hpos⟩)
        · exact Or.inr (Or.inr ⟨hfound.type, hpos,
            hstraight group hmeld hfound.type⟩)
      · exact Or.inl (hloose group hmeld)

end Declared

/-! ## Oversized sets after two straights -/

structure FiveSet (jokerPoint : Nat) (cards : List PokerCard) : Prop where
  shape : SetShape jokerPoint cards
  length : cards.length = 5

theorem SetShape.not_fillable {jokerPoint : Nat} {cards : List PokerCard}
    (h : SetShape jokerPoint cards) : ¬ Fillable jokerPoint cards := by
  rintro ⟨-, ascending, hperm, hflush, -⟩
  have htwo := h.nonJokers
  rw [← hperm.length_eq] at htwo
  match ascending with
  | [] | [_] => simp at htwo
  | first :: second :: rest =>
      have hlt := (List.rel_of_pairwise_cons hflush List.mem_cons_self).2
      have := h.point first (hperm.subset (by simp)) second
        (hperm.subset (by simp))
      omega

private theorem fillable_single {jokerPoint : Nat} {card : PokerCard}
    {cards : List PokerCard} (hlen : 3 ≤ cards.length)
    (hnon : nonJokers jokerPoint cards = [card]) :
    Fillable jokerPoint cards := by
  refine ⟨hlen, [card], by rw [hnon], List.pairwise_singleton _ _, ?_⟩
  exact Or.inr (Or.inl ⟨card, [], rfl, by simp [gapsFrom]⟩)

theorem exists_split_of_setShape {jokerPoint : Nat} {cards : List PokerCard}
    (h : SetShape jokerPoint cards) (hdeal : ∀ card ∈ cards, Deal card)
    (hlen : 6 ≤ cards.length) :
    ∃ first second, Fillable jokerPoint first ∧
      Place.any.Accepts jokerPoint second ∧ (first ++ second).Perm cards := by
  have hfour := h.nonJokers_le hdeal
  have htwo := h.nonJokers
  have htotal := length_nonJokers_add jokerPoint cards
  rw [jokerCount_eq_length] at htotal
  obtain ⟨card, others, hnon⟩ : ∃ card others,
      nonJokers jokerPoint cards = card :: others :=
    List.exists_cons_of_length_pos (by omega)
  obtain ⟨joker₁, joker₂, jokers, hjokers⟩ : ∃ joker₁ joker₂ jokers,
      searchJokerCards jokerPoint cards = joker₁ :: joker₂ :: jokers := by
    match hjokers : searchJokerCards jokerPoint cards with
    | [] | [_] =>
        simp only [hjokers, List.length_nil, List.length_cons] at htotal
        omega
    | joker₁ :: joker₂ :: jokers => exact ⟨_, _, _, rfl⟩
  have hperm := nonJokers_append_jokers_perm jokerPoint cards
  have hfirst := @filter_parts jokerPoint [card] [joker₁, joker₂] cards
    (by simp [hnon]) (by simp [hjokers])
  have hsecond := @filter_parts jokerPoint others jokers cards
    (by simp [hnon]) (fun joker hjoker => by simp [hjokers, hjoker])
  rw [hnon, hjokers] at hperm
  rw [hnon, hjokers] at htotal
  simp only [List.length_cons] at htotal
  refine ⟨[card] ++ [joker₁, joker₂], others ++ jokers,
    fillable_single (by simp) hfirst.1, ?_, ?_⟩
  · have hthree : 3 ≤ (others ++ jokers).length := by
      rw [List.length_append]
      omega
    match others with
    | [] => simp [hnon] at htwo
    | [other] => exact Or.inl (fillable_single hthree hsecond.1)
    | first :: second :: others =>
        have hsub : ∀ card' ∈ first :: second :: others,
            card' ∈ nonJokers jokerPoint cards := fun card' hcard' => by
          rw [hnon]
          exact List.mem_cons_of_mem _ hcard'
        refine Or.inr ⟨hthree, ?_, ?_, ?_⟩
        · rw [hsecond.1]
          simp
        · rw [hsecond.1]
          exact (hnon ▸ h.nodup).of_cons
        · rw [hsecond.1]
          exact fun a ha b hb => h.point a (hsub a ha) b (hsub b hb)
  · refine List.Perm.trans ?_ hperm
    rw [List.perm_iff_count]
    intro other
    simp only [List.count_append, List.count_cons, List.count_nil]
    omega

/-- No arrangement with an oversized set is found before a better one. -/
structure Orderly (infos : List CombinationInfo) (stop : Bool) : Prop where
  preceded : Preceded (fun info' info => info'.score ≤ info.score) Bad infos
  last : stop = false →
    LastHas (fun info => info.score = 0 → ¬ Bad info) infos

theorem Orderly.nil : Orderly [] false :=
  ⟨.of_forall_not (by simp), fun _ => .of_forall (by simp)⟩

theorem Orderly.append (first second : List CombinationInfo) (stop : Bool)
    (h₁ : Orderly first false) (h₂ : Orderly second stop) :
    Orderly (first ++ second) stop :=
  ⟨h₁.preceded.append h₂.preceded, fun hstop =>
    (h₁.last rfl).append (h₂.last hstop)⟩

theorem Orderly.of_forall_not {infos : List CombinationInfo} {stop : Bool}
    (h : ∀ info ∈ infos, ¬ Bad info) : Orderly infos stop :=
  ⟨.of_forall_not h, fun _ => .of_forall fun info hinfo _ => h info hinfo⟩

section ThirdRun

variable {jokerPoint : Nat} {hand cards : List PokerCard}
  {before : List CardGroup} {third : CardGroup}
  {out : List CombinationInfo} {stop : Bool}

private theorem three_le_of_fill {places : List Place}
    {melds : List CardGroup} {loose : List PokerCard}
    (h : Fill (fun group place => place.Found jokerPoint hand group) places
      melds) (hperm : (laidCards melds ++ loose).Perm cards) :
    ∀ meld ∈ melds, 3 ≤ meld.cards.length ∧
      meld.cards.length ≤ cards.length := by
  intro meld hmeld
  refine ⟨(fill_found h meld hmeld).accepts.length, ?_⟩
  have hsub : meld.cards.Sublist (laidCards melds) := by
    rw [laidCards, List.flatMap_def]
    exact List.sublist_flatten_of_mem (List.mem_map_of_mem hmeld)
  have := hsub.length_le
  have := hperm.length_eq
  rw [List.length_append] at this
  omega

private theorem nil_of_fill {places : List Place} {melds : List CardGroup}
    {loose : List PokerCard}
    (h : Fill (fun group place => place.Found jokerPoint hand group) places
      melds) (hperm : (laidCards melds ++ loose).Perm cards)
    (hlen : cards.length ≤ 2) : melds = [] := by
  by_contra hne
  obtain ⟨meld, hmeld⟩ := List.exists_mem_of_ne_nil melds hne
  have := three_le_of_fill h hperm meld hmeld
  omega

private theorem bad_iff_of_reports {melds : List CardGroup}
    {loose : List PokerCard} {info : CombinationInfo}
    (hreport : Reports jokerPoint melds loose info) :
    Bad info ↔ ∃ group ∈ melds, group.type = GROUP_THREE_KIND ∧
      Oversized group := by
  rw [Bad, hreport.cardGroup]
  constructor
  · rintro ⟨group, hgroup, htype, hlarge⟩
    rcases List.mem_append.mp hgroup with hgroup | hgroup
    · exact ⟨group, hgroup, htype, hlarge⟩
    · unfold looseGroups at hgroup
      split at hgroup
      · simp at hgroup
      · rw [List.mem_singleton.mp hgroup] at htype
        simp at htype
  · rintro ⟨group, hgroup, hbad⟩
    exact ⟨group, List.mem_append_left _ hgroup, hbad⟩

private theorem bad_third_iff
    (hbefore : ∀ group ∈ before, group.type = GROUP_STAIGHT)
    (hfound : Place.any.Found jokerPoint cards third)
    (hlen : cards.length ≤ 7) {melds : List CardGroup}
    {loose : List PokerCard} {info : CombinationInfo}
    (hfill : Fill (fun group place => place.Found jokerPoint hand group)
      [.any] melds)
    (hperm : (laidCards melds ++ loose).Perm (removeCards third cards))
    (hreport : Reports jokerPoint (before ++ [third] ++ melds) loose info) :
    Bad info ↔ third.type = GROUP_THREE_KIND ∧ Oversized third := by
  have htotal := removeCards_length hfound.subperm
  have hthree := hfound.accepts.length
  rw [bad_iff_of_reports hreport]
  constructor
  · rintro ⟨group, hgroup, htype, hlarge⟩
    simp only [List.mem_append, List.mem_singleton] at hgroup
    rcases hgroup with (hgroup | rfl) | hgroup
    · simp [hbefore group hgroup] at htype
    · exact ⟨htype, hlarge⟩
    · have := three_le_of_fill hfill hperm group hgroup
      simp only [Oversized] at hlarge
      omega
  · rintro ⟨htype, hlarge⟩
    exact ⟨third, by simp, htype, hlarge⟩

private theorem score_of_oversized
    (hfound : Place.any.Found jokerPoint cards third)
    (hlen : cards.length ≤ 7) (hlarge : Oversized third)
    (hlevel : Level jokerPoint hand [.any] (before ++ [third])
      (removeCards third cards) out stop) :
    ∀ info ∈ out, info.score =
      caculateCardScore (removeCards third cards) jokerPoint := by
  have htotal := removeCards_length hfound.subperm
  simp only [Oversized] at hlarge
  intro info hinfo
  obtain ⟨melds, loose, hfill, hperm, hreport⟩ := hlevel.laid info hinfo
  obtain rfl := nil_of_fill hfill hperm (by omega)
  rw [hreport.score]
  exact caculateCardScore_perm (by simpa [laidCards] using hperm) jokerPoint

theorem caculateCardScore_removeCards {group : CardGroup}
    (h : group.cards.Subperm cards) :
    caculateCardScore group.cards jokerPoint +
        caculateCardScore (removeCards group cards) jokerPoint =
      caculateCardScore cards jokerPoint := by
  rw [← caculateCardScore_append, caculateCardScore_perm (removeCards_perm h)]

private theorem not_bad_of_reports {loose : List PokerCard}
    {info : CombinationInfo}
    (hbefore : ∀ group ∈ before, group.type = GROUP_STAIGHT)
    (hreport : Reports jokerPoint before loose info) : ¬ Bad info := by
  rw [bad_iff_of_reports hreport]
  rintro ⟨group, hgroup, htype, -⟩
  simp [hbefore group hgroup] at htype

theorem nonJokers_eq_nil_of_score {cards : List PokerCard}
    (hdeal : ∀ card ∈ cards, Deal card)
    (h : caculateCardScore cards jokerPoint = 0) :
    nonJokers jokerPoint cards = [] := by
  rw [nonJokers, List.filter_eq_nil_iff]
  intro card hcard
  have hzero : getScore jokerPoint card = 0 := by
    rw [caculateCardScore, List.sum_eq_zero_iff_forall_eq_nat] at h
    exact h _ (List.mem_map_of_mem hcard)
  have hd := hdeal card hcard
  simp only [Deal, spades, diamonds, P2, A, JOKER1, JOKER2] at hd
  simp only [getScore, P2, A] at hzero
  simp only [isJoker, JOKER1, Bool.not_eq_true', Bool.not_eq_false,
    Bool.or_eq_true, beq_iff_eq, decide_eq_true_eq]
  split at hzero
  · split at hzero <;> omega
  · omega

private theorem oversized_of_bad
    (hbefore : ∀ group ∈ before, group.type = GROUP_STAIGHT)
    (hfound : Place.any.Found jokerPoint cards third)
    (hlen : cards.length ≤ 7)
    (hlevel : Level jokerPoint hand [.any] (before ++ [third])
      (removeCards third cards) out stop) :
    ∀ info ∈ out, Bad info →
      third.type = GROUP_THREE_KIND ∧ Oversized third := by
  intro info hinfo hbad
  obtain ⟨melds, loose, hfill, hperm, hreport⟩ := hlevel.laid info hinfo
  exact (bad_third_iff hbefore hfound hlen hfill hperm hreport).mp hbad

private theorem exists_best
    (hlevel : Level jokerPoint hand [.any] (before ++ [third])
      (removeCards third cards) out false) :
    ∃ info ∈ out, info.score ≤
      caculateCardScore (removeCards third cards) jokerPoint :=
  hlevel.best rfl _ ⟨[], trivial, by simp⟩

/-- A third group worth as much as an oversized one does not score more. -/
private theorem exists_le_of_sameScore {third' : CardGroup}
    (hfound' : Place.any.Found jokerPoint cards third')
    (hfound : Place.any.Found jokerPoint cards third)
    (hlen : cards.length ≤ 7) (hlarge : Oversized third)
    (hsame : SameScore jokerPoint third' third)
    {out' : List CombinationInfo}
    (hlevel' : Level jokerPoint hand [.any] (before ++ [third'])
      (removeCards third' cards) out' false)
    (hlevel : Level jokerPoint hand [.any] (before ++ [third])
      (removeCards third cards) out stop) :
    ∀ info ∈ out, ∃ info' ∈ out', info'.score ≤ info.score := by
  intro info hinfo
  have hscore := score_of_oversized hfound hlen hlarge hlevel info hinfo
  obtain ⟨info', hinfo', hle⟩ := exists_best hlevel'
  refine ⟨info', hinfo', hle.trans ?_⟩
  have h₁ := @caculateCardScore_removeCards jokerPoint cards third
    hfound.subperm
  have h₂ := @caculateCardScore_removeCards jokerPoint cards third'
    hfound'.subperm
  unfold SameScore at hsame
  omega

private theorem removeCards_eq_nil_of_score (hs : Searchable cards)
    (hfound : Place.any.Found jokerPoint cards third)
    (hjokers : jokerCount jokerPoint third.cards =
      jokerCount jokerPoint cards)
    (hzero : caculateCardScore (removeCards third cards) jokerPoint = 0) :
    removeCards third cards = [] := by
  have hrest := removeCards_subperm third cards
  have hnon := nonJokers_eq_nil_of_score (fun card hcard =>
    hs.deal card (hrest.subset hcard)) hzero
  have hcount := jokerCount_perm (removeCards_perm hfound.subperm) jokerPoint
  have htotal := length_nonJokers_add jokerPoint (removeCards third cards)
  rw [jokerCount, List.countP_append] at hcount
  rw [hnon, List.length_nil] at htotal
  rw [← List.length_eq_zero_iff]
  unfold jokerCount at *
  omega

/-- The loop over the third groups, with a smaller set before a large one. -/
private theorem orderly_of_run (hs : Searchable cards)
    (hbefore : ∀ group ∈ before, group.type = GROUP_STAIGHT)
    (hlen : cards.length ≤ 7) {straights sets : List CardGroup}
    (hstraights : ∀ group ∈ straights, StraightOf jokerPoint cards group)
    (hsets : ∀ group ∈ sets, SetOf jokerPoint cards group)
    (horder : SetOrder jokerPoint cards sets)
    (hrun : LoopRun (fun third => Level jokerPoint hand [.any]
      (before ++ [third]) (removeCards third cards))
      (straights ++ sets) out stop) : Orderly out stop := by
  have hfound : ∀ group ∈ straights ++ sets,
      Place.any.Found jokerPoint cards group := by
    intro group hgroup
    rcases List.mem_append.mp hgroup with hgroup | hgroup
    · exact Or.inl (hstraights group hgroup)
    · exact Or.inr (hsets group hgroup)
  have hlarge : ∀ third ∈ straights ++ sets, ∀ out stop',
      Level jokerPoint hand [.any] (before ++ [third])
        (removeCards third cards) out stop' → ∀ info ∈ out, Bad info →
      third.type = GROUP_THREE_KIND ∧ Oversized third :=
    fun third hthird out stop' hlevel =>
      oversized_of_bad hbefore (hfound third hthird) hlen hlevel
  have hstraight : ∀ group ∈ straights,
      ¬ (group.type = GROUP_THREE_KIND ∧ Oversized group) := by
    rintro group hgroup ⟨htype, -⟩
    simp [(hstraights group hgroup).type] at htype
  constructor
  · refine hrun.preceded (r := SameScore jokerPoint)
      ((Preceded.of_forall_not hstraight).append
        (horder.preceded.mono fun group hgroup => hgroup.2)) hlarge ?_
    intro third' hthird' third hthird hsame out' hlevel' out stop' hlevel info
      hinfo hbad
    have hover := hlarge third hthird out stop' hlevel info hinfo hbad
    exact exists_le_of_sameScore (hfound third' hthird') (hfound third hthird)
      hlen hover.2 hsame hlevel' hlevel info hinfo
  · rintro rfl info hlast hzero hbad
    obtain ⟨items, third, out', hitems, hlevel, hlast'⟩ := hrun.last
      (fun third _ out' hlevel => by
        obtain ⟨info', hinfo', -⟩ := exists_best hlevel
        exact List.ne_nil_of_mem hinfo') hlast
    have hthird : third ∈ straights ++ sets := by simp [hitems]
    have hinfo := List.mem_of_getLast? hlast'
    have hover := hlarge third hthird out' false hlevel info hinfo hbad
    rw [score_of_oversized (hfound third hthird) hlen hover.2 hlevel info
      hinfo] at hzero
    -- the last oversized set holds all the jokers
    have hall : LastHas (fun group : CardGroup =>
        group.type = GROUP_THREE_KIND ∧ Oversized group →
          jokerCount jokerPoint group.cards = jokerCount jokerPoint cards)
        (straights ++ sets) :=
      (LastHas.of_forall fun group hgroup hbad =>
        absurd hbad (hstraight group hgroup)).append
        fun group hgroup hbad => horder.last group hgroup hbad.2
    have hjokers := hall third (by rw [hitems, List.getLast?_concat]) hover
    rw [removeCards_eq_nil_of_score hs (hfound third hthird) hjokers hzero]
      at hlevel
    exact absurd (hlevel.stop_iff.mpr (Arranges.nil jokerPoint _)) (by simp)

theorem ThirdRun.orderly (hs : Searchable cards)
    (hbefore : ∀ group ∈ before, group.type = GROUP_STAIGHT)
    (hlen : cards.length ≤ 7)
    (h : ThirdRun jokerPoint hand before cards out stop) :
    Orderly out stop := by
  cases h with
  | complete _ =>
      refine .of_forall_not fun info hinfo => ?_
      rw [List.mem_singleton.mp hinfo]
      exact not_bad_of_reports hbefore (reports_completeInfo jokerPoint before)
  | loose _ _ hreport =>
      refine .of_forall_not fun info hinfo => ?_
      rw [List.mem_singleton.mp hinfo]
      exact not_bad_of_reports hbefore hreport
  | loop _ _ hstraights _ hsets _ horder hrun =>
      exact orderly_of_run hs hbefore hlen hstraights hsets horder hrun

private theorem subset_of_append_eq {straights sets items₁ items₂ :
    List CardGroup} (heq : straights ++ sets = items₁ ++ third :: items₂)
    (hthird : third ∉ straights) : straights ⊆ items₁ := by
  rcases List.append_eq_append_iff.mp heq with
    ⟨mid, rfl, -⟩ | ⟨mid, rfl, hmid⟩
  · exact List.subset_append_left _ _
  · cases mid with
    | nil => simp
    | cons group mid =>
        obtain ⟨rfl, -⟩ := List.cons.inj hmid
        simp at hthird

theorem ThirdRun.stopped_bad (hs : Searchable cards)
    (hbefore : ∀ group ∈ before, group.type = GROUP_STAIGHT)
    (hlen : cards.length ≤ 7)
    (h : ThirdRun jokerPoint hand before cards out true) :
    ∃ info, out.getLast? = some info ∧ info.score = 0 ∧
      (Bad info ↔ FiveSet jokerPoint cards) := by
  cases h with
  | complete hnil =>
      refine ⟨_, rfl, rfl, ?_⟩
      have hgood := not_bad_of_reports hbefore
        (reports_completeInfo jokerPoint before)
      refine ⟨fun hbad => absurd hbad hgood, fun hfive => ?_⟩
      have := hfive.length
      simp [hnil] at this
  | @loop straights sets _ _ _ _ hstraights hfillable hsets _ _ hrun =>
      obtain ⟨items₁, third, items₂, out', hitems, hearlier, hlevel, pre, rfl⟩ :=
        hrun.stopped
      obtain ⟨info, melds, hlast, hfill, hperm, hreport⟩ := hlevel.stopped rfl
      have hthird : third ∈ straights ++ sets := by simp [hitems]
      have hfound : Place.any.Found jokerPoint cards third := by
        rcases List.mem_append.mp hthird with hthird | hthird
        · exact Or.inl (hstraights third hthird)
        · exact Or.inr (hsets third hthird)
      have htotal := removeCards_length hfound.subperm
      have hperm' : (laidCards melds ++ []).Perm (removeCards third cards) := by
        rwa [List.append_nil]
      -- a third group of five cards or more is all there was
      have hwhole : (removeCards third cards).length ≤ 2 →
          third.cards.Perm cards := by
        intro hshort
        obtain rfl := nil_of_fill hfill hperm' hshort
        have hnil : removeCards third cards = [] := hperm.symm.eq_nil
        have := removeCards_perm hfound.subperm
        rwa [hnil, List.append_nil] at this
      refine ⟨info, by rw [List.getLast?_append, hlast]; rfl,
        by rw [hreport.score]; rfl, ?_⟩
      rw [bad_third_iff hbefore hfound hlen hfill hperm' hreport]
      constructor
      · rintro ⟨htype, hlarge⟩
        have hset : third ∉ straights := fun hmem => by
          simp [(hstraights third hmem).type] at htype
        have hshape : SetShape jokerPoint third.cards := by
          rcases hfound with hfound | hfound
          · simp [hfound.type] at htype
          · exact hfound.shape
        simp only [Oversized] at hlarge
        have hall := hwhole (by omega)
        refine ⟨hshape.perm hall, ?_⟩
        by_contra hfive
        have hsix : 6 ≤ cards.length := by
          have := hall.length_eq
          omega
        obtain ⟨first, second, hfirst, hsecond, hsplit⟩ :=
          exists_split_of_setShape (hshape.perm hall) hs.deal hsix
        obtain ⟨found, hmem, hfperm⟩ := hfillable first hfirst
          ((List.sublist_append_left _ _).subperm.trans hsplit.subperm)
        obtain ⟨out'', hlevel'⟩ :=
          hearlier found (subset_of_append_eq hitems hset hmem)
        refine absurd (hlevel'.stop_iff.mpr ⟨[second], ⟨hsecond, trivial⟩, ?_⟩)
          (by simp)
        simpa using removeCards_perm_of_perm hfperm hsplit
      · intro hfive
        have hthree := hfound.accepts.length
        have hall := hwhole (by have := hfive.length; omega)
        refine ⟨?_, by rw [Oversized, hall.length_eq, hfive.length]⟩
        rcases hfound with hfound | hfound
        · exact absurd (hfound.fillable.perm hall) hfive.shape.not_fillable
        · exact hfound.type

end ThirdRun

/-! ## The two outer loops -/

/-- What the straights leave over after `first`, in the order of the search. -/
def restsAfter (jokerPoint : Nat) (hand : List PokerCard)
    (first : CardGroup) : List (List PokerCard) :=
  let cards1 := removeCards first hand
  if cards1 = [] then []
  else (straightsWithin jokerPoint hand cards1).map fun second =>
    removeCards second cards1

/--
What the pairs of a pure straight and a second straight leave over, in the
order in which the search tries them.
-/
def lifeRests (jokerPoint : Nat) (hand : List PokerCard) :
    List (List PokerCard) :=
  (searchPureStraightFlush (allStraights jokerPoint hand)).flatMap
    (restsAfter jokerPoint hand)

def LaysDown (jokerPoint : Nat) (rest : List PokerCard) : Prop :=
  Arranges jokerPoint [.any, .any] rest []

def FirstLaid (jokerPoint : Nat) (rests : List (List PokerCard))
    (rest : List PokerCard) : Prop :=
  ∃ pre post, rests = pre ++ rest :: post ∧
    (∀ other ∈ pre, ¬ LaysDown jokerPoint other) ∧ LaysDown jokerPoint rest

theorem FirstLaid.append {jokerPoint : Nat}
    {before rests after : List (List PokerCard)} {rest : List PokerCard}
    (h : FirstLaid jokerPoint rests rest)
    (hbefore : ∀ other ∈ before, ¬ LaysDown jokerPoint other) :
    FirstLaid jokerPoint (before ++ (rests ++ after)) rest := by
  obtain ⟨pre, post, rfl, hpre, hrest⟩ := h
  refine ⟨before ++ pre, post ++ after, by simp, ?_, hrest⟩
  intro other hother
  rcases List.mem_append.mp hother with hother | hother
  · exact hbefore other hother
  · exact hpre other hother

theorem FirstLaid.unique {jokerPoint : Nat} {rests : List (List PokerCard)}
    {rest rest' : List PokerCard} (h : FirstLaid jokerPoint rests rest)
    (h' : FirstLaid jokerPoint rests rest') : rest = rest' := by
  obtain ⟨pre, post, rfl, hpre, hrest⟩ := h
  obtain ⟨pre', post', heq, hpre', hrest'⟩ := h'
  rcases List.append_eq_append_iff.mp heq with
    ⟨mid, rfl, hmid⟩ | ⟨mid, rfl, hmid⟩
  · cases mid with
    | nil => exact (List.cons.inj hmid).1
    | cons other mid =>
        obtain ⟨rfl, -⟩ := List.cons.inj hmid
        exact absurd hrest (hpre' rest (by simp))
  · cases mid with
    | nil => exact (List.cons.inj hmid).1.symm
    | cons other mid =>
        obtain ⟨rfl, -⟩ := List.cons.inj hmid
        exact absurd hrest' (hpre rest' (by simp))

section Outer

variable {jokerPoint : Nat} {hand : List PokerCard} {first : CardGroup}
  {out : List CombinationInfo} {stop : Bool}

private theorem rest_small (hs : Searchable hand) (hlen : hand.length = 13)
    (hfirst : StraightOf jokerPoint hand first) {second : CardGroup}
    (hsecond : second ∈
      straightsWithin jokerPoint hand (removeCards first hand)) :
    Searchable (removeCards second (removeCards first hand)) ∧
      (removeCards second (removeCards first hand)).length ≤ 7 ∧
      ∀ group ∈ [first, second], group.type = GROUP_STAIGHT := by
  obtain ⟨-, hsound, -⟩ := @straightsWithin_spec jokerPoint hand hs _
    (removeCards_subperm first hand)
  have hfound := hsound second hsecond
  have h₁ := removeCards_length hfirst.subperm
  have h₂ := removeCards_length hfound.subperm
  have h₃ := hfirst.fillable.1
  have h₄ := hfound.fillable.1
  refine ⟨hs.of_subperm ((removeCards_subperm _ _).trans
    (removeCards_subperm _ _)), by omega, ?_⟩
  simp [hfirst.type, hfound.type]

theorem SecondRun.orderly (hs : Searchable hand) (hlen : hand.length = 13)
    (hfirst : StraightOf jokerPoint hand first)
    (h : SecondRun jokerPoint hand first out stop) : Orderly out stop := by
  cases h with
  | skipped _ => exact .nil
  | loose _ _ hreport =>
      refine .of_forall_not fun info hinfo => ?_
      rw [List.mem_singleton.mp hinfo]
      exact not_bad_of_reports (by simp [hfirst.type]) hreport
  | loop _ _ hrun =>
      refine hrun.closed .nil Orderly.append ?_
      intro second hsecond out stop' hthird
      obtain ⟨hs', hlen', htypes⟩ := rest_small hs hlen hfirst hsecond
      exact hthird.orderly hs' htypes hlen'

/-- A loop over the second group that ran to its end laid nothing down. -/
theorem SecondRun.not_laysDown
    (h : SecondRun jokerPoint hand first out false) :
    ∀ rest ∈ restsAfter jokerPoint hand first,
      ¬ LaysDown jokerPoint rest := by
  intro rest hrest
  unfold restsAfter at hrest
  cases h with
  | skipped hnil => simp [hnil] at hrest
  | loose _ hnone _ => simp [hnone] at hrest
  | loop hne _ hrun =>
      simp only [hne, if_false, List.mem_map] at hrest
      obtain ⟨second, hsecond, rfl⟩ := hrest
      obtain ⟨out, hthird, -⟩ := hrun.covers hsecond
      intro hlays
      have hlevel := hthird.level ((removeCards_subperm _ _).trans
        (removeCards_subperm first hand))
      exact absurd (hlevel.stop_iff.mpr hlays) (by simp)

theorem SecondRun.firstLaid (hs : Searchable hand) (hlen : hand.length = 13)
    (hfirst : StraightOf jokerPoint hand first)
    (h : SecondRun jokerPoint hand first out true) :
    ∃ rest, FirstLaid jokerPoint (restsAfter jokerPoint hand first) rest ∧
      ∃ info, out.getLast? = some info ∧ info.score = 0 ∧
        (Bad info ↔ FiveSet jokerPoint rest) := by
  cases h with
  | loop hne _ hrun =>
      obtain ⟨seconds₁, second, seconds₂, out', hsplit, hearlier, hthird,
        pre, rfl⟩ := hrun.stopped
      have hlevel : ∀ second {out stop}, ThirdRun jokerPoint hand
          [first, second] (removeCards second (removeCards first hand)) out
          stop → (stop = true ↔ LaysDown jokerPoint
            (removeCards second (removeCards first hand))) :=
        fun second _ _ hthird => (hthird.level
          ((removeCards_subperm _ _).trans
            (removeCards_subperm first hand))).stop_iff
      have hmem : second ∈
          straightsWithin jokerPoint hand (removeCards first hand) := by
        simp [hsplit]
      obtain ⟨hs', hlen', htypes⟩ := rest_small hs hlen hfirst hmem
      obtain ⟨info, hlast, hzero, hbad⟩ :=
        hthird.stopped_bad hs' htypes hlen'
      refine ⟨_, ⟨seconds₁.map fun second =>
        removeCards second (removeCards first hand), seconds₂.map fun second =>
        removeCards second (removeCards first hand), ?_, ?_,
        (hlevel second hthird).mp rfl⟩, info, ?_, hzero, hbad⟩
      · unfold restsAfter
        simp [hne, hsplit]
      · intro other hother hlays
        obtain ⟨second', hsecond', rfl⟩ := List.mem_map.mp hother
        obtain ⟨out'', hthird'⟩ := hearlier second' hsecond'
        exact absurd ((hlevel second' hthird').mpr hlays) (by simp)
      · rw [List.getLast?_append, hlast]
        rfl

theorem AllRun.orderly {infos : List CombinationInfo} (hs : Searchable hand)
    (hlen : hand.length = 13) (h : AllRun jokerPoint hand infos stop) :
    Orderly infos stop := by
  obtain ⟨-, hsound, -⟩ := @allStraights_spec jokerPoint hand hs
  cases h with
  | loose _ hreport =>
      refine .of_forall_not fun info hinfo => ?_
      rw [List.mem_singleton.mp hinfo]
      exact not_bad_of_reports (by simp) hreport
  | loop _ hrun =>
      refine hrun.closed .nil Orderly.append ?_
      intro first hfirst out stop' hsecond
      exact hsecond.orderly hs hlen
        (hsound first (List.mem_of_mem_filter hfirst))

theorem AllRun.declared {infos : List CombinationInfo} (hs : Searchable hand)
    (h : AllRun jokerPoint hand infos stop) :
    ∀ info ∈ infos, ∃ melds loose, Declared jokerPoint hand melds ∧
      Reports jokerPoint melds loose info := by
  obtain ⟨-, hsound, -⟩ := @allStraights_spec jokerPoint hand hs
  intro info hinfo
  cases h with
  | loose _ hreport =>
      rw [List.mem_singleton.mp hinfo]
      exact ⟨[], hand, Or.inl rfl, hreport⟩
  | loop _ hrun =>
      obtain ⟨first, hfirst, out, stop', hsecond, hmem⟩ := hrun.mem hinfo
      obtain ⟨hfirst, hpure⟩ := List.mem_filter.mp hfirst
      have hfound := hsound first hfirst
      have hne : removeCards first hand ≠ [] := by
        cases hsecond with
        | skipped _ => simp at hmem
        | loose hne _ _ => exact hne
        | loop hne _ _ => exact hne
      obtain ⟨melds, loose, hfill, -, hreport⟩ :=
        (hsecond.level hs hne).laid info hmem
      refine ⟨first :: melds, loose, Or.inr ⟨first, melds, rfl, hfound, ?_,
        hfill⟩, hreport⟩
      rw [sortCards_eq_of_perm (.refl _) (hfound.sorted.resolve_right
        (nonJokers_ne_nil_of_pure hpure))]
      exact hpure

theorem AllRun.firstLaid {infos : List CombinationInfo} (hs : Searchable hand)
    (hlen : hand.length = 13) (h : AllRun jokerPoint hand infos true) :
    ∃ rest, FirstLaid jokerPoint (lifeRests jokerPoint hand) rest ∧
      ∃ info, infos.getLast? = some info ∧ info.score = 0 ∧
        (Bad info ↔ FiveSet jokerPoint rest) := by
  obtain ⟨-, hsound, -⟩ := @allStraights_spec jokerPoint hand hs
  cases h with
  | loop _ hrun =>
      obtain ⟨firsts₁, first, firsts₂, out, hsplit, hearlier, hsecond, pre,
        rfl⟩ := hrun.stopped
      have hmem : first ∈
          searchPureStraightFlush (allStraights jokerPoint hand) := by
        simp [hsplit]
      obtain ⟨rest, hrest, info, hlast, hinfo⟩ := hsecond.firstLaid hs hlen
        (hsound first (List.mem_of_mem_filter hmem))
      refine ⟨rest, ?_, info, ?_, hinfo⟩
      · rw [lifeRests, hsplit, List.flatMap_append, List.flatMap_cons]
        refine hrest.append fun other hother => ?_
        obtain ⟨first', hfirst', hother⟩ := List.mem_flatMap.mp hother
        obtain ⟨out', hsecond'⟩ := hearlier first' hfirst'
        exact hsecond'.not_laysDown other hother
      · rw [List.getLast?_append, hlast]
        rfl

theorem AllRun.not_laysDown {infos : List CombinationInfo}
    (h : AllRun jokerPoint hand infos false) :
    ∀ rest ∈ lifeRests jokerPoint hand, ¬ LaysDown jokerPoint rest := by
  intro rest hrest
  obtain ⟨first, hfirst, hrest⟩ := List.mem_flatMap.mp hrest
  cases h with
  | loose hnone _ => simp [hnone] at hfirst
  | loop _ hrun =>
      obtain ⟨out, hsecond, -⟩ := hrun.covers hfirst
      exact hsecond.not_laysDown rest hrest

end Outer

/-! ## Agreement -/

/-- The first rest that the search lays down is a set of five cards. -/
def FiveSetFirst (jokerPoint : Nat) (hand : List PokerCard) : Prop :=
  ∃ rest, FirstLaid jokerPoint (lifeRests jokerPoint hand) rest ∧
    FiveSet jokerPoint rest

private theorem chosen_bad_iff {jokerPoint : Nat} {hand : List PokerCard}
    (hs : Searchable hand) (hlen : hand.length = 13)
    {infos : List CombinationInfo} {stop : Bool}
    (hrun : AllRun jokerPoint hand infos stop) {info : CombinationInfo}
    (hchosen : (infos.getLast? = some info ∧ info.score = 0) ∨
      ((∀ back, infos.getLast? = some back → back.score ≠ 0) ∧
        FirstLeast infos info)) :
    Bad info ↔ FiveSetFirst jokerPoint hand := by
  cases stop with
  | true =>
      obtain ⟨rest, hfirst, back, hback, hzero, hbad⟩ :=
        hrun.firstLaid hs hlen
      have heq : info = back := by
        rcases hchosen with ⟨hlast, -⟩ | ⟨hpos, -⟩
        · exact Option.some_inj.mp (hlast.symm.trans hback)
        · exact absurd hzero (hpos back hback)
      rw [heq, hbad]
      refine ⟨fun hfive => ⟨rest, hfirst, hfive⟩, ?_⟩
      rintro ⟨rest', hfirst', hfive⟩
      rwa [hfirst.unique hfirst']
  | false =>
      have horderly := hrun.orderly hs hlen
      refine ⟨fun hbad => ?_, ?_⟩
      · rcases hchosen with ⟨hlast, hzero⟩ | ⟨-, pre, post, rfl, hpre, -⟩
        · exact absurd hbad (horderly.last rfl info hlast hzero)
        · obtain ⟨other, hother, hle⟩ :=
            horderly.preceded pre info post rfl hbad
          exact absurd (hpre other hother) (by omega)
      · rintro ⟨rest, ⟨pre, post, heq, -, hlays⟩, -⟩
        exact absurd hlays (hrun.not_laysDown rest (by simp [heq]))

/--
The validator accepts the automatic declare of thirteen cards with the same
score unless the search lays down a set of five cards.
-/
theorem defaultDeclare_checked_iff (self : Combination)
    {hand : List PokerCard} (hdeck : FromDeck hand) (hlen : hand.length = 13)
    (jokerPoint : Nat) :
    ∃ self' score groups,
      defaultDeclare self hand jokerPoint = some (self', score, groups) ∧
        (checkLoseDeclare groups jokerPoint = some score ↔
          ¬ FiveSetFirst jokerPoint hand) := by
  have hs := hdeck.searchable (by omega)
  obtain ⟨self', infos, stop, hsearch, hrun⟩ :=
    @searchAllGroup_run jokerPoint hand self hs
      (List.length_pos_iff.mp (by omega))
  obtain ⟨info, hinfo, hchosen⟩ :=
    chooseInfo_spec (hrun.infos_ne_nil hs (by omega))
  have hmem : info ∈ infos := by
    rcases hchosen with ⟨hlast, -⟩ | ⟨-, pre, post, rfl, -⟩
    · exact List.mem_of_getLast? hlast
    · simp
  obtain ⟨melds, loose, hdeclared, hreport⟩ := hrun.declared hs info hmem
  refine ⟨self', info.score, info.cardGroup,
    by simp [defaultDeclare, hsearch, hinfo], ?_⟩
  rw [hdeclared.checkLoseDeclare_iff hs.deal hreport,
    chosen_bad_iff hs hlen hrun hchosen]

theorem defaultDeclare_checked_sample :
    ∃ self' score groups,
      defaultDeclare ⟨[], [], 0⟩ sampleHand 12 =
          some (self', score, groups) ∧
        (checkLoseDeclare groups 12 = some score ↔
          ¬ FiveSetFirst 12 sampleHand) :=
  defaultDeclare_checked_iff ⟨[], [], 0⟩ (by decide +kernel) rfl 12

def fourKingsHand : List PokerCard :=
  [⟨1, 2⟩, ⟨1, 3⟩, ⟨1, 4⟩, ⟨1, 5⟩, ⟨2, 7⟩, ⟨2, 8⟩, ⟨2, 9⟩, ⟨2, 10⟩, ⟨1, 13⟩,
   ⟨2, 13⟩, ⟨3, 13⟩, ⟨4, 13⟩, ⟨0, 15⟩]

theorem fourKingsHand_refused :
    FromDeck fourKingsHand ∧ fourKingsHand.length = 13 ∧
      ∃ self' groups,
        defaultDeclare ⟨[], [], 0⟩ fourKingsHand 12 =
            some (self', 0, groups) ∧ checkLoseDeclare groups 12 = none := by
  refine ⟨by decide +kernel, rfl, ?_⟩
  have h : (defaultDeclare ⟨[], [], 0⟩ fourKingsHand 12).map
      (fun result => (result.2.1, checkLoseDeclare result.2.2 12)) =
        some (0, none) := by
    decide +kernel
  obtain ⟨⟨self', score, groups⟩, hresult, heq⟩ :=
    Option.map_eq_some_iff.mp h
  obtain ⟨rfl, hcheck⟩ := Prod.mk.inj heq
  exact ⟨self', groups, hresult, hcheck⟩

end StarsGaming.Cards
