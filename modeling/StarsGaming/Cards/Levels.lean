import StarsGaming.Cards.Sets

/-!
# The nested searches

Every level of `search_all_group` puts one more group into its place and hands
the remaining cards to the next level.  `Level` says what a level reports: its
arrangements are laid out of the cards, it returns early exactly when the
cards can be covered, and otherwise some arrangement is as good as any that
the remaining places allow.
-/

namespace StarsGaming.Cards

open PokerCard
open StarsGaming.Foundation

/-! ## Places and what may fill them -/

/-- The second group must be a straight, the third and the fourth need not. -/
inductive Place where
  | straight
  | any
  deriving DecidableEq, Repr

def Place.Accepts (jokerPoint : Nat) (group : List PokerCard) : Place → Prop
  | .straight => Fillable jokerPoint group
  | .any => Fillable jokerPoint group ∨ SetShape jokerPoint group

def Place.Found (jokerPoint : Nat) (cards : List PokerCard)
    (group : CardGroup) : Place → Prop
  | .straight => StraightOf jokerPoint cards group
  | .any => StraightOf jokerPoint cards group ∨ SetOf jokerPoint cards group

def Fill {β : Type*} (P : β → Place → Prop) : List Place → List β → Prop
  | _, [] => True
  | [], _ :: _ => False
  | place :: places, b :: rest => P b place ∧ Fill P places rest

theorem StraightOf.mono {jokerPoint : Nat} {cards cards' : List PokerCard}
    {group : CardGroup} (h : StraightOf jokerPoint cards group)
    (hsub : cards.Subperm cards') : StraightOf jokerPoint cards' group :=
  ⟨h.type, h.fillable, h.subperm.trans hsub, h.sorted⟩

section Places

variable {jokerPoint : Nat} {cards cards' : List PokerCard}
  {group : CardGroup} {place : Place}

theorem Place.Found.mono (h : place.Found jokerPoint cards group)
    (hsub : cards.Subperm cards') : place.Found jokerPoint cards' group := by
  cases place with
  | straight => exact StraightOf.mono h hsub
  | any =>
      rcases h with h | h
      · exact Or.inl (h.mono hsub)
      · exact Or.inr ⟨h.type, h.shape, h.subperm.trans hsub⟩

theorem Place.Found.restrict (h : place.Found jokerPoint cards group)
    (hsub : group.cards.Subperm cards') :
    place.Found jokerPoint cards' group := by
  cases place with
  | straight => exact ⟨h.type, h.fillable, hsub, h.sorted⟩
  | any =>
      rcases h with h | h
      · exact Or.inl ⟨h.type, h.fillable, hsub, h.sorted⟩
      · exact Or.inr ⟨h.type, h.shape, hsub⟩

theorem Place.Found.subperm (h : place.Found jokerPoint cards group) :
    group.cards.Subperm cards := by
  cases place with
  | straight => exact StraightOf.subperm h
  | any =>
      rcases h with h | h
      · exact h.subperm
      · exact h.subperm

theorem Place.Found.accepts (h : place.Found jokerPoint cards group) :
    place.Accepts jokerPoint group.cards := by
  cases place with
  | straight => exact StraightOf.fillable h
  | any =>
      rcases h with h | h
      · exact Or.inl h.fillable
      · exact Or.inr h.shape

theorem Place.Accepts.length {cards : List PokerCard}
    (h : place.Accepts jokerPoint cards) : 3 ≤ cards.length := by
  cases place with
  | straight => exact h.1
  | any =>
      rcases h with h | h
      · exact h.1
      · exact h.length

end Places

/-! ## Arrangements and what a level reports -/

def looseGroups (loose : List PokerCard) : List CardGroup :=
  if loose = [] then [] else [⟨GROUP_INVALID, loose⟩]

structure Reports (jokerPoint : Nat) (melds : List CardGroup)
    (loose : List PokerCard) (info : CombinationInfo) : Prop where
  score : info.score = caculateCardScore loose jokerPoint
  cardGroup : info.cardGroup = melds ++ looseGroups loose

theorem reports_completeInfo (jokerPoint : Nat) (melds : List CardGroup) :
    Reports jokerPoint melds [] (completeInfo melds) :=
  ⟨rfl, by simp [looseGroups, completeInfo]⟩

theorem reports_looseInfo (self : Combination) (melds : List CardGroup)
    {loose : List PokerCard} (hne : loose ≠ []) (first second : Bool) :
    Reports self.jokerPoint melds loose
      (looseInfo self melds loose first second) :=
  ⟨rfl, by simp [looseGroups, looseInfo, hne]⟩

def laidCards (melds : List CardGroup) : List PokerCard :=
  melds.flatMap CardGroup.cards

/-- The places can be filled so that `loose` is left over. -/
def Arranges (jokerPoint : Nat) (places : List Place)
    (cards loose : List PokerCard) : Prop :=
  ∃ groups, Fill (fun group place => place.Accepts jokerPoint group) places
    groups ∧ (groups.flatten ++ loose).Perm cards

structure Level (jokerPoint : Nat) (hand : List PokerCard)
    (places : List Place) (before : List CardGroup) (cards : List PokerCard)
    (out : List CombinationInfo) (stop : Bool) : Prop where
  laid : ∀ info ∈ out, ∃ melds loose,
    Fill (fun group place => place.Found jokerPoint hand group) places melds ∧
      (laidCards melds ++ loose).Perm cards ∧
      Reports jokerPoint (before ++ melds) loose info
  stop_iff : stop = true ↔ Arranges jokerPoint places cards []
  stopped : stop = true → ∃ info melds, out.getLast? = some info ∧
    Fill (fun group place => place.Found jokerPoint hand group) places melds ∧
      (laidCards melds).Perm cards ∧
      Reports jokerPoint (before ++ melds) [] info
  best : stop = false → ∀ loose, Arranges jokerPoint places cards loose →
    ∃ info ∈ out, info.score ≤ caculateCardScore loose jokerPoint

section Levels

variable {jokerPoint : Nat} {hand cards : List PokerCard}
  {places : List Place} {before : List CardGroup}

theorem Arranges.nil (jokerPoint : Nat) (places : List Place) :
    Arranges jokerPoint places [] [] :=
  ⟨[], by cases places <;> trivial, by simp⟩

theorem Level.complete :
    Level jokerPoint hand places before [] [completeInfo before] true := by
  have hfill : Fill (fun group place => place.Found jokerPoint hand group)
      places ([] : List CardGroup) := by
    cases places <;> trivial
  have hreport : Reports jokerPoint (before ++ []) []
      (completeInfo before) := by
    rw [List.append_nil]
    exact reports_completeInfo jokerPoint before
  refine ⟨?_, by simp [Arranges.nil], fun _ => ?_, by simp⟩
  · intro info hinfo
    obtain rfl := List.mem_singleton.mp hinfo
    exact ⟨[], [], hfill, by simp [laidCards], hreport⟩
  · exact ⟨_, [], rfl, hfill, by simp [laidCards], hreport⟩

theorem not_subperm_of_found_nil {place : Place} {items : List CardGroup}
    (hcomplete : ∀ group, place.Accepts jokerPoint group →
      group.Subperm cards → ∃ found ∈ items, found.cards.Perm group)
    (hnil : items = []) :
    ∀ place' rest, place :: places = place' :: rest → ∀ group,
      place'.Accepts jokerPoint group → ¬ group.Subperm cards := by
  rintro _ _ ⟨rfl, rfl⟩ group haccepts hgroup
  obtain ⟨found, hfound, -⟩ := hcomplete group haccepts hgroup
  rw [hnil] at hfound
  cases hfound

theorem Arranges.perm_of_none {loose : List PokerCard}
    (h : Arranges jokerPoint places cards loose)
    (hnone : ∀ place rest, places = place :: rest → ∀ group,
      place.Accepts jokerPoint group → ¬ group.Subperm cards) :
    loose.Perm cards := by
  obtain ⟨groups, hfill, hperm⟩ := h
  cases groups with
  | nil => simpa using hperm
  | cons group groups =>
      cases places with
      | nil => exact hfill.elim
      | cons place places =>
          refine absurd ?_ (hnone place places rfl group hfill.1)
          refine List.Subperm.trans (List.Sublist.subperm ?_) hperm.subperm
          rw [List.flatten_cons, List.append_assoc]
          exact List.sublist_append_left _ _

theorem Level.loose {info : CombinationInfo} (hne : cards ≠ [])
    (hnone : ∀ place rest, places = place :: rest → ∀ group,
      place.Accepts jokerPoint group → ¬ group.Subperm cards)
    (hinfo : Reports jokerPoint before cards info) :
    Level jokerPoint hand places before cards [info] false := by
  refine ⟨?_, ?_, by simp, ?_⟩
  · intro info' hinfo'
    obtain rfl := List.mem_singleton.mp hinfo'
    exact ⟨[], cards, by cases places <;> trivial, by simp [laidCards],
      by rwa [List.append_nil]⟩
  · simp only [Bool.false_eq_true, false_iff]
    intro harranged
    exact hne (harranged.perm_of_none hnone).symm.eq_nil
  · intro _ loose harranged
    refine ⟨info, by simp, ?_⟩
    rw [hinfo.score, caculateCardScore_perm (harranged.perm_of_none hnone)]

theorem Arranges.of_removeCards {place : Place} {group : CardGroup}
    {loose : List PokerCard} (hsub : group.cards.Subperm cards)
    (haccepts : place.Accepts jokerPoint group.cards)
    (h : Arranges jokerPoint places (removeCards group cards) loose) :
    Arranges jokerPoint (place :: places) cards loose := by
  obtain ⟨groups, hfill, hperm⟩ := h
  refine ⟨group.cards :: groups, ⟨haccepts, hfill⟩, ?_⟩
  rw [List.flatten_cons, List.append_assoc]
  exact (hperm.append_left group.cards).trans (removeCards_perm hsub)

theorem removeCards_perm_of_perm {group : CardGroup}
    {cards' rest : List PokerCard} (hgroup : group.cards.Perm cards')
    (h : (cards' ++ rest).Perm cards) :
    rest.Perm (removeCards group cards) := by
  have h' : (group.cards ++ rest).Perm cards := (hgroup.append_right rest).trans h
  have hsub : group.cards.Subperm cards :=
    (List.sublist_append_left _ rest).subperm.trans h'.subperm
  exact (List.perm_append_left_iff group.cards).mp
    (h'.trans (removeCards_perm hsub).symm)

theorem laidCards_cons_perm {group : CardGroup} {melds : List CardGroup}
    {loose : List PokerCard} (hsub : group.cards.Subperm cards)
    (hperm : (laidCards melds ++ loose).Perm (removeCards group cards)) :
    (laidCards (group :: melds) ++ loose).Perm cards := by
  rw [laidCards, List.flatMap_cons, List.append_assoc]
  exact (hperm.append_left group.cards).trans (removeCards_perm hsub)

theorem Arranges.first_cases {place : Place} {items : List CardGroup}
    {loose : List PokerCard}
    (hcomplete : ∀ group, place.Accepts jokerPoint group →
      group.Subperm cards → ∃ found ∈ items, found.cards.Perm group)
    (h : Arranges jokerPoint (place :: places) cards loose) :
    loose.Perm cards ∨ ∃ found ∈ items,
      Arranges jokerPoint places (removeCards found cards) loose := by
  obtain ⟨groups, hfill, hperm⟩ := h
  cases groups with
  | nil => exact Or.inl (by simpa using hperm)
  | cons group groups =>
      rw [List.flatten_cons, List.append_assoc] at hperm
      have hgroup : group.Subperm cards :=
        (List.sublist_append_left _ _).subperm.trans hperm.subperm
      obtain ⟨found, hfound, hfperm⟩ := hcomplete group hfill.1 hgroup
      exact Or.inr ⟨found, hfound, groups, hfill.2,
        removeCards_perm_of_perm hfperm hperm⟩

private theorem Level.loop_laid {place : Place} {items : List CardGroup}
    {outs : List CombinationInfo} {stop : Bool}
    (hsub : cards.Subperm hand)
    (hsound : ∀ group ∈ items, place.Found jokerPoint cards group)
    (hrun : LoopRun (fun group => Level jokerPoint hand places
      (before ++ [group]) (removeCards group cards)) items outs stop) :
    ∀ info ∈ outs, ∃ melds loose,
      Fill (fun group place => place.Found jokerPoint hand group)
        (place :: places) melds ∧
      (laidCards melds ++ loose).Perm cards ∧
      Reports jokerPoint (before ++ melds) loose info := by
  intro info hinfo
  obtain ⟨group, hgroup, out, stop', hlevel, hmem⟩ := hrun.mem hinfo
  obtain ⟨melds, loose, hfill, hperm, hreport⟩ := hlevel.laid info hmem
  refine ⟨group :: melds, loose, ⟨(hsound group hgroup).mono hsub, hfill⟩,
    laidCards_cons_perm (hsound group hgroup).subperm hperm,
    by simpa using hreport⟩

theorem Level.loop {place : Place} {items : List CardGroup}
    {outs : List CombinationInfo} {stop : Bool} (hne : cards ≠ [])
    (hitems : items ≠ []) (hsub : cards.Subperm hand)
    (hsound : ∀ group ∈ items, place.Found jokerPoint cards group)
    (hcomplete : ∀ group, place.Accepts jokerPoint group →
      group.Subperm cards → ∃ found ∈ items, found.cards.Perm group)
    (hrun : LoopRun (fun group => Level jokerPoint hand places
      (before ++ [group]) (removeCards group cards)) items outs stop) :
    Level jokerPoint hand (place :: places) before cards outs stop := by
  refine ⟨Level.loop_laid hsub hsound hrun, ⟨?_, ?_⟩, ?_, ?_⟩
  · rintro rfl
    obtain ⟨items₁, group, items₂, out, rfl, -, hlevel, -⟩ := hrun.stopped
    have hfound := hsound group (by simp)
    exact (hlevel.stop_iff.mp rfl).of_removeCards hfound.subperm
      hfound.accepts
  · intro harranged
    rcases harranged.first_cases hcomplete with hperm | ⟨found, hfound, hrest⟩
    · exact absurd hperm.symm.eq_nil hne
    · by_contra hstop
      obtain rfl : stop = false := by simpa using hstop
      obtain ⟨out, hlevel, -⟩ := hrun.covers hfound
      exact absurd (hlevel.stop_iff.mpr hrest) (by simp)
  · rintro rfl
    obtain ⟨items₁, group, items₂, out, rfl, -, hlevel, hsuffix⟩ :=
      hrun.stopped
    obtain ⟨info, melds, hlast, hfill, hperm, hreport⟩ := hlevel.stopped rfl
    have hfound := hsound group (by simp)
    refine ⟨info, group :: melds, ?_, ⟨hfound.mono hsub, hfill⟩, ?_,
      by simpa using hreport⟩
    · obtain ⟨pre, rfl⟩ := hsuffix
      rw [List.getLast?_append, hlast]
      rfl
    · rw [laidCards, List.flatMap_cons]
      exact (hperm.append_left group.cards).trans
        (removeCards_perm hfound.subperm)
  · rintro rfl loose harranged
    rcases harranged.first_cases hcomplete with hperm | ⟨found, hfound, hrest⟩
    · obtain ⟨group, hgroup⟩ := List.exists_mem_of_ne_nil items hitems
      obtain ⟨out, hlevel, hout⟩ := hrun.covers hgroup
      obtain ⟨info, hinfo, hscore⟩ := hlevel.best rfl
        (removeCards group cards) ⟨[], by cases places <;> trivial, by simp⟩
      refine ⟨info, hout hinfo, hscore.trans ?_⟩
      rw [caculateCardScore_perm hperm,
        ← caculateCardScore_perm
          (removeCards_perm (hsound group hgroup).subperm),
        caculateCardScore_append]
      omega
    · obtain ⟨out, hlevel, hout⟩ := hrun.covers hfound
      obtain ⟨info, hinfo, hscore⟩ := hlevel.best rfl loose hrest
      exact ⟨info, hout hinfo, hscore⟩

end Levels

/-! ## The levels of the code -/

structure Combination.Ready (c : Combination) (jokerPoint : Nat) : Prop where
  jokerPoint : c.jokerPoint = jokerPoint
  combines : c.jokerCombines =
    caculateAllCardsCombines c.jokerCards 1 c.jokerCards.length

theorem removeCards_length {group : CardGroup} {cards : List PokerCard}
    (h : group.cards.Subperm cards) :
    group.cards.length + (removeCards group cards).length = cards.length := by
  rw [← List.length_append, (removeCards_perm h).length_eq]

theorem removeCards_subperm (group : CardGroup) (cards : List PokerCard) :
    (removeCards group cards).Subperm cards :=
  (List.diff_sublist cards group.cards).subperm

theorem Combination.Ready.reports_looseInfo {self : Combination}
    {jokerPoint : Nat} (h : self.Ready jokerPoint) (melds : List CardGroup)
    {loose : List PokerCard} (hne : loose ≠ []) (first second : Bool) :
    Reports jokerPoint melds loose
      (looseInfo self melds loose first second) :=
  h.jokerPoint ▸ Cards.reports_looseInfo self melds hne first second

/-- Cards that are left over do not end a search that is to use them all. -/
private theorem stop_of_ne_nil {cards : List PokerCard} (hne : cards ≠ []) :
    decide (cards.length ≤ 0) = false := by
  simpa using hne

section Code

variable {jokerPoint : Nat} {hand : List PokerCard} {first second : CardGroup}

theorem searchFourthGroup_level {cards3 : List PokerCard} {third : CardGroup}
    {self : Combination} (hready : self.Ready jokerPoint)
    (hlen : cards3.length ≤ 5) {fourth : CardGroup}
    (hfound : Place.any.Found jokerPoint cards3 fourth) :
    ∃ self' out stop,
      searchFourthGroup 0 first second third cards3 self fourth =
        some (self', out, stop) ∧
      self'.Ready jokerPoint ∧
      Level jokerPoint hand [] ([first, second, third] ++ [fourth])
        (removeCards fourth cards3) out stop := by
  have htotal := removeCards_length hfound.subperm
  have hthree := hfound.accepts.length
  unfold searchFourthGroup
  simp only
  by_cases hnil : removeCards fourth cards3 = []
  · rw [if_pos hnil, hnil]
    exact ⟨self, _, true, rfl, hready, Level.complete⟩
  · have hpos := List.length_pos_iff.mpr hnil
    rw [if_neg hnil, if_pos (by omega), stop_of_ne_nil hnil]
    exact ⟨self, _, false, rfl, hready, Level.loose hnil (by simp)
      (hready.reports_looseInfo _ hnil true true)⟩

theorem searchThirdGroup_level {cards2 : List PokerCard}
    {groups : List CardGroup} {self : Combination}
    (hready : self.Ready jokerPoint) (hs : Searchable cards2)
    (hlen : cards2.length ≤ 8) (hsub : cards2.Subperm hand)
    (hsound : ∀ group ∈ groups, Place.any.Found jokerPoint cards2 group)
    (hcomplete : ∀ group, Place.any.Accepts jokerPoint group →
      group.Subperm cards2 → ∃ found ∈ groups, found.cards.Perm group)
    {third : CardGroup} (hfound : Place.any.Found jokerPoint cards2 third) :
    ∃ self' out stop,
      searchThirdGroup 0 first second cards2 groups self third =
        some (self', out, stop) ∧
      self'.Ready jokerPoint ∧
      Level jokerPoint hand [.any] ([first, second] ++ [third])
        (removeCards third cards2) out stop := by
  have htotal := removeCards_length hfound.subperm
  have hthree := hfound.accepts.length
  unfold searchThirdGroup
  simp only
  by_cases hnil : removeCards third cards2 = []
  · rw [if_pos hnil, hnil]
    exact ⟨self, _, true, rfl, hready, Level.complete⟩
  · rw [if_neg hnil]
    have hblank : ∀ group ∈ groups, blank ∉ group.cards := fun group hgroup =>
      (hs.of_subperm (hsound group hgroup).subperm).blank_notMem
    obtain ⟨allGroup3, hremove, hmem⟩ :=
      @removeCardGroup_spec (removeCards third cards2) (by omega) groups hblank
    have hfits : ∀ group, Place.any.Accepts jokerPoint group →
        group.Subperm (removeCards third cards2) →
        ∃ found ∈ allGroup3, found.cards.Perm group := by
      intro group haccepts hgroup
      obtain ⟨found, hfound, hperm⟩ := hcomplete group haccepts
        (hgroup.trans (removeCards_subperm third cards2))
      exact ⟨found, (hmem found).mpr ⟨hfound, hperm.subperm.trans hgroup⟩,
        hperm⟩
    rw [hremove]
    simp only [Option.bind_eq_bind, Option.bind_some]
    by_cases hnone : allGroup3 = []
    · rw [if_pos hnone, stop_of_ne_nil hnil]
      exact ⟨self, _, false, rfl, hready,
        Level.loose hnil (not_subperm_of_found_nil hfits hnone)
          (hready.reports_looseInfo _ hnil true true)⟩
    · rw [if_neg hnone]
      have hsound3 : ∀ group ∈ allGroup3,
          Place.any.Found jokerPoint (removeCards third cards2) group := by
        intro group hgroup
        obtain ⟨hgroup, hfit⟩ := (hmem group).mp hgroup
        exact (hsound group hgroup).restrict hfit
      obtain ⟨self', outs, stop, hloop, hready', hrun⟩ :=
        loopUntil_run (fun fourth hfourth s hs' =>
          @searchFourthGroup_level jokerPoint hand first second
            (removeCards third cards2) third s hs' (by omega) fourth
            (hsound3 fourth hfourth)) hready
      refine ⟨self', outs, stop, hloop, hready', Level.loop hnil hnone
        ((removeCards_subperm third cards2).trans hsub) hsound3 hfits hrun⟩

inductive ThirdRun (jokerPoint : Nat) (hand : List PokerCard)
    (before : List CardGroup) (cards : List PokerCard) :
    List CombinationInfo → Bool → Prop
  | complete (hnil : cards = []) :
      ThirdRun jokerPoint hand before cards [completeInfo before] true
  | loose {info : CombinationInfo} (hne : cards ≠ [])
      (hnone : ∀ group, Place.any.Accepts jokerPoint group →
        ¬ group.Subperm cards)
      (hinfo : Reports jokerPoint before cards info) :
      ThirdRun jokerPoint hand before cards [info] false
  | loop {straights sets : List CardGroup} {outs : List CombinationInfo}
      {stop : Bool} (hne : cards ≠ []) (hitems : straights ++ sets ≠ [])
      (hstraights : ∀ group ∈ straights, StraightOf jokerPoint cards group)
      (hfillable : ∀ group, Fillable jokerPoint group →
        group.Subperm cards → ∃ found ∈ straights, found.cards.Perm group)
      (hsets : ∀ group ∈ sets, SetOf jokerPoint cards group)
      (hshape : ∀ group, SetShape jokerPoint group →
        group.Subperm cards → ∃ found ∈ sets, found.cards.Perm group)
      (horder : SetOrder jokerPoint cards sets)
      (hrun : LoopRun (fun third => Level jokerPoint hand [.any]
        (before ++ [third]) (removeCards third cards))
        (straights ++ sets) outs stop) :
      ThirdRun jokerPoint hand before cards outs stop

theorem found_append {cards : List PokerCard}
    {straights sets : List CardGroup}
    (hstraights : ∀ group ∈ straights, StraightOf jokerPoint cards group)
    (hsets : ∀ group ∈ sets, SetOf jokerPoint cards group) :
    ∀ group ∈ straights ++ sets,
      Place.any.Found jokerPoint cards group := by
  intro group hgroup
  rcases List.mem_append.mp hgroup with hgroup | hgroup
  · exact Or.inl (hstraights group hgroup)
  · exact Or.inr (hsets group hgroup)

theorem exists_found_append {cards : List PokerCard}
    {straights sets : List CardGroup}
    (hfillable : ∀ group, Fillable jokerPoint group →
      group.Subperm cards → ∃ found ∈ straights, found.cards.Perm group)
    (hshape : ∀ group, SetShape jokerPoint group →
      group.Subperm cards → ∃ found ∈ sets, found.cards.Perm group) :
    ∀ group, Place.any.Accepts jokerPoint group → group.Subperm cards →
      ∃ found ∈ straights ++ sets, found.cards.Perm group := by
  rintro group (haccepts | haccepts) hsub
  · obtain ⟨found, hfound, hperm⟩ := hfillable group haccepts hsub
    exact ⟨found, List.mem_append_left _ hfound, hperm⟩
  · obtain ⟨found, hfound, hperm⟩ := hshape group haccepts hsub
    exact ⟨found, List.mem_append_right _ hfound, hperm⟩

theorem ThirdRun.level {before : List CardGroup} {cards : List PokerCard}
    {out : List CombinationInfo} {stop : Bool} (hsub : cards.Subperm hand)
    (h : ThirdRun jokerPoint hand before cards out stop) :
    Level jokerPoint hand [.any, .any] before cards out stop := by
  cases h with
  | complete hnil =>
      subst hnil
      exact Level.complete
  | loose hne hnone hinfo =>
      refine Level.loose hne ?_ hinfo
      rintro place rest ⟨rfl, rfl⟩
      exact hnone
  | loop hne hitems hstraights hfillable hsets hshape horder hrun =>
      exact Level.loop hne hitems hsub (found_append hstraights hsets)
        (exists_found_append hfillable hshape) hrun

theorem refreshJokers_caches {self : Combination} {cards jokers : List PokerCard}
    (hready : self.Ready jokerPoint)
    (hjokers : jokers = searchJokerCards jokerPoint cards) :
    (refreshJokers self jokers).Ready jokerPoint ∧
      (refreshJokers self jokers).Caches cards := by
  unfold refreshJokers
  split
  · exact ⟨⟨hready.jokerPoint, rfl⟩, ⟨by rw [hready.jokerPoint, hjokers], rfl⟩⟩
  · rename_i hsame
    rw [ne_eq, not_not] at hsame
    exact ⟨hready, ⟨by rw [hready.jokerPoint, hsame, hjokers],
      hready.combines⟩⟩

theorem searchSecondGroup_run {cards1 jokerCards1 : List PokerCard}
    {self : Combination} (hready : self.Ready jokerPoint)
    (hs : Searchable cards1) (hlen : cards1.length ≤ 11)
    (hsub : cards1.Subperm hand)
    (hjokers : jokerCards1 = searchJokerCards jokerPoint cards1)
    (hfound : StraightOf jokerPoint cards1 second) :
    ∃ self' out stop,
      searchSecondGroup 0 first cards1 jokerCards1 self second =
        some (self', out, stop) ∧
      self'.Ready jokerPoint ∧
      ThirdRun jokerPoint hand [first, second] (removeCards second cards1) out
        stop := by
  have htotal := removeCards_length hfound.subperm
  have hthree := hfound.fillable.1
  have hsub2 := removeCards_subperm second cards1
  have hs2 := hs.of_subperm hsub2
  unfold searchSecondGroup
  simp only
  by_cases hnil : removeCards second cards1 = []
  · rw [if_pos hnil]
    exact ⟨self, _, true, rfl, hready, .complete hnil⟩
  · rw [if_neg hnil]
    have hjokers2 : removeCards second jokerCards1 =
        searchJokerCards jokerPoint (removeCards second cards1) := by
      rw [hjokers, searchJokerCards, searchJokerCards, filter_removeCards]
    obtain ⟨hready2, hcaches⟩ := refreshJokers_caches hready hjokers2
    obtain ⟨straights, hstraight, hstraights, hfillable⟩ :=
      searchStraightFlush_spec hs2 hcaches
    obtain ⟨sets, hset, hsets, hshape, horder⟩ :=
      searchThreeOfKind_spec hs2 hcaches
    rw [hready2.jokerPoint] at hstraights hfillable hsets hshape horder
    rw [hstraight, hset]
    simp only [Option.bind_eq_bind, Option.bind_some]
    have hcomplete := exists_found_append hfillable hshape
    by_cases hnone : straights ++ sets = []
    · rw [if_pos hnone, stop_of_ne_nil hnil]
      refine ⟨_, _, false, rfl, hready2, .loose hnil ?_
        (hready2.reports_looseInfo _ hnil true true)⟩
      intro group haccepts hgroup
      obtain ⟨found, hfound, -⟩ := hcomplete group haccepts hgroup
      simp [hnone] at hfound
    · rw [if_neg hnone]
      have hsound := found_append hstraights hsets
      obtain ⟨self', outs, stop, hloop, hready', hrun⟩ :=
        loopUntil_run (fun third hthird s hs' =>
          @searchThirdGroup_level jokerPoint hand first second
            (removeCards second cards1) (straights ++ sets) s hs' hs2
            (by omega) (hsub2.trans hsub) hsound hcomplete third
            (hsound third hthird)) hready2
      exact ⟨self', outs, stop, hloop, hready', .loop hnil hnone hstraights
        hfillable hsets hshape horder hrun⟩

end Code

end StarsGaming.Cards
