import StarsGaming.Cards.Levels

/-!
# The whole search

`searchAllGroup` never fails on a hand from the deck, and its reports are those
of the nested loops: over the pure straights, over the straights that fit into
the remaining cards, and over the groups found among what is left then.
-/

namespace StarsGaming.Cards

open PokerCard
open StarsGaming.Foundation

/-! ## The straights of a hand -/

/-- The object with the jokers of `hand` cached. -/
def cachedFor (jokerPoint : Nat) (hand : List PokerCard) : Combination where
  jokerCards := searchJokerCards jokerPoint hand
  jokerCombines := caculateAllCardsCombines (searchJokerCards jokerPoint hand)
    1 (searchJokerCards jokerPoint hand).length
  jokerPoint := jokerPoint

def allStraights (jokerPoint : Nat) (hand : List PokerCard) :
    List CardGroup :=
  (searchStraightFlush (cachedFor jokerPoint hand) hand).getD []

/-- The straights that fit into `cards`, in the same order. -/
def straightsWithin (jokerPoint : Nat) (hand cards : List PokerCard) :
    List CardGroup :=
  (removeCardGroup cards (allStraights jokerPoint hand)).getD []

section Hand

variable {jokerPoint : Nat} {hand : List PokerCard}

theorem allStraights_spec (hs : Searchable hand) :
    searchStraightFlush (cachedFor jokerPoint hand) hand =
        some (allStraights jokerPoint hand) ∧
      (∀ group ∈ allStraights jokerPoint hand,
        StraightOf jokerPoint hand group) ∧
      ∀ group, Fillable jokerPoint group → group.Subperm hand →
        ∃ found ∈ allStraights jokerPoint hand, found.cards.Perm group := by
  obtain ⟨groups, hgroups, hsound, hcomplete⟩ :=
    @searchStraightFlush_spec (cachedFor jokerPoint hand) hand hs ⟨rfl, rfl⟩
  have heq : allStraights jokerPoint hand = groups := by
    rw [allStraights, hgroups, Option.getD_some]
  rw [heq]
  exact ⟨hgroups, hsound, hcomplete⟩

theorem straightsWithin_spec (hs : Searchable hand) {cards : List PokerCard}
    (hsub : cards.Subperm hand) :
    removeCardGroup cards (allStraights jokerPoint hand) =
        some (straightsWithin jokerPoint hand cards) ∧
      (∀ group ∈ straightsWithin jokerPoint hand cards,
        StraightOf jokerPoint cards group) ∧
      ∀ group, Fillable jokerPoint group → group.Subperm cards →
        ∃ found ∈ straightsWithin jokerPoint hand cards,
          found.cards.Perm group := by
  obtain ⟨-, hsound, hcomplete⟩ := @allStraights_spec jokerPoint hand hs
  have hblank : ∀ group ∈ allStraights jokerPoint hand,
      blank ∉ group.cards := fun group hgroup =>
    (hs.of_subperm (hsound group hgroup).subperm).blank_notMem
  obtain ⟨groups, hgroups, hmem⟩ := removeCardGroup_spec
    (hsub.length_le.trans hs.length) hblank
  have heq : straightsWithin jokerPoint hand cards = groups := by
    rw [straightsWithin, hgroups, Option.getD_some]
  rw [heq]
  refine ⟨hgroups, fun group hgroup => ?_, fun group hfillable hgroup => ?_⟩
  · obtain ⟨hgroup, hfit⟩ := (hmem group).mp hgroup
    have hfound := hsound group hgroup
    exact ⟨hfound.type, hfound.fillable, hfit, hfound.sorted⟩
  · obtain ⟨found, hfound, hperm⟩ := hcomplete group hfillable
      (hgroup.trans hsub)
    exact ⟨found, (hmem found).mpr ⟨hfound, hperm.subperm.trans hgroup⟩,
      hperm⟩

/-! ## Runs of the two outer loops -/

inductive SecondRun (jokerPoint : Nat) (hand : List PokerCard)
    (first : CardGroup) : List CombinationInfo → Bool → Prop
  | skipped (hnil : removeCards first hand = []) :
      SecondRun jokerPoint hand first [] false
  | loose {info : CombinationInfo} (hne : removeCards first hand ≠ [])
      (hnone : straightsWithin jokerPoint hand (removeCards first hand) = [])
      (hinfo : Reports jokerPoint [first] (removeCards first hand) info) :
      SecondRun jokerPoint hand first [info] false
  | loop {outs : List CombinationInfo} {stop : Bool}
      (hne : removeCards first hand ≠ [])
      (hsome : straightsWithin jokerPoint hand (removeCards first hand) ≠ [])
      (hrun : LoopRun (fun second => ThirdRun jokerPoint hand [first, second]
          (removeCards second (removeCards first hand)))
        (straightsWithin jokerPoint hand (removeCards first hand)) outs
        stop) :
      SecondRun jokerPoint hand first outs stop

theorem SecondRun.level {first : CardGroup} {out : List CombinationInfo}
    {stop : Bool} (hs : Searchable hand)
    (hne : removeCards first hand ≠ [])
    (h : SecondRun jokerPoint hand first out stop) :
    Level jokerPoint hand [.straight, .any, .any] [first]
      (removeCards first hand) out stop := by
  have hsub := removeCards_subperm first hand
  obtain ⟨-, hsound, hcomplete⟩ :=
    @straightsWithin_spec jokerPoint hand hs _ hsub
  cases h with
  | skipped hnil => exact absurd hnil hne
  | loose _ hnone hinfo =>
      exact Level.loose hne (not_subperm_of_found_nil hcomplete hnone) hinfo
  | loop _ hsome hrun =>
      refine Level.loop hne hsome hsub hsound hcomplete (hrun.imp ?_)
      intro second _ out stop hthird
      exact hthird.level ((removeCards_subperm second _).trans hsub)

theorem searchFirstGroup_run {self : Combination} (hs : Searchable hand)
    (hready : self.Ready jokerPoint) {first : CardGroup}
    (hfound : StraightOf jokerPoint hand first) :
    ∃ self' out stop,
      searchFirstGroup 0 hand (searchJokerCards jokerPoint hand)
          (allStraights jokerPoint hand) self first =
        some (self', out, stop) ∧
      self'.Ready jokerPoint ∧ SecondRun jokerPoint hand first out stop := by
  have htotal := removeCards_length hfound.subperm
  have hthree := hfound.fillable.1
  have hlen := hs.length
  have hsub := removeCards_subperm first hand
  have hs1 := hs.of_subperm hsub
  obtain ⟨hremove, hsound, hcomplete⟩ :=
    @straightsWithin_spec jokerPoint hand hs _ hsub
  unfold searchFirstGroup
  simp only
  by_cases hnil : removeCards first hand = []
  · rw [if_pos hnil]
    exact ⟨self, [], false, rfl, hready, .skipped hnil⟩
  · rw [if_neg hnil, hremove]
    simp only [Option.bind_eq_bind, Option.bind_some]
    by_cases hnone : straightsWithin jokerPoint hand
        (removeCards first hand) = []
    · rw [if_pos hnone]
      exact ⟨self, _, false, rfl, hready, .loose hnil hnone
        (hready.reports_looseInfo _ hnil true false)⟩
    · rw [if_neg hnone]
      have hjokers : removeCards first (searchJokerCards jokerPoint hand) =
          searchJokerCards jokerPoint (removeCards first hand) := by
        rw [searchJokerCards, searchJokerCards, filter_removeCards]
      obtain ⟨self', outs, stop, hloop, hready', hrun⟩ :=
        loopUntil_run (fun second hsecond s hs' =>
          @searchSecondGroup_run jokerPoint hand first second
            (removeCards first hand) _ s hs' hs1 (by omega) hsub hjokers
            (hsound second hsecond)) hready
      exact ⟨self', outs, stop, hloop, hready', .loop hnil hnone hrun⟩

/-- What `searchAllGroup` reports. -/
inductive AllRun (jokerPoint : Nat) (hand : List PokerCard) :
    List CombinationInfo → Bool → Prop
  | loose {info : CombinationInfo}
      (hnone : searchPureStraightFlush (allStraights jokerPoint hand) = [])
      (hinfo : Reports jokerPoint [] hand info) :
      AllRun jokerPoint hand [info] false
  | loop {outs : List CombinationInfo} {stop : Bool}
      (hsome : searchPureStraightFlush (allStraights jokerPoint hand) ≠ [])
      (hrun : LoopRun (SecondRun jokerPoint hand)
        (searchPureStraightFlush (allStraights jokerPoint hand)) outs stop) :
      AllRun jokerPoint hand outs stop

theorem searchAllGroup_eq (self : Combination) (validCardNumStop : Nat) :
    searchAllGroup { self with jokerPoint := jokerPoint } hand
        validCardNumStop =
      (searchStraightFlush (cachedFor jokerPoint hand) hand).bind
        fun straiGroup =>
          if searchPureStraightFlush straiGroup = [] then
            some (cachedFor jokerPoint hand,
              [looseInfo (cachedFor jokerPoint hand) [] hand false false])
          else
            (loopUntil (searchFirstGroup validCardNumStop hand
                (searchJokerCards jokerPoint hand) straiGroup)
              (cachedFor jokerPoint hand)
              (searchPureStraightFlush straiGroup)).bind
                fun result => some (result.1, result.2.1) :=
  rfl

theorem searchAllGroup_run (self : Combination) (hs : Searchable hand)
    (hne : hand ≠ []) :
    ∃ self' infos stop,
      searchAllGroup { self with jokerPoint := jokerPoint } hand 0 =
        some (self', infos) ∧ AllRun jokerPoint hand infos stop := by
  obtain ⟨hstraights, hsound, -⟩ := @allStraights_spec jokerPoint hand hs
  have hready : (cachedFor jokerPoint hand).Ready jokerPoint := ⟨rfl, rfl⟩
  rw [searchAllGroup_eq, hstraights, Option.bind_some]
  by_cases hnone :
      searchPureStraightFlush (allStraights jokerPoint hand) = []
  · rw [if_pos hnone]
    exact ⟨_, _, false, rfl, .loose hnone
      (hready.reports_looseInfo [] hne false false)⟩
  · rw [if_neg hnone]
    obtain ⟨self', outs, stop, hloop, -, hrun⟩ :=
      loopUntil_run (fun first
          (hfirst : first ∈
            searchPureStraightFlush (allStraights jokerPoint hand)) s hs' =>
        @searchFirstGroup_run jokerPoint hand s hs hs' first
          (hsound first (List.mem_of_mem_filter hfirst))) hready
    rw [hloop]
    exact ⟨self', outs, stop, rfl, .loop hnone hrun⟩

end Hand

/-! ## The arrangement that is chosen -/

def FirstLeast (infos : List CombinationInfo) (info : CombinationInfo) :
    Prop :=
  ∃ pre post, infos = pre ++ info :: post ∧
    (∀ other ∈ pre, info.score < other.score) ∧
    ∀ other ∈ post, info.score ≤ other.score

theorem FirstLeast.le {infos : List CombinationInfo} {info : CombinationInfo}
    (h : FirstLeast infos info) {other : CombinationInfo}
    (hmem : other ∈ infos) : info.score ≤ other.score := by
  obtain ⟨pre, post, rfl, hpre, hpost⟩ := h
  rcases List.mem_append.mp hmem with hmem | hmem
  · exact Nat.le_of_lt (hpre other hmem)
  · rcases List.mem_cons.mp hmem with rfl | hmem
    · exact Nat.le_refl _
    · exact hpost other hmem

theorem minInfo_firstLeast (best : CombinationInfo)
    (rest : List CombinationInfo) :
    FirstLeast (best :: rest) (minInfo best rest) := by
  induction rest generalizing best with
  | nil => exact ⟨[], [], rfl, by simp, by simp⟩
  | cons info rest ih =>
      rw [minInfo]
      split
      · rename_i hlt
        obtain ⟨pre, post, heq, hpre, hpost⟩ := ih info
        refine ⟨best :: pre, post, by simp [heq], ?_, hpost⟩
        intro other hmem
        rcases List.mem_cons.mp hmem with rfl | hmem
        · exact Nat.lt_of_le_of_lt ((ih info).le List.mem_cons_self) hlt
        · exact hpre other hmem
      · rename_i hle
        obtain ⟨pre, post, heq, hpre, hpost⟩ := ih best
        cases pre with
        | nil =>
            obtain ⟨hbest, rfl⟩ := List.cons.inj heq
            refine ⟨[], info :: rest, by simp [← hbest], by simp, ?_⟩
            intro other hmem
            rw [← hbest] at hpost ⊢
            rcases List.mem_cons.mp hmem with rfl | hmem
            · omega
            · exact hpost other hmem
        | cons first pre =>
            obtain ⟨rfl, hrest⟩ := List.cons.inj heq
            refine ⟨best :: info :: pre, post,
              congrArg (best :: info :: ·) hrest, ?_, hpost⟩
            have hlt := hpre best List.mem_cons_self
            intro other hmem
            rcases List.mem_cons.mp hmem with rfl | hmem
            · exact hlt
            · rcases List.mem_cons.mp hmem with rfl | hmem
              · omega
              · exact hpre other (List.mem_cons_of_mem _ hmem)

theorem chooseInfo_spec {infos : List CombinationInfo} (hne : infos ≠ []) :
    ∃ info, chooseInfo infos = some info ∧
      ((infos.getLast? = some info ∧ info.score = 0) ∨
        ((∀ back, infos.getLast? = some back → back.score ≠ 0) ∧
          FirstLeast infos info)) := by
  obtain ⟨front, rest, rfl⟩ := List.exists_cons_of_ne_nil hne
  have hlast := List.getLast?_eq_some_getLast hne
  rw [chooseInfo]
  split
  · rename_i hzero
    exact ⟨_, rfl, Or.inl ⟨hlast, hzero⟩⟩
  · rename_i hpos
    refine ⟨_, rfl, Or.inr ⟨?_, ?_⟩⟩
    · intro back hback
      rw [hlast, Option.some_inj] at hback
      exact hback ▸ hpos
    -- the scan starts over at the front, which is not less than itself
    · rw [minInfo, if_neg (Nat.lt_irrefl _)]
      exact minInfo_firstLeast front rest

theorem chooseInfo_le {infos : List CombinationInfo} {score : Nat}
    (h : (∃ back, infos.getLast? = some back ∧ back.score = 0) ∨
      ∃ info ∈ infos, info.score ≤ score) :
    ∃ info, chooseInfo infos = some info ∧ info.score ≤ score := by
  have hne : infos ≠ [] := by
    rintro rfl
    simp at h
  obtain ⟨info, hinfo, ⟨-, hzero⟩ | ⟨hback, hleast⟩⟩ := chooseInfo_spec hne
  · exact ⟨info, hinfo, by omega⟩
  · refine ⟨info, hinfo, ?_⟩
    rcases h with ⟨back, hlast, hzero⟩ | ⟨other, hmem, hscore⟩
    · exact absurd hzero (hback back hlast)
    · exact (hleast.le hmem).trans hscore

end StarsGaming.Cards
