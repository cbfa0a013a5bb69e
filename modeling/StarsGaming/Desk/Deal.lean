import StarsGaming.Desk.Turns

/-!
# A new game is dealt

From two seated players on a new game never fails: every seat is made ready,
a dealer is found, every seated player gets thirteen cards of the double deck,
and an ordinary card is left over to be the joker.
-/

namespace StarsGaming.Desk

open Cards

def Place.ready (p : Place) : Place :=
  { p with
    ingame := p.seated
    joined := p.seated
    declared := false
    hand := []
    chips := 0 }

namespace GameDesk

variable {desk : GameDesk}

/-! ## Getting ready -/

theorem readyForGame_ok {seat : GameSeat}
    (h : seat.status.seated → seat.player.isSome) :
    ∃ seat', seat.readyForGame = .ok seat' ∧
      seat'.place = seat.place.ready := by
  unfold GameSeat.readyForGame
  by_cases hseated : seat.status.seated
  · obtain ⟨player, hplayer⟩ := Option.isSome_iff_exists.mp (h hseated)
    rw [if_pos hseated, hplayer]
    exact ⟨_, rfl, by simp [GameSeat.place, Place.ready, hseated, hplayer, SeatStatus.idle]⟩
  · rw [if_neg hseated]
    exact ⟨_, rfl, by simp [GameSeat.place, Place.ready, hseated, SeatStatus.idle]⟩

/-- The seats before `numbers` are ready, those in it are as they were. -/
structure ReadyLoop (desk : GameDesk) (numbers : List SeatNum)
    (desk' : GameDesk) : Prop where
  nodup : numbers.Nodup
  frame : desk'.table = { desk.table with place := desk'.table.place }
  todo : ∀ number ∈ numbers, desk'.seats number = desk.seats number
  done : ∀ number ∉ numbers,
    desk'.table.place number = (desk.table.place number).ready

theorem ReadyLoop.step {numbers : List SeatNum} {number : SeatNum}
    {desk' : GameDesk} (h : desk.ReadyLoop (number :: numbers) desk')
    (hplayer : (desk.seats number).status.seated →
      (desk.seats number).player.isSome) :
    ∃ next, desk'.readySeat number = .ok next ∧
      desk.ReadyLoop numbers next := by
  have hnodup := List.nodup_cons.mp h.nodup
  have hseat := h.todo number List.mem_cons_self
  obtain ⟨seat, hready, hplace⟩ := readyForGame_ok hplayer
  refine ⟨desk'.setSeat number seat, ?_, hnodup.2, ?_, ?_, ?_⟩
  · rw [readySeat, hseat, hready]
    rfl
  · rw [table_setSeat, h.frame]
    rfl
  · intro other hother
    have hne : other ≠ number := fun heq => hnodup.1 (heq ▸ hother)
    rw [← h.todo other (List.mem_cons_of_mem _ hother)]
    exact Function.update_of_ne hne ..
  · intro other hother
    rw [table_setSeat, Table.put_place]
    split
    next heq =>
      rw [hplace, heq]
      rfl
    next hne =>
      exact h.done other fun hmem =>
        (List.mem_cons.mp hmem).elim hne hother

theorem seatNums_nodup : seatNums.Nodup := List.nodup_finRange 5

theorem mem_seatNums (number : SeatNum) : number ∈ seatNums :=
  List.mem_finRange number

theorem stepDeskReady_ok (h : desk.table.Sound .rest) :
    ∃ desk', desk.stepDeskReady = .ok desk' ∧
      desk'.table = { desk.table with
        place := fun number => (desk.table.place number).ready
        pool := []
        charged := []
        gone := [] } := by
  let cleared : GameDesk :=
    { desk with
      pokercardPool := []
      isFirstPoolCard := true
      record := { desk.record with charged := [], gone := [] } }
  obtain ⟨desk', hloop, hdone⟩ :=
    @Foundation.foldlM_ok _ _ _ readySeat (ReadyLoop cleared)
      (fun number _ _ hloop => hloop.step fun hseated =>
        (h.places number).player.trans hseated) seatNums cleared
      ⟨seatNums_nodup, rfl, fun _ _ => rfl, fun number hnot =>
        absurd (mem_seatNums number) hnot⟩
  refine ⟨desk', hloop, ?_⟩
  rw [hdone.frame]
  refine Table.ext (funext fun number => ?_) rfl rfl rfl rfl rfl rfl rfl rfl
    rfl rfl rfl rfl
  exact hdone.done number List.not_mem_nil

/-! ## The dealer -/

theorem stepDealerSeat_ok (env : Env) (hseats : 2 ≤ desk.getSeatedCount) :
    ∃ desk' number, desk.stepDealerSeat env = .ok desk' ∧
      (desk.seats number).status.seated ∧
      desk'.table = { desk.table with dealer := number } ∧
      desk'.dealer = desk.dealer := by
  have hdrawn : ∃ number, (seatNums.filter fun number =>
      (desk.seats number).status.seated)[env.rand 0 % (seatNums.filter
        fun number => (desk.seats number).status.seated).length]? =
          some number ∧ (desk.seats number).status.seated := by
    obtain ⟨other, hother⟩ : desk.seatedSeats.Nonempty :=
      Finset.card_pos.mp (Nat.lt_of_lt_of_le (by omega) hseats)
    have hmem : other ∈ seatNums.filter fun number =>
        (desk.seats number).status.seated :=
      List.mem_filter.mpr ⟨mem_seatNums other, by
        simpa [seatedSeats] using hother⟩
    have hlt := Nat.mod_lt (env.rand 0) (List.length_pos_of_mem hmem)
    refine ⟨_, List.getElem?_eq_getElem hlt, ?_⟩
    simpa using (List.mem_filter.mp (List.getElem_mem hlt)).2
  obtain ⟨number, hdrawn, hseated⟩ := hdrawn
  unfold stepDealerSeat
  simp only [hdrawn]
  split
  next => exact ⟨_, number, rfl, hseated, rfl, rfl⟩
  next winner _ =>
    split
    next hwinner => exact ⟨_, winner, rfl, hwinner, rfl, rfl⟩
    next => exact ⟨_, number, rfl, hseated, rfl, rfl⟩

end GameDesk

/-! ## Hands -/

namespace Table

variable {t t' : Table} {numbers : List SeatNum} {number : SeatNum}
  {hand : List PokerCard}

/-- Some seats have their hands, those in `numbers` still wait for them. -/
structure DealLoop (t : Table) (numbers : List SeatNum) (t' : Table) :
    Prop where
  nodup : numbers.Nodup
  frame : t' = { t with place := t'.place, bottom := t'.bottom }
  place : ∀ number,
    t'.place number = { t.place number with hand := (t'.place number).hand }
  todo : ∀ number ∈ numbers, (t'.place number).hand = []
  done : ∀ number ∉ numbers, (t'.place number).hand.length =
    if (t.place number).seated then 13 else 0
  cards : ∀ card,
    t'.bottom.count card + t'.inHands card = initCards.count card
  bottom : 13 * numbers.length + 43 ≤ t'.bottom.length

def dealt (number : SeatNum) (hand : List PokerCard) (t : Table) : Table :=
  { t.arrange number hand with bottom := t.bottom.drop 13 }

theorem dealt_place (other : SeatNum) :
    (t.dealt number hand).place other =
      if other = number then { t.place number with hand := hand }
      else t.place other :=
  put_place ..

theorem count_dealt (hempty : (t.place number).hand = [])
    (hhand : hand.Perm (t.bottom.take 13)) (card : PokerCard) :
    (t.bottom.drop 13).count card + (t.arrange number hand).inHands card =
      t.bottom.count card + t.inHands card := by
  have hput := t.inHands_put number { t.place number with hand := hand } card
  have hsplit := congrArg (List.count card) (List.take_append_drop 13 t.bottom)
  rw [List.count_append] at hsplit
  rw [hempty, List.count_nil, hhand.count_eq] at hput
  unfold arrange
  omega

theorem DealLoop.deal (h : t.DealLoop (number :: numbers) t')
    (hseated : (t.place number).seated)
    (hhand : hand.Perm (t'.bottom.take 13)) :
    t.DealLoop numbers (t'.dealt number hand) := by
  have hnodup := List.nodup_cons.mp h.nodup
  have hempty := h.todo number List.mem_cons_self
  have hbottom := h.bottom
  rw [List.length_cons] at hbottom
  refine ⟨hnodup.2, ?_, fun other => ?_, fun other hother => ?_,
    fun other hother => ?_, fun card => ?_, ?_⟩
  · rw [h.frame]
    rfl
  · rw [dealt_place]
    split
    next heq => rw [heq, h.place]
    next => exact h.place other
  · rw [dealt_place, if_neg fun heq : other = number => hnodup.1 (heq ▸ hother)]
    exact h.todo other (List.mem_cons_of_mem _ hother)
  · rw [dealt_place]
    split
    next heq =>
      rw [heq, if_pos hseated, hhand.length_eq, List.length_take]
      omega
    next hne =>
      exact h.done other fun hmem => (List.mem_cons.mp hmem).elim hne hother
  · exact (count_dealt hempty hhand card).trans (h.cards card)
  · change _ ≤ (t'.bottom.drop 13).length
    rw [List.length_drop]
    omega

theorem DealLoop.skip (h : t.DealLoop (number :: numbers) t')
    (hseated : ¬ (t.place number).seated) : t.DealLoop numbers t' := by
  have hnodup := List.nodup_cons.mp h.nodup
  have hbottom := h.bottom
  rw [List.length_cons] at hbottom
  refine ⟨hnodup.2, h.frame, h.place,
    fun other hother => h.todo other (List.mem_cons_of_mem _ hother),
    fun other hother => ?_, h.cards, by omega⟩
  by_cases heq : other = number
  · rw [heq, h.todo number List.mem_cons_self, if_neg hseated]
    rfl
  · exact h.done other fun hmem => (List.mem_cons.mp hmem).elim heq hother

structure Turned (t t' : Table) : Prop where
  frame : t' = { t with
    place := t'.place
    joker := t'.joker
    pool := t'.pool
    bottom := t'.bottom }
  place : ∀ number,
    t'.place number = { t.place number with hand := (t'.place number).hand }
  hand : ∀ number, (t'.place number).hand.length =
    if (t.place number).seated then 13 else 0
  pool : t'.pool.length = 1
  bottom : 41 ≤ t'.bottom.length
  tally : ∀ card, t'.tally card = initCards.count card

end Table

namespace GameDesk

variable {desk : GameDesk}

theorem dealHand_ok {t : Table} {numbers : List SeatNum} {number : SeatNum}
    (h : t.DealLoop (number :: numbers) desk.table) :
    ∃ next, desk.dealHand number = .ok next ∧
      t.DealLoop numbers next.table := by
  have hseated : (desk.seats number).status.seated =
      (t.place number).seated := congrArg Place.seated (h.place number)
  have hbottom := h.bottom
  rw [List.length_cons] at hbottom
  unfold dealHand
  rw [hseated]
  split
  next hin =>
    have henough : ¬ desk.bottomCards.length < CardDealer.HAND_CARD_COUNT := by
      change ¬ desk.table.bottom.length < 13
      omega
    rw [if_neg henough]
    refine ⟨_, rfl, ?_⟩
    have hset := table_setSeat desk number
      ((desk.seats number).dealCards (desk.bottomCards.take 13))
    have hdeal := h.deal hin (sortCards_perm (desk.bottomCards.take 13))
    convert hdeal using 1
    exact congrArg (fun t : Table => { t with
      bottom := desk.bottomCards.drop 13 }) hset
  next hout => exact ⟨desk, rfl, h.skip hout⟩

/-! ## The pool and the joker -/

theorem jokers_in_deck :
    initCards.countP (fun card => !decide (card.point < PokerCard.JOKER1)) =
      4 := by
  decide

theorem exists_ordinary {cards : List PokerCard} (h : FromDeck cards)
    (hlen : 4 < cards.length) :
    ∃ card, cards.find? (fun card => card.point < PokerCard.JOKER1) =
      some card := by
  rw [← Option.isSome_iff_exists, List.find?_isSome]
  by_contra hnone
  have hall : cards.countP (fun card =>
      !decide (card.point < PokerCard.JOKER1)) = cards.length := by
    rw [List.countP_eq_length]
    simpa using hnone
  have hle := h.countP_le fun card => !decide (card.point < PokerCard.JOKER1)
  rw [hall, jokers_in_deck] at hle
  omega

theorem turnCards_ok {t : Table} (h : t.DealLoop [] desk.table)
    (hpool : t.pool = []) :
    ∃ desk', desk.turnCards = .ok desk' ∧ t.Turned desk'.table := by
  have hlen : 43 ≤ desk.bottomCards.length := h.bottom
  have hnil : desk.pokercardPool = [] :=
    (congrArg Table.pool h.frame).trans hpool
  unfold turnCards
  split
  next hempty => simp [hempty] at hlen
  next first bottom hcons =>
    rw [hcons, List.length_cons] at hlen
    have hcards : ∀ card, (first :: bottom).count card +
        desk.table.inHands card = initCards.count card := by
      rw [← hcons]
      exact h.cards
    have hdeck : FromDeck bottom := by
      refine (List.sublist_cons_self first bottom).subperm.trans ?_
      exact List.subperm_ext_iff.mpr fun card _ => by
        have := hcards card
        omega
    obtain ⟨joker, hjoker⟩ := exists_ordinary hdeck (by omega)
    have hmem := List.mem_of_find?_eq_some hjoker
    simp only [hjoker]
    refine ⟨_, rfl, ?_, h.place, fun number => h.done number
      List.not_mem_nil, ?_, ?_, fun card => ?_⟩
    · exact congrArg (fun t' : Table => { t' with
        pool := desk.pokercardPool ++ [first]
        joker := joker
        bottom := bottom.erase joker }) h.frame
    · change (desk.pokercardPool ++ [first]).length = 1
      simp [hnil]
    · change 41 ≤ (bottom.erase joker).length
      rw [List.length_erase_of_mem hmem]
      omega
    · have hcount := (List.perm_cons_erase hmem).count_eq card
      change (bottom.erase joker).count card +
        (desk.pokercardPool ++ [first]).count card + [joker].count card +
          desk.table.inHands card = _
      rw [← hcards card, hnil]
      simp only [List.count_cons, List.nil_append, List.count_nil] at hcount ⊢
      omega

/-! ## The new game -/

theorem inHands_empty {t : Table} (h : ∀ number, (t.place number).hand = [])
    (card : PokerCard) : t.inHands card = 0 :=
  Finset.sum_eq_zero fun number _ => by rw [h number, List.count_nil]

theorem stepDealCards_ok (env : Env)
    (hempty : ∀ number, (desk.table.place number).hand = [])
    (hpool : desk.table.pool = []) :
    ∃ desk', desk.stepDealCards env = .ok desk' ∧
      desk.table.Turned desk'.table := by
  have hperm := desk.dealer.dealCard_perm fun call => env.rand (1 + call)
  let full : GameDesk :=
    { desk with
      drawSec := 20 * 60
      dealer := (desk.dealer.dealCard fun call => env.rand (1 + call)).1
      bottomCards :=
        (desk.dealer.dealCard fun call => env.rand (1 + call)).2 }
  have hstart : desk.table.DealLoop seatNums full.table := by
    refine ⟨seatNums_nodup, rfl, fun _ => rfl, fun number _ => hempty number,
      fun number hnot => absurd (mem_seatNums number) hnot, fun card => ?_, ?_⟩
    · rw [hperm.symm.count_eq card]
      exact congrArg (_ + ·) (inHands_empty hempty card)
    · exact (hperm.length_eq.trans initCards_length).ge
  obtain ⟨dealt, hloop, hdone⟩ :=
    @Foundation.foldlM_ok _ _ _ dealHand
      (fun numbers desk' => desk.table.DealLoop numbers desk'.table)
      (fun _ _ _ => dealHand_ok) seatNums full hstart
  obtain ⟨desk', hturn, hturned⟩ := turnCards_ok hdone hpool
  refine ⟨desk', ?_, hturned⟩
  change seatNums.foldlM dealHand full >>= turnCards = _
  rw [hloop]
  exact hturn

theorem startNewGame_ok (env : Env) (h : desk.table.Sound .rest)
    (hseats : 2 ≤ desk.getSeatedCount) :
    ∃ desk', desk.startNewGame env = .ok desk' ∧
      desk.table.Dealt desk'.table := by
  obtain ⟨ready, hready, htable⟩ := stepDeskReady_ok h
  have hplace : ∀ number, ready.table.place number =
      (desk.table.place number).ready := by simp [htable]
  have hseated : ∀ number, (ready.seats number).status.seated =
      (desk.seats number).status.seated :=
    fun number => congrArg Place.seated (hplace number)
  obtain ⟨found, number, hfound, hnumber, hdealer, -⟩ :=
    @stepDealerSeat_ok ready env (by
      simpa only [getSeatedCount, seatedSeats, hseated] using hseats)
  have hfoundPlace : ∀ number, found.table.place number =
      (desk.table.place number).ready := by simpa [hdealer] using hplace
  obtain ⟨turned, hturn, hturned⟩ := @stepDealCards_ok found env
    (fun number => by rw [hfoundPlace]; rfl) (by rw [hdealer, htable])
  refine ⟨{ turned.waitForRound .dealerCard with timeGameBegin := env.now },
    ?_, ?_⟩
  · rw [startNewGame, hready, Foundation.ok_bind, hfound, Foundation.ok_bind,
      hturn]
    rfl
  · have hframe : turned.table = { desk.table with
        place := turned.table.place
        dealer := number
        joker := turned.table.joker
        pool := turned.table.pool
        bottom := turned.table.bottom
        charged := []
        gone := [] } := by
      rw [hturned.frame, hdealer, htable]
    have hstate : ∀ other, turned.table.place other =
        { (desk.table.place other).ready with
          hand := (turned.table.place other).hand } := by
      intro other
      rw [hturned.place, hfoundPlace]
    refine ⟨fun other => ?_, fun other => ?_, rfl, ?_,
      (congrArg Table.active hframe :), (congrArg Table.declarer hframe :),
      (congrArg Table.overType hframe :), hturned.pool, hturned.tally,
      hturned.bottom, (congrArg Table.chipsPool hframe :),
      (congrArg Table.charged hframe :), (congrArg Table.gone hframe :),
      (congrArg Table.notes hframe :)⟩
    · change (turned.table.place other).player = _ ∧
        (turned.table.place other).seated = _ ∧
          (turned.table.place other).ingame = _ ∧
            (turned.table.place other).joined = _ ∧
              (turned.table.place other).declared = _ ∧
                (turned.table.place other).chips = _
      rw [hstate]
      exact ⟨rfl, rfl, rfl, rfl, rfl, rfl⟩
    · refine (hturned.hand other).trans ?_
      rw [hfoundPlace]
      rfl
    · change (desk.table.place turned.table.dealer).seated
      rw [hframe]
      exact (hseated number).symm.trans hnumber

theorem startNewGame_serves {env : Env} {allow : Label → Prop}
    (hplain : allow .plain) (h : desk.table.Sound .rest)
    (hround : desk.round = .waitPlaying)
    (hseats : 2 ≤ desk.getSeatedCount) :
    Serves allow .rest desk.table (desk.startNewGame env) := by
  obtain ⟨desk', hok, hdealt⟩ := startNewGame_ok env h hseats
  rw [hok]
  exact Path.move (.deal hround hseats hdealt) hplain

end GameDesk

end StarsGaming.Desk
