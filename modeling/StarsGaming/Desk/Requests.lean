import StarsGaming.Desk.Deal

/-!
# Requests of players are moves of the table

One lemma for every request handler: the table moves along a path that the
handler's result ends, and no handler fails but where the rules are stuck.  A
handler that uses a remarkable move says when.
-/

namespace StarsGaming.Desk

open Cards

namespace GameDesk

variable {desk : GameDesk} {number : SeatNum} {room : RoomInfo} {env : Env}
  {allow : Label → Prop}

theorem serves_same {desk' : GameDesk} (h : desk'.table = desk.table) :
    Serves allow .rest desk.table (.ok desk') := by
  change Path allow .rest desk.table .rest desk'.table
  rw [h]
  exact .refl

theorem Serves.after {m m' : Mode} {t t' : Table}
    {r : Except Fault GameDesk} (hpath : Path allow m t m' t')
    (h : Serves allow m' t' r) : Serves allow m t r :=
  Foundation.Machine.Serves.head hpath h

/-! ## Digging and posting -/

theorem takeDigCard_table (desk : GameDesk) (number : SeatNum)
    (card : PokerCard) :
    (desk.takeDigCard number card).table =
      desk.table.dig number card
        (sortCards ((desk.table.place number).hand ++ [card])) := by
  have hset := table_setSeat desk number ((desk.seats number).digCard card)
  exact congrArg (fun t : Table => { t with round := .active2 }) hset

theorem sortCards_snoc (hand : List PokerCard) (card : PokerCard) :
    (sortCards (hand ++ [card])).Perm (card :: hand) :=
  (sortCards_perm _).trans (List.perm_append_singleton card hand)

theorem playerDigCard_serves (hplain : allow .plain) (digtype : Int) :
    Serves allow .rest desk.table (desk.playerDigCard digtype number) := by
  unfold playerDigCard
  split
  next => exact serves_same rfl
  next haccept =>
    simp only [ne_eq, not_or, not_not] at haccept
    obtain ⟨hactive, hround⟩ := haccept
    split
    next front bottom back hbottom hback =>
      split
      next =>
        change Path allow .rest desk.table .rest _
        rw [takeDigCard_table]
        exact Path.move (.digBottom hround hactive hbottom
          (sortCards_snoc _ _)) hplain
      next =>
        split
        next => exact serves_same rfl
        next =>
          have hpool : desk.table.pool =
              desk.pokercardPool.dropLast ++ [back] :=
            (List.dropLast_append_getLast? back hback).symm
          change Path allow .rest desk.table .rest _
          rw [takeDigCard_table]
          exact Path.move (.digPool hround hactive hpool
            (sortCards_snoc _ _)) hplain
    next hempty =>
      refine ⟨_, .refl, .dig hround ?_⟩
      by_contra hpiles
      simp only [not_or] at hpiles
      obtain ⟨front, bottom, hbottom⟩ := List.exists_cons_of_ne_nil hpiles.1
      exact hempty front bottom _ hbottom (List.getLast?_eq_some_getLast hpiles.2)

theorem discard_serves {card : PokerCard} (hplain : allow .plain)
    (hdraw : desk.timeGameBegin + desk.drawSec < env.now →
      desk.bottomCards.length ≠ 1 → desk.chipsPool ≠ 0 → allow .poolDraw)
    (h : desk.table.Sound .rest) (hround : desk.round = .active2)
    (hactive : desk.activeSeatnum = some number) {seat : GameSeat}
    (hseat : (desk.seats number).discardCard card = some seat) :
    Serves allow .rest desk.table
      ({ desk.setSeat number seat with
        pokercardPool := desk.pokercardPool ++ [card] }.afterPostCard
          room env) := by
  unfold GameSeat.discardCard at hseat
  split at hseat
  next hmem =>
    cases hseat
    have htable : { desk.setSeat number
        { desk.seats number with
          handcardsTotal := (desk.seats number).handcardsTotal.erase card }
        with pokercardPool := desk.pokercardPool ++ [card] }.table =
          desk.table.post number card :=
      congrArg (fun t : Table => { t with pool := t.pool ++ [card] })
        (table_setSeat desk number _)
    have hpath : Path allow .rest desk.table .posted _ :=
      Path.move (.post hround hactive hmem) hplain
    rw [← htable] at hpath
    exact Serves.after hpath
      (afterPostCard_serves hplain hdraw (hpath.sound h))
  next => cases hseat

theorem playerPostCard_serves {card : PokerCard} (hplain : allow .plain)
    (hdraw : desk.timeGameBegin + desk.drawSec < env.now →
      desk.activeSeatnum = some number → desk.round = .active2 →
      card ∈ (desk.seats number).handcardsTotal →
      desk.bottomCards.length ≠ 1 → desk.chipsPool ≠ 0 → allow .poolDraw)
    (h : desk.table.Sound .rest) :
    Serves allow .rest desk.table
      (desk.playerPostCard room env card number) := by
  unfold playerPostCard
  split
  next => exact serves_same rfl
  next haccept =>
    simp only [ne_eq, not_or, not_not] at haccept
    obtain ⟨hactive, hround⟩ := haccept
    split
    next => exact serves_same rfl
    next seat hseat =>
      have hmem : card ∈ (desk.seats number).handcardsTotal := by
        by_contra hnot
        simp [GameSeat.discardCard, hnot] at hseat
      exact discard_serves hplain
        (fun hexp => hdraw hexp hactive hround hmem) h hround hactive hseat

theorem postDefaultCard_serves (hplain : allow .plain)
    (hdraw : desk.timeGameBegin + desk.drawSec < env.now →
      desk.bottomCards.length ≠ 1 → desk.chipsPool ≠ 0 → allow .poolDraw)
    (h : desk.table.Sound .rest) (hround : desk.round = .active2)
    (hactive : desk.activeSeatnum = some number) :
    Serves allow .rest desk.table
      (desk.postDefaultCard room env number) := by
  have hphase : desk.table.RestPhase desk.table.round := h.phase
  rw [show desk.table.round = .active2 from hround] at hphase
  obtain ⟨-, -, active, hactive', -, -, -, hdig⟩ := hphase
  obtain rfl : active = number :=
    Option.some.inj (hactive'.symm.trans hactive)
  have hseat : (desk.seats active).discardCard (desk.seats active).mDigCard =
      some { desk.seats active with
        handcardsTotal := (desk.seats active).handcardsTotal.erase
          (desk.seats active).mDigCard } :=
    if_pos hdig
  rw [postDefaultCard, GameSeat.postDefaultCard, hseat]
  exact discard_serves hplain hdraw h hround hactive hseat

/-! ## Declares -/

theorem setSeat_arrange (hand : List PokerCard) :
    (desk.setSeat number
      { desk.seats number with handcardsTotal := hand }).table =
        desk.table.arrange number hand :=
  table_setSeat desk number _

theorem sorted_serves (hplain : allow .plain) :
    Path allow .rest desk.table .rest
      (desk.table.arrange number
        (sortCards (desk.table.place number).hand)) :=
  Path.move (.arrange (sortCards_perm _)) hplain

theorem put_arrange (t : Table) (number : SeatNum) (hand : List PokerCard)
    (p : Place) : (t.arrange number hand).put number p = t.put number p :=
  Table.ext (Function.update_idem ..) rfl rfl rfl rfl rfl rfl rfl rfl rfl rfl
    rfl rfl

@[simp] theorem arrange_place_self (t : Table) (number : SeatNum)
    (hand : List PokerCard) :
    (t.arrange number hand).place number =
      { t.place number with hand := hand } :=
  Table.put_place_self ..

theorem checkDeclare_cases (card : PokerCard) (groups : List CardGroup)
    (jokerPoint : Nat) (seat : GameSeat) :
    seat.checkDeclare card groups jokerPoint = (seat, false) ∨
      seat.checkDeclare card groups jokerPoint =
        ({ seat with handcardsTotal := sortCards seat.handcardsTotal },
          false) ∨
      ∃ seat', seat.checkDeclare card groups jokerPoint = (seat', true) ∧
        seat'.place = { seat.place with
          hand := sortCards seat.place.hand, declared := true } := by
  unfold GameSeat.checkDeclare
  split
  next =>
    simp only
    split
    next => exact Or.inr (Or.inl rfl)
    next =>
      split
      next => exact Or.inr (Or.inl rfl)
      next =>
        refine Or.inr (Or.inr ⟨_, rfl, ?_⟩)
        rw [place_setPlayerStatus]
        rfl
  next => exact Or.inl rfl

theorem playerDeclare_serves {card : PokerCard} {groups : List CardGroup}
    (hplain : allow .plain) :
    Serves allow .rest desk.table
      (desk.playerDeclare card groups number) := by
  unfold playerDeclare
  split
  next => exact serves_same rfl
  next haccept =>
    simp only [ne_eq, not_or, not_not] at haccept
    obtain ⟨-, hround, hactive⟩ := haccept
    have hsorted := @sorted_serves desk number allow hplain
    obtain hrefused | hrefused | ⟨seat, haccepted, hplace⟩ :=
      checkDeclare_cases card groups desk.jokerCard.point (desk.seats number)
    · rw [hrefused]
      exact serves_same (table_setSeat_same rfl)
    · rw [hrefused]
      change Path allow .rest desk.table .rest (desk.setSeat number _).table
      rw [setSeat_arrange]
      exact hsorted
    · rw [haccepted]
      have hdeclare : Path allow .rest _ .rest _ :=
        Path.move (@Move.declare (desk.table.arrange number
          (sortCards (desk.table.place number).hand)) number hround hactive)
          hplain
      have htable : (desk.table.arrange number
          (sortCards (desk.table.place number).hand)).declare number =
            { (desk.setSeat number seat).table with
              round := .declare
              declarer := some number
              overType := some .normalOver } := by
        simp only [table_setSeat, hplace, Table.declare, put_arrange,
          arrange_place_self]
        rfl
      rw [htable] at hdeclare
      exact hsorted.trans hdeclare

theorem checkLoseDeclare_cases (groups : List CardGroup) (jokerPoint : Nat)
    (seat : GameSeat) :
    seat.checkLoseDeclare groups jokerPoint =
        ({ seat with handcardsTotal := sortCards seat.handcardsTotal },
          false) ∨
      ∃ seat', seat.checkLoseDeclare groups jokerPoint = (seat', true) ∧
        seat'.place = { seat.place with
          hand := sortCards seat.place.hand
          ingame := false
          declared := true } := by
  unfold GameSeat.checkLoseDeclare
  simp only
  split
  next => exact Or.inl rfl
  next =>
    split
    next => exact Or.inl rfl
    next score _ =>
      refine Or.inr ⟨_, rfl, ?_⟩
      rw [loseWith_place]
      rfl

theorem playerLoseDeclare_serves {groups : List CardGroup}
    (hplain : allow .plain)
    (hself : desk.round = .declare → (desk.seats number).status.ingame →
      desk.applyDeclareSeatnum = some number →
      ((desk.seats number).checkLoseDeclare groups desk.jokerCard.point).2 →
      allow .selfLose)
    (h : desk.table.Sound .rest) :
    Serves allow .rest desk.table
      (desk.playerLoseDeclare room env groups number) := by
  unfold playerLoseDeclare
  split
  next => exact serves_same rfl
  next haccept =>
    simp only [ne_eq, not_or, not_not, Bool.not_eq_false] at haccept
    obtain ⟨hin, hround⟩ := haccept
    have hsorted := @sorted_serves desk number allow hplain
    obtain hrefused | ⟨seat, haccepted, hplace⟩ :=
      checkLoseDeclare_cases groups desk.jokerCard.point (desk.seats number)
    · rw [hrefused]
      change Path allow .rest desk.table .rest (desk.setSeat number _).table
      rw [setSeat_arrange]
      exact hsorted
    · rw [haccepted] at hself ⊢
      have hsound := hsorted.sound h
      have htable : (desk.setSeat number seat).table =
          (desk.table.arrange number
            (sortCards (desk.table.place number).hand)).put number
              { (desk.table.arrange number
                  (sortCards (desk.table.place number).hand)).place number with
                ingame := false, declared := true } := by
        simp only [table_setSeat, hplace, put_arrange, arrange_place_self]
        rfl
      rw [← setSeat_arrange] at hsorted hsound htable
      have hlose := @chargeLoser_serves (desk.setSeat number
        { desk.seats number with
          handcardsTotal := sortCards (desk.seats number).handcardsTotal })
        number room env allow hplain
      refine Serves.after hsorted (hlose
        (fun hdeclarer => hself hround hin hdeclarer rfl) hsound hround ?_
        htable)
      rw [setSeat_arrange, arrange_place_self]
      exact hin

/-! ## Drops -/

theorem FromDeck.of_count_le {hand cards : List PokerCard}
    (h : FromDeck cards) (hle : ∀ card, hand.count card ≤ cards.count card) :
    FromDeck hand :=
  (List.subperm_ext_iff.mpr fun card _ => hle card).trans h

theorem playerDrop_ok (h : desk.table.Sound .rest)
    (hround : desk.round = .active1 ∨ desk.round = .active2 ∨
      desk.round = .shuffleCard)
    (hin : (desk.seats number).status.ingame) :
    ∃ self' seat, (desk.seats number).playerDrop
        (desk.round = .active2 && desk.activeSeatnum = some number)
        desk.combination desk.jokerCard.point = .ok (self', seat) ∧
      seat.place = { desk.table.place number with
        ingame := false, hand := desk.table.dropHand number } ∧
      seat.score = (desk.seats number).score := by
  let out := { desk.seats number with
    status := { (desk.seats number).status with
      ingame := false, drop := true } }.setPlayerStatus .drop
  let dropped := { out with handcardsTotal := desk.table.dropHand number }
  have hlen : dropped.handcardsTotal.length = 13 :=
    h.dropHand_length hround hin
  have hdeck : FromDeck dropped.handcardsTotal :=
    FromDeck.of_count_le (fromDeck_of_sound h number)
      Table.dropHand_count_le
  obtain ⟨self', seat, hshow, hplace, -, hscore⟩ :=
    showHand_ok desk.combination desk.jokerCard.point hdeck
      (Or.inr (Or.inl hlen))
  refine ⟨self', seat, ?_, hplace.trans ?_, hscore⟩
  · rw [← hshow]
    unfold GameSeat.playerDrop
    simp only
    split
    next hdug =>
      simp only [Bool.and_eq_true, decide_eq_true_eq] at hdug
      have hphase : desk.table.RestPhase desk.table.round := h.phase
      rw [show desk.table.round = .active2 from hdug.1] at hphase
      obtain ⟨-, -, active, hactive, -, -, -, hdig⟩ := hphase
      obtain rfl : active = number :=
        Option.some.inj (hactive.symm.trans hdug.2)
      have hhand : desk.table.dropHand active =
          (desk.seats active).handcardsTotal.erase
            (desk.seats active).mDigCard := if_pos hdug
      have hdiscard : out.discardCard out.mDigCard = some dropped :=
        (if_pos hdig).trans (by simp only [dropped, hhand]; rfl)
      rw [hdiscard]
    next hkept =>
      simp only [Bool.and_eq_true, decide_eq_true_eq] at hkept
      have hhand : desk.table.dropHand number =
          (desk.seats number).handcardsTotal := if_neg hkept
      have hsame : dropped = out := by simp only [dropped, hhand]; rfl
      rw [hsame]
  · exact congrArg (fun p : Place =>
      { p with hand := desk.table.dropHand number })
      (place_setPlayerStatus .drop _)

theorem getLastIngameSeatnum_ok {m : Mode} (h : desk.table.Sound m)
    (hone : desk.getIngameCount = 1) :
    ∃ winner, desk.getLastIngameSeatnum = some winner ∧
      (desk.table.place winner).ingame := by
  have hsome : desk.getLastIngameSeatnum.isSome := by
    obtain ⟨winner, hwinner⟩ : desk.table.ingame.Nonempty :=
      Finset.card_pos.mp (by rw [show desk.table.ingame.card = 1 from hone]; omega)
    have hin := Table.mem_ingame.mp hwinner
    rw [getLastIngameSeatnum, List.find?_isSome]
    refine ⟨winner, mem_seatNums winner, ?_⟩
    rw [Bool.and_eq_true]
    exact ⟨(h.places winner).seated hin, hin⟩
  obtain ⟨winner, hwinner⟩ := Option.isSome_iff_exists.mp hsome
  refine ⟨winner, hwinner, ?_⟩
  have hfound := List.find?_some hwinner
  rw [Bool.and_eq_true] at hfound
  exact hfound.2

theorem lastDrop_serves (hplain : allow .plain) (h : desk.table.Sound .out)
    (hround : desk.round ≠ .declare) (hone : desk.getIngameCount = 1) :
    Serves allow .out desk.table
      (match desk.getLastIngameSeatnum with
        | none => .error (.assertion .dropWinner)
        | some winner => do
            let (combination, seat) ← (desk.seats winner).dropWin
              desk.combination desk.jokerCard.point
            { desk.setSeat winner seat with
              combination := combination
              gameoverType := some .dropOver
              applyDeclareSeatnum := some winner }.stepGameoverDistrbute
                room env) := by
  obtain ⟨winner, hwinner, hin⟩ := getLastIngameSeatnum_ok h hone
  obtain ⟨self', seat, hshow, hplace, -⟩ :=
    @showHand_ok { desk.seats winner with score := 0 } desk.combination
      desk.jokerCard.point (fromDeck_of_sound h winner)
      (h.places winner).size
  have hpath : Path allow .out desk.table .ending
      { desk.table with
        overType := some .dropOver, declarer := some winner } :=
    Path.move (.lastDrop hround hone hin) hplain
  have htable : { desk.setSeat winner seat with
      combination := self'
      gameoverType := some .dropOver
      applyDeclareSeatnum := some winner }.table =
        { desk.table with
          overType := some .dropOver, declarer := some winner } :=
    congrArg (fun t : Table => { t with
      overType := some .dropOver, declarer := some winner })
      (@table_setSeat_same desk winner seat hplace)
  rw [← htable] at hpath
  rw [hwinner]
  simp only [GameSeat.dropWin, hshow, Foundation.ok_bind]
  exact Serves.after hpath
    (stepGameoverDistrbute_serves hplain (hpath.sound h))

theorem stepPlayerDrop_eq (room : RoomInfo) (env : Env)
    (h : desk.table.Sound .rest)
    (hround : desk.round = .active1 ∨ desk.round = .active2 ∨
      desk.round = .shuffleCard)
    (hin : (desk.seats number).status.ingame) :
    ∃ charged : GameDesk,
      charged.table = desk.table.drop number (desk.paidBy room env number) ∧
      charged.timeGameBegin = desk.timeGameBegin ∧
      charged.drawSec = desk.drawSec ∧
      desk.stepPlayerDrop room env number =
        if charged.getIngameCount = 1 then
          match charged.getLastIngameSeatnum with
          | none => .error (.assertion .dropWinner)
          | some winner => do
              let (combination, seat) ← (charged.seats winner).dropWin
                charged.combination charged.jokerCard.point
              { charged.setSeat winner seat with
                combination := combination
                gameoverType := some .dropOver
                applyDeclareSeatnum := some winner }.stepGameoverDistrbute
                  room env
        else if charged.isWaitActive && charged.activeSeatnum = some number
          then charged.activePlayer room env
        else .ok charged := by
  obtain ⟨self', seat, hdrop, hplace, hscore⟩ :=
    @playerDrop_ok desk number h hround hin
  have hok := h.places number
  let left : GameDesk :=
    { desk.setSeat number seat with
      combination := self'
      record := { desk.record with gone := number :: desk.record.gone } }
  have hseat : left.seats number = seat := setSeat_self desk number seat
  have hleft : left.table.place number = { desk.table.place number with
      ingame := false, hand := desk.table.dropHand number } :=
    (congrArg GameSeat.place hseat).trans hplace
  obtain ⟨charged, hcharged, htable, hbegin, hdraw⟩ :=
    @chargeSeat_ok left number room env
      ((congrArg Place.player hleft).trans
        (hok.player.trans (hok.seated hin)))
      (congrArg Place.ingame hleft)
  refine ⟨charged, ?_, hbegin, hdraw, ?_⟩
  · have hpaid : left.paidBy room env number =
        desk.paidBy room env number := by
      simp only [paidBy, hseat, hscore]
    rw [htable, hleft, hpaid]
    refine (congrArg (fun t : Table =>
      Table.pay number (desk.paidBy room env number)
        { desk.table.place number with
          ingame := false, hand := desk.table.dropHand number }
        { t with gone := number :: t.gone })
      (table_setSeat desk number seat)).trans ?_
    exact congrArg (fun t : Table => { t with gone := number :: t.gone })
      (pay_put desk.table number _ _ _)
  · rw [stepPlayerDrop]
    simp only [hdrop, Foundation.ok_bind]
    rw [show chargeSeat room env number { desk.setSeat number seat with
      combination := self'
      record := { desk.record with gone := number :: desk.record.gone } } =
        .ok charged from hcharged]
    rfl

theorem isWaitActive_iff :
    desk.isWaitActive ↔ desk.round = .active1 ∨ desk.round = .active2 := by
  simp [isWaitActive]

theorem drop_ingame {t : Table} {paid : Int} :
    (t.drop number paid).ingame = t.ingame.erase number :=
  Table.ingame_put_out rfl

theorem vacant_drop {t : Table} {paid : Int} (h : t.Sound .rest)
    (hvacant : (t.drop number paid).vacant) : t.active = some number := by
  obtain ⟨hround, active, hactive, hout⟩ := hvacant
  have hphase : t.RestPhase t.round := h.phase
  have hin : (t.place active).ingame := by
    rcases hround with hround | hround <;>
      rw [show t.round = _ from hround] at hphase
    · obtain ⟨-, -, -, other, hother, hin⟩ := hphase
      rwa [← Option.some.inj (hother.symm.trans hactive)]
    · obtain ⟨-, -, other, hother, hin, -⟩ := hphase
      rwa [← Option.some.inj (hother.symm.trans hactive)]
  change ((t.put number _).place active).ingame = false at hout
  rw [Table.put_place] at hout
  split at hout
  next heq => exact heq ▸ hactive
  next => simp [hin] at hout

theorem stepPlayerDrop_serves (hplain : allow .plain)
    (hdraw : desk.timeGameBegin + desk.drawSec < env.now →
      desk.isWaitActive → desk.activeSeatnum = some number →
      3 ≤ desk.getIngameCount →
      desk.chipsPool + desk.paidBy room env number ≠ 0 → allow .poolDraw)
    (hdry : desk.round = .active2 → desk.activeSeatnum = some number →
      3 ≤ desk.getIngameCount →
      desk.pokercardPool = [] ∨ desk.bottomCards.length < 2 →
      allow .dryDrop)
    (h : desk.table.Sound .rest)
    (hround : desk.round = .active1 ∨ desk.round = .active2 ∨
      desk.round = .shuffleCard)
    (hin : (desk.seats number).status.ingame) :
    Serves allow .rest desk.table
      (desk.stepPlayerDrop room env number) := by
  obtain ⟨charged, htable, hbegin, hsec, heq⟩ :=
    @stepPlayerDrop_eq desk number room env h hround hin
  have hpath : Path allow .rest desk.table .out charged.table := by
    rw [htable]
    exact Path.move (.drop hround hin (paidBy_nonneg room env)) hplain
  have hsound := hpath.sound h
  have hcount : charged.table.ingame = desk.table.ingame.erase number := by
    rw [htable, drop_ingame]
  have hmem : number ∈ desk.table.ingame := Table.mem_ingame.mpr hin
  have hless := Finset.card_erase_of_mem hmem
  have hsameRound : charged.round = desk.round := congrArg Table.round htable
  have hsameActive : charged.activeSeatnum = desk.activeSeatnum :=
    congrArg Table.active htable
  rw [heq]
  refine Serves.after hpath ?_
  split
  next hone =>
    apply lastDrop_serves hplain hsound _ hone
    rw [hsameRound]
    rcases hround with hround | hround | hround <;> simp [hround]
  next hmany =>
    have hmany : charged.table.ingame.card ≠ 1 := hmany
    have hthree : 3 ≤ desk.table.ingame.card := by
      have hone := h.two_le_ingame hround
      rw [hcount] at hmany
      omega
    split
    next hturn =>
      rw [Bool.and_eq_true, decide_eq_true_eq, hsameActive] at hturn
      obtain ⟨hwait, hactive⟩ := hturn
      have hvacant : charged.table.vacant := by
        refine ⟨isWaitActive_iff.mp hwait, number,
          hsameActive.trans hactive, ?_⟩
        rw [htable]
        exact congrArg Place.ingame (Table.put_place_self ..)
      have hnext : Path allow .out charged.table .turn charged.table := by
        refine Path.move (.next hmany hvacant) ?_
        split
        next hempty =>
          rw [htable] at hempty
          exact hdry hempty.1 hactive hthree hempty.2
        next => exact hplain
      refine Serves.after hnext (activePlayer_serves hplain ?_
        (hnext.sound hsound))
      intro hexpired hpool
      rw [hbegin, hsec] at hexpired
      rw [show charged.chipsPool = _ from congrArg Table.chipsPool htable]
        at hpool
      refine hdraw hexpired ?_ hactive hthree hpool
      rwa [isWaitActive, hsameRound] at hwait
    next hother =>
      refine Path.move (.stay hmany fun hvacant => hother ?_) hplain
      rw [Bool.and_eq_true, decide_eq_true_eq, hsameActive]
      refine ⟨isWaitActive_iff.mpr hvacant.1, ?_⟩
      rw [htable] at hvacant
      exact vacant_drop h hvacant

theorem playerDrop_serves (hplain : allow .plain)
    (hdraw : desk.timeGameBegin + desk.drawSec < env.now →
      desk.isWaitActive → desk.activeSeatnum = some number →
      3 ≤ desk.getIngameCount →
      desk.chipsPool + desk.paidBy room env number ≠ 0 → allow .poolDraw)
    (hdry : desk.round = .active2 → desk.activeSeatnum = some number →
      3 ≤ desk.getIngameCount →
      desk.pokercardPool = [] ∨ desk.bottomCards.length < 2 →
      allow .dryDrop)
    (h : desk.table.Sound .rest) :
    Serves allow .rest desk.table (desk.playerDrop room env number) := by
  unfold playerDrop
  split
  next => exact serves_same rfl
  next hplaying =>
    split
    next => exact serves_same rfl
    next haccept =>
      simp only [not_or, Bool.not_eq_false] at haccept
      refine stepPlayerDrop_serves hplain hdraw hdry h ?_ haccept.1
      revert hplaying
      simp only [isGameOver]
      cases desk.round <;> simp [Round.isGameOver]

/-! ## Coming and going -/

theorem waitForRound_same {round : Round} (h : desk.round = round) :
    (desk.waitForRound round).table = desk.table := by
  subst h
  rfl

theorem playerSitDown_serves (hplain : allow .plain) (userId : Int)
    (seatNumber : Int) :
    Serves allow .rest desk.table
      (.ok (desk.playerSitDown userId seatNumber)) := by
  have hwait : ∀ next : GameDesk, (if next.round = .unready then
      next.waitForRound .unready else next).table = next.table := by
    intro next
    split
    next hunready => exact waitForRound_same hunready
    next => rfl
  unfold playerSitDown
  split
  next hbound =>
    simp only
    split
    next => exact serves_same rfl
    next hfree =>
      rw [Bool.not_eq_true] at hfree
      have hsit : Path allow .rest desk.table .rest _ :=
        Path.move (.sit hfree) hplain
      change Path allow .rest desk.table .rest (table (if _ then _ else _))
      rw [hwait, table_setSeat]
      exact hsit
  next => exact serves_same rfl

theorem playerStandUp_place (seat : GameSeat) (isGameOver : Bool) :
    (seat.playerStandUp isGameOver).place =
      { seat.place with
        player := false
        seated := false
        ingame := false
        joined := !isGameOver && seat.place.joined
        declared := !isGameOver && seat.place.declared
        hand := [] } := by
  cases isGameOver <;> rfl

theorem leaveSeat_table (desk : GameDesk) (number : SeatNum) :
    (desk.leaveSeat number).table = desk.table.leave number := by
  have hset := table_setSeat desk number
    ((desk.seats number).playerStandUp desk.isGameOver)
  rw [playerStandUp_place] at hset
  have hrecord : (desk.leaveSeat number).record =
      { desk.record with
        gone := if (desk.seats number).status.curJoin then
          number :: desk.record.gone else desk.record.gone } := by
    change (if (desk.seats number).status.curJoin then _ else _) = _
    by_cases hjoined : (desk.seats number).status.curJoin
    · rw [if_pos hjoined, if_pos hjoined]
    · rw [if_neg hjoined, if_neg hjoined]
  exact Table.ext (congrArg Table.place hset :) rfl rfl rfl rfl rfl rfl rfl rfl
    rfl (congrArg GameRecord.charged hrecord :)
    (congrArg GameRecord.gone hrecord :) (congrArg GameRecord.notes hrecord :)

theorem finishStandUp_serves (hplain : allow .plain)
    (hfree : desk.round.isGameOver = false →
      (desk.seats number).status.ingame = false) :
    Serves allow .rest desk.table (.ok (desk.finishStandUp number)) := by
  have hleave : Path allow .rest desk.table .rest
      (desk.leaveSeat number).table := by
    rw [leaveSeat_table]
    exact Path.move (.leave hfree) hplain
  refine Serves.after hleave ?_
  unfold finishStandUp
  simp only
  split
  next hover =>
    simp only [Bool.and_eq_true, decide_eq_true_eq] at hover
    refine serves_same ?_
    rw [setPlayerMatchoverStatus, table_setJoinedStatus]
    exact waitForRound_same hover.1.1
  next =>
    split
    next hwait =>
      simp only [Bool.and_eq_true, decide_eq_true_eq] at hwait
      refine Path.move (.wait ?_ rfl) hplain
      rw [show (desk.leaveSeat number).table.round = _ from hwait.2]
      rfl
    next => exact serves_same rfl

theorem playerStandUp_serves (hplain : allow .plain)
    (h : desk.table.Sound .rest) :
    Serves allow .rest desk.table
      (desk.playerStandUp room env number) := by
  unfold playerStandUp
  split
  next hplaying =>
    simp only [Bool.and_eq_true, Bool.not_eq_true'] at hplaying
    obtain ⟨hlive, hin⟩ := hplaying
    split
    next hround =>
      split
      next => exact serves_same rfl
      next hself =>
        have hserves := @defaultDecalre_serves desk number room env allow
          hplain hself h hround hin
        refine Foundation.Machine.Serves.bind hserves ?_
        intro desk' hdesk' hpath
        refine finishStandUp_serves hplain fun _ => ?_
        obtain ⟨paid, htable | ⟨⟨tips, htable⟩, -⟩⟩ :=
          defaultDecalre_post h hround hin hdesk'
        · exact (congrArg (fun t : Table => (t.place number).ingame)
            htable).trans (congrArg Place.ingame (Table.put_place_self ..))
        · exact (congrArg (fun t : Table => (t.place number).ingame)
            htable).trans (congrArg Place.ingame (Table.put_place_self ..))
    next => exact serves_same rfl
  next hfree =>
    refine finishStandUp_serves hplain fun hlive => ?_
    simpa [isGameOver, hlive] using hfree

/-! ## Trustees and the account box -/

theorem playerTrusteeoff_serves :
    Serves allow .rest desk.table (desk.playerTrusteeoff number) := by
  unfold playerTrusteeoff
  simp only
  split
  next =>
    refine serves_same ?_
    rw [table_setSeat_same (place_setTrustee ..)]
    rfl
  next => exact serves_same (table_setSeat_same (place_setTrustee ..))

/-! ## Between games -/

theorem standUpIf_ok (room : RoomInfo) (env : Env) (hplain : allow .plain)
    (unfit : Player → Bool) (hround : desk.round = .unready)
    (number : SeatNum) :
    ∃ desk', desk.standUpIf room env unfit number = .ok desk' ∧
      Path allow .rest desk.table .rest desk'.table ∧
      desk'.round = .unready := by
  unfold standUpIf
  split
  next => exact ⟨desk, rfl, .refl, hround⟩
  next player _ =>
    split
    next =>
      refine ⟨desk.finishStandUp number, ?_, ?_, ?_⟩
      · simp [playerStandUp, isGameOver, hround, Round.isGameOver]
      · exact finishStandUp_serves hplain
          (by simp [hround, Round.isGameOver])
      · have hleave : (desk.leaveSeat number).round = .unready := hround
        simp [finishStandUp, hleave]
    next => exact ⟨desk, rfl, .refl, hround⟩

theorem standUpAll_ok (room : RoomInfo) (env : Env) (hplain : allow .plain)
    (unfit : Player → Bool) (hround : desk.round = .unready) :
    ∃ desk', seatNums.foldlM (standUpIf room env unfit) desk = .ok desk' ∧
      Path allow .rest desk.table .rest desk'.table ∧
      desk'.round = .unready := by
  refine @Foundation.foldlM_ok _ _ _ (standUpIf room env unfit)
    (fun _ desk' => Path allow .rest desk.table .rest desk'.table ∧
      desk'.round = .unready) ?_ seatNums desk ⟨.refl, hround⟩
  intro number _ desk' ⟨hpath, hround'⟩
  obtain ⟨next, hnext, hmove, hkept⟩ :=
    standUpIf_ok room env hplain unfit hround' number
  exact ⟨next, hnext, hpath.trans hmove, hkept⟩

theorem readyForNextGame_serves (hplain : allow .plain)
    (hround : desk.round = .distribute) :
    Serves allow .rest desk.table (desk.readyForNextGame room env) := by
  have hwait : Path allow .rest desk.table .rest
      (desk.waitForRound .unready).table := by
    refine Path.move (.wait ?_ rfl) hplain
    rw [show desk.table.round = _ from hround]
    rfl
  obtain ⟨desk', hloop, hpath, -⟩ := @standUpAll_ok
    (desk.waitForRound .unready) allow room env hplain
    (fun player => env.offline player.userId || player.trusteed) rfl
  rw [readyForNextGame, checkPlayerStatus, hloop]
  refine Serves.after (hwait.trans hpath) (serves_same ?_)
  exact table_setJoinedStatus ..

theorem playerCloseAccountBox_serves (hplain : allow .plain) :
    Serves allow .rest desk.table
      (desk.playerCloseAccountBox room env number) := by
  unfold playerCloseAccountBox
  split
  next => exact serves_same rfl
  next haccept =>
    simp only [ne_eq, not_or, not_not] at haccept
    have hsame := @table_setSeat_same desk number
      ((desk.seats number).setPlayerStatus .unready)
      (place_setPlayerStatus ..)
    simp only
    split
    next =>
      rw [← hsame]
      exact readyForNextGame_serves hplain haccept.1
    next => exact serves_same hsame

theorem stepUnready_serves (hplain : allow .plain)
    (hround : desk.round = .unready) :
    Serves allow .rest desk.table (desk.stepUnready room env) := by
  obtain ⟨desk', hloop, hpath, hround'⟩ := @standUpAll_ok desk allow room env
    hplain (fun player => !env.checkChipsCarry player.userId) hround
  rw [stepUnready, checkPlayerChips, hloop, Foundation.ok_bind]
  refine Serves.after hpath ?_
  split
  next =>
    refine Path.move (.wait ?_ rfl) hplain
    rw [show desk'.table.round = _ from hround']
    rfl
  next => exact serves_same rfl

theorem stepPlayingBegin_serves (hplain : allow .plain)
    (h : desk.table.Sound .rest) (hround : desk.round = .waitPlaying) :
    Serves allow .rest desk.table (desk.stepPlayingBegin env) := by
  unfold stepPlayingBegin
  split
  next hstart =>
    apply startNewGame_serves hplain h hround
    exact of_decide_eq_true hstart
  next =>
    refine Path.move (.wait ?_ rfl) hplain
    rw [show desk.table.round = _ from hround]
    rfl

end GameDesk

end StarsGaming.Desk
