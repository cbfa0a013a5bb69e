import Mathlib.Algebra.Order.BigOperators.Group.Finset
import StarsGaming.Cards.Legal
import StarsGaming.Desk.Sound

/-!
# Turns and payments of the desk are moves of the table

Every function of the desk that handlers share is matched by a path of moves:
the end of a game, the next turn, what follows a posted card, and charging a
seat that leaves the game.
-/

namespace StarsGaming.Desk

open Cards

abbrev Serves (allow : Label → Prop) (m : Mode) (t : Table)
    (r : Except Fault GameDesk) : Prop :=
  rules.Serves GameDesk.table allow (m, t) r

abbrev Path (allow : Label → Prop) (m : Mode) (t : Table) (m' : Mode)
    (t' : Table) : Prop :=
  rules.Path allow (m, t) (m', t')

theorem Path.sound {allow : Label → Prop} {m m' : Mode} {t t' : Table}
    (h : Path allow m t m' t') (hsound : t.Sound m) : t'.Sound m' :=
  Foundation.Machine.Path.invariant sound_preserved (fun _ _ => trivial) h
    hsound

theorem Path.move {allow : Label → Prop} {m m' : Mode} {t t' : Table}
    {l : Label} (h : Move m t l m' t') (hl : allow l) :
    Path allow m t m' t' :=
  Foundation.Machine.Path.single hl h

/-! ## What the table sees of an update -/

def Table.settled (tips : Int) (t : Table) : Table :=
  { t with
    place := fun number =>
      { t.place number with chips := t.payout tips number } }

namespace GameDesk

variable {desk : GameDesk} {number : SeatNum}

@[simp] theorem table_setSeat (desk : GameDesk) (number : SeatNum)
    (seat : GameSeat) :
    (desk.setSeat number seat).table =
      desk.table.put number seat.place := by
  refine Table.ext (funext fun other => ?_) rfl rfl rfl rfl rfl rfl rfl rfl
    rfl rfl rfl rfl
  rw [Table.put_place]
  change (Function.update desk.seats number seat other).place = _
  rw [Function.update_apply]
  split <;> rfl

@[simp] theorem setSeat_self (desk : GameDesk) (number : SeatNum)
    (seat : GameSeat) : (desk.setSeat number seat).seats number = seat :=
  Function.update_self ..

theorem table_setSeat_same {seat : GameSeat}
    (h : seat.place = (desk.seats number).place) :
    (desk.setSeat number seat).table = desk.table := by
  rw [table_setSeat, h]
  exact Table.ext (Function.update_eq_self ..) rfl rfl rfl rfl rfl rfl rfl rfl
    rfl rfl rfl rfl

@[simp] theorem place_setPlayerStatus (status : PlayerStatus)
    (seat : GameSeat) : (seat.setPlayerStatus status).place = seat.place := by
  simp [GameSeat.setPlayerStatus, GameSeat.place]

@[simp] theorem place_setTrustee (trusteed : Bool) (seat : GameSeat) :
    (seat.setTrustee trusteed).place = seat.place := by
  simp [GameSeat.setTrustee, GameSeat.place]

@[simp] theorem table_setJoinedStatus (status : PlayerStatus)
    (desk : GameDesk) : (desk.setJoinedStatus status).table = desk.table := by
  refine Table.ext (funext fun other => ?_) rfl rfl rfl rfl rfl rfl rfl rfl
    rfl rfl rfl rfl
  change (if _ then _ else _ : GameSeat).place = (desk.seats other).place
  split
  · exact place_setPlayerStatus ..
  · rfl

/-! ## Searching a hand -/

theorem fromDeck_of_sound {m : Mode} (h : desk.table.Sound m)
    (number : SeatNum) : FromDeck (desk.seats number).handcardsTotal := by
  cases hround : desk.round.isGameOver with
  | true =>
      have hnil : (desk.seats number).handcardsTotal = [] :=
        (h.idle hround).hands number
      rw [hnil]
      exact List.nil_subperm
  | false =>
      apply List.subperm_ext_iff.mpr
      intro card _
      have hle := (h.cards hround card).1
      have hone : (desk.seats number).handcardsTotal.count card ≤
          desk.table.inHands card :=
        Finset.single_le_sum
          (f := fun other => (desk.table.place other).hand.count card)
          (fun _ _ => Nat.zero_le _) (Finset.mem_univ number)
      unfold Table.tally at hle
      omega

theorem searchHand_ok {seat : GameSeat} (self : Combination)
    (jokerPoint : Nat) (hdeck : FromDeck seat.handcardsTotal)
    (hsize : seat.handcardsTotal.length = 0 ∨
      seat.handcardsTotal.length = 13 ∨ seat.handcardsTotal.length = 14) :
    ∃ result, seat.searchHand self jokerPoint = .ok result := by
  obtain ⟨result, hresult⟩ :=
    defaultDeclare_total self hdeck hsize jokerPoint
  exact ⟨result, by simp [GameSeat.searchHand, hresult]⟩

theorem showHand_ok {seat : GameSeat} (self : Combination)
    (jokerPoint : Nat) (hdeck : FromDeck seat.handcardsTotal)
    (hsize : seat.handcardsTotal.length = 0 ∨
      seat.handcardsTotal.length = 13 ∨ seat.handcardsTotal.length = 14) :
    ∃ self' seat', seat.showHand self jokerPoint = .ok (self', seat') ∧
      seat'.place = seat.place ∧ seat'.player = seat.player ∧
      seat'.score = seat.score := by
  obtain ⟨⟨self', score, groups⟩, hresult⟩ :=
    searchHand_ok self jokerPoint hdeck hsize
  refine ⟨self', { seat with cardScore := score, cardGroup := groups }, ?_,
    rfl, rfl, rfl⟩
  rw [GameSeat.showHand, hresult]
  rfl

/-! ## The end of a game -/

theorem borningOver_ok (h : desk.table.Sound .ending) (number : SeatNum) :
    ∃ desk', desk.borningOver number = .ok desk' ∧
      desk'.table = desk.table := by
  unfold borningOver
  split
  · obtain ⟨self', seat, hshow, hplace, -⟩ :=
      @showHand_ok { desk.seats number with score := 0 } desk.combination
        desk.jokerCard.point (fromDeck_of_sound h number)
        (h.places number).size
    refine ⟨{ desk.setSeat number seat with combination := self' }, ?_,
      table_setSeat_same hplace⟩
    rw [GameSeat.borningOver, hshow]
    rfl
  · exact ⟨desk, rfl, rfl⟩

theorem borningOver_all (h : desk.table.Sound .ending) :
    ∃ desk', seatNums.foldlM borningOver desk = .ok desk' ∧
      desk'.table = desk.table := by
  refine @Foundation.foldlM_ok _ _ _ borningOver
    (fun _ desk' => desk'.table = desk.table) ?_ seatNums desk rfl
  intro number _ desk' htable
  obtain ⟨next, hnext, hsame⟩ := @borningOver_ok desk' (htable ▸ h) number
  exact ⟨next, hnext, hsame.trans htable⟩

theorem tips_le_pool (room : RoomInfo) {chips : Int} (h : 0 ≤ chips) :
    room.getGameDeskTips chips ≤ chips := by
  unfold RoomInfo.getGameDeskTips
  have hle : chips * room.tipsPersent ≤ chips * 100 :=
    Int.mul_le_mul_of_nonneg_left room.tips_le h
  have hdiv := Int.tdiv_le_tdiv (by omega : (0 : Int) < 100) hle
  rwa [Int.mul_tdiv_cancel _ (by omega)] at hdiv

theorem table_close {tips : Int} {t : Table}
    (h : desk.table = t.settled tips) :
    (((desk.note (.gameOver (desk.gameResult tips))).waitForRound
      .distribute).setIngamePlayerOverStatus.clearDesk).table =
        t.finish tips := by
  have hplace : ∀ number, (desk.seats number).place =
      { t.place number with chips := t.payout tips number } :=
    fun number => congrFun (congrArg Table.place h) number
  have hresult : desk.gameResult tips = t.result tips := by
    unfold gameResult Table.result
    congr 1
    · exact congrArg Table.overType h
    · exact congrArg Table.declarer h
    · exact funext fun number => congrArg Place.joined (hplace number)
    · exact congrArg Table.charged h
    · exact funext fun number => congrArg Place.chips (hplace number)
  refine Table.ext (funext fun number => ?_) rfl ?_ rfl rfl rfl rfl rfl rfl
    rfl ?_ ?_ ?_
  · have hsame := congrFun (congrArg Table.place
      (table_setJoinedStatus .playing ((desk.note (.gameOver
        (desk.gameResult tips))).waitForRound .distribute))) number
    calc
      _ = { (desk.seats number).place with
            hand := [], digCard := .blank, chips := 0 } :=
        congrArg (fun p : Place =>
          { p with hand := [], digCard := .blank, chips := 0 }) hsame
      _ = _ := by rw [hplace]; rfl
  · change desk.table.dealer = t.dealer
    rw [h]
    rfl
  · change desk.table.charged = t.charged
    rw [h]
    rfl
  · change desk.table.gone = t.gone
    rw [h]
    rfl
  · change Note.gameOver (desk.gameResult tips) :: desk.table.notes = _
    rw [hresult, h]
    rfl

theorem matchOverAccount_credit {seat : GameSeat} {env : Env} {chips : Int}
    (hplayer : seat.player.isSome) (hchips : 0 ≤ chips) :
    ∃ seat' paid, seat.matchOverAccount env number chips = .ok (seat', paid) ∧
      seat'.place = { seat.place with chips := seat.place.chips + chips } := by
  unfold GameSeat.matchOverAccount
  split
  next hnone => simp [hnone] at hplayer
  next =>
    by_cases hpos : chips ≤ 0
    · obtain rfl : chips = 0 := by omega
      rw [if_pos hpos]
      exact ⟨_, _, rfl, by simp [GameSeat.place, env.taken_zero]⟩
    · rw [if_neg hpos]
      exact ⟨_, _, rfl, rfl⟩

theorem payWinner_ok {room : RoomInfo} {env : Env} {winner : SeatNum}
    (h : desk.table.Sound .ending)
    (hwinner : desk.applyDeclareSeatnum = some winner)
    (hplayer : (desk.seats winner).player.isSome) :
    ∃ paid, desk.payWinner room env winner = .ok paid ∧
      paid.table =
        desk.table.settled (room.getGameDeskTips desk.chipsPool) := by
  obtain ⟨seat, count, hpaid, hplace⟩ :=
    @matchOverAccount_credit winner _ env
      (desk.chipsPool - room.getGameDeskTips desk.chipsPool) hplayer
      (Int.sub_nonneg_of_le (tips_le_pool room h.chipsPool))
  refine ⟨{ desk.setSeat winner seat with lastWinnerSeatnum := some winner },
    ?_, ?_⟩
  · rw [payWinner, hpaid]
    rfl
  · change (desk.setSeat winner seat).table = _
    rw [table_setSeat, hplace]
    refine Table.ext (funext fun other => ?_) rfl rfl rfl rfl rfl rfl rfl rfl
      rfl rfl rfl rfl
    rw [Table.put_place]
    by_cases heq : other = winner
    · subst heq
      simp [Table.settled, Table.payout, table, hwinner]
    · have hne : ¬ winner = other := fun hsame => heq hsame.symm
      simp [Table.settled, Table.payout, table, hwinner, heq, hne]

theorem stepGameoverDistrbute_cases (room : RoomInfo) (env : Env)
    (h : desk.table.Sound .ending) :
    (∃ desk' tips, desk.stepGameoverDistrbute room env = .ok desk' ∧
        desk'.table = desk.table.finish tips ∧
        (desk.table.declarer = none → tips = 0)) ∨
      ∃ winner, desk.table.declarer = some winner ∧
        (desk.table.place winner).player = false ∧
        desk.stepGameoverDistrbute room env = .error .nullPlayer := by
  unfold stepGameoverDistrbute caculateOverAccount
  split
  next hwinner =>
    obtain ⟨last, hlast, htable⟩ := @borningOver_all
      { desk with lastWinnerSeatnum := none } h
    have hsettled : last.table = desk.table.settled 0 := by
      rw [htable]
      refine Table.ext (funext fun number => ?_) rfl rfl rfl rfl rfl rfl rfl
        rfl rfl rfl rfl rfl
      simp [Table.settled, Table.payout, table, hwinner]
    rw [hlast]
    exact Or.inl ⟨_, 0, rfl, table_close hsettled, fun _ => rfl⟩
  next winner hwinner =>
    cases hplayer : (desk.seats winner).player.isSome with
    | false =>
        have hnone : (desk.seats winner).player = none := by
          simpa using hplayer
        simp only [payWinner, GameSeat.matchOverAccount, hnone]
        exact Or.inr ⟨winner, hwinner, hplayer, rfl⟩
    | true =>
        obtain ⟨paid, hpaid, hsettled⟩ :=
          @payWinner_ok desk room env winner h hwinner hplayer
        rw [hpaid]
        refine Or.inl ⟨_, _, rfl, table_close hsettled, fun hnone => ?_⟩
        simp [table, hwinner] at hnone

theorem stepGameoverDistrbute_serves {room : RoomInfo} {env : Env}
    {allow : Label → Prop} (hplain : allow .plain)
    (h : desk.table.Sound .ending) :
    Serves allow .ending desk.table
      (desk.stepGameoverDistrbute room env) := by
  obtain ⟨desk', tips, heq, htable, htips⟩ | ⟨winner, hwinner, hgone, heq⟩ :=
    stepGameoverDistrbute_cases room env h
  · rw [heq]
    change Path allow .ending desk.table .rest desk'.table
    rw [htable]
    exact Path.move (.finish htips) hplain
  · rw [heq]
    exact ⟨_, .refl, .winner hwinner hgone⟩

/-! ## Turns -/

theorem activePlayer_serves {room : RoomInfo} {env : Env}
    {allow : Label → Prop} (hplain : allow .plain)
    (hdraw : desk.timeGameBegin + desk.drawSec < env.now →
      desk.chipsPool ≠ 0 → allow .poolDraw)
    (h : desk.table.Sound .turn) :
    Serves allow .turn desk.table (desk.activePlayer room env) := by
  have hready : desk.table.Ready := h.phase
  unfold activePlayer
  simp only
  split
  next hexpired =>
    have hmove : Move .turn desk.table
        (if desk.table.chipsPool = 0 then .plain else .poolDraw) .ending
        { desk.table.enter with overType := some .borningOver } := .draw
    have hallow : allow
        (if desk.table.chipsPool = 0 then .plain else .poolDraw) := by
      split
      · exact hplain
      next hpool => exact hdraw hexpired hpool
    have hpath := Path.move hmove hallow
    exact Foundation.Machine.Serves.head hpath
      (stepGameoverDistrbute_serves hplain (hpath.sound h))
  next =>
    -- the seat found is in game, so only the pool can be missing
    have hin : (desk.table.place desk.table.nextActive).ingame :=
      hready.nextActive_ingame
    have hplayer :
        (desk.seats desk.table.nextActive).player.isSome = true := by
      rw [show (desk.seats _).player.isSome = _ from (h.places _).player]
      exact (h.places _).seated hin
    split
    next hnone =>
      rw [show (desk.seats desk.table.nextActive).player = none from hnone]
        at hplayer
      simp at hplayer
    next =>
      split
      next hempty =>
        exact ⟨_, .refl, .emptyPool (List.getLast?_eq_none_iff.mp hempty)⟩
      next card hlast =>
        have hlast : desk.pokercardPool.getLast? = some card := hlast
        refine Path.move (.activate fun hempty => ?_) hplain
        rw [show desk.pokercardPool = [] from hempty] at hlast
        simp at hlast

theorem afterPostCard_serves {room : RoomInfo} {env : Env}
    {allow : Label → Prop} (hplain : allow .plain)
    (hdraw : desk.timeGameBegin + desk.drawSec < env.now →
      desk.bottomCards.length ≠ 1 → desk.chipsPool ≠ 0 → allow .poolDraw)
    (h : desk.table.Sound .posted) :
    Serves allow .posted desk.table (desk.afterPostCard room env) := by
  unfold afterPostCard
  split
  next hone =>
    unfold stepShuffleCard
    simp only
    split
    next hthin => exact ⟨_, .refl, .thinPool hone hthin⟩
    next htwo =>
      have hkept : (desk.pokercardPool.drop
          (desk.pokercardPool.length - 2)).length = 2 := by
        rw [List.length_drop]
        omega
      have hmoved := @swapDraw_perm env.rand (desk.pokercardPool.length - 2)
        (desk.pokercardPool.take (desk.pokercardPool.length - 2)) (by simp)
      have hpool := List.perm_append_comm.trans (hmoved.append_right
        (desk.pokercardPool.drop (desk.pokercardPool.length - 2)))
      rw [List.take_append_drop] at hpool
      exact Path.move (.shuffle hone hkept hpool) hplain
  next hmany =>
    have hpath : Path allow .posted desk.table .turn desk.table :=
      Path.move (.pass hmany) hplain
    exact Foundation.Machine.Serves.head hpath
      (activePlayer_serves hplain (fun hexp => hdraw hexp hmany)
        (hpath.sound h))

/-! ## Charges -/

def paidBy (room : RoomInfo) (env : Env) (number : SeatNum)
    (desk : GameDesk) : Int :=
  env.dealLoserAccount number (room.smallBlind * (desk.seats number).score)

theorem paidBy_nonneg (room : RoomInfo) (env : Env) :
    0 ≤ desk.paidBy room env number :=
  env.taken_nonneg ..

theorem chargeSeat_ok (room : RoomInfo) (env : Env)
    (hplayer : (desk.seats number).player.isSome)
    (hout : (desk.seats number).status.ingame = false) :
    ∃ charged, desk.chargeSeat room env number = .ok charged ∧
      charged.table = desk.table.pay number (desk.paidBy room env number)
        (desk.table.place number) ∧
      charged.timeGameBegin = desk.timeGameBegin ∧
      charged.drawSec = desk.drawSec := by
  obtain ⟨player, hplayer⟩ := Option.isSome_iff_exists.mp hplayer
  have hprice : -(room.smallBlind * ((desk.seats number).score : Int)) ≤ 0 :=
    Int.neg_nonpos_of_nonneg
      (Int.mul_nonneg room.blind_nonneg (Int.natCast_nonneg _))
  have haccount : (desk.seats number).matchOverAccount env number
      (-(room.smallBlind * (desk.seats number).score)) =
        .ok ({ desk.seats number with
          matchOverAccountChips :=
            (desk.seats number).matchOverAccountChips -
              desk.paidBy room env number }, desk.paidBy room env number) := by
    simp only [GameSeat.matchOverAccount, hplayer, if_pos hprice, Int.neg_neg,
      paidBy]
  have hset := table_setSeat desk number
    { desk.seats number with
      matchOverAccountChips :=
        (desk.seats number).matchOverAccountChips -
          desk.paidBy room env number }
  refine ⟨{ desk.setSeat number
      { desk.seats number with
        matchOverAccountChips :=
          (desk.seats number).matchOverAccountChips -
            desk.paidBy room env number } with
      chipsPool := desk.chipsPool + desk.paidBy room env number
      record := { desk.record with
        charged := number :: desk.record.charged } }, ?_, ?_, rfl, rfl⟩
  · rw [chargeSeat, haccount]
    rfl
  · refine Table.ext ((congrArg Table.place hset).trans ?_) rfl rfl rfl rfl
      rfl rfl rfl rfl rfl rfl rfl rfl
    simp [Table.pay, Table.put, GameSeat.place, table, hout]

theorem pay_put (t : Table) (number : SeatNum) (paid : Int) (p q : Place) :
    (t.put number p).pay number paid q = t.pay number paid q := by
  refine Table.ext ?_ rfl rfl rfl rfl rfl rfl rfl rfl rfl rfl rfl rfl
  exact Function.update_idem ..

theorem countLosers_serves {room : RoomInfo} {env : Env}
    {allow : Label → Prop} (hplain : allow .plain)
    (h : desk.table.Sound .out) (hround : desk.round = .declare) :
    Serves allow .out desk.table
      (if desk.getIngameCount = 1 then desk.stepGameoverDistrbute room env
        else .ok desk) := by
  split
  next hone =>
    have hpath : Path allow .out desk.table .ending desk.table :=
      Path.move (.lastDeclare hround hone) hplain
    exact Foundation.Machine.Serves.head hpath
      (stepGameoverDistrbute_serves hplain (hpath.sound h))
  next hmany =>
    refine Path.move (.stay hmany fun hvacant => ?_) hplain
    rcases hvacant.1 with hactive | hactive <;>
      simp [show desk.table.round = _ from hround] at hactive

theorem loseWith_place (score : Nat) (groups : List CardGroup)
    (seat : GameSeat) :
    (seat.loseWith score groups).place =
      { seat.place with ingame := false, declared := true } := by
  rw [GameSeat.loseWith, place_setPlayerStatus]
  rfl

theorem chargeSeat_lose (room : RoomInfo) (env : Env) {desk' : GameDesk}
    (hdesk' : desk'.table = desk.table.put number
      { desk.table.place number with ingame := false, declared := true })
    (hplayer : (desk.table.place number).player) :
    ∃ charged, desk'.chargeSeat room env number = .ok charged ∧
      charged.table =
        desk.table.lose number (desk'.paidBy room env number) := by
  have hplace : desk'.table.place number =
      { desk.table.place number with ingame := false, declared := true } := by
    rw [hdesk', Table.put_place_self]
  obtain ⟨charged, hcharged, htable, -⟩ := @chargeSeat_ok desk' number room env
    ((congrArg Place.player hplace).trans hplayer)
    (congrArg Place.ingame hplace)
  refine ⟨charged, hcharged, ?_⟩
  rw [htable, hplace, hdesk', pay_put]
  rfl

theorem chargeLoser_serves {room : RoomInfo} {env : Env}
    {allow : Label → Prop} (hplain : allow .plain)
    (hself : desk.applyDeclareSeatnum = some number → allow .selfLose)
    (h : desk.table.Sound .rest) (hround : desk.round = .declare)
    (hin : (desk.table.place number).ingame) {desk' : GameDesk}
    (hdesk' : desk'.table = desk.table.put number
      { desk.table.place number with ingame := false, declared := true }) :
    Serves allow .rest desk.table (desk'.chargeLoser room env number) := by
  have hok := h.places number
  obtain ⟨charged, hcharged, htable⟩ := @chargeSeat_lose desk number room env
    desk' hdesk' (hok.player.trans (hok.seated hin))
  have hallow : allow (if desk.table.declarer = some number then .selfLose
      else .plain) := by
    split
    next heq => exact hself heq
    next => exact hplain
  have hpath : Path allow .rest desk.table .out charged.table := by
    rw [htable]
    exact Path.move (.lose hround hin (paidBy_nonneg room env)) hallow
  have hcount := @countLosers_serves charged room env allow hplain
    (hpath.sound h) ((congrArg Table.round htable).trans hround)
  rw [chargeLoser, hcharged]
  exact Foundation.Machine.Serves.head hpath hcount

theorem defaultDeclare_ok {m : Mode} (h : desk.table.Sound m)
    (number : SeatNum) :
    ∃ self' seat, (desk.seats number).defaultDeclare desk.combination
        desk.jokerCard.point = .ok (self', seat) ∧
      seat.place = { desk.table.place number with
        ingame := false, declared := true } := by
  obtain ⟨⟨self', score, groups⟩, hresult⟩ :=
    searchHand_ok desk.combination desk.jokerCard.point
      (fromDeck_of_sound h number) (h.places number).size
  refine ⟨self', _, ?_, loseWith_place score groups _⟩
  rw [GameSeat.defaultDeclare, hresult]
  rfl

theorem defaultDecalre_eq (room : RoomInfo) (env : Env) {m : Mode}
    (h : desk.table.Sound m) (hin : (desk.table.place number).ingame) :
    ∃ charged paid, 0 ≤ paid ∧
      charged.table = desk.table.lose number paid ∧
      desk.defaultDecalre room env number =
        if charged.table.ingame.card = 1 then
          charged.stepGameoverDistrbute room env
        else .ok charged := by
  obtain ⟨self', seat, hseat, hplace⟩ := defaultDeclare_ok h number
  have hok := h.places number
  obtain ⟨charged, hcharged, htable⟩ := @chargeSeat_lose desk number room env
    { desk.setSeat number seat with combination := self' }
    (hplace ▸ table_setSeat desk number seat)
    (hok.player.trans (hok.seated hin))
  refine ⟨charged, _, paidBy_nonneg room env, htable, ?_⟩
  rw [defaultDecalre, hseat]
  change chargeLoser room env number
    { desk.setSeat number seat with combination := self' } = _
  rw [chargeLoser, hcharged]
  rfl

theorem defaultDecalre_serves {room : RoomInfo} {env : Env}
    {allow : Label → Prop} (hplain : allow .plain)
    (hself : desk.table.declarer ≠ some number)
    (h : desk.table.Sound .rest) (hround : desk.round = .declare)
    (hin : (desk.table.place number).ingame) :
    Serves allow .rest desk.table
      (desk.defaultDecalre room env number) := by
  obtain ⟨charged, paid, hpaid, htable, heq⟩ :=
    @defaultDecalre_eq desk number room env _ h hin
  have hmove : Move .rest desk.table .plain .out charged.table := by
    rw [htable]
    have hlose := @Move.lose desk.table number paid hround hin hpaid
    rwa [if_neg hself] at hlose
  have hpath := Path.move hmove hplain
  rw [heq]
  exact Foundation.Machine.Serves.head hpath
    (@countLosers_serves charged room env allow hplain (hpath.sound h)
      ((congrArg Table.round htable).trans hround))

theorem defaultDecalre_post {room : RoomInfo} {env : Env}
    (h : desk.table.Sound .rest) (hround : desk.round = .declare)
    (hin : (desk.table.place number).ingame) {desk' : GameDesk}
    (hdesk' : desk.defaultDecalre room env number = .ok desk') :
    ∃ paid,
      desk'.table = desk.table.lose number paid ∨
        (∃ tips, desk'.table = (desk.table.lose number paid).finish tips) ∧
          (desk.table.lose number paid).ingame.card = 1 := by
  obtain ⟨charged, paid, hpaid, htable, heq⟩ :=
    @defaultDecalre_eq desk number room env _ h hin
  refine ⟨paid, ?_⟩
  rw [← htable]
  rw [heq] at hdesk'
  split at hdesk'
  next hone =>
    have hsound : charged.table.Sound .ending := by
      rw [htable]
      exact (h.lose hround hpaid).lastDeclare
    obtain ⟨last, tips, hover, hlast, -⟩ | ⟨winner, -, -, hover⟩ :=
      stepGameoverDistrbute_cases room env hsound
    · rw [hover] at hdesk'
      cases hdesk'
      exact Or.inr ⟨⟨tips, hlast⟩, hone⟩
    · rw [hover] at hdesk'
      cases hdesk'
  next =>
    cases hdesk'
    exact Or.inl rfl

theorem defaultDecalre_late {room : RoomInfo} {env : Env}
    (h : desk.table.Sound .rest)
    (hin : (desk.table.place number).ingame)
    (hcount : desk.table.ingame.card ≤ 1) :
    ∃ desk' paid, desk.defaultDecalre room env number = .ok desk' ∧
      0 ≤ paid ∧ desk'.table = desk.table.lose number paid := by
  obtain ⟨charged, paid, hpaid, htable, heq⟩ :=
    @defaultDecalre_eq desk number room env _ h hin
  have hnone : charged.table.ingame.card ≠ 1 := by
    have hcard := Finset.card_erase_of_mem (Table.mem_ingame.mpr hin)
    rw [htable, show (desk.table.lose number paid).ingame = _ from
      Table.ingame_put_out rfl]
    omega
  exact ⟨charged, paid, heq.trans (if_neg hnone), hpaid, htable⟩

end GameDesk

end StarsGaming.Desk
