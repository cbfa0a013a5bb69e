import StarsGaming.Desk.GameDesk
import StarsGaming.Foundation.Outcomes

/-!
# Who sits where

A handler of the desk moves cards, chips and the states of players.  Only
sitting down and standing up change who sits on which seat: every other handler
leaves the occupants of all seats as they are.
-/

namespace StarsGaming.Desk

open Cards Foundation

namespace GameSeat

def user (seat : GameSeat) : Option Int := seat.player.map Player.userId

variable {seat seat' : GameSeat}

@[simp] theorem user_setPlayerStatus (status : PlayerStatus)
    (seat : GameSeat) : (seat.setPlayerStatus status).user = seat.user := by
  simp only [user, setPlayerStatus, Option.map_map]
  rfl

@[simp] theorem user_setTrustee (trusteed : Bool) (seat : GameSeat) :
    (seat.setTrustee trusteed).user = seat.user := by
  simp only [user, setTrustee, Option.map_map]
  rfl

@[simp] theorem user_dealCards (cards : List PokerCard) (seat : GameSeat) :
    (seat.dealCards cards).user = seat.user :=
  rfl

@[simp] theorem user_digCard (card : PokerCard) (seat : GameSeat) :
    (seat.digCard card).user = seat.user :=
  rfl

@[simp] theorem user_playerSitDown (player : Player) (seat : GameSeat) :
    (seat.playerSitDown player).user = some player.userId :=
  rfl

@[simp] theorem user_loseWith (score : Nat) (groups : List CardGroup)
    (seat : GameSeat) : (seat.loseWith score groups).user = seat.user :=
  user_setPlayerStatus _ _

theorem user_discardCard {card : PokerCard}
    (h : seat.discardCard card = some seat') : seat'.user = seat.user := by
  unfold discardCard at h
  split_ifs at h
  cases h
  rfl

theorem readyForGame_user (seat : GameSeat) :
    Yields (fun seat' => seat'.user = seat.user) seat.readyForGame := by
  unfold readyForGame
  split_ifs
  · cases hplayer : seat.player with
    | none => trivial
    | some player =>
        change some player.userId = seat.user
        rw [user, hplayer]
        rfl
  · exact rfl

theorem matchOverAccount_user (env : Env) (number : SeatNum) (chips : Int)
    (seat : GameSeat) :
    Yields (fun paid => paid.1.user = seat.user)
      (seat.matchOverAccount env number chips) := by
  unfold matchOverAccount
  split
  · trivial
  · dsimp only
    split_ifs <;> exact rfl

theorem postDefaultCard_user (seat : GameSeat) :
    Yields (fun posted => posted.1.user = seat.user)
      seat.postDefaultCard := by
  unfold postDefaultCard
  split
  · trivial
  next hcard => exact user_discardCard hcard

theorem showHand_user (self : Combination) (jokerPoint : Nat)
    (seat : GameSeat) :
    Yields (fun shown => shown.2.user = seat.user)
      (seat.showHand self jokerPoint) := by
  unfold showHand searchHand
  split
  · trivial
  · exact rfl

theorem playerDrop_user (dropCard : Bool) (self : Combination)
    (jokerPoint : Nat) (seat : GameSeat) :
    Yields (fun dropped => dropped.2.user = seat.user)
      (seat.playerDrop dropCard self jokerPoint) := by
  have hdropped : ({ seat with
      status := { seat.status with ingame := false, drop := true }
      }.setPlayerStatus .drop).user = seat.user :=
    user_setPlayerStatus _ _
  rw [← hdropped]
  unfold playerDrop
  dsimp only
  split_ifs
  · split
    · trivial
    next hcard =>
      rw [← user_discardCard hcard]
      exact showHand_user _ _ _
  · exact showHand_user _ _ _

@[simp] theorem user_checkDeclare (card : PokerCard)
    (groups : List CardGroup) (jokerPoint : Nat) (seat : GameSeat) :
    (seat.checkDeclare card groups jokerPoint).1.user = seat.user := by
  unfold checkDeclare
  dsimp only
  split_ifs
  · rfl
  · rfl
  · exact user_setPlayerStatus _ _
  · rfl

@[simp] theorem user_checkLoseDeclare (groups : List CardGroup)
    (jokerPoint : Nat) (seat : GameSeat) :
    (seat.checkLoseDeclare groups jokerPoint).1.user = seat.user := by
  unfold checkLoseDeclare
  dsimp only
  split_ifs
  · rfl
  · split
    · rfl
    · exact user_loseWith _ _ _

theorem defaultDeclare_user (self : Combination) (jokerPoint : Nat)
    (seat : GameSeat) :
    Yields (fun found => found.2.user = seat.user)
      (seat.defaultDeclare self jokerPoint) := by
  unfold defaultDeclare searchHand
  split
  · trivial
  · exact user_loseWith _ _ _

end GameSeat

namespace GameDesk

def occupant (desk : GameDesk) (number : SeatNum) : Option Int :=
  (desk.seats number).user

/-- If the program returns a desk, its seats are taken by `users`. -/
abbrev Seats (users : SeatNum → Option Int) : Except Fault GameDesk → Prop :=
  Yields fun desk => desk.occupant = users

variable {desk : GameDesk} {users : SeatNum → Option Int}

theorem occupant_setSeat (number : SeatNum) (seat : GameSeat)
    (desk : GameDesk) :
    (desk.setSeat number seat).occupant =
      Function.update desk.occupant number seat.user := by
  funext other
  simp only [occupant, setSeat, Function.update_apply]
  split_ifs <;> rfl

theorem occupant_setSeat_same {number : SeatNum} {seat : GameSeat}
    (h : desk.occupant = users)
    (hseat : seat.user = (desk.seats number).user) :
    (desk.setSeat number seat).occupant = users := by
  rw [occupant_setSeat, hseat, ← h]
  exact Function.update_eq_self number desk.occupant

theorem occupant_setJoinedStatus (status : PlayerStatus)
    (h : desk.occupant = users) :
    (desk.setJoinedStatus status).occupant = users := by
  rw [← h]
  funext number
  simp only [occupant, setJoinedStatus]
  split_ifs
  · exact GameSeat.user_setPlayerStatus _ _
  · rfl

/-! ## Playing -/

section

variable (room : RoomInfo) (env : Env) (number : SeatNum)

theorem borningOver_seats (h : desk.occupant = users) :
    Seats users (desk.borningOver number) := by
  unfold borningOver
  split_ifs
  · exact (GameSeat.showHand_user _ _ _).bind fun _ _ hshown =>
      occupant_setSeat_same h hshown
  · exact h

theorem payWinner_seats (h : desk.occupant = users) :
    Seats users (desk.payWinner room env number) :=
  (GameSeat.matchOverAccount_user _ _ _ _).bind fun _ _ hpaid =>
    occupant_setSeat_same h hpaid

theorem caculateOverAccount_seats (h : desk.occupant = users) :
    Seats users (desk.caculateOverAccount room env) := by
  unfold caculateOverAccount
  split
  · have hloop : Seats users (seatNums.foldlM GameDesk.borningOver
        { desk with lastWinnerSeatnum := none }) :=
      Meets.foldlM_keeps (fun number _ => borningOver_seats number) _ h
    exact hloop.bind fun _ _ hdesk => hdesk
  · exact (payWinner_seats room env _ h).bind fun _ _ hdesk => hdesk

theorem stepGameoverDistrbute_seats (h : desk.occupant = users) :
    Seats users (desk.stepGameoverDistrbute room env) :=
  (caculateOverAccount_seats room env h).bind fun _ _ hover =>
    occupant_setJoinedStatus .playing hover

theorem activePlayer_seats (h : desk.occupant = users) :
    Seats users (desk.activePlayer room env) := by
  unfold activePlayer
  dsimp only
  split_ifs
  · exact stepGameoverDistrbute_seats room env h
  · split
    · trivial
    · split
      · trivial
      · exact h

theorem afterPostCard_seats (h : desk.occupant = users) :
    Seats users (desk.afterPostCard room env) := by
  have hshuffle : Seats users (desk.stepShuffleCard env) := by
    unfold stepShuffleCard
    dsimp only
    split_ifs
    · trivial
    · exact h
  unfold afterPostCard
  split_ifs
  · exact hshuffle.bind fun _ _ hdesk => hdesk
  · exact activePlayer_seats room env h

theorem playerDigCard_seats (digtype : Int) (h : desk.occupant = users) :
    Seats users (desk.playerDigCard digtype number) := by
  have htake (taken : GameDesk) (card : PokerCard)
      (htaken : taken.occupant = users) :
      (taken.takeDigCard number card).occupant = users :=
    occupant_setSeat_same htaken (GameSeat.user_digCard card _)
  unfold playerDigCard
  split_ifs
  · exact h
  · split
    · exact htake _ _ h
    · trivial
  · split
    · split_ifs
      · exact h
      · exact htake _ _ h
    · trivial

theorem playerPostCard_seats (card : PokerCard) (h : desk.occupant = users) :
    Seats users (desk.playerPostCard room env card number) := by
  unfold playerPostCard
  split_ifs
  · exact h
  · split
    · exact h
    next hcard =>
      exact afterPostCard_seats room env
        (occupant_setSeat_same h (GameSeat.user_discardCard hcard))

theorem postDefaultCard_seats (h : desk.occupant = users) :
    Seats users (desk.postDefaultCard room env number) :=
  (GameSeat.postDefaultCard_user _).bind fun _ _ hposted =>
    afterPostCard_seats room env (occupant_setSeat_same h hposted)

/-! ## Declares and drops -/

theorem chargeSeat_seats (h : desk.occupant = users) :
    Seats users (desk.chargeSeat room env number) :=
  (GameSeat.matchOverAccount_user _ _ _ _).bind fun _ _ hpaid =>
    occupant_setSeat_same h hpaid

theorem chargeLoser_seats (h : desk.occupant = users) :
    Seats users (desk.chargeLoser room env number) := by
  refine (chargeSeat_seats room env number h).bind fun _ _ hcharged => ?_
  split_ifs
  · exact stepGameoverDistrbute_seats room env hcharged
  · exact hcharged

theorem playerDeclare_seats (card : PokerCard) (groups : List CardGroup)
    (h : desk.occupant = users) :
    Seats users (desk.playerDeclare card groups number) := by
  have hchecked := occupant_setSeat_same h
    (GameSeat.user_checkDeclare card groups desk.jokerCard.point
      (desk.seats number))
  unfold playerDeclare
  dsimp only
  split_ifs
  · exact h
  · exact hchecked
  · exact hchecked

theorem playerLoseDeclare_seats (groups : List CardGroup)
    (h : desk.occupant = users) :
    Seats users (desk.playerLoseDeclare room env groups number) := by
  have hchecked := occupant_setSeat_same h
    (GameSeat.user_checkLoseDeclare groups desk.jokerCard.point
      (desk.seats number))
  unfold playerLoseDeclare
  dsimp only
  split_ifs
  · exact h
  · exact chargeLoser_seats room env number hchecked
  · exact hchecked

theorem defaultDecalre_seats (h : desk.occupant = users) :
    Seats users (desk.defaultDecalre room env number) :=
  (GameSeat.defaultDeclare_user _ _ _).bind fun _ _ hfound =>
    chargeLoser_seats room env number (occupant_setSeat_same h hfound)

theorem stepPlayerDrop_seats (h : desk.occupant = users) :
    Seats users (desk.stepPlayerDrop room env number) := by
  refine (GameSeat.playerDrop_user _ _ _ _).bind fun _ _ hdropped => ?_
  refine Meets.bind (Q := fun charged => charged.occupant = users)
    (chargeSeat_seats room env number ?_) fun _ _ hcharged => ?_
  · exact occupant_setSeat_same h hdropped
  · split_ifs
    · split
      · trivial
      · exact (GameSeat.showHand_user _ _ _).bind fun _ _ hshown =>
          stepGameoverDistrbute_seats room env
            (occupant_setSeat_same hcharged hshown)
    · exact activePlayer_seats room env hcharged
    · exact hcharged

theorem playerDrop_seats (h : desk.occupant = users) :
    Seats users (desk.playerDrop room env number) := by
  unfold playerDrop
  split_ifs
  · exact h
  · exact h
  · exact stepPlayerDrop_seats room env number h

theorem playerTrusteeoff_seats (h : desk.occupant = users) :
    Seats users (desk.playerTrusteeoff number) := by
  unfold playerTrusteeoff
  split_ifs
  · have hwait : (desk.waitForRound desk.round).occupant = users := h
    exact occupant_setSeat_same hwait (GameSeat.user_setTrustee false _)
  · exact occupant_setSeat_same h (GameSeat.user_setTrustee false _)

/-! ## A new game -/

theorem readySeat_seats (h : desk.occupant = users) :
    Seats users (desk.readySeat number) :=
  (GameSeat.readyForGame_user _).bind fun _ _ hready =>
    occupant_setSeat_same h hready

theorem dealHand_seats (h : desk.occupant = users) :
    Seats users (desk.dealHand number) := by
  unfold dealHand
  split_ifs
  · trivial
  · exact occupant_setSeat_same h (GameSeat.user_dealCards _ _)
  · exact h

theorem stepDealerSeat_seats (h : desk.occupant = users) :
    Seats users (desk.stepDealerSeat env) := by
  unfold stepDealerSeat
  dsimp only
  split
  · split
    · trivial
    · exact h
  · split_ifs
    · exact h
    · split
      · trivial
      · exact h

theorem turnCards_seats (h : desk.occupant = users) :
    Seats users desk.turnCards := by
  unfold turnCards
  split
  · trivial
  · split
    · trivial
    · exact h

theorem startNewGame_seats (h : desk.occupant = users) :
    Seats users (desk.startNewGame env) := by
  have hready : Seats users desk.stepDeskReady :=
    Meets.foldlM_keeps (fun number _ => readySeat_seats number) _ h
  refine hready.bind fun ready _ hready => ?_
  refine (stepDealerSeat_seats env hready).bind fun dealt _ hdealt => ?_
  have hdeal : Seats users (dealt.stepDealCards env) := by
    refine Meets.bind (Q := fun desk => desk.occupant = users) ?_
      fun _ _ hdesk => turnCards_seats hdesk
    exact Meets.foldlM_keeps (fun number _ => dealHand_seats number) _ hdealt
  exact hdeal.bind fun _ _ hdesk => hdesk

theorem stepPlayingBegin_seats (h : desk.occupant = users) :
    Seats users (desk.stepPlayingBegin env) := by
  unfold stepPlayingBegin
  split_ifs
  · exact startNewGame_seats env h
  · exact h

/-! ## Timeouts -/

theorem stepActive1Timeout_seats (h : desk.occupant = users) :
    Seats users (desk.stepActive1Timeout room env) := by
  unfold stepActive1Timeout
  split
  · trivial
  · split
    · trivial
    · exact activePlayer_seats room env
        (occupant_setSeat_same h (GameSeat.user_setTrustee true _))

theorem stepRand2Timeout_seats (h : desk.occupant = users) :
    Seats users (desk.stepRand2Timeout room env) := by
  unfold stepRand2Timeout
  split
  · trivial
  · split
    · trivial
    · exact postDefaultCard_seats room env _
        (occupant_setSeat_same h (GameSeat.user_setTrustee true _))

theorem stepDeclareTimeout_seats (h : desk.occupant = users) :
    Seats users (desk.stepDeclareTimeout room env) := by
  refine Meets.foldlM_keeps (fun number desk hdesk => ?_) _ h
  unfold declareTimeout
  dsimp only
  split_ifs
  · exact defaultDecalre_seats room env number hdesk
  · exact hdesk

theorem stepNewRound_seats (hunready : desk.round ≠ .unready)
    (hdistribute : desk.round ≠ .distribute) (h : desk.occupant = users) :
    Seats users (desk.stepNewRound room env) := by
  unfold stepNewRound
  dsimp only
  split
  · exact absurd ‹_› hunready
  · exact stepPlayingBegin_seats env h
  · exact activePlayer_seats room env h
  · exact stepActive1Timeout_seats room env h
  · exact stepRand2Timeout_seats room env h
  · exact stepDeclareTimeout_seats room env h
  · exact activePlayer_seats room env h
  · exact absurd ‹_› hdistribute

/-! ## Coming and going -/

theorem occupant_playerSitDown (userId : Int)
    (hidle : (desk.seats number).status.seated = false)
    (h : desk.occupant = users) :
    (desk.playerSitDown userId number).occupant =
      Function.update users number (some userId) := by
  have hrange : 0 ≤ (number : Int) ∧ (number : Int) < 5 := by omega
  have hsit (status : PlayerStatus) : (desk.setSeat number
      ((desk.seats number).playerSitDown ⟨userId, status, false⟩)
        ).occupant = Function.update users number (some userId) := by
    rw [occupant_setSeat, h, GameSeat.user_playerSitDown]
  unfold playerSitDown
  rw [dif_pos hrange]
  simp only [Int.toNat_natCast, Fin.eta, hidle, Bool.false_eq_true,
    if_false]
  split_ifs <;> exact hsit _

theorem occupant_leaveSeat (h : desk.occupant = users) :
    (desk.leaveSeat number).occupant = Function.update users number none := by
  rw [← h]
  exact occupant_setSeat _ _ _

theorem occupant_finishStandUp (h : desk.occupant = users) :
    (desk.finishStandUp number).occupant =
      Function.update users number none := by
  have hleft := occupant_leaveSeat number h
  unfold finishStandUp
  dsimp only
  split_ifs
  · exact occupant_setJoinedStatus .unready hleft
  · exact hleft
  · exact hleft

/-- `player_stand_up` does not return `-1`. -/
def mayStandUp (desk : GameDesk) (number : SeatNum) : Bool :=
  desk.isGameOver || !(desk.seats number).status.ingame ||
    (desk.round = .declare && desk.applyDeclareSeatnum ≠ some number)

theorem playerStandUp_seats (h : desk.occupant = users) :
    Seats (if desk.mayStandUp number then Function.update users number none
      else users) (desk.playerStandUp room env number) := by
  unfold playerStandUp mayStandUp
  cases hover : desk.isGameOver <;>
    cases hin : (desk.seats number).status.ingame
  · exact occupant_finishStandUp number h
  · by_cases hround : desk.round = .declare
    · by_cases hwinner : desk.applyDeclareSeatnum = some number
      · simpa [hround, hwinner] using h
      · have hdeclared : Seats (Function.update users number none) (do
            let desk ← desk.defaultDecalre room env number
            .ok (desk.finishStandUp number)) :=
          (defaultDecalre_seats room env number h).bind
            fun _ _ hdesk => occupant_finishStandUp number hdesk
        simpa [hround, hwinner] using hdeclared
    · simpa [hround] using h
  · exact occupant_finishStandUp number h
  · exact occupant_finishStandUp number h

/-! ## Between games -/

theorem finishStandUp_isGameOver (h : desk.isGameOver) :
    (desk.finishStandUp number).isGameOver := by
  unfold finishStandUp
  dsimp only
  split_ifs
  · rfl
  · rfl
  · exact h

theorem playerStandUp_of_isGameOver (h : desk.isGameOver) :
    desk.playerStandUp room env number =
      .ok (desk.finishStandUp number) := by
  rw [playerStandUp, h]
  rfl

theorem mayStandUp_of_isGameOver (h : desk.isGameOver) :
    desk.mayStandUp number = true := by
  rw [mayStandUp, h]
  rfl

end

end GameDesk

end StarsGaming.Desk
