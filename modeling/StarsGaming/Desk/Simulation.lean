import StarsGaming.Desk.Requests

/-!
# The desk follows the rules of the table

Every step of the desk is matched by a path of moves.  The remarkable moves
happen only for the requests named here, so a property of the moves holds in
every run without such requests.
-/

namespace StarsGaming.Desk

open Cards

namespace GameDesk

variable {desk : GameDesk} {number : SeatNum} {room : RoomInfo} {env : Env}
  {allow : Label → Prop}

/-! ## Timeouts -/

/-- The losers still to come do not include the winner. -/
structure LoserLoop (allow : Label → Prop) (desk : GameDesk) : Prop where
  sound : desk.table.Sound .rest
  round : desk.round = .declare ∧ (allow .lateLose ∨
      ∃ winner, desk.table.declarer = some winner ∧
        (desk.table.place winner).ingame) ∨
    desk.round = .distribute ∧ desk.table.ingame.card ≤ 1 ∧
      (allow .lateLose ∨ ∀ number, (desk.table.place number).ingame →
        (desk.table.place number).declared)

theorem lose_ingame {t : Table} {paid : Int} :
    (t.lose number paid).ingame = t.ingame.erase number :=
  Table.ingame_put_out rfl

theorem lose_place_ne {t : Table} {paid : Int} {other : SeatNum}
    (h : other ≠ number) : (t.lose number paid).place other = t.place other :=
  Function.update_of_ne h ..

theorem Declaring.ne {winner : SeatNum} (h : desk.table.Declaring winner)
    (hnot : (desk.table.place number).declared = false) :
    winner ≠ number := by
  rintro rfl
  simp [h.2.1] at hnot

theorem LoserLoop.declare (h : desk.LoserLoop allow)
    (hround : desk.round = .declare)
    (hin : (desk.table.place number).ingame)
    (hnot : (desk.table.place number).declared = false) (hplain : allow .plain) :
    Serves allow .rest desk.table (desk.defaultDecalre room env number) ∧
      ∀ desk', desk.defaultDecalre room env number = .ok desk' →
        desk'.LoserLoop allow := by
  have hphase : desk.table.RestPhase desk.table.round := h.sound.phase
  rw [show desk.table.round = .declare from hround] at hphase
  obtain ⟨-, winner, hwinner⟩ := hphase
  have hne := Declaring.ne hwinner hnot
  have hserves := @defaultDecalre_serves desk number room env allow hplain
    (by rw [hwinner.1]; exact fun heq => hne (Option.some.inj heq))
    h.sound hround hin
  refine ⟨hserves, fun desk' hdesk' => ?_⟩
  rw [hdesk'] at hserves
  have hsound := Path.sound hserves h.sound
  have hlate : allow .lateLose ∨ (desk.table.place winner).ingame := by
    rcases h.round with ⟨-, hlate | ⟨other, hother, hingame⟩⟩ | ⟨hover, -⟩
    · exact Or.inl hlate
    · rw [Option.some.inj (hwinner.1.symm.trans hother)]
      exact Or.inr hingame
    · simp [hround] at hover
  obtain ⟨paid, htable | ⟨⟨tips, htable⟩, hone⟩⟩ :=
    defaultDecalre_post h.sound hround hin hdesk'
  · refine ⟨hsound, Or.inl ⟨(congrArg Table.round htable).trans hround, ?_⟩⟩
    refine hlate.imp_right fun hingame => ⟨winner, ?_, ?_⟩
    · rw [htable]
      exact hwinner.1
    · rw [htable, lose_place_ne hne]
      exact hingame
  · have hcard : desk'.table.ingame.card = 1 := by
      rw [htable]
      exact hone
    refine ⟨hsound, Or.inr ⟨congrArg Table.round htable, hcard.le, ?_⟩⟩
    refine hlate.imp_right fun hingame => fun other hother => ?_
    -- only the winner is left in game
    have hlast : other = winner := by
      obtain ⟨last, hlast⟩ := Finset.card_eq_one.mp hone
      have hmem : ∀ seat, ((desk.table.lose number paid).place seat).ingame →
          seat = last := by
        intro seat hseat
        simpa [hlast] using Table.mem_ingame.mpr hseat
      rw [hmem winner (by rw [lose_place_ne hne]; exact hingame)]
      apply hmem other
      rw [htable] at hother
      exact hother
    rw [hlast, htable]
    change ((desk.table.lose number paid).place winner).declared
    rw [lose_place_ne hne]
    exact hwinner.2.1

theorem LoserLoop.late (h : desk.LoserLoop allow)
    (hround : desk.round = .distribute)
    (hin : (desk.table.place number).ingame)
    (hnot : (desk.table.place number).declared = false) :
    Serves allow .rest desk.table (desk.defaultDecalre room env number) ∧
      ∀ desk', desk.defaultDecalre room env number = .ok desk' →
        desk'.LoserLoop allow := by
  obtain ⟨hcard, hlate⟩ : desk.table.ingame.card ≤ 1 ∧ allow .lateLose := by
    rcases h.round with ⟨hdeclare, -⟩ | ⟨-, hcard, hlate | hall⟩
    · simp [hround] at hdeclare
    · exact ⟨hcard, hlate⟩
    · simp [hall number hin] at hnot
  obtain ⟨desk', paid, hdesk', hpaid, htable⟩ :=
    @defaultDecalre_late desk number room env h.sound hin hcard
  have hpath : Path allow .rest desk.table .rest desk'.table := by
    rw [htable]
    exact Path.move (.lateLose hround hpaid) hlate
  rw [hdesk']
  refine ⟨hpath, fun last hlast => ?_⟩
  cases hlast
  refine ⟨hpath.sound h.sound, Or.inr
    ⟨(congrArg Table.round htable).trans hround, ?_, Or.inl hlate⟩⟩
  rw [htable, lose_ingame]
  exact Finset.card_erase_le.trans hcard

theorem stepDeclareTimeout_serves (hplain : allow .plain)
    (hlate : ∀ winner, desk.applyDeclareSeatnum = some winner →
      (desk.seats winner).status.ingame = false → allow .lateLose)
    (h : desk.table.Sound .rest) (hround : desk.round = .declare) :
    Serves allow .rest desk.table (desk.stepDeclareTimeout room env) := by
  refine @Foundation.Machine.Serves.foldlM _ _ _ _ _ rules _ table allow
    (declareTimeout room env) (LoserLoop allow) ?_ seatNums desk ?_
  · intro desk' number hloop
    unfold declareTimeout
    simp only
    split
    next hloser =>
      simp only [Bool.and_eq_true, Bool.not_eq_true'] at hloser
      obtain ⟨⟨-, hin⟩, hnot⟩ := hloser
      rcases hloop.round with ⟨hdeclare, -⟩ | ⟨hover, -⟩
      · exact hloop.declare hdeclare hin hnot hplain
      · exact hloop.late hover hin hnot
    next =>
      refine ⟨serves_same rfl, fun last hlast => ?_⟩
      cases hlast
      exact hloop
  · refine ⟨h, Or.inl ⟨hround, ?_⟩⟩
    have hphase : desk.table.RestPhase desk.table.round := h.phase
    rw [show desk.table.round = .declare from hround] at hphase
    obtain ⟨-, winner, hwinner⟩ := hphase
    cases hin : (desk.table.place winner).ingame with
    | false => exact Or.inl (hlate winner hwinner.1 hin)
    | true => exact Or.inr ⟨winner, hwinner.1, hin⟩

theorem turnTimeout_serves (hplain : allow .plain)
    (hdraw : desk.timeGameBegin + desk.drawSec < env.now →
      desk.chipsPool ≠ 0 → allow .poolDraw)
    (h : desk.table.Sound .rest)
    (hround : desk.round = .dealerCard ∨ desk.round = .active1 ∨
      desk.round = .shuffleCard) :
    Serves allow .rest desk.table (desk.activePlayer room env) := by
  have hpath : Path allow .rest desk.table .turn desk.table :=
    Path.move (.timeout hround) hplain
  exact Serves.after hpath (activePlayer_serves hplain hdraw (hpath.sound h))

theorem active_player_some (h : desk.table.Sound .rest)
    (hround : desk.round = .active1 ∨ desk.round = .active2) :
    ∃ number player, desk.activeSeatnum = some number ∧
      (desk.seats number).player = some player := by
  have hphase : desk.table.RestPhase desk.table.round := h.phase
  have hactive : ∃ number, desk.activeSeatnum = some number ∧
      (desk.table.place number).ingame := by
    rcases hround with hround | hround <;>
      rw [show desk.table.round = _ from hround] at hphase
    · exact hphase.2.2.2
    · obtain ⟨-, -, number, hactive, hin, -⟩ := hphase
      exact ⟨number, hactive, hin⟩
  obtain ⟨number, hactive, hin⟩ := hactive
  have hplayer : (desk.seats number).player.isSome :=
    (h.places number).player.trans ((h.places number).seated hin)
  obtain ⟨player, hplayer⟩ := Option.isSome_iff_exists.mp hplayer
  exact ⟨number, player, hactive, hplayer⟩

theorem setTrustee_table (desk : GameDesk) (number : SeatNum) :
    (desk.setSeat number ((desk.seats number).setTrustee true)).table =
      desk.table :=
  table_setSeat_same (place_setTrustee ..)

theorem stepActive1Timeout_serves (hplain : allow .plain)
    (hdraw : desk.timeGameBegin + desk.drawSec < env.now →
      desk.chipsPool ≠ 0 → allow .poolDraw)
    (h : desk.table.Sound .rest) (hround : desk.round = .active1) :
    Serves allow .rest desk.table (desk.stepActive1Timeout room env) := by
  obtain ⟨number, player, hactive, hplayer⟩ :=
    active_player_some h (Or.inl hround)
  have hsame := setTrustee_table desk number
  simp only [stepActive1Timeout, hactive, hplayer]
  rw [← hsame] at h ⊢
  exact turnTimeout_serves hplain hdraw h (Or.inr (Or.inl hround))

theorem stepRand2Timeout_serves (hplain : allow .plain)
    (hdraw : desk.timeGameBegin + desk.drawSec < env.now →
      desk.bottomCards.length ≠ 1 → desk.chipsPool ≠ 0 → allow .poolDraw)
    (h : desk.table.Sound .rest) (hround : desk.round = .active2) :
    Serves allow .rest desk.table (desk.stepRand2Timeout room env) := by
  obtain ⟨number, player, hactive, hplayer⟩ :=
    active_player_some h (Or.inr hround)
  have hsame := setTrustee_table desk number
  simp only [stepRand2Timeout, hactive, hplayer]
  rw [← hsame] at h ⊢
  exact postDefaultCard_serves hplain hdraw h hround hactive

theorem stepNewRound_serves (hplain : allow .plain)
    (hdraw : desk.timeGameBegin + desk.drawSec < env.now →
      desk.chipsPool ≠ 0 →
      desk.round = .dealerCard ∨ desk.round = .active1 ∨
        desk.round = .shuffleCard ∨
        desk.round = .active2 ∧ desk.bottomCards.length ≠ 1 →
      allow .poolDraw)
    (hlate : desk.round = .declare → ∀ winner,
      desk.applyDeclareSeatnum = some winner →
      (desk.seats winner).status.ingame = false → allow .lateLose)
    (h : desk.table.Sound .rest) :
    Serves allow .rest desk.table (desk.stepNewRound room env) := by
  unfold stepNewRound
  simp only
  split
  next hround =>
    exact @stepUnready_serves { desk with waiting := false } room env allow
      hplain hround
  next hround =>
    exact @stepPlayingBegin_serves { desk with waiting := false } env allow
      hplain h hround
  next hround =>
    exact @turnTimeout_serves { desk with waiting := false } room env allow
      hplain (fun hexp hpool => hdraw hexp hpool (Or.inl hround)) h
      (Or.inl hround)
  next hround =>
    exact @stepActive1Timeout_serves { desk with waiting := false } room env
      allow hplain
      (fun hexp hpool => hdraw hexp hpool (Or.inr (Or.inl hround))) h hround
  next hround =>
    exact @stepRand2Timeout_serves { desk with waiting := false } room env
      allow hplain (fun hexp hmany hpool =>
        hdraw hexp hpool (Or.inr (Or.inr (Or.inr ⟨hround, hmany⟩)))) h hround
  next hround =>
    exact @stepDeclareTimeout_serves { desk with waiting := false } room env
      allow hplain (hlate hround) h hround
  next hround =>
    exact @turnTimeout_serves { desk with waiting := false } room env allow
      hplain
      (fun hexp hpool => hdraw hexp hpool (Or.inr (Or.inr (Or.inl hround)))) h
      (Or.inr (Or.inr hround))
  next hround =>
    exact @readyForNextGame_serves { desk with waiting := false } room env
      allow hplain hround

end GameDesk

/-! ## Remarkable requests -/

def isSelfLose (desk : GameDesk) : Request → Bool
  | .applyLoseDeclare userId groups =>
      (desk.getSeat userId).any fun number =>
        desk.round = .declare && desk.applyDeclareSeatnum = some number &&
          (desk.seats number).status.ingame &&
          ((desk.seats number).checkLoseDeclare
            (groups.map CardGroup.parseMsgGroup) desk.jokerCard.point).2
  | _ => false

def isLateLose (desk : GameDesk) : Request → Bool
  | .waitRoundTimeout =>
      desk.round = .declare &&
        desk.applyDeclareSeatnum.any fun winner =>
          !(desk.seats winner).status.ingame
  | _ => false

/--
The turn is passed on after the draw time although chips are in the pool: by
a timeout, by a posted card, or by a drop whose own payment counts.
-/
def isPoolDraw (room : RoomInfo) (desk : GameDesk) : Env × Request → Bool
  | (env, .waitRoundTimeout) =>
      desk.timeGameBegin + desk.drawSec < env.now && desk.chipsPool ≠ 0 &&
        (desk.round = .dealerCard || desk.round = .active1 ||
          desk.round = .shuffleCard ||
          desk.round = .active2 && desk.bottomCards.length ≠ 1)
  | (env, .applyPostCard userId card) =>
      desk.timeGameBegin + desk.drawSec < env.now && desk.chipsPool ≠ 0 &&
        (desk.getSeat userId).any fun number =>
          desk.activeSeatnum = some number && desk.round = .active2 &&
            parseCard card ∈ (desk.seats number).handcardsTotal &&
            desk.bottomCards.length ≠ 1
  | (env, .applyDrop userId) =>
      desk.timeGameBegin + desk.drawSec < env.now &&
        (desk.getSeat userId).any fun number =>
          desk.isWaitActive && desk.activeSeatnum = some number &&
            3 ≤ desk.getIngameCount &&
            desk.chipsPool + desk.paidBy room env number ≠ 0
  | _ => false

/--
The active player drops after digging, others play on, and the piles are not
filled up: the pool is empty or the bottom is down to its last card.
-/
def isDryDrop (desk : GameDesk) : Request → Bool
  | .applyDrop userId =>
      (desk.getSeat userId).any fun number =>
        desk.round = .active2 && desk.activeSeatnum = some number &&
          3 ≤ desk.getIngameCount &&
          (desk.pokercardPool.isEmpty || desk.bottomCards.length < 2)
  | _ => false

def allows (room : RoomInfo) (desk : GameDesk) (a : Env × Request) :
    Label → Prop
  | .plain => True
  | .selfLose => isSelfLose desk a.2
  | .lateLose => isLateLose desk a.2
  | .poolDraw => isPoolDraw room desk a
  | .dryDrop => isDryDrop desk a.2

/-! ## The simulation -/

theorem serve_serves {desk : GameDesk} {allow : Label → Prop} {userId : Int}
    {handler : GameDesk → SeatNum → Except Fault GameDesk}
    (h : ∀ number, desk.getSeat userId = some number →
      Serves allow .rest desk.table (handler desk number)) :
    Serves allow .rest desk.table (serve desk userId handler) := by
  unfold serve
  split
  next => exact GameDesk.serves_same rfl
  next number hseat => exact h number hseat

theorem step_simulates (room : RoomInfo) :
    rules.Simulates GameDesk.table (step room) (allows room)
      Table.Sound := by
  intro desk ⟨env, request⟩ h
  change Serves _ .rest desk.table _
  cases request with
  | applySeat userId seatNumber =>
      simp only [step]
      split
      next => exact GameDesk.serves_same rfl
      next => exact GameDesk.playerSitDown_serves trivial userId seatNumber
  | applyStandup userId =>
      exact serve_serves fun _ _ => GameDesk.playerStandUp_serves trivial h
  | applyDigCard userId digtype =>
      exact serve_serves fun _ _ =>
        GameDesk.playerDigCard_serves trivial digtype
  | applyPostCard userId card =>
      refine serve_serves fun number hseat =>
        GameDesk.playerPostCard_serves trivial ?_ h
      intro hexpired hactive hround hmem hmany hpool
      simp [allows, isPoolDraw, hexpired, hactive, hround, hmem, hmany, hpool,
        hseat]
  | applyDeclare userId card groups =>
      exact serve_serves fun _ _ => GameDesk.playerDeclare_serves trivial
  | applyLoseDeclare userId groups =>
      refine serve_serves fun number hseat =>
        GameDesk.playerLoseDeclare_serves trivial ?_ h
      intro hround hin hdeclarer haccepted
      simp [allows, isSelfLose, hseat, hround, hin, hdeclarer, haccepted]
  | applyDrop userId =>
      refine serve_serves fun number hseat =>
        GameDesk.playerDrop_serves trivial ?_ ?_ h
      · intro hexpired hwait hactive hthree hpool
        simp [allows, isPoolDraw, hexpired, hseat, hwait, hactive, hthree,
          hpool]
      · intro hround hactive hthree hempty
        simp only [allows, isDryDrop, hseat, Option.any_some, hround, hactive,
          hthree, decide_true, Bool.true_and, Bool.or_eq_true,
          List.isEmpty_iff, decide_eq_true_eq]
        exact hempty
  | applyTrusteeOff userId =>
      exact serve_serves fun _ _ => GameDesk.playerTrusteeoff_serves
  | applyCloseAccountBox userId =>
      exact serve_serves fun _ _ =>
        GameDesk.playerCloseAccountBox_serves trivial
  | waitRoundTimeout =>
      refine GameDesk.stepNewRound_serves trivial ?_ ?_ h
      · intro hexpired hpool hround
        simp [allows, isPoolDraw, hexpired, hpool]
        tauto
      · intro hround winner hwinner hout
        simp [allows, isLateLose, hround, hwinner, hout]

/-! ## Reachable desks -/

theorem create_sound (dealer : CardDealer) :
    (GameDesk.create dealer).table.Sound .rest where
  places _ :=
    ⟨rfl, fun hin => absurd hin Bool.false_ne_true,
      fun hin => absurd hin Bool.false_ne_true, fun _ => rfl,
      Or.inl rfl⟩
  chipsPool := le_rfl
  idle _ := ⟨rfl, rfl, fun _ => rfl⟩
  cards hlive := nomatch (show true = false from hlive)
  declared hlive := nomatch (show true = false from hlive)
  phase := trivial

theorem Reachable.invariant {room : RoomInfo}
    {ok : GameDesk → Env × Request → Prop} {P : Label → Prop}
    {J : Mode → Table → Prop}
    (hJ : rules.Preserves P fun m t => t.Sound m ∧ J m t)
    (hok : ∀ desk a l, ok desk a → allows room desk a l → P l)
    (hinit : ∀ dealer, J .rest (GameDesk.create dealer).table)
    {desk : GameDesk} (h : Reachable room ok desk) :
    desk.table.Sound .rest ∧ J .rest desk.table := by
  refine (step_simulates room).invariant hJ (fun _ _ => And.left) hok ?_ h
  rintro _ ⟨dealer, rfl⟩
  exact ⟨create_sound dealer, hinit dealer⟩

theorem Reachable.sound {room : RoomInfo}
    {ok : GameDesk → Env × Request → Prop} {desk : GameDesk}
    (h : Reachable room ok desk) : desk.table.Sound .rest := by
  refine (step_simulates room).invariant sound_preserved (fun _ _ => id)
    (fun _ _ _ _ _ => trivial) ?_ h
  rintro _ ⟨dealer, rfl⟩
  exact create_sound dealer

theorem Reachable.stuck {room : RoomInfo}
    {ok : GameDesk → Env × Request → Prop} {P : Label → Prop}
    {J : Mode → Table → Prop}
    (hJ : rules.Preserves P fun m t => t.Sound m ∧ J m t)
    (hok : ∀ desk a l, ok desk a → allows room desk a l → P l)
    (hinit : ∀ dealer, J .rest (GameDesk.create dealer).table)
    {desk : GameDesk} (h : Reachable room ok desk) {a : Env × Request}
    {fault : Fault} (ha : ok desk a)
    (hfault : step room desk a = .error fault) :
    ∃ m t, J m t ∧ Stuck m t fault := by
  obtain ⟨m, t, ⟨-, hJt⟩, hstuck⟩ := (step_simulates room).fault hJ
    (fun _ _ => And.left) hok (h.invariant hJ hok hinit) ha hfault
  exact ⟨m, t, hJt, hstuck⟩

/-! ## A sample room -/

def dealerOf (chosen : List PokerCard) (h : FromDeck chosen) : CardDealer :=
  ⟨chosen ++ initCards.diff chosen,
    List.subperm_append_diff_self_of_count_le fun card _ =>
      List.Subperm.count_le h card⟩

def sampleRoom : RoomInfo := ⟨1, 10, by decide, by decide⟩

def sampleEnv (now : Int) : Env where
  now := now
  rand := fun call => (call - 1) % CardDealer.CARD_COUNT
  dealLoserAccount := fun _ asked => max 0 asked
  checkChipsCarry := fun _ => true
  offline := fun _ => false
  taken_nonneg := fun _ _ => le_max_left ..
  taken_zero := fun _ => rfl

/-- Users `1`, `2` and so on sit down and the first turn begins. -/
def firstTurn (players : Nat) : List (Env × Request) :=
  ((List.range players).map fun seat =>
    (sampleEnv 0, .applySeat (seat + 1) seat)) ++
    List.replicate 3 (sampleEnv 0, .waitRoundTimeout)

/-- A hand without a straight or a set, in four choices of the suits. -/
def looseHand (shift : Nat) : List PokerCard :=
  [(0, 2), (1, 4), (2, 6), (3, 8), (0, 10), (1, 12), (2, 14), (3, 2), (0, 5),
    (1, 7), (2, 9), (3, 11), (0, 13)].map fun (color, point) =>
      ⟨(color + shift) % 4 + 1, point⟩

def looseDealer : CardDealer :=
  dealerOf (looseHand 0 ++ looseHand 1 ++ looseHand 2) (by decide +kernel)

theorem create_reaches (room : RoomInfo)
    (ok : GameDesk → Env × Request → Prop) [∀ desk a, Decidable (ok desk a)]
    (dealer : CardDealer) (inputs : List (Env × Request))
    (p : GameDesk → Bool)
    (h : (Foundation.runs ok (step room) (.create dealer) inputs).any p) :
    ∃ desk, Reachable room ok desk ∧ p desk :=
  Foundation.exists_reaches ⟨dealer, rfl⟩ inputs p h

end StarsGaming.Desk
