import StarsGaming.Desk.Simulation

/-!
# Settlement

Every chip a loser pays goes to the pool of the game, and the pool goes to the
winner or into the tips.  Two endings break this: the draw timer throws a filled
pool away, and a loser who pays after the end fills the pool of the next game.
Every loser pays once, unless the declarer sends a lose declare as well.
-/

namespace StarsGaming.Desk

open Cards

def GameResult.Balanced (result : GameResult) : Prop :=
  ∑ number, result.chips number + result.tips = 0

namespace Table

variable {t t' : Table} {number : SeatNum} {p : Place}

/-! ## Chips -/

def total (t : Table) : Int := ∑ number, (t.place number).chips

structure Balanced (m : Mode) (t : Table) : Prop where
  total : t.total + t.chipsPool = 0
  idle : t.round.isGameOver → t.chipsPool = 0
  winner : m = .ending → t.declarer = none → t.chipsPool = 0
  notes : ∀ result, .gameOver result ∈ t.notes → result.Balanced

theorem total_put (t : Table) (number : SeatNum) (p : Place) :
    (t.place number).chips + (t.put number p).total = p.chips + t.total :=
  sum_put Place.chips t number p

theorem total_put_same (h : p.chips = (t.place number).chips) :
    (t.put number p).total = t.total := by
  have hput := total_put t number p
  omega

theorem total_pay {paid : Int} (h : p.chips = (t.place number).chips) :
    (t.pay number paid p).total + (t.pay number paid p).chipsPool =
      t.total + t.chipsPool := by
  have hput := total_put t number
    { p with ingame := false, chips := p.chips - paid }
  change (t.put number _).total + (t.chipsPool + paid) = _
  simp only at hput
  omega

theorem Balanced.congr {m m' : Mode} (h : t.Balanced m)
    (htotal : t'.total = t.total) (hpool : t'.chipsPool = t.chipsPool)
    (hover : t'.round.isGameOver → t.round.isGameOver)
    (hending : m' ≠ .ending)
    (hnotes : ∀ result, .gameOver result ∈ t'.notes →
      .gameOver result ∈ t.notes) : t'.Balanced m' where
  total := by rw [htotal, hpool]; exact h.total
  idle hround := hpool.trans (h.idle (hover hround))
  winner hmode := absurd hmode hending
  notes result hresult := h.notes result (hnotes result hresult)

theorem Balanced.put {m m' : Mode} (h : t.Balanced m) {t' : Table}
    (hplace : t'.place = (t.put number p).place)
    (hchips : p.chips = (t.place number).chips)
    (hpool : t'.chipsPool = t.chipsPool)
    (hover : t'.round.isGameOver → t.round.isGameOver)
    (hending : m' ≠ .ending) (hnotes : t'.notes = t.notes) :
    t'.Balanced m' := by
  refine h.congr ?_ hpool hover hending fun result hresult => hnotes ▸ hresult
  rw [← total_put_same hchips]
  simp only [Table.total, hplace]

theorem Balanced.deal (h : t.Balanced .rest) (hround : t.round = .waitPlaying)
    (hdealt : t.Dealt t') : t'.Balanced .rest := by
  have hpool : t'.chipsPool = 0 :=
    hdealt.chipsPool.trans (h.idle (by simp [hround, Round.isGameOver]))
  have htotal : t'.total = 0 :=
    Finset.sum_eq_zero fun number _ => (hdealt.place number).2.2.2.2.2
  refine ⟨by omega, fun _ => hpool, by simp, ?_⟩
  rw [hdealt.notes]
  exact h.notes

theorem Balanced.pay {paid : Int} {gone : List SeatNum} (h : t.Balanced .rest)
    (hlive : t.live) (hchips : p.chips = (t.place number).chips) :
    { t.pay number paid p with gone := gone }.Balanced .out where
  total := (total_pay hchips).trans h.total
  idle hover := by
    change t.round.isGameOver = true at hover
    simp [show t.round.isGameOver = false from hlive] at hover
  winner := by simp
  notes := h.notes

theorem total_payout {winner : SeatNum} (tips : Int)
    (hwinner : t.declarer = some winner) :
    ∑ number, t.payout tips number = t.total + (t.chipsPool - tips) := by
  have hsplit : ∀ number, t.payout tips number =
      (t.place number).chips +
        if number = winner then t.chipsPool - tips else 0 := by
    intro number
    unfold payout
    rw [hwinner]
    by_cases heq : winner = number
    · simp [heq]
    · have hne : ¬ number = winner := fun hsame => heq hsame.symm
      simp [heq, hne]
  rw [Finset.sum_congr rfl fun number _ => hsplit number,
    Finset.sum_add_distrib, Finset.sum_ite_eq' Finset.univ winner]
  simp [total]

theorem Balanced.finish {tips : Int} (h : t.Balanced .ending)
    (htips : t.declarer = none → tips = 0) : (t.finish tips).Balanced .rest := by
  have htotal := h.total
  refine ⟨?_, fun _ => rfl, by simp, fun result hresult => ?_⟩
  · change ∑ _ : SeatNum, (0 : Int) + 0 = 0
    simp
  · rcases List.mem_cons.mp hresult with hnew | hold
    · obtain rfl : result = t.result tips := by simpa using hnew
      change ∑ number, t.payout tips number + tips = 0
      cases hwinner : t.declarer with
      | none =>
          have hpool := h.winner rfl hwinner
          have hpayout : ∀ number,
              t.payout tips number = (t.place number).chips := by
            simp [payout, hwinner]
          rw [Finset.sum_congr rfl fun number _ => hpayout number,
            htips hwinner]
          rwa [hpool] at htotal
      | some winner =>
          rw [total_payout tips hwinner]
          omega
    · exact h.notes result hold

end Table

open Table in
theorem balanced_preserved :
    rules.Preserves (fun l => l ≠ .poolDraw ∧ l ≠ .lateLose)
      fun m t => t.Sound m ∧ t.Balanced m := by
  intro m t l m' t' hl hmove ⟨hsound, h⟩
  refine ⟨sound_preserved trivial hmove hsound, ?_⟩
  cases hmove with
  | sit => exact h.put rfl rfl rfl id (by simp) rfl
  | leave => exact h.put rfl rfl rfl id (by simp) rfl
  | wait hover => exact h.congr rfl rfl (fun _ => hover) (by simp) fun _ => id
  | deal hround _ hdealt => exact h.deal hround hdealt
  | arrange => exact h.put rfl rfl rfl id (by simp) rfl
  | digBottom =>
      exact h.put rfl rfl rfl (by simp [Table.dig, Round.isGameOver]) (by simp)
        rfl
  | digPool =>
      exact h.put rfl rfl rfl (by simp [Table.dig, Round.isGameOver]) (by simp)
        rfl
  | post => exact h.put rfl rfl rfl id (by simp) rfl
  | shuffle =>
      exact h.congr rfl rfl (by simp [Table.shuffle, Round.isGameOver])
        (by simp) (by simp [Table.shuffle])
  | pass => exact h.congr rfl rfl id (by simp) fun _ => id
  | timeout => exact h.congr rfl rfl id (by simp) fun _ => id
  | activate =>
      exact h.congr rfl rfl (by simp [Round.isGameOver]) (by simp)
        (by simp [Table.enter])
  | draw =>
      have hempty : t.chipsPool = 0 := by
        by_contra hpool
        exact hl.1 (if_neg hpool)
      exact ⟨h.total, h.idle, fun _ _ => hempty,
        fun result hresult => h.notes result (by simpa [enter] using hresult)⟩
  | declare =>
      exact h.put rfl rfl rfl (by simp [Table.declare, Round.isGameOver])
        (by simp) rfl
  | @lose _ number paid hround =>
      exact @Balanced.pay t number _ paid t.gone h
        (by simp [live, hround, Round.isGameOver]) rfl
  | lateLose => exact absurd rfl hl.2
  | @drop _ number paid hround =>
      refine @Balanced.pay t number _ paid (number :: t.gone) h ?_ rfl
      rcases hround with hround | hround | hround <;>
        simp [live, hround, Round.isGameOver]
  | stay => exact h.congr rfl rfl id (by simp) fun _ => id
  | next => exact h.congr rfl rfl id (by simp) fun _ => id
  | lastDeclare hround =>
      have hphase : t.OutPhase t.round := hsound.phase
      rw [hround] at hphase
      obtain ⟨-, winner, hwinner, -⟩ := hphase
      exact ⟨h.total, h.idle, by simp [hwinner], h.notes⟩
  | lastDrop => exact ⟨h.total, h.idle, by simp, h.notes⟩
  | finish htips => exact h.finish htips

/-! ## Every run conserves chips -/

theorem create_balanced (dealer : CardDealer) :
    (GameDesk.create dealer).table.Balanced .rest where
  total := by
    change ∑ _ : SeatNum, (0 : Int) + 0 = 0
    simp
  idle _ := rfl
  winner := by simp
  notes _ hresult := absurd hresult List.not_mem_nil

/--
Every game balances in a run where no turn passes on after the draw time with
chips in the pool, and no declare times out after the declarer has left.
-/
theorem chips_conserved {room : RoomInfo} {desk : GameDesk}
    (h : Reachable room (fun desk a => isPoolDraw room desk a = false ∧
      isLateLose desk a.2 = false) desk) {result : GameResult}
    (hresult : .gameOver result ∈ desk.record.notes) : result.Balanced := by
  refine (h.invariant balanced_preserved ?_ create_balanced).2.notes result
    hresult
  intro desk a l ha hl
  constructor <;> rintro rfl <;> simp [allows, ha] at hl

def GameDesk.lastResult (desk : GameDesk) : Option GameResult :=
  desk.record.notes.findSome? fun
    | .gameOver result => some result
    | _ => none

theorem GameDesk.lastResult_mem {desk : GameDesk} {result : GameResult}
    (h : desk.lastResult = some result) :
    .gameOver result ∈ desk.record.notes := by
  obtain ⟨note, hmem, hnote⟩ := List.exists_of_findSome?_eq_some h
  cases note with
  | gameOver other =>
      cases hnote
      exact hmem
  | activePlayer => cases hnote
  | shuffleCard => cases hnote

theorem drop_conserves_chips :
    ∃ desk result, Reachable sampleRoom
        (fun desk a => isPoolDraw sampleRoom desk a = false ∧
          isLateLose desk a.2 = false) desk ∧
      .gameOver result ∈ desk.record.notes ∧ result.chips 0 = -20 ∧
      result.Balanced := by
  obtain ⟨desk, h, hlost⟩ := create_reaches sampleRoom
    (fun desk a => isPoolDraw sampleRoom desk a = false ∧
      isLateLose desk a.2 = false) looseDealer
    (firstTurn 2 ++ [(sampleEnv 0, .applyDrop 1)])
    (fun desk => desk.lastResult.any fun result => result.chips 0 = -20)
    (by decide +kernel)
  obtain ⟨result, hresult, hchips⟩ := (Option.any_eq_true _ _).mp hlost
  have hmem := GameDesk.lastResult_mem hresult
  exact ⟨desk, result, h, hmem, of_decide_eq_true hchips,
    chips_conserved h hmem⟩

theorem draw_loses_chips :
    ¬ ∀ (room : RoomInfo) (desk : GameDesk) (result : GameResult),
      Reachable room (fun _ _ => True) desk →
        .gameOver result ∈ desk.record.notes → result.Balanced := by
  intro hclaim
  obtain ⟨desk, h, hlost⟩ := create_reaches sampleRoom (fun _ _ => True)
    looseDealer
    (firstTurn 3 ++ [(sampleEnv 0, .applyDrop 1),
      (sampleEnv 2000, .waitRoundTimeout)])
    (fun desk => desk.lastResult.any fun result =>
      ∑ number, result.chips number + result.tips ≠ 0) (by decide +kernel)
  obtain ⟨result, hresult, hchips⟩ := (Option.any_eq_true _ _).mp hlost
  exact of_decide_eq_true hchips
    (hclaim sampleRoom desk result h (GameDesk.lastResult_mem hresult))

/-! ## Charges -/

/-- The losers of a declared game have paid once and the winner never. -/
def GameResult.SettledOnce (result : GameResult) : Prop :=
  ∃ winner, result.winner = some winner ∧ result.charged.count winner = 0 ∧
    ∀ number, result.joined number → number ≠ winner →
      result.charged.count number = 1

def Place.due (p : Place) : Nat :=
  if p.joined ∧ p.ingame = false then 1 else 0

theorem Place.due_ingame {p : Place} (h : p.ingame) : p.due = 0 := by
  simp [Place.due, h]

theorem Place.due_out {p : Place} (hjoined : p.joined)
    (hout : p.ingame = false) : p.due = 1 := by
  simp [Place.due, hjoined, hout]

namespace Table

variable {t t' : Table} {number : SeatNum} {p : Place}

structure Charged (m : Mode) (t : Table) : Prop where
  count : t.live → ∀ number, t.charged.count number = (t.place number).due
  declarer : t.round = .declare →
    ∃ winner, t.declarer = some winner ∧ (t.place winner).ingame
  normal : t.overType = some .normalOver → t.round = .declare
  ending : m = .ending → t.overType = some .normalOver → t.ingame.card = 1
  notes : ∀ result, .gameOver result ∈ t.notes →
    result.overType = some .normalOver → result.SettledOnce

theorem Charged.congr {m m' : Mode} (h : t.Charged m)
    (hcharged : t'.charged = t.charged) (hlive : t'.live → t.live)
    (hdue : t.live → ∀ number, (t'.place number).due = (t.place number).due)
    (hround : t'.round = .declare ↔ t.round = .declare)
    (hdeclarer : t'.declarer = t.declarer)
    (hingame : t.live → ∀ number,
      (t'.place number).ingame = (t.place number).ingame)
    (hover : t'.overType = t.overType) (hending : m' ≠ .ending)
    (hnotes : ∀ result, .gameOver result ∈ t'.notes →
      .gameOver result ∈ t.notes) : t'.Charged m' where
  count hlive' number := by
    rw [hcharged, hdue (hlive hlive')]
    exact h.count (hlive hlive') number
  declarer hround' := by
    have hold := hround.mp hround'
    obtain ⟨winner, hwinner, hin⟩ := h.declarer hold
    refine ⟨winner, hdeclarer.trans hwinner, ?_⟩
    rw [hingame (by simp [live, hold, Round.isGameOver])]
    exact hin
  normal hnormal := hround.mpr (h.normal (hover ▸ hnormal))
  ending hmode := absurd hmode hending
  notes result hresult := h.notes result (hnotes result hresult)

theorem Charged.turn {m m' : Mode} (h : t.Charged m)
    (hcharged : t'.charged = t.charged) (hplace : t'.place = t.place)
    (hround : t'.round = t.round) (hdeclarer : t'.declarer = t.declarer)
    (hover : t'.overType = t.overType) (hending : m' ≠ .ending)
    (hnotes : t'.notes = t.notes) : t'.Charged m' := by
  have hlive : t'.live → t.live := by
    rw [live, live, hround]
    exact id
  refine h.congr hcharged hlive (fun _ number => ?_) ?_ hdeclarer
    (fun _ number => ?_) hover hending fun result hresult => hnotes ▸ hresult
  · rw [hplace]
  · rw [hround]
  · rw [hplace]

theorem Charged.put {m m' : Mode} (h : t.Charged m) {t' : Table}
    (hplace : t'.place = (t.put number p).place)
    (hflags : t.live → p.joined = (t.place number).joined ∧
      p.ingame = (t.place number).ingame)
    (hcharged : t'.charged = t.charged) (hlive : t'.live → t.live)
    (hround : t'.round = .declare ↔ t.round = .declare)
    (hdeclarer : t'.declarer = t.declarer)
    (hover : t'.overType = t.overType) (hending : m' ≠ .ending)
    (hnotes : t'.notes = t.notes) : t'.Charged m' := by
  have hother : t.live → ∀ other,
      (t'.place other).joined = (t.place other).joined ∧
        (t'.place other).ingame = (t.place other).ingame := by
    intro hlive other
    rw [hplace, put_place]
    split
    next heq => exact heq ▸ hflags hlive
    next => exact ⟨rfl, rfl⟩
  refine h.congr hcharged hlive (fun hlive other => ?_) hround hdeclarer
    (fun hlive other => (hother hlive other).2) hover hending
    fun result hresult => hnotes ▸ hresult
  rw [Place.due, Place.due, (hother hlive other).1, (hother hlive other).2]

theorem Charged.deal (h : t.Charged .rest) (hround : t.round = .waitPlaying)
    (hdealt : t.Dealt t') : t'.Charged .rest where
  count _ number := by
    obtain ⟨-, -, hin, hjoined, -⟩ := hdealt.place number
    rw [hdealt.charged, Place.due, hin, hjoined]
    simp
  declarer hdeclare := by simp [hdealt.round] at hdeclare
  normal hnormal := by
    have hdeclare := h.normal (hdealt.overType ▸ hnormal)
    simp [hround] at hdeclare
  ending := by simp
  notes := hdealt.notes ▸ h.notes

theorem Charged.pay {paid : Int} {gone : List SeatNum} (h : t.Charged .rest)
    (hsound : t.Sound .rest) (hlive : t.live)
    (hin : (t.place number).ingame)
    (hjoined : p.joined = (t.place number).joined)
    (hself : t.round = .declare → t.declarer ≠ some number) :
    { t.pay number paid p with gone := gone }.Charged .out where
  count _ other := by
    change (number :: t.charged).count other = ((t.put number _).place other).due
    by_cases heq : other = number
    · rw [heq, put_place_self, List.count_cons_self, h.count hlive,
        Place.due_ingame hin, Place.due_out _ rfl]
      exact hjoined.trans ((hsound.places number).joined hin)
    · rw [put_place, if_neg heq, List.count_cons_of_ne (Ne.symm heq),
        h.count hlive]
  declarer hround := by
    obtain ⟨winner, hwinner, hingame⟩ := h.declarer hround
    have hne : winner ≠ number := fun heq => hself hround (heq ▸ hwinner)
    refine ⟨winner, hwinner, ?_⟩
    change ((t.put number _).place winner).ingame
    rw [put_place, if_neg hne]
    exact hingame
  normal := h.normal
  ending := by simp
  notes := h.notes

theorem Charged.declare (h : t.Charged .rest) (hsound : t.Sound .rest)
    (hround : t.round = .active2) (hactive : t.active = some number) :
    (t.declare number).Charged .rest where
  count _ other := by
    rw [show (t.declare number).charged = t.charged from rfl,
      h.count (by simp [live, hround, Round.isGameOver])]
    change _ = ((t.put number _).place other).due
    rw [put_place]
    split
    next heq => rw [heq]; rfl
    next => rfl
  declarer _ := by
    have hphase : t.RestPhase t.round := hsound.phase
    rw [hround] at hphase
    obtain ⟨-, -, active, hactive', hin, -⟩ := hphase
    obtain rfl : active = number :=
      Option.some.inj (hactive'.symm.trans hactive)
    refine ⟨active, rfl, ?_⟩
    change ((t.put active _).place active).ingame
    rw [put_place_self]
    exact hin
  normal _ := rfl
  ending := by simp
  notes := h.notes

theorem Charged.finish {tips : Int} (h : t.Charged .ending)
    (hsound : t.Sound .ending) : (t.finish tips).Charged .rest where
  count hlive := by simp [live, Table.finish, Round.isGameOver] at hlive
  declarer := by simp [Table.finish]
  normal := by simp [Table.finish]
  ending := by simp
  notes result hresult hnormal := by
    rcases List.mem_cons.mp hresult with hnew | hold
    · obtain rfl : result = t.result tips := by simpa using hnew
      change t.overType = some .normalOver at hnormal
      have hlive : t.live := hsound.phase
      obtain ⟨winner, hwinner, hin⟩ := h.declarer (h.normal hnormal)
      obtain ⟨last, hlast⟩ := Finset.card_eq_one.mp (h.ending rfl hnormal)
      have hmem : ∀ number, (t.place number).ingame → number = last := by
        intro number hnumber
        simpa [hlast] using mem_ingame.mpr hnumber
      refine ⟨winner, hwinner, ?_, fun number hjoined hne => ?_⟩
      · exact (h.count hlive winner).trans (Place.due_ingame hin)
      · refine (h.count hlive number).trans (Place.due_out hjoined ?_)
        by_contra hingame
        rw [Bool.not_eq_false] at hingame
        exact hne ((hmem number hingame).trans (hmem winner hin).symm)
    · exact h.notes result hold hnormal

end Table

open Table in
theorem charged_preserved :
    rules.Preserves (· ≠ .selfLose) fun m t => t.Sound m ∧ t.Charged m := by
  intro m t l m' t' hl hmove ⟨hsound, h⟩
  refine ⟨sound_preserved trivial hmove hsound, ?_⟩
  cases hmove with
  | sit =>
      exact h.put rfl (fun _ => ⟨rfl, rfl⟩) rfl id .rfl rfl rfl (by simp) rfl
  | leave hfree =>
      refine h.put rfl (fun hlive => ⟨?_, (hfree hlive).symm⟩) rfl id .rfl rfl
        rfl (by simp) rfl
      simp [show t.round.isGameOver = false from hlive]
  | @wait _ round hover hround =>
      refine h.congr rfl (fun hlive => ?_) (fun _ _ => rfl) ?_ rfl
        (fun _ _ => rfl) rfl (by simp) fun _ => id
      · simp [live, hround] at hlive
      · constructor
        · rintro rfl
          cases hround
        · intro hdeclare
          rw [hdeclare] at hover
          cases hover
  | deal hround _ hdealt => exact h.deal hround hdealt
  | arrange =>
      exact h.put rfl (fun _ => ⟨rfl, rfl⟩) rfl id .rfl rfl rfl (by simp) rfl
  | digBottom hround =>
      exact h.put rfl (fun _ => ⟨rfl, rfl⟩) rfl
        (by simp [live, hround, Round.isGameOver])
        (by simp [Table.dig, hround]) rfl rfl (by simp) rfl
  | digPool hround =>
      exact h.put rfl (fun _ => ⟨rfl, rfl⟩) rfl
        (by simp [live, hround, Round.isGameOver])
        (by simp [Table.dig, hround]) rfl rfl (by simp) rfl
  | post hround =>
      exact h.put rfl (fun _ => ⟨rfl, rfl⟩) rfl id .rfl rfl rfl (by simp) rfl
  | shuffle =>
      have hready : t.Ready := (show t.Ready ∧ _ from hsound.phase).1
      refine h.congr rfl (fun _ => hready.live) (fun _ _ => rfl) ?_ rfl
        (fun _ _ => rfl) rfl (by simp) (by simp [Table.shuffle])
      simp [Table.shuffle, hready.round]
  | pass => exact h.turn rfl rfl rfl rfl rfl (by simp) rfl
  | timeout => exact h.turn rfl rfl rfl rfl rfl (by simp) rfl
  | activate =>
      have hready : t.Ready := hsound.phase
      refine h.congr rfl (fun _ => hready.live) (fun _ _ => rfl) ?_ rfl
        (fun _ _ => rfl) rfl (by simp) (by simp [Table.enter])
      simp [hready.round]
  | draw =>
      exact ⟨h.count, h.declarer, by simp, by simp,
        fun result hresult => h.notes result (by simpa [enter] using hresult)⟩
  | declare hround hactive => exact h.declare hsound hround hactive
  | @lose _ number paid hround hin =>
      refine @Charged.pay t number _ paid t.gone h hsound
        (by simp [live, hround, Round.isGameOver]) hin rfl fun _ hself => ?_
      exact hl (if_pos hself)
  | lateLose hround =>
      refine ⟨fun hlive => ?_, fun hdeclare => ?_, h.normal, by simp, h.notes⟩
      · change t.round.isGameOver = false at hlive
        simp [hround, Round.isGameOver] at hlive
      · change t.round = .declare at hdeclare
        simp [hround] at hdeclare
  | @drop _ number paid hround hin =>
      refine @Charged.pay t number _ paid (number :: t.gone) h hsound ?_ hin
        rfl fun hdeclare => ?_
      · rcases hround with hround | hround | hround <;>
          simp [live, hround, Round.isGameOver]
      · simp [hdeclare] at hround
  | stay => exact h.turn rfl rfl rfl rfl rfl (by simp) rfl
  | next => exact h.turn rfl rfl rfl rfl rfl (by simp) rfl
  | lastDeclare _ hcount =>
      exact ⟨h.count, h.declarer, h.normal, fun _ _ => hcount, h.notes⟩
  | lastDrop hround =>
      exact ⟨h.count, fun hdeclare => absurd hdeclare hround, by simp, by simp,
        h.notes⟩
  | finish => exact h.finish hsound

/-! ## Every run settles once -/

theorem create_charged (dealer : CardDealer) :
    (GameDesk.create dealer).table.Charged .rest where
  count hlive := nomatch (show true = false from hlive)
  declarer hround := nomatch (show Round.unready = .declare from hround)
  normal hnormal := nomatch
    (show (none : Option GameOverType) = some .normalOver from hnormal)
  ending := by simp
  notes _ hresult := absurd hresult List.not_mem_nil

/-- Unless the declarer's own lose declare is accepted, losers pay once. -/
theorem settled_once {room : RoomInfo} {desk : GameDesk}
    (h : Reachable room (fun desk a => isSelfLose desk a.2 = false) desk)
    {result : GameResult} (hresult : .gameOver result ∈ desk.record.notes)
    (hnormal : result.overType = some .normalOver) : result.SettledOnce := by
  refine (h.invariant charged_preserved ?_ create_charged).2.notes result
    hresult hnormal
  rintro desk a l ha hl rfl
  simp [allows, ha] at hl

def winningGroups : List MsgCardGroup :=
  [⟨1, [⟨2, 1⟩, ⟨3, 1⟩, ⟨4, 1⟩]⟩, ⟨1, [⟨5, 2⟩, ⟨6, 2⟩, ⟨7, 2⟩]⟩,
    ⟨1, [⟨8, 3⟩, ⟨9, 3⟩, ⟨10, 3⟩]⟩,
    ⟨1, [⟨11, 4⟩, ⟨12, 4⟩, ⟨13, 4⟩, ⟨14, 4⟩]⟩]

def winningDealer : CardDealer :=
  dealerOf ((winningGroups.flatMap fun group => group.cards.map parseCard) ++
    looseHand 1 ++ [⟨1, 9⟩, ⟨1, 12⟩, ⟨4, 3⟩]) (by decide +kernel)

def declared : List (Env × Request) :=
  firstTurn 2 ++ [(sampleEnv 0, .applyDigCard 1 GameDesk.DIG_BOTTOM),
    (sampleEnv 0, .applyDeclare 1 ⟨3, 4⟩ winningGroups)]

/-- All cards of a hand in one group that is not a straight or a set. -/
def loseAll (cards : List MsgCard) : List MsgCardGroup := [⟨0, cards⟩]

theorem loser_settled_once :
    ∃ desk result, Reachable sampleRoom
        (fun desk a => isSelfLose desk a.2 = false) desk ∧
      .gameOver result ∈ desk.record.notes ∧
      result.overType = some .normalOver ∧ result.SettledOnce := by
  obtain ⟨desk, h, hover⟩ := create_reaches sampleRoom
    (fun desk a => isSelfLose desk a.2 = false) winningDealer
    (declared ++ [(sampleEnv 0, .applyLoseDeclare 2
      (loseAll ((looseHand 1).map fun card => ⟨card.point, card.color⟩)))])
    (fun desk => desk.lastResult.any fun result =>
      result.overType = some .normalOver) (by decide +kernel)
  obtain ⟨result, hresult, hnormal⟩ := (Option.any_eq_true _ _).mp hover
  have hmem := GameDesk.lastResult_mem hresult
  exact ⟨desk, result, h, hmem, of_decide_eq_true hnormal,
    settled_once h hmem (of_decide_eq_true hnormal)⟩

theorem declarer_charged :
    ¬ ∀ (room : RoomInfo) (desk : GameDesk) (result : GameResult),
      Reachable room (fun _ _ => True) desk →
        .gameOver result ∈ desk.record.notes →
        result.overType = some .normalOver → result.SettledOnce := by
  intro hclaim
  obtain ⟨desk, h, hover⟩ := create_reaches sampleRoom (fun _ _ => True)
    winningDealer
    (declared ++ [(sampleEnv 0, .applyLoseDeclare 1
      (loseAll (⟨3, 4⟩ :: winningGroups.flatMap MsgCardGroup.cards)))])
    (fun desk => desk.lastResult.any fun result =>
      result.overType = some .normalOver && result.winner = some 0 &&
        result.charged = [0]) (by decide +kernel)
  obtain ⟨result, hresult, hnormal⟩ := (Option.any_eq_true _ _).mp hover
  simp only [Bool.and_eq_true, decide_eq_true_eq] at hnormal
  obtain ⟨⟨hnormal, hwinner⟩, hcharged⟩ := hnormal
  obtain ⟨winner, hfirst, hnever, -⟩ := hclaim sampleRoom desk result h
    (GameDesk.lastResult_mem hresult) hnormal
  obtain rfl : 0 = winner := Option.some.inj (hwinner.symm.trans hfirst)
  simp [hcharged] at hnever

end StarsGaming.Desk
