import Mathlib.Algebra.Order.Group.Multiset
import StarsGaming.Desk.Simulation

/-!
# Safety of the desk

What the soundness of the table says about the desk itself: no card is on the
table twice, who plays sits, the turn belongs to a seat in game, every hand has
its size, and the assertions of the handlers hold.
-/

namespace StarsGaming.Desk

open Cards

namespace GameDesk

variable {desk : GameDesk} {room : RoomInfo}
  {ok : GameDesk → Env × Request → Prop}

/-! ## Cards -/

def cardsOnTable (desk : GameDesk) : Multiset PokerCard :=
  ↑desk.bottomCards + ↑desk.pokercardPool + {desk.jokerCard} +
    ∑ number, ↑(desk.seats number).handcardsTotal

theorem count_cardsOnTable (desk : GameDesk) (card : PokerCard) :
    desk.cardsOnTable.count card = desk.table.tally card := by
  have hhands : (∑ number, (↑(desk.seats number).handcardsTotal :
      Multiset PokerCard)).count card = desk.table.inHands card := by
    simp only [Multiset.count_sum', Multiset.coe_count]
    rfl
  rw [cardsOnTable, Multiset.count_add, hhands]
  simp only [Multiset.count_add, Multiset.coe_count, Table.tally]
  rw [← Multiset.coe_singleton, Multiset.coe_count]
  rfl

/--
During a game no card is on the table more often than in the double deck, and
while no dealt player has dropped or left no card is missing.
-/
theorem cards_from_deck (h : Reachable room ok desk)
    (hgame : desk.isGameOver = false) :
    desk.cardsOnTable ≤ ↑initCards ∧
      (desk.record.gone = [] → desk.cardsOnTable = ↑initCards) := by
  have hfair : desk.table.FairCards := h.sound.cards hgame
  constructor
  · rw [Multiset.le_iff_count]
    intro card
    rw [count_cardsOnTable, Multiset.coe_count]
    exact (hfair card).1
  · intro hgone
    ext card
    rw [count_cardsOnTable, Multiset.coe_count]
    exact (hfair card).2 hgone

theorem exists_active2 :
    ∃ desk, Reachable sampleRoom (fun _ _ => True) desk ∧
      desk.round = .active2 ∧ desk.record.gone = [] := by
  obtain ⟨desk, h, hround⟩ := create_reaches sampleRoom (fun _ _ => True)
    looseDealer (firstTurn 3 ++ [(sampleEnv 0, .applyDigCard 1 1)])
    (fun desk => desk.round = .active2 && desk.record.gone = [])
    (by decide +kernel)
  simp only [Bool.and_eq_true, decide_eq_true_eq] at hround
  exact ⟨desk, h, hround⟩

theorem cards_from_deck_after_dig :
    ∃ desk, Reachable sampleRoom (fun _ _ => True) desk ∧
      desk.isGameOver = false ∧ desk.cardsOnTable = ↑initCards := by
  obtain ⟨desk, h, hround, hgone⟩ := exists_active2
  have hgame : desk.isGameOver = false := by
    simp [isGameOver, hround, Round.isGameOver]
  exact ⟨desk, h, hgame, (cards_from_deck h hgame).2 hgone⟩

/-! ## Seats and turns -/

def HandSizes (desk : GameDesk) (number : SeatNum) : Round → Prop
  | .dealerCard | .active1 | .shuffleCard =>
      (desk.seats number).handcardsTotal.length = 13
  | .active2 =>
      if desk.activeSeatnum = some number then
        (desk.seats number).handcardsTotal.length = 14 ∧
          (desk.seats number).mDigCard ∈ (desk.seats number).handcardsTotal
      else (desk.seats number).handcardsTotal.length = 13
  | .declare => desk.applyDeclareSeatnum ≠ some number →
      (desk.seats number).handcardsTotal.length = 13
  | _ => True

structure Invariant (desk : GameDesk) : Prop where
  seated : ∀ number, (desk.seats number).status.ingame →
    (desk.seats number).status.seated ∧ (desk.seats number).player.isSome
  active : desk.isWaitActive → 2 ≤ desk.getIngameCount ∧
    ∃ number, desk.activeSeatnum = some number ∧
      (desk.seats number).status.ingame
  hands : ∀ number, (desk.seats number).status.ingame →
    desk.HandSizes number desk.round

theorem handSizes_of_sound (h : desk.table.Sound .rest) {number : SeatNum}
    (hin : (desk.seats number).status.ingame) :
    desk.HandSizes number desk.round := by
  have hphase : desk.table.RestPhase desk.round := h.phase
  revert hphase
  cases desk.round with
  | dealerCard =>
      intro ⟨_, _, _, hthirteen, _⟩
      exact hthirteen number hin (by simp)
  | shuffleCard =>
      intro ⟨_, _, _, hthirteen⟩
      exact hthirteen number hin (by simp)
  | active1 =>
      intro ⟨_, _, hthirteen, _⟩
      exact hthirteen number hin (by simp)
  | active2 =>
      intro ⟨_, _, active, hactive, _, hthirteen, hholds⟩
      have hactive : desk.activeSeatnum = some active := hactive
      simp only [HandSizes]
      split
      next hself =>
        obtain rfl : active = number :=
          Option.some.inj (hactive.symm.trans hself)
        exact hholds
      next hother => exact hthirteen number hin (hactive ▸ hother)
  | declare =>
      intro ⟨_, winner, hwinner, _, hthirteen⟩ hother
      have hwinner : desk.applyDeclareSeatnum = some winner := hwinner
      exact hthirteen number hin (hwinner ▸ hother)
  | unready | waitPlaying | distribute => exact fun _ => trivial

theorem invariant_of_sound (h : desk.table.Sound .rest) : desk.Invariant where
  seated number hin :=
    ⟨(h.places number).seated hin,
      (h.places number).player.trans ((h.places number).seated hin)⟩
  active hwait := by
    have hphase : desk.table.RestPhase desk.table.round := h.phase
    rcases isWaitActive_iff.mp hwait with hround | hround <;>
      rw [show desk.table.round = _ from hround] at hphase
    · obtain ⟨-, htwo, -, hactive⟩ := hphase
      exact ⟨htwo, hactive⟩
    · obtain ⟨-, htwo, number, hactive, hin, -⟩ := hphase
      exact ⟨htwo, number, hactive, hin⟩
  hands _ hin := handSizes_of_sound h hin

/-- The only assertion a handler can fail is that the piles are filled. -/
theorem assertion_of_step (h : Reachable room ok desk) {a : Env × Request}
    {failed : Assertion} (hstep : step room desk a = .error (.assertion failed)) :
    failed = .digPiles := by
  obtain ⟨m, t, -, hstuck⟩ := (step_simulates room).fault sound_preserved
    (fun _ _ => id) (fun _ _ _ (_ : True) _ => trivial) h.sound trivial hstep
  cases hstuck
  rfl

/--
Every reachable desk keeps the invariant, and the assertions about the active
player and about the card that was dug never fail.
-/
theorem reachable_invariant (h : Reachable room ok desk) :
    desk.Invariant ∧ ∀ a,
      step room desk a ≠ .error (.assertion .activePlayer) ∧
      step room desk a ≠ .error (.assertion .postDigCard) ∧
      step room desk a ≠ .error (.assertion .dropDigCard) := by
  refine ⟨invariant_of_sound h.sound, fun a => ⟨?_, ?_, ?_⟩⟩ <;> intro hstep <;>
    cases assertion_of_step h hstep

theorem invariant_after_dig :
    ∃ desk, Reachable sampleRoom (fun _ _ => True) desk ∧
      desk.round = .active2 ∧ desk.Invariant ∧ ∀ a,
        step sampleRoom desk a ≠ .error (.assertion .activePlayer) ∧
        step sampleRoom desk a ≠ .error (.assertion .postDigCard) ∧
        step sampleRoom desk a ≠ .error (.assertion .dropDigCard) := by
  obtain ⟨desk, h, hround, -⟩ := exists_active2
  exact ⟨desk, h, hround, reachable_invariant h⟩

end GameDesk

end StarsGaming.Desk
