import StarsGaming.Desk.Table

/-!
# Sound tables

What holds of a table in every mode and round: who plays sits, every hand has
the size its round asks for, nobody holds a card twice, and the turn belongs
to a seat in game.  Every move keeps a table sound.
-/

namespace StarsGaming.Desk

open Cards

/-! ## Single seats -/

structure Place.Ok (p : Place) : Prop where
  player : p.player = p.seated
  seated : p.ingame → p.seated
  joined : p.ingame → p.joined
  bystander : p.joined = false → p.hand = []
  size : p.hand.length = 0 ∨ p.hand.length = 13 ∨ p.hand.length = 14

/-- The seat plays on as before; only who does not play may lose cards. -/
structure Place.Plays (p old : Place) : Prop where
  ingame : p.ingame = old.ingame
  declared : p.declared = old.declared
  hand : p.ingame → p.hand.Perm old.hand
  digCard : p.digCard = old.digCard

/-- Only the cards of the seat change. -/
structure Place.Keeps (p old : Place) : Prop where
  player : p.player = old.player
  seated : p.seated = old.seated
  ingame : p.ingame = old.ingame
  joined : p.joined = old.joined
  declared : p.declared = old.declared

theorem Place.Keeps.ok {p old : Place} (h : p.Keeps old) (hold : old.Ok)
    (hin : old.ingame)
    (hsize : p.hand.length = 13 ∨ p.hand.length = 14) : p.Ok where
  player := by rw [h.player, h.seated]; exact hold.player
  seated := by rw [h.ingame, h.seated]; exact hold.seated
  joined := by rw [h.ingame, h.joined]; exact hold.joined
  bystander hj := by
    rw [h.joined, hold.joined hin] at hj
    simp at hj
  size := Or.inr hsize

theorem Place.Plays.refl (p : Place) : p.Plays p :=
  ⟨rfl, rfl, fun _ => .refl _, rfl⟩

namespace Table

def Thirteen (t : Table) (holder : Option SeatNum) : Prop :=
  ∀ number, (t.place number).ingame → holder ≠ some number →
    (t.place number).hand.length = 13

/-- The seat has dug and not yet posted. -/
def Holds (t : Table) (number : SeatNum) : Prop :=
  (t.place number).hand.length = 14 ∧
    (t.place number).digCard ∈ (t.place number).hand

structure Ready (t : Table) : Prop where
  live : t.live
  round : t.round ≠ .declare
  declarer : t.declarer = none
  count : 2 ≤ t.ingame.card
  hands : t.Thirteen none
  dealer : t.active = none → (t.place t.dealer).ingame

def Declaring (t : Table) (number : SeatNum) : Prop :=
  t.declarer = some number ∧ (t.place number).declared ∧
    t.Thirteen (some number)

def RestPhase (t : Table) : Round → Prop
  | .dealerCard =>
      t.active = none ∧ t.declarer = none ∧ 2 ≤ t.ingame.card ∧
        t.Thirteen none ∧ (t.place t.dealer).ingame
  | .shuffleCard =>
      t.active ≠ none ∧ t.declarer = none ∧ 2 ≤ t.ingame.card ∧
        t.Thirteen none
  | .active1 =>
      t.declarer = none ∧ 2 ≤ t.ingame.card ∧ t.Thirteen none ∧
        ∃ number, t.active = some number ∧ (t.place number).ingame
  | .active2 =>
      t.declarer = none ∧ 2 ≤ t.ingame.card ∧
        ∃ number, t.active = some number ∧ (t.place number).ingame ∧
          t.Thirteen (some number) ∧ t.Holds number
  | .declare => 2 ≤ t.ingame.card ∧ ∃ number, t.Declaring number
  | _ => True

def OutPhase (t : Table) : Round → Prop
  | .active1 | .shuffleCard =>
      t.active ≠ none ∧ t.declarer = none ∧ 1 ≤ t.ingame.card ∧
        t.Thirteen none
  | .active2 =>
      t.declarer = none ∧ 1 ≤ t.ingame.card ∧
        ∃ number, t.active = some number ∧ t.Thirteen (some number) ∧
          ((t.place number).ingame → t.Holds number)
  | .declare => 1 ≤ t.ingame.card ∧ ∃ number, t.Declaring number
  | _ => False

def Phase : Mode → Table → Prop
  | .rest, t => t.RestPhase t.round
  | .posted, t => t.Ready ∧ t.active ≠ none
  | .turn, t => t.Ready
  | .out, t => t.OutPhase t.round
  | .ending, t => t.live

/-- Between games nothing of a game is left. -/
structure Idle (t : Table) : Prop where
  active : t.active = none
  declarer : t.declarer = none
  hands : ∀ number, (t.place number).hand = []

/-- No card is on the table more often than in the deck. -/
def FairCards (t : Table) : Prop :=
  ∀ card, t.tally card ≤ initCards.count card ∧
    (t.gone = [] → t.tally card = initCards.count card)

structure Sound (m : Mode) (t : Table) : Prop where
  places : ∀ number, (t.place number).Ok
  chipsPool : 0 ≤ t.chipsPool
  idle : t.round.isGameOver → t.Idle
  cards : t.live → t.FairCards
  declared : t.live → ∀ number, (t.place number).ingame →
    (t.place number).declared → t.declarer = some number
  phase : Phase m t

/-! ## Changing one seat -/

theorem put_place (t : Table) (number other : SeatNum) (p : Place) :
    (t.put number p).place other =
      if other = number then p else t.place other :=
  Function.update_apply ..

@[simp] theorem put_place_self (t : Table) (number : SeatNum) (p : Place) :
    (t.put number p).place number = p :=
  Function.update_self ..

theorem put_places {t : Table} {number : SeatNum} {p : Place}
    (h : ∀ other, (t.place other).Ok) (hp : p.Ok) (other : SeatNum) :
    ((t.put number p).place other).Ok := by
  rw [put_place]
  split
  · exact hp
  · exact h other

@[simp] theorem mem_ingame {t : Table} {number : SeatNum} :
    number ∈ t.ingame ↔ (t.place number).ingame := by
  simp [ingame]

theorem ingame_congr {t t' : Table}
    (h : ∀ number, (t'.place number).ingame = (t.place number).ingame) :
    t'.ingame = t.ingame := by
  ext number
  simp [h]

theorem ingame_put_same {t : Table} {number : SeatNum} {p : Place}
    (h : p.ingame = (t.place number).ingame) :
    (t.put number p).ingame = t.ingame := by
  apply ingame_congr
  intro other
  rw [put_place]
  split
  next heq => rw [h, heq]
  next => rfl

theorem ingame_put_out {t : Table} {number : SeatNum} {p : Place}
    (h : p.ingame = false) :
    (t.put number p).ingame = t.ingame.erase number := by
  ext other
  rw [mem_ingame, put_place, Finset.mem_erase, mem_ingame]
  by_cases heq : other = number <;> simp [heq, h]

theorem sum_put {M : Type*} [AddCommMonoid M] (f : Place → M) (t : Table)
    (number : SeatNum) (p : Place) :
    f (t.place number) + ∑ other, f ((t.put number p).place other) =
      f p + ∑ other, f (t.place other) := by
  have hnew := Finset.add_sum_erase Finset.univ
    (fun other => f ((t.put number p).place other)) (Finset.mem_univ number)
  have hold := Finset.add_sum_erase Finset.univ
    (fun other => f (t.place other)) (Finset.mem_univ number)
  have hrest : ∑ other ∈ Finset.univ.erase number,
      f ((t.put number p).place other) =
        ∑ other ∈ Finset.univ.erase number, f (t.place other) := by
    apply Finset.sum_congr rfl
    intro other hother
    rw [put_place, if_neg (Finset.ne_of_mem_erase hother)]
  rw [← hnew, ← hold, hrest, put_place_self]
  exact add_left_comm ..

theorem Thirteen.put {t : Table} {holder holder' : Option SeatNum}
    {number : SeatNum} {p : Place} (h : t.Thirteen holder)
    (hholder : ∀ other, other ≠ number → holder' ≠ some other →
      holder ≠ some other)
    (hp : p.ingame → holder' ≠ some number → p.hand.length = 13) :
    (t.put number p).Thirteen holder' := by
  intro other hingame hne
  rw [put_place] at hingame ⊢
  split at hingame
  next heq =>
    rw [if_pos heq]
    exact hp hingame (heq ▸ hne)
  next hother =>
    rw [if_neg hother]
    exact h other hingame (hholder other hother hne)

theorem inHands_put (t : Table) (number : SeatNum) (p : Place)
    (card : PokerCard) :
    (t.place number).hand.count card + (t.put number p).inHands card =
      p.hand.count card + t.inHands card :=
  sum_put (fun p => p.hand.count card) t number p

variable {t : Table} {number : SeatNum} {p : Place}

theorem Place.Plays.put (hp : p.Plays (t.place number)) (other : SeatNum) :
    ((t.put number p).place other).Plays (t.place other) := by
  rw [put_place]
  split
  next heq => exact heq ▸ hp
  next => exact .refl _

theorem RestPhase.put {r : Round} (h : t.RestPhase r)
    (hp : p.Plays (t.place number)) : (t.put number p).RestPhase r := by
  have hcount : (t.put number p).ingame = t.ingame :=
    ingame_put_same hp.ingame
  have hplays := Place.Plays.put hp
  have hin : ∀ other, (t.place other).ingame →
      ((t.put number p).place other).ingame :=
    fun other hother => (hplays other).ingame.trans hother
  have hhands : ∀ holder, t.Thirteen holder →
      (t.put number p).Thirteen holder := by
    intro holder hthirteen other hingame hne
    have hold := hthirteen other ((hplays other).ingame ▸ hingame) hne
    exact ((hplays other).hand hingame).length_eq.trans hold
  cases r with
  | dealerCard =>
      obtain ⟨hactive, hdeclarer, htwo, hthirteen, hdealer⟩ := h
      exact ⟨hactive, hdeclarer, hcount ▸ htwo, hhands _ hthirteen,
        hin _ hdealer⟩
  | shuffleCard =>
      obtain ⟨hactive, hdeclarer, htwo, hthirteen⟩ := h
      exact ⟨hactive, hdeclarer, hcount ▸ htwo, hhands _ hthirteen⟩
  | active1 =>
      obtain ⟨hdeclarer, htwo, hthirteen, active, hactive, hingame⟩ := h
      exact ⟨hdeclarer, hcount ▸ htwo, hhands _ hthirteen, active, hactive,
        hin _ hingame⟩
  | active2 =>
      obtain ⟨hdeclarer, htwo, active, hactive, hingame, hthirteen, hlen,
        hdig⟩ := h
      have hperm := (hplays active).hand (hin _ hingame)
      refine ⟨hdeclarer, hcount ▸ htwo, active, hactive, hin _ hingame,
        hhands _ hthirteen, hperm.length_eq.trans hlen, ?_⟩
      rw [(hplays active).digCard, hperm.mem_iff]
      exact hdig
  | declare =>
      obtain ⟨htwo, declarer, hdeclarer, hdeclared, hthirteen⟩ := h
      exact ⟨hcount ▸ htwo, declarer, hdeclarer,
        (hplays declarer).declared.trans hdeclared, hhands _ hthirteen⟩
  | unready => trivial
  | waitPlaying => trivial
  | distribute => trivial

theorem tally_put_le (h : ∀ card, p.hand.count card ≤
    (t.place number).hand.count card) (card : PokerCard) :
    (t.put number p).tally card ≤ t.tally card := by
  have hput := inHands_put t number p card
  have hcard := h card
  change t.bottom.count card + t.pool.count card + [t.joker].count card +
    (t.put number p).inHands card ≤ _
  unfold tally
  omega

theorem tally_put_perm (hperm : p.hand.Perm (t.place number).hand)
    (card : PokerCard) : (t.put number p).tally card = t.tally card := by
  have hput := inHands_put t number p card
  rw [hperm.count_eq] at hput
  change t.bottom.count card + t.pool.count card + [t.joker].count card +
    (t.put number p).inHands card = _
  unfold tally
  omega

/-! ## Moves of single seats -/

theorem Sound.put {gone : List SeatNum} (h : Sound .rest t) (hp : p.Ok)
    (hplays : t.live → p.Plays (t.place number))
    (hidle : t.round.isGameOver → p.hand = [])
    (hcards : t.live → FairCards { t.put number p with gone := gone }) :
    Sound .rest { t.put number p with gone := gone } where
  places := put_places h.places hp
  chipsPool := h.chipsPool
  idle hover := by
    refine ⟨(h.idle hover).active, (h.idle hover).declarer, fun other => ?_⟩
    change ((t.put number p).place other).hand = []
    rw [put_place]
    split
    · exact hidle hover
    · exact (h.idle hover).hands other
  cards := hcards
  declared hlive other hingame hdeclared := by
    have hother := Place.Plays.put (hplays hlive) other
    apply h.declared hlive other
    · rw [← hother.ingame]; exact hingame
    · rw [← hother.declared]; exact hdeclared
  phase := by
    change RestPhase { t.put number p with gone := gone } t.round
    cases hround : t.round.isGameOver with
    | false =>
        have hphase := RestPhase.put h.phase (hplays hround)
        revert hphase
        cases t.round <;> exact id
    | true =>
        revert hround
        cases t.round <;> simp [Round.isGameOver, RestPhase]

theorem FairCards.congr {t t' : Table} (h : t.FairCards)
    (htally : ∀ card, t'.tally card = t.tally card)
    (hgone : t'.gone = t.gone) : t'.FairCards := by
  intro card
  rw [htally, hgone]
  exact h card

theorem FairCards.gone {t t' : Table} (h : t.FairCards)
    (htally : ∀ card, t'.tally card ≤ t.tally card)
    (hgone : t'.gone ≠ []) : t'.FairCards :=
  fun card => ⟨(htally card).trans (h card).1, fun hnone =>
    absurd hnone hgone⟩

theorem FairCards.put_perm (h : t.FairCards)
    (hperm : p.hand.Perm (t.place number).hand) :
    (t.put number p).FairCards :=
  h.congr (tally_put_perm hperm) rfl

theorem Sound.sit (h : Sound .rest t) : Sound .rest (t.sit number) := by
  have hok := h.places number
  refine h.put ⟨rfl, fun _ => rfl, hok.joined, hok.bystander, hok.size⟩
    (fun _ => ⟨rfl, rfl, fun _ => .refl _, rfl⟩)
    (fun hover => (h.idle hover).hands number) fun hlive => ?_
  exact (h.cards hlive).put_perm (.refl _)

theorem Sound.arrange {hand : List PokerCard} (h : Sound .rest t)
    (hhand : hand.Perm (t.place number).hand) :
    Sound .rest (t.arrange number hand) := by
  have hok := h.places number
  have hsize := hok.size
  rw [← hhand.length_eq] at hsize
  refine h.put ⟨hok.player, hok.seated, hok.joined, fun hj => ?_, hsize⟩
    (fun _ => ⟨rfl, rfl, fun _ => hhand, rfl⟩)
    (fun hover => ((h.idle hover).hands number ▸ hhand).eq_nil)
    fun hlive => (h.cards hlive).put_perm hhand
  exact (hok.bystander hj ▸ hhand).eq_nil

theorem Sound.leave (h : Sound .rest t)
    (hfree : t.round.isGameOver = false → (t.place number).ingame = false) :
    Sound .rest (t.leave number) := by
  refine h.put ⟨rfl, by simp, by simp, fun _ => rfl, Or.inl rfl⟩
    (fun hlive => ⟨(hfree hlive).symm, ?_, by simp, rfl⟩) (fun _ => rfl)
    fun hlive => ?_
  · change (!t.round.isGameOver && (t.place number).declared) = _
    rw [show t.round.isGameOver = false from hlive]
    rfl
  · cases hjoined : (t.place number).joined with
    | true =>
        refine (h.cards hlive).gone (fun card => ?_) (by simp)
        exact @tally_put_le t number _ (by simp) card
    | false =>
        have hempty := (h.places number).bystander hjoined
        refine (h.cards hlive).congr (fun card => ?_) (by simp)
        exact @tally_put_perm t number _ (by simp [hempty]) card

theorem Sound.wait {round : Round} (h : Sound .rest t)
    (hover : t.round.isGameOver) (hround : round.isGameOver) :
    Sound .rest { t with round := round } where
  places := h.places
  chipsPool := h.chipsPool
  idle _ := ⟨(h.idle hover).active, (h.idle hover).declarer,
    (h.idle hover).hands⟩
  cards hlive := by simp [live, hround] at hlive
  declared hlive := by simp [live, hround] at hlive
  phase := by
    change RestPhase _ round
    revert hround
    cases round <;> simp [Round.isGameOver, RestPhase]

/-! ## Moves of a game -/

theorem Sound.deal {t' : Table} (h : Sound .rest t)
    (hround : t.round = .waitPlaying)
    (hseats : 2 ≤ (Finset.univ.filter fun number =>
      (t.place number).seated).card) (hdealt : t.Dealt t') :
    Sound .rest t' := by
  have hidle := h.idle (by simp [hround, Round.isGameOver])
  have hingame : t'.ingame = Finset.univ.filter fun number =>
      (t.place number).seated := by
    ext number
    simp [(hdealt.place number).2.2.1]
  have hthirteen : t'.Thirteen none := by
    intro number hnumber _
    rw [hdealt.hand, if_pos ((hdealt.place number).2.2.1 ▸ hnumber)]
  refine ⟨fun number => ?_, ?_, ?_, ?_, ?_, ?_⟩
  · obtain ⟨hplayer, hseated, hin, hjoined, -, -⟩ := hdealt.place number
    have hhand := hdealt.hand number
    refine ⟨?_, ?_, ?_, ?_, ?_⟩
    · rw [hplayer, hseated]
      exact (h.places number).player
    · rw [hin, hseated]
      exact id
    · rw [hin, hjoined]
      exact id
    · rw [hjoined]
      intro hfree
      rw [hfree] at hhand
      exact List.length_eq_zero_iff.mp hhand
    · rw [hhand]
      split <;> simp
  · rw [hdealt.chipsPool]
    exact h.chipsPool
  · simp [hdealt.round, Round.isGameOver]
  · exact fun _ card => ⟨(hdealt.tally card).le, fun _ => hdealt.tally card⟩
  · intro _ number _ hdeclared
    rw [(hdealt.place number).2.2.2.2.1] at hdeclared
    simp at hdeclared
  · change t'.RestPhase t'.round
    rw [hdealt.round]
    refine ⟨hdealt.active.trans hidle.active,
      hdealt.declarer.trans hidle.declarer, hingame ▸ hseats, hthirteen, ?_⟩
    rw [(hdealt.place _).2.2.1]
    exact hdealt.dealer

theorem Thirteen.put_holder (h : t.Thirteen none) :
    (t.put number p).Thirteen (some number) := by
  apply h.put
  · exact fun _ _ _ => by simp
  · exact fun _ hne => absurd rfl hne

theorem declared_put {declarer : Option SeatNum}
    (h : ∀ other, (t.place other).ingame → (t.place other).declared →
      declarer = some other)
    (hp : p.ingame → p.declared → declarer = some number) (other : SeatNum)
    (hingame : ((t.put number p).place other).ingame)
    (hdeclared : ((t.put number p).place other).declared) :
    declarer = some other := by
  rw [put_place] at hingame hdeclared
  split at hingame
  next heq =>
    rw [if_pos heq] at hdeclared
    exact heq ▸ hp hingame hdeclared
  next hne =>
    rw [if_neg hne] at hdeclared
    exact h other hingame hdeclared

theorem Sound.dig {bottom pool : List PokerCard} (h : Sound .rest t)
    (hround : t.round = .active1) (hactive : t.active = some number)
    (hp : p.Keeps (t.place number))
    (hpiles : ∀ card, bottom.count card + pool.count card +
      [p.digCard].count card = t.bottom.count card + t.pool.count card)
    (hhand : p.hand.Perm (p.digCard :: (t.place number).hand)) :
    Sound .rest
      { t.put number p with
        bottom := bottom
        pool := pool
        round := .active2 } := by
  have hphase : t.RestPhase t.round := h.phase
  rw [hround] at hphase
  obtain ⟨hdeclarer, htwo, hthirteen, active, hactive', hin⟩ := hphase
  obtain rfl : active = number := Option.some.inj (hactive'.symm.trans hactive)
  have hlive : t.live := by simp [live, hround, Round.isGameOver]
  have hlen : p.hand.length = 14 := by
    rw [hhand.length_eq, List.length_cons, hthirteen active hin (by simp)]
  refine ⟨put_places h.places (hp.ok (h.places active) hin (Or.inr hlen)),
    h.chipsPool, by simp [Round.isGameOver], fun _ => ?_, fun _ => ?_, ?_⟩
  · refine (h.cards hlive).congr (fun card => ?_) rfl
    have hput := inHands_put t active p card
    have hcount := hhand.count_eq card
    have hpile := hpiles card
    rw [List.count_cons] at hcount
    rw [List.count_singleton] at hpile
    change bottom.count card + pool.count card + [t.joker].count card +
      (t.put active p).inHands card = _
    unfold tally
    omega
  · apply declared_put (h.declared hlive)
    rw [hp.ingame, hp.declared]
    exact h.declared hlive active
  · refine ⟨hdeclarer, ?_, active, hactive, ?_, ?_, ?_, ?_⟩
    · change 2 ≤ (t.put active p).ingame.card
      rw [ingame_put_same hp.ingame]
      exact htwo
    · change ((t.put active p).place active).ingame
      rw [put_place_self, hp.ingame]
      exact hin
    · exact @Thirteen.put_holder t active p hthirteen
    · change ((t.put active p).place active).hand.length = 14
      rw [put_place_self]
      exact hlen
    · change ((t.put active p).place active).digCard ∈
        ((t.put active p).place active).hand
      rw [put_place_self, hhand.mem_iff]
      exact List.mem_cons_self

theorem Sound.post {card : PokerCard} (h : Sound .rest t)
    (hround : t.round = .active2) (hactive : t.active = some number)
    (hp : p.Keeps (t.place number))
    (hhand : (card :: p.hand).Perm (t.place number).hand) :
    Sound .posted { t.put number p with pool := t.pool ++ [card] } := by
  have hphase : t.RestPhase t.round := h.phase
  rw [hround] at hphase
  obtain ⟨hdeclarer, htwo, active, hactive', hin, hthirteen, hfourteen, -⟩ :=
    hphase
  obtain rfl : active = number := Option.some.inj (hactive'.symm.trans hactive)
  have hlive : t.live := by simp [live, hround, Round.isGameOver]
  have hlen : p.hand.length = 13 := by
    have := hhand.length_eq
    rw [hfourteen, List.length_cons] at this
    omega
  refine ⟨put_places h.places (hp.ok (h.places active) hin (Or.inl hlen)),
    h.chipsPool, ?_, fun _ => ?_, fun _ => ?_, ?_⟩
  · intro hover
    change t.round.isGameOver = true at hover
    simp [show t.round.isGameOver = false from hlive] at hover
  · refine (h.cards hlive).congr (fun other => ?_) rfl
    have hput := inHands_put t active p other
    have hcount := hhand.count_eq other
    rw [List.count_cons] at hcount
    change t.bottom.count other + (t.pool ++ [card]).count other +
      [t.joker].count other + (t.put active p).inHands other = _
    unfold tally
    rw [List.count_append, List.count_singleton]
    omega
  · apply declared_put (h.declared hlive)
    rw [hp.ingame, hp.declared]
    exact h.declared hlive active
  · refine ⟨⟨hlive, ?_, hdeclarer, ?_, ?_, ?_⟩, ?_⟩
    · change t.round ≠ .declare
      simp [hround]
    · change 2 ≤ (t.put active p).ingame.card
      rw [ingame_put_same hp.ingame]
      exact htwo
    · apply @Thirteen.put t (some active) none active p hthirteen
      · exact fun other hne _ heq => hne (Option.some.inj heq).symm
      · exact fun _ _ => hlen
    · exact fun hnone => by simp [show t.active = none from hnone] at hactive
    · exact fun hnone => by simp [show t.active = none from hnone] at hactive

theorem Sound.shuffle {kept moved : List PokerCard} (h : Sound .posted t)
    (hpool : (kept ++ moved).Perm t.pool) :
    Sound .rest (t.shuffle kept moved) := by
  obtain ⟨hready, hactive⟩ : t.Ready ∧ t.active ≠ none := h.phase
  refine ⟨h.places, h.chipsPool, by simp [Table.shuffle, Round.isGameOver],
    fun _ => ?_, fun _ => h.declared hready.live,
    hactive, hready.declarer, hready.count, hready.hands⟩
  refine (h.cards hready.live).congr (fun card => ?_) rfl
  have hcount := hpool.count_eq card
  rw [List.count_append] at hcount
  change (t.bottom ++ moved).count card + kept.count card +
    [t.joker].count card + t.inHands card = _
  unfold tally
  rw [List.count_append]
  omega

theorem Sound.turn (h : Sound .posted t) : Sound .turn t :=
  ⟨h.places, h.chipsPool, h.idle, h.cards, h.declared,
    (show t.Ready ∧ t.active ≠ none from h.phase).1⟩

theorem Sound.timeout (h : Sound .rest t)
    (hround : t.round = .dealerCard ∨ t.round = .active1 ∨
      t.round = .shuffleCard) : Sound .turn t := by
  have hphase : t.RestPhase t.round := h.phase
  refine ⟨h.places, h.chipsPool, h.idle, h.cards, h.declared, ?_⟩
  rcases hround with hround | hround | hround <;> rw [hround] at hphase
  · obtain ⟨-, hdeclarer, htwo, hthirteen, hdealer⟩ := hphase
    exact ⟨by simp [live, hround, Round.isGameOver], by simp [hround],
      hdeclarer, htwo, hthirteen, fun _ => hdealer⟩
  · obtain ⟨hdeclarer, htwo, hthirteen, active, hactive, -⟩ := hphase
    exact ⟨by simp [live, hround, Round.isGameOver], by simp [hround],
      hdeclarer, htwo, hthirteen, by simp [hactive]⟩
  · obtain ⟨hactive, hdeclarer, htwo, hthirteen⟩ := hphase
    exact ⟨by simp [live, hround, Round.isGameOver], by simp [hround],
      hdeclarer, htwo, hthirteen, fun hnone => absurd hnone hactive⟩

/-! ## The next turn -/

theorem mem_seatsAfter {number other : SeatNum} (h : other ≠ number) :
    other ∈ GameDesk.seatsAfter number := by
  revert number other
  decide

theorem Ready.nextActive_ingame (h : t.Ready) :
    (t.place t.nextActive).ingame := by
  unfold nextActive
  cases hactive : t.active with
  | none => exact h.dealer hactive
  | some number =>
      simp only
      split
      next next hnext => simpa using List.find?_some hnext
      next hnone =>
        obtain ⟨other, hother, hne⟩ :=
          Finset.exists_mem_ne h.count number
        have hout := List.find?_eq_none.mp hnone other (mem_seatsAfter hne)
        exact absurd (mem_ingame.mp hother) hout

theorem Sound.activate (h : Sound .turn t) :
    Sound .rest { t.enter with round := .active1 } := by
  have hready : t.Ready := h.phase
  exact ⟨h.places, h.chipsPool, by simp [Round.isGameOver],
    fun _ => h.cards hready.live, fun _ => h.declared hready.live,
    hready.declarer, hready.count, hready.hands, t.nextActive, rfl,
    hready.nextActive_ingame⟩

theorem Sound.draw (h : Sound .turn t) :
    Sound .ending { t.enter with overType := some .borningOver } := by
  have hready : t.Ready := h.phase
  refine ⟨h.places, h.chipsPool, fun hover => ?_, h.cards, h.declared,
    hready.live⟩
  change t.round.isGameOver = true at hover
  simp [show t.round.isGameOver = false from hready.live] at hover

/-! ## Declares, drops and the end -/

theorem Sound.declare (h : Sound .rest t) (hround : t.round = .active2)
    (hactive : t.active = some number) :
    Sound .rest (t.declare number) := by
  have hphase : t.RestPhase t.round := h.phase
  rw [hround] at hphase
  obtain ⟨hdeclarer, htwo, active, hactive', hin, hthirteen, -⟩ := hphase
  obtain rfl : active = number := Option.some.inj (hactive'.symm.trans hactive)
  have hlive : t.live := by simp [live, hround, Round.isGameOver]
  have hok := h.places active
  refine ⟨put_places h.places ⟨hok.player, hok.seated, hok.joined,
    hok.bystander, hok.size⟩, h.chipsPool,
    by simp [Table.declare, Round.isGameOver],
    fun _ => (h.cards hlive).put_perm (.refl _), fun _ => ?_, ?_⟩
  · apply declared_put
    · intro other hother hdeclared
      rw [h.declared hlive other hother hdeclared] at hdeclarer
      simp at hdeclarer
    · exact fun _ _ => rfl
  · refine ⟨?_, active, rfl, ?_, ?_⟩
    · rw [show (t.declare active).ingame = t.ingame from ingame_put_same rfl]
      exact htwo
    · rw [show (t.declare active).place active = _ from put_place_self ..]
    · apply @Thirteen.put t (some active) (some active) active _ hthirteen
      · exact fun _ _ hne => hne
      · exact fun _ hne => absurd rfl hne

theorem Sound.pay {m : Mode} {chipsPool : Int} {charged gone : List SeatNum}
    (h : Sound .rest t) (hp : p.Ok) (hout : p.ingame = false)
    (hpool : 0 ≤ chipsPool) (hidle : t.round.isGameOver → p.hand = [])
    (hcards : t.live → FairCards { t.put number p with gone := gone })
    (hphase : Phase m { t.put number p with
      chipsPool := chipsPool, charged := charged, gone := gone }) :
    Sound m { t.put number p with
      chipsPool := chipsPool, charged := charged, gone := gone } where
  places := put_places h.places hp
  chipsPool := hpool
  idle hover := by
    refine ⟨(h.idle hover).active, (h.idle hover).declarer, fun other => ?_⟩
    change ((t.put number p).place other).hand = []
    rw [put_place]
    split
    · exact hidle hover
    · exact (h.idle hover).hands other
  cards := hcards
  declared hlive := by
    apply declared_put (h.declared hlive)
    simp [hout]
  phase := hphase

theorem one_le_ingame_put (htwo : 2 ≤ t.ingame.card)
    (hout : p.ingame = false) : 1 ≤ (t.put number p).ingame.card := by
  have hcard := @Finset.pred_card_le_card_erase _ t.ingame number _
  rw [ingame_put_out hout]
  omega

theorem Thirteen.put_out {holder : Option SeatNum} (h : t.Thirteen holder)
    (hout : p.ingame = false) : (t.put number p).Thirteen holder := by
  apply h.put
  · exact fun _ _ hne => hne
  · simp [hout]

theorem Sound.lose {paid : Int} (h : Sound .rest t)
    (hround : t.round = .declare) (hpaid : 0 ≤ paid) :
    Sound .out (t.lose number paid) := by
  have hphase : t.RestPhase t.round := h.phase
  rw [hround] at hphase
  obtain ⟨htwo, declarer, hdeclarer, hdeclared, hthirteen⟩ := hphase
  have hok := h.places number
  refine h.pay ⟨hok.player, by simp, by simp, hok.bystander, hok.size⟩ rfl
    (Int.add_nonneg h.chipsPool hpaid)
    (fun hover => (h.idle hover).hands number)
    (fun hlive => (h.cards hlive).put_perm (.refl _)) ?_
  change OutPhase _ t.round
  rw [hround]
  refine ⟨@one_le_ingame_put t number _ htwo rfl, declarer, hdeclarer, ?_, ?_⟩
  · change ((t.put number _).place declarer).declared
    rw [put_place]
    split
    · rfl
    · exact hdeclared
  · exact @Thirteen.put_out t number _ _ hthirteen rfl

theorem Sound.lateLose {paid : Int} (h : Sound .rest t)
    (hround : t.round = .distribute) (hpaid : 0 ≤ paid) :
    Sound .rest (t.lose number paid) := by
  have hok := h.places number
  refine h.pay ⟨hok.player, by simp, by simp, hok.bystander, hok.size⟩ rfl
    (Int.add_nonneg h.chipsPool hpaid)
    (fun hover => (h.idle hover).hands number)
    (fun hlive => (h.cards hlive).put_perm (.refl _)) ?_
  change RestPhase _ t.round
  rw [hround]
  trivial

theorem dropHand_count_le (card : PokerCard) :
    (t.dropHand number).count card ≤ (t.place number).hand.count card := by
  unfold dropHand
  split
  · exact List.erase_sublist.count_le card
  · exact le_rfl

theorem Sound.two_le_ingame (h : Sound .rest t)
    (hround : t.round = .active1 ∨ t.round = .active2 ∨
      t.round = .shuffleCard) : 2 ≤ t.ingame.card := by
  have hphase : t.RestPhase t.round := h.phase
  rcases hround with hround | hround | hround <;> rw [hround] at hphase
  · exact hphase.2.1
  · exact hphase.2.1
  · exact hphase.2.2.1

theorem Sound.dropHand_length (h : Sound .rest t)
    (hround : t.round = .active1 ∨ t.round = .active2 ∨
      t.round = .shuffleCard)
    (hingame : (t.place number).ingame) : (t.dropHand number).length = 13 := by
  have hphase : t.RestPhase t.round := h.phase
  unfold dropHand
  rcases hround with hround | hround | hround <;> rw [hround] at hphase ⊢
  · rw [if_neg (by simp)]
    exact hphase.2.2.1 number hingame (by simp)
  · obtain ⟨-, -, active, hactive, -, hthirteen, hfourteen, hdig⟩ := hphase
    rw [hactive]
    split
    next heq =>
      obtain rfl := Option.some.inj heq.2
      rw [List.length_erase_of_mem hdig, hfourteen]
    next hne => exact hthirteen number hingame fun heq => hne ⟨rfl, heq⟩
  · rw [if_neg (by simp)]
    exact hphase.2.2.2 number hingame (by simp)

theorem Sound.drop {paid : Int} (h : Sound .rest t)
    (hround : t.round = .active1 ∨ t.round = .active2 ∨
      t.round = .shuffleCard)
    (hingame : (t.place number).ingame) (hpaid : 0 ≤ paid) :
    Sound .out (t.drop number paid) := by
  have hphase : t.RestPhase t.round := h.phase
  have hok := h.places number
  have hlive : t.round.isGameOver = false := by
    rcases hround with hround | hround | hround <;>
      simp [hround, Round.isGameOver]
  have hlen := h.dropHand_length hround hingame
  refine h.pay ⟨hok.player, by simp, by simp, ?_, Or.inr (Or.inl hlen)⟩ rfl
    (Int.add_nonneg h.chipsPool hpaid) ?_ (fun hlive => ?_) ?_
  · intro hj
    change (t.place number).joined = false at hj
    simp [hok.joined hingame] at hj
  · simp [hlive]
  · refine (h.cards hlive).gone (fun card => ?_) (by simp)
    exact @tally_put_le t number _ dropHand_count_le card
  · change OutPhase _ t.round
    rcases hround with hround | hround | hround <;> rw [hround] at hphase ⊢
    · obtain ⟨hdeclarer, htwo, hthirteen, active, hactive, -⟩ := hphase
      exact ⟨by simp [Table.put, hactive], hdeclarer,
        @one_le_ingame_put t number _ htwo rfl,
        @Thirteen.put_out t number _ _ hthirteen rfl⟩
    · obtain ⟨hdeclarer, htwo, active, hactive, -, hthirteen, hholds⟩ :=
        hphase
      refine ⟨hdeclarer, @one_le_ingame_put t number _ htwo rfl, active,
        hactive, @Thirteen.put_out t number _ _ hthirteen rfl, ?_⟩
      change ((t.put number _).place active).ingame →
        ((t.put number _).place active).hand.length = 14 ∧
          ((t.put number _).place active).digCard ∈
            ((t.put number _).place active).hand
      rw [put_place]
      split
      · simp
      · exact fun _ => hholds
    · obtain ⟨hactive, hdeclarer, htwo, hthirteen⟩ := hphase
      exact ⟨hactive, hdeclarer, @one_le_ingame_put t number _ htwo rfl,
        @Thirteen.put_out t number _ _ hthirteen rfl⟩

theorem Sound.stay (h : Sound .out t) (hcount : t.ingame.card ≠ 1)
    (hactive : ¬ t.vacant) : Sound .rest t := by
  have hphase : t.OutPhase t.round := h.phase
  refine ⟨h.places, h.chipsPool, h.idle, h.cards, h.declared, ?_⟩
  change t.RestPhase t.round
  have hturn : ∀ number, t.round = .active1 ∨ t.round = .active2 →
      t.active = some number → (t.place number).ingame := by
    intro number hround hnumber
    by_contra hout
    exact hactive ⟨hround, number, hnumber, by simpa using hout⟩
  cases hround : t.round with
  | active1 =>
      rw [hround] at hphase
      obtain ⟨hsome, hdeclarer, hone, hthirteen⟩ := hphase
      obtain ⟨active, hsome⟩ := Option.ne_none_iff_exists'.mp hsome
      exact ⟨hdeclarer, by omega, hthirteen, active, hsome,
        hturn active (Or.inl hround) hsome⟩
  | active2 =>
      rw [hround] at hphase
      obtain ⟨hdeclarer, hone, active, hsome, hthirteen, hholds⟩ := hphase
      have hin := hturn active (Or.inr hround) hsome
      exact ⟨hdeclarer, by omega, active, hsome, hin, hthirteen, hholds hin⟩
  | shuffleCard =>
      rw [hround] at hphase
      obtain ⟨hsome, hdeclarer, hone, hthirteen⟩ := hphase
      exact ⟨hsome, hdeclarer, by omega, hthirteen⟩
  | declare =>
      rw [hround] at hphase
      exact ⟨by have := hphase.1; omega, hphase.2⟩
  | dealerCard => exact absurd hphase (by simp [hround, OutPhase])
  | unready => trivial
  | waitPlaying => trivial
  | distribute => trivial

theorem Sound.next (h : Sound .out t) (hcount : t.ingame.card ≠ 1)
    (hactive : t.vacant) : Sound .turn t := by
  have hphase : t.OutPhase t.round := h.phase
  refine ⟨h.places, h.chipsPool, h.idle, h.cards, h.declared, ?_⟩
  obtain ⟨hround, active, hsome, hout⟩ := hactive
  rcases hround with hround | hround <;> rw [hround] at hphase
  · obtain ⟨-, hdeclarer, hone, hthirteen⟩ := hphase
    exact ⟨by simp [live, hround, Round.isGameOver], by simp [hround],
      hdeclarer, by omega, hthirteen, by simp [hsome]⟩
  · obtain ⟨hdeclarer, hone, active', hsome', hthirteen, -⟩ := hphase
    obtain rfl : active' = active :=
      Option.some.inj (hsome'.symm.trans hsome)
    refine ⟨by simp [live, hround, Round.isGameOver], by simp [hround],
      hdeclarer, by omega, fun other hin _ => ?_, by simp [hsome]⟩
    refine hthirteen other hin fun heq => ?_
    rw [← Option.some.inj heq, hout] at hin
    simp at hin

theorem Sound.out_live (h : Sound .out t) : t.live := by
  have hphase : t.OutPhase t.round := h.phase
  unfold live
  revert hphase
  cases t.round <;> simp [OutPhase, Round.isGameOver]

theorem Sound.lastDeclare (h : Sound .out t) : Sound .ending t :=
  ⟨h.places, h.chipsPool, h.idle, h.cards, h.declared, h.out_live⟩

theorem Sound.lastDrop {winner : SeatNum} (h : Sound .out t)
    (hround : t.round ≠ .declare) :
    Sound .ending
      { t with overType := some .dropOver, declarer := some winner } := by
  have hlive := h.out_live
  refine ⟨h.places, h.chipsPool, fun hover => ?_, h.cards, ?_, hlive⟩
  · simp [show t.round.isGameOver = false from hlive] at hover
  · -- nobody has declared before the first declare
    intro _ other hin hdeclared
    have hnone := h.declared hlive other hin hdeclared
    have hphase : t.OutPhase t.round := h.phase
    cases hr : t.round <;> rw [hr] at hphase <;> simp_all [OutPhase]

theorem Sound.finish {tips : Int} (h : Sound .ending t) :
    Sound .rest (t.finish tips) where
  places number :=
    ⟨(h.places number).player, (h.places number).seated,
      (h.places number).joined, fun _ => rfl, Or.inl rfl⟩
  chipsPool := le_rfl
  idle _ := ⟨rfl, rfl, fun _ => rfl⟩
  cards hlive := by simp [live, Table.finish, Round.isGameOver] at hlive
  declared hlive := by simp [live, Table.finish, Round.isGameOver] at hlive
  phase := trivial

end Table

/-! ## Every move -/

open Table in
theorem sound_preserved : rules.Preserves (fun _ => True) Table.Sound := by
  intro m t l m' t' _ hmove h
  cases hmove with
  | sit => exact h.sit
  | leave hfree => exact h.leave hfree
  | wait hover hround => exact h.wait hover hround
  | deal hround hseats hdealt => exact h.deal hround hseats hdealt
  | arrange hhand => exact h.arrange hhand
  | @digBottom _ _ card bottom _ hround hactive hbottom hhand =>
      refine h.dig hround hactive ⟨rfl, rfl, rfl, rfl, rfl⟩ (fun other => ?_)
        hhand
      change bottom.count other + t.pool.count other + [card].count other = _
      rw [hbottom, List.count_singleton, List.count_cons]
      omega
  | @digPool _ _ card pool _ hround hactive hpool hhand =>
      refine h.dig hround hactive ⟨rfl, rfl, rfl, rfl, rfl⟩ (fun other => ?_)
        hhand
      change t.bottom.count other + pool.count other + [card].count other = _
      rw [hpool, List.count_append]
      omega
  | post hround hactive hcard =>
      exact h.post hround hactive ⟨rfl, rfl, rfl, rfl, rfl⟩
        (List.perm_cons_erase hcard).symm
  | shuffle _ _ hpool => exact h.shuffle hpool
  | pass => exact h.turn
  | timeout hround => exact h.timeout hround
  | activate => exact h.activate
  | draw => exact h.draw
  | declare hround hactive => exact h.declare hround hactive
  | lose hround _ hpaid => exact h.lose hround hpaid
  | lateLose hround hpaid => exact h.lateLose hround hpaid
  | drop hround hingame hpaid => exact h.drop hround hingame hpaid
  | stay hcount hactive => exact h.stay hcount hactive
  | next hcount hactive => exact h.next hcount hactive
  | lastDeclare => exact h.lastDeclare
  | lastDrop hround => exact h.lastDrop hround
  | finish => exact h.finish

end StarsGaming.Desk
