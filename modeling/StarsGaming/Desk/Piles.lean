import StarsGaming.Desk.Simulation

/-!
# The piles

Posting a card reshuffles the pool when the bottom is down to one card, so a
turn always finds both piles filled.  A drop after digging skips this: the card
that was dug is lost and nothing is reshuffled.  Without such drops the piles
never run dry.
-/

namespace StarsGaming.Desk

open Cards

def Note.Filled : Note → Prop
  | .activePlayer bottom pool => 1 ≤ bottom ∧ 1 ≤ pool
  | .shuffleCard pool => 2 ≤ pool
  | .gameOver _ => True

namespace Table

def stock (t : Table) : Nat :=
  t.bottom.length + t.pool.length + (5 - t.ingame.card)

structure Filled (t : Table) : Prop where
  bottom : 2 ≤ t.bottom.length
  pool : 1 ≤ t.pool.length
  stock : 42 ≤ t.stock

def RestPiles (t : Table) : Round → Prop
  | .dealerCard | .active1 | .shuffleCard => t.Filled
  | .active2 => 1 ≤ t.bottom.length ∧ 41 ≤ t.stock
  | _ => True

def OutPiles (t : Table) : Round → Prop
  | .active1 | .shuffleCard => t.Filled
  | .active2 => 1 ≤ t.bottom.length ∧ 42 ≤ t.stock
  | _ => True

def Piles : Mode → Table → Prop
  | .rest, t => t.RestPiles t.round
  | .posted, t => 1 ≤ t.bottom.length ∧ 1 ≤ t.pool.length ∧ 42 ≤ t.stock
  | .turn, t => t.Filled
  | .out, t => t.OutPiles t.round
  | .ending, _ => True

structure Stocked (m : Mode) (t : Table) : Prop where
  piles : Piles m t
  notes : ∀ note ∈ t.notes, note.Filled

variable {t t' : Table} {number : SeatNum} {p : Place}

theorem ingame_card_le (t : Table) : t.ingame.card ≤ 5 :=
  Finset.card_le_univ t.ingame

/-! ## Moves that leave the piles alone -/

theorem stock_congr (hbottom : t'.bottom = t.bottom)
    (hpool : t'.pool = t.pool) (hingame : t'.ingame = t.ingame) :
    t'.stock = t.stock := by
  rw [stock, stock, hbottom, hpool, hingame]

theorem RestPiles.congr {r : Round} (h : t.RestPiles r)
    (hbottom : t'.bottom = t.bottom) (hpool : t'.pool = t.pool)
    (hingame : t'.ingame = t.ingame) : t'.RestPiles r := by
  have hstock := stock_congr hbottom hpool hingame
  have hfilled : t.Filled → t'.Filled := fun h =>
    ⟨hbottom ▸ h.bottom, hpool ▸ h.pool, hstock ▸ h.stock⟩
  cases r with
  | dealerCard => exact hfilled h
  | active1 => exact hfilled h
  | shuffleCard => exact hfilled h
  | active2 => exact ⟨hbottom ▸ h.1, hstock ▸ h.2⟩
  | unready | waitPlaying | declare | distribute => trivial

theorem restPiles_over {r : Round} (h : r.isGameOver) : t.RestPiles r := by
  cases r <;> trivial

theorem Stocked.congr (h : t.Stocked .rest) (hround : t'.round = t.round)
    (hbottom : t'.bottom = t.bottom) (hpool : t'.pool = t.pool)
    (hingame : t.live → t'.ingame = t.ingame) (hnotes : t'.notes = t.notes) :
    t'.Stocked .rest := by
  refine ⟨?_, hnotes ▸ h.notes⟩
  change t'.RestPiles t'.round
  rw [hround]
  cases hover : t.round.isGameOver with
  | true => exact restPiles_over hover
  | false => exact RestPiles.congr h.piles hbottom hpool (hingame hover)

theorem Stocked.wait {round : Round} (h : t.Stocked .rest)
    (hover : round.isGameOver) : { t with round := round }.Stocked .rest :=
  ⟨restPiles_over hover, h.notes⟩

/-! ## Turns -/

theorem Stocked.deal (h : t.Stocked .rest) (hdealt : t.Dealt t') :
    t'.Stocked .rest := by
  refine ⟨?_, hdealt.notes ▸ h.notes⟩
  change t'.RestPiles t'.round
  rw [hdealt.round]
  have hbottom := hdealt.bottom
  have hpool := hdealt.pool
  refine ⟨by omega, by omega, ?_⟩
  unfold stock
  omega

theorem Stocked.dig {bottom pool hand : List PokerCard} {card : PokerCard}
    (h : t.Stocked .rest) (hround : t.round = .active1)
    (hbottom : t.bottom.length ≤ bottom.length + 1)
    (hcount : bottom.length + pool.length + 1 =
      t.bottom.length + t.pool.length) :
    (Table.dig number card hand
      { t with bottom := bottom, pool := pool }).Stocked .rest := by
  have hfilled : t.RestPiles t.round := h.piles
  rw [hround] at hfilled
  have hsame : (Table.dig number card hand
      { t with bottom := bottom, pool := pool }).ingame = t.ingame :=
    ingame_put_same rfl
  refine ⟨⟨?_, ?_⟩, h.notes⟩
  · have := hfilled.bottom
    change 1 ≤ bottom.length
    omega
  · have hstock := hfilled.stock
    unfold stock at hstock ⊢
    rw [hsame]
    change 41 ≤ bottom.length + pool.length + (5 - t.ingame.card)
    omega

theorem Stocked.post {card : PokerCard} (h : t.Stocked .rest)
    (hround : t.round = .active2) : (t.post number card).Stocked .posted := by
  have hpiles : t.RestPiles t.round := h.piles
  rw [hround] at hpiles
  have hsame : (t.post number card).ingame = t.ingame := ingame_put_same rfl
  refine ⟨⟨hpiles.1, ?_, ?_⟩, h.notes⟩
  · change 1 ≤ (t.pool ++ [card]).length
    simp
  · have hstock := hpiles.2
    unfold stock at hstock ⊢
    rw [hsame]
    change 42 ≤ t.bottom.length + (t.pool ++ [card]).length +
      (5 - t.ingame.card)
    rw [List.length_append, List.length_singleton]
    omega

theorem thick_pool (hone : t.bottom.length = 1) (hstock : 42 ≤ t.stock) :
    36 ≤ t.pool.length := by
  unfold stock at hstock
  omega

theorem Stocked.shuffle {kept moved : List PokerCard} (h : t.Stocked .posted)
    (hone : t.bottom.length = 1) (hkept : kept.length = 2)
    (hpool : (kept ++ moved).Perm t.pool) :
    (t.shuffle kept moved).Stocked .rest := by
  obtain ⟨-, -, hstock⟩ : 1 ≤ t.bottom.length ∧ 1 ≤ t.pool.length ∧
    42 ≤ t.stock := h.piles
  have hthick := thick_pool hone hstock
  have hlen := hpool.length_eq
  rw [List.length_append, hkept] at hlen
  refine ⟨⟨?_, hkept.symm ▸ by omega, ?_⟩, ?_⟩
  · change 2 ≤ (t.bottom ++ moved).length
    rw [List.length_append]
    omega
  · unfold stock at hstock ⊢
    change 42 ≤ (t.bottom ++ moved).length + kept.length +
      (5 - t.ingame.card)
    rw [List.length_append]
    omega
  · intro note hnote
    rcases List.mem_cons.mp hnote with rfl | hnote
    · change 2 ≤ t.pool.length
      omega
    · exact h.notes note hnote

theorem Stocked.pass (h : t.Stocked .posted) (hmany : t.bottom.length ≠ 1) :
    t.Stocked .turn := by
  obtain ⟨hbottom, hpool, hstock⟩ : 1 ≤ t.bottom.length ∧
    1 ≤ t.pool.length ∧ 42 ≤ t.stock := h.piles
  exact ⟨⟨by omega, hpool, hstock⟩, h.notes⟩

theorem Stocked.timeout (h : t.Stocked .rest)
    (hround : t.round = .dealerCard ∨ t.round = .active1 ∨
      t.round = .shuffleCard) : t.Stocked .turn := by
  have hpiles : t.RestPiles t.round := h.piles
  refine ⟨?_, h.notes⟩
  rcases hround with hround | hround | hround <;> rw [hround] at hpiles <;>
    exact hpiles

theorem Stocked.enter_notes (h : t.Stocked .turn) :
    ∀ note ∈ t.enter.notes, note.Filled := by
  have hfilled : t.Filled := h.piles
  intro note hnote
  rcases List.mem_cons.mp hnote with rfl | hnote
  · exact ⟨by have := hfilled.bottom; omega, hfilled.pool⟩
  · exact h.notes note hnote

/-! ## Drops -/

theorem stock_out (hin : (t.place number).ingame) (hout : p.ingame = false) :
    (t.put number p).stock = t.stock + 1 := by
  have hcard := Finset.card_erase_of_mem (mem_ingame.mpr hin)
  have hpos := Finset.card_pos.mpr ⟨number, mem_ingame.mpr hin⟩
  have hle := t.ingame_card_le
  unfold stock
  rw [ingame_put_out hout, hcard]
  change t.bottom.length + t.pool.length + _ = _
  omega

theorem Stocked.drop {paid : Int} (h : t.Stocked .rest)
    (hround : t.round = .active1 ∨ t.round = .active2 ∨
      t.round = .shuffleCard)
    (hin : (t.place number).ingame) : (t.drop number paid).Stocked .out := by
  have hpiles : t.RestPiles t.round := h.piles
  have hstock : (t.drop number paid).stock = t.stock + 1 :=
    @stock_out t number _ hin rfl
  refine ⟨?_, h.notes⟩
  change OutPiles _ t.round
  rcases hround with hround | hround | hround <;> rw [hround] at hpiles ⊢
  · exact ⟨hpiles.bottom, hpiles.pool, by have := hpiles.stock; omega⟩
  · exact ⟨hpiles.1, by have := hpiles.2; omega⟩
  · exact ⟨hpiles.bottom, hpiles.pool, by have := hpiles.stock; omega⟩

theorem Stocked.stay (h : t.Stocked .out) (hsound : t.Sound .out) :
    t.Stocked .rest := by
  have hphase : t.OutPhase t.round := hsound.phase
  have hpiles : t.OutPiles t.round := h.piles
  refine ⟨?_, h.notes⟩
  change t.RestPiles t.round
  revert hphase hpiles
  cases t.round with
  | active2 => exact fun _ hpiles => ⟨hpiles.1, by have := hpiles.2; omega⟩
  | active1 | shuffleCard => exact fun _ hpiles => hpiles
  | dealerCard => exact False.elim
  | unready | waitPlaying | declare | distribute => exact fun _ _ => trivial

theorem Stocked.next (h : t.Stocked .out) (hvacant : t.vacant)
    (hdry : ¬ t.dry) : t.Stocked .turn := by
  have hpiles : t.OutPiles t.round := h.piles
  refine ⟨?_, h.notes⟩
  rcases hvacant.1 with hround | hround <;> rw [hround] at hpiles
  · exact hpiles
  · simp only [dry, hround, true_and, not_or, not_lt] at hdry
    exact ⟨hdry.2, List.length_pos_iff.mpr hdry.1, hpiles.2⟩

end Table

/-! ## Every move -/

open Table in
theorem stocked_preserved :
    rules.Preserves (· ≠ .dryDrop) fun m t => t.Sound m ∧ t.Stocked m := by
  intro m t l m' t' hl hmove ⟨hsound, h⟩
  refine ⟨sound_preserved trivial hmove hsound, ?_⟩
  cases hmove with
  | sit => exact h.congr rfl rfl rfl (fun _ => ingame_put_same rfl) rfl
  | leave hfree =>
      refine h.congr rfl rfl rfl (fun hlive => ?_) rfl
      exact ingame_put_same (hfree hlive).symm
  | wait _ hround => exact h.wait hround
  | deal _ _ hdealt => exact h.deal hdealt
  | arrange => exact h.congr rfl rfl rfl (fun _ => ingame_put_same rfl) rfl
  | digBottom hround _ hbottom =>
      refine h.dig hround ?_ ?_ <;> rw [hbottom, List.length_cons]
      omega
  | digPool hround _ hpool =>
      refine h.dig hround (by omega) ?_
      rw [hpool, List.length_append, List.length_singleton]
      omega
  | post hround => exact h.post hround
  | shuffle hone hkept hpool => exact h.shuffle hone hkept hpool
  | pass hmany => exact h.pass hmany
  | timeout hround => exact h.timeout hround
  | activate =>
      have hfilled : t.Filled := h.piles
      exact ⟨⟨hfilled.bottom, hfilled.pool, hfilled.stock⟩, h.enter_notes⟩
  | draw => exact ⟨trivial, h.enter_notes⟩
  | declare => exact ⟨trivial, h.notes⟩
  | lose hround =>
      refine ⟨?_, h.notes⟩
      change OutPiles _ t.round
      rw [hround]
      trivial
  | lateLose hround =>
      refine ⟨?_, h.notes⟩
      change RestPiles _ t.round
      rw [hround]
      trivial
  | drop hround hin => exact h.drop hround hin
  | stay => exact h.stay hsound
  | next _ hvacant => exact h.next hvacant fun hdry => hl (if_pos hdry)
  | lastDeclare => exact ⟨trivial, h.notes⟩
  | lastDrop => exact ⟨trivial, h.notes⟩
  | finish =>
      refine ⟨trivial, fun note hnote => ?_⟩
      rcases List.mem_cons.mp hnote with rfl | hnote
      · trivial
      · exact h.notes note hnote

/-! ## Every run -/

/--
The piles are not empty where the desk reads them: in the round where a card
is dug, at every place noted on the way, and in the step `ok` may take next.
-/
structure GameDesk.PilesFilled (room : RoomInfo)
    (ok : GameDesk → Env × Request → Prop) (desk : GameDesk) : Prop where
  active1 : desk.round = .active1 →
    desk.bottomCards ≠ [] ∧ desk.pokercardPool ≠ []
  notes : ∀ note ∈ desk.record.notes, note.Filled
  step : ∀ a, ok desk a → step room desk a ≠ .error .emptyPile ∧
    step room desk a ≠ .error (.assertion .digPiles)

theorem not_dryDrop_of_allows {room : RoomInfo} (desk : GameDesk)
    (a : Env × Request) (l : Label) (ha : isDryDrop desk a.2 = false)
    (hl : allows room desk a l) : l ≠ .dryDrop := by
  rintro rfl
  simp [allows, ha] at hl

theorem create_stocked (dealer : CardDealer) :
    (GameDesk.create dealer).table.Stocked .rest :=
  ⟨trivial, fun _ hnote => absurd hnote List.not_mem_nil⟩

theorem Stuck.not_stocked {m : Mode} {t : Table} {fault : Fault}
    (h : t.Stocked m) (hstuck : Stuck m t fault) : fault = .nullPlayer := by
  cases hstuck with
  | emptyPool hpool =>
      have hfilled : t.Filled := h.piles
      have := hfilled.pool
      simp [hpool] at this
  | thinPool hone hthin =>
      obtain ⟨-, -, hstock⟩ : 1 ≤ t.bottom.length ∧ 1 ≤ t.pool.length ∧
        42 ≤ t.stock := h.piles
      have := Table.thick_pool hone hstock
      omega
  | dig hround hempty =>
      have hfilled : t.RestPiles t.round := h.piles
      rw [hround] at hfilled
      have hbottom := hfilled.bottom
      have hpool := hfilled.pool
      rcases hempty with hempty | hempty <;> simp [hempty] at hbottom hpool
  | winner => rfl

/-- Without dry drops the piles never run dry. -/
theorem piles_never_dry {room : RoomInfo} {desk : GameDesk}
    (h : Reachable room (fun desk a => isDryDrop desk a.2 = false) desk) :
    desk.PilesFilled room fun desk a => isDryDrop desk a.2 = false := by
  obtain ⟨-, hpiles, hnotes⟩ :=
    h.invariant stocked_preserved not_dryDrop_of_allows create_stocked
  have hfault : ∀ a fault, isDryDrop desk a.2 = false →
      step room desk a = .error fault → fault = .nullPlayer := by
    intro a fault ha hstep
    obtain ⟨m, t, hstocked, hstuck⟩ :=
      h.stuck stocked_preserved not_dryDrop_of_allows create_stocked ha hstep
    exact hstuck.not_stocked hstocked
  refine ⟨fun hround => ?_, hnotes, fun a ha => ⟨fun hempty => ?_,
    fun hempty => ?_⟩⟩
  · have hfilled : desk.table.RestPiles desk.table.round := hpiles
    rw [show desk.table.round = _ from hround] at hfilled
    have hbottom : 2 ≤ desk.bottomCards.length := hfilled.bottom
    exact ⟨List.length_pos_iff.mp (by omega),
      List.length_pos_iff.mp hfilled.pool⟩
  · cases hfault a _ ha hempty
  · cases hfault a _ ha hempty

theorem piles_filled_after_drop :
    ∃ desk, Reachable sampleRoom
        (fun desk a => isDryDrop desk a.2 = false) desk ∧
      desk.round = .active1 ∧
      desk.PilesFilled sampleRoom fun desk a => isDryDrop desk a.2 = false := by
  obtain ⟨desk, h, hround⟩ := create_reaches sampleRoom
    (fun desk a => isDryDrop desk a.2 = false) looseDealer
    (firstTurn 3 ++ [(sampleEnv 0, .applyDigCard 1 GameDesk.DIG_BOTTOM),
      (sampleEnv 0, .applyDrop 1)])
    (fun desk => desk.round = .active1) (by decide +kernel)
  exact ⟨desk, h, of_decide_eq_true hround, piles_never_dry h⟩

theorem piles_run_dry :
    ¬ ∀ (room : RoomInfo) (desk : GameDesk),
      Reachable room (fun _ _ => True) desk →
        desk.PilesFilled room fun _ _ => True := by
  intro hclaim
  obtain ⟨desk, h, hempty⟩ := create_reaches sampleRoom (fun _ _ => True)
    looseDealer
    (firstTurn 3 ++ [(sampleEnv 0, .applyDigCard 1 1)])
    (fun desk =>
      match step sampleRoom desk (sampleEnv 0, .applyDrop 1) with
      | .error fault => fault = .emptyPile
      | .ok _ => false) (by decide +kernel)
  have hfilled := ((hclaim sampleRoom desk h).step
    (sampleEnv 0, .applyDrop 1) trivial).1
  split at hempty
  next fault hstep =>
    rw [hstep, of_decide_eq_true hempty] at hfilled
    exact hfilled rfl
  next => cases hempty

end StarsGaming.Desk
