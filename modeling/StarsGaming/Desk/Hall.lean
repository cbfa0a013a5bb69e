import StarsGaming.Desk.Placement
import StarsGaming.Desk.Safety

/-!
# The hall over whole runs

A check for signs of life sends out exactly the players who gave none for ten
seconds, are not online and have no game to finish.  Every event of the server
keeps a placement of the users, so that whatever happens the manager, the rooms
and the desks agree on who is where, and nothing fails but a desk.
-/

namespace StarsGaming.Desk

open Cards Foundation Lobby

namespace GameSvr

variable {svr : GameSvr} {env : SvrEnv} {r p : Nat} {user : Int}
  {number : SeatNum} {seat : Int → Option (Nat × SeatNum)}

/-! ## Signs of life -/

def leaves (env : SvrEnv) (svr : GameSvr) (user : Int) : Bool :=
  match svr.playerManager.entry user with
  | some (p, some r) =>
      !svr.isOnline env user p && (svr.onlineCheckTime p + 10 < env.now) &&
        (svr.desk r).isGameOver
  | _ => false

theorem leaves_spec (h : svr.Placed seat) (hleaves : svr.leaves env user) :
    ∃ r number, seat user = some (r, number) ∧ (svr.desk r).isGameOver := by
  unfold leaves at hleaves
  split at hleaves
  next p r hentry =>
    obtain ⟨⟨number, hseat⟩, -⟩ :=
      h.findPlayer (h.roster.lookup_eq_some.mpr hentry)
    exact ⟨r, number, hseat, Bool.and_elim_right hleaves⟩
  next => cases hleaves

theorem setDesk_eraseMember (svr : GameSvr) (r : Nat) (user : Int)
    (desk : GameDesk) :
    (svr.eraseMember r user).setDesk r desk =
      (svr.setDesk r desk).eraseMember r user := by
  simp [eraseMember, setMembers, setDesk, setArea, members]

theorem kickoutPlayer_eq (h : svr.Placed seat)
    (hp : svr.findPlayer r user = some p)
    (hseat : seat user = some (r, number))
    (hover : (svr.desk r).isGameOver) :
    svr.kickoutPlayer env r user p =
      .ok ((svr.setDesk r ((svr.desk r).finishStandUp number)).forget
        r user p) := by
  have hdesk : (svr.eraseMember r user).desk r = svr.desk r := by
    rw [eraseMember, desk_setMembers]
  have hstand : (svr.eraseMember r user).standUp env r number =
      .ok ((svr.eraseMember r user).setDesk r
        ((svr.desk r).finishStandUp number), true) := by
    rw [standUp, hdesk, GameDesk.playerStandUp_of_isGameOver _ _ _ hover,
      GameDesk.mayStandUp_of_isGameOver _ hover]
    rfl
  unfold kickoutPlayer
  dsimp only
  rw [hdesk, h.getSeat.mpr hseat]
  dsimp only
  rw [hstand, ok_bind, ok_bind, setDesk_eraseMember]
  exact destroyPlayerI_eq h.roster.tidy (h.findPlayer hp).2

theorem finishStandUp_reachable (env : SvrEnv) (h : svr.Sound seat)
    (hseat : seat user = some (r, number))
    (hover : (svr.desk r).isGameOver) :
    Desk.Reachable (svr.info r) (fun _ _ => True)
      ((svr.desk r).finishStandUp number) := by
  refine (h.desks r).step (a := (env.toEnv, .applyStandup user))
    trivial ?_
  rw [step, serve, h.getSeat.mpr hseat]
  exact GameDesk.playerStandUp_of_isGameOver _ _ _ hover

/-- The users in `seen` have been looked at since `start`. -/
structure Checked (env : SvrEnv) (start : GameSvr)
    (seat : Int → Option (Nat × SeatNum)) (seen : Int → Bool)
    (svr : GameSvr) : Prop where
  sound : svr.Sound fun user =>
    if seen user && start.leaves env user then none else seat user
  areaIds : svr.areaIds = start.areaIds
  times : svr.onlineCheckTime = start.onlineCheckTime
  gameOver : ∀ r, (svr.desk r).isGameOver = (start.desk r).isGameOver
  entry : ∀ user, (seen user && start.leaves env user) = false →
    svr.playerManager.entry user = start.playerManager.entry user
  online : ∀ user, (seen user && start.leaves env user) = false →
    svr.playerManager.isPlayerOnline user =
      start.playerManager.isPlayerOnline user
  offline : ∀ user p r, seen user → start.leaves env user = false →
    start.playerManager.entry user = some (p, some r) →
      svr.offline p = !start.isOnline env user p

namespace Checked

variable {start : GameSvr} {seen : Int → Bool}

theorem init (h : svr.Sound seat) :
    svr.Checked env seat (fun _ => false) svr where
  sound := by simpa using h
  areaIds := rfl
  times := rfl
  gameOver _ := rfl
  entry _ _ := rfl
  online _ _ := rfl
  offline _ _ _ hseen := nomatch hseen

theorem isOnline_eq (h : start.Checked env seat seen svr)
    (hstays : (seen user && start.leaves env user) = false) (p : Nat) :
    svr.isOnline env user p = start.isOnline env user p := by
  rw [isOnline, isOnline, h.online user hstays, h.times]

theorem mark (h : start.Checked env seat seen svr)
    (hentry : start.playerManager.entry user = some (p, some r))
    (hleaves : start.leaves env user = false) :
    start.Checked env seat (fun other => seen other || other = user)
      (svr.setOffline p !start.isOnline env user p) := by
  have hgone (other : Int) : ((seen other || other = user) &&
      start.leaves env other) = (seen other && start.leaves env other) := by
    by_cases hother : other = user <;> simp [hother, hleaves]
  refine ⟨?_, h.areaIds, h.times, h.gameOver, ?_, ?_, ?_⟩
  · simp only [hgone]
    exact ⟨h.sound.toPlaced.congr rfl rfl rfl, h.sound.desks⟩
  · simp only [hgone]
    exact h.entry
  · simp only [hgone]
    exact h.online
  · intro other q r' hseen hstays hother
    change Function.update svr.offline p _ q = _
    rw [Function.update_apply]
    have hlisted := h.entry user (by rw [hleaves, Bool.and_false])
    have hlisted' := h.entry other (by rw [hstays, Bool.and_false])
    split_ifs with hq
    · rw [hq] at hother ⊢
      rw [hentry] at hlisted
      rw [hother] at hlisted'
      rw [h.sound.roster.tidy.eq_of_entry hlisted hlisted']
    · refine h.offline other q r' ?_ hstays hother
      have hne : other ≠ user := by
        rintro rfl
        rw [hentry] at hother
        cases hother
        exact hq rfl
      simpa [hne] using hseen

theorem kick (h : start.Checked env seat seen svr)
    (hentry : start.playerManager.entry user = some (p, some r))
    (hstays : (seen user && start.leaves env user) = false)
    (hleaves : start.leaves env user) :
    ∃ svr', svr.kickoutPlayer env r user p = .ok svr' ∧
      start.Checked env seat (fun other => seen other || other = user)
        svr' := by
  have hlisted := h.entry user hstays
  rw [hentry] at hlisted
  have hp : svr.findPlayer r user = some p :=
    h.sound.roster.lookup_eq_some.mpr hlisted
  have hover : (svr.desk r).isGameOver := by
    rw [h.gameOver]
    rw [leaves, hentry] at hleaves
    simp only [Bool.and_eq_true] at hleaves
    exact hleaves.2
  obtain ⟨⟨number, hseat⟩, -⟩ := h.sound.findPlayer hp
  refine ⟨_, kickoutPlayer_eq h.sound.toPlaced hp hseat hover, ?_⟩
  have hgone (other : Int) : ((seen other || other = user) &&
      start.leaves env other) = false →
      other ≠ user ∧ (seen other && start.leaves env other) = false := by
    intro hother
    by_cases heq : other = user
    · simp [heq, hleaves] at hother
    · simpa [heq] using hother
  have hplaced := h.sound.toPlaced.leave hp hseat
    (GameDesk.occupant_finishStandUp number rfl)
  have hdesk (r' : Nat) : GameSvr.desk (forget r user p
      (svr.setDesk r ((svr.desk r).finishStandUp number))) r' =
        if r' = r then (svr.desk r).finishStandUp number
        else svr.desk r' := by
    rw [desk_forget, desk_setDesk]
  have hseats : (fun other => if (seen other || other = user) &&
      start.leaves env other then none else seat other) =
        Function.update (fun other => if seen other &&
          start.leaves env other then none else seat other) user none := by
    funext other
    rw [Function.update_apply]
    by_cases hother : other = user <;> simp [hother, hleaves]
  constructor
  · rw [hseats]
    refine ⟨hplaced, fun r' => ?_⟩
    rw [desk_forget, info_forget]
    exact desks_setDesk h.sound.desks
      (finishStandUp_reachable env h.sound hseat hover) r'
  · exact h.areaIds
  · exact h.times
  · intro r'
    rw [hdesk, ← h.gameOver]
    split_ifs with hr
    · rw [hr, hover, GameDesk.finishStandUp_isGameOver number hover]
    · rfl
  · intro other hother
    obtain ⟨hne, hother⟩ := hgone other hother
    change (svr.playerManager.forget user p).entry other = _
    rw [PlayerManager.entry_forget, Function.update_of_ne hne,
      h.entry other hother]
  · intro other hother
    obtain ⟨hne, hother⟩ := hgone other hother
    change PlayerManager.isPlayerOnline other
      (svr.playerManager.forget user p) = _
    rw [PlayerManager.isPlayerOnline_forget hne, h.online other hother]
  · intro other q r' hseen hstays' hother
    have hne : other ≠ user := by
      rintro rfl
      rw [hleaves] at hstays'
      cases hstays'
    exact h.offline other q r' (by simpa [hne] using hseen) hstays' hother

theorem checkPlayer (h : start.Checked env seat seen svr)
    (hentry : start.playerManager.entry user = some (p, some r))
    (hstays : (seen user && start.leaves env user) = false) :
    Meets (start.Checked env seat fun other => seen other || other = user)
      (fun _ => False) (checkPlayer env r svr (user, p)) := by
  have hlisted := h.entry user hstays
  rw [hentry] at hlisted
  have hp : svr.findPlayer r user = some p :=
    h.sound.roster.lookup_eq_some.mpr hlisted
  obtain ⟨⟨number, hseat⟩, -⟩ := h.sound.findPlayer hp
  have hneed : svr.needKickoutRoom env r user p =
      (decide (start.onlineCheckTime p + 10 < env.now) &&
        (start.desk r).isGameOver) := by
    rw [needKickoutRoom, h.sound.getSeat.mpr hseat, h.times, h.gameOver]
    simp
  have hleaves : start.leaves env user = (!start.isOnline env user p &&
      svr.needKickoutRoom env r user p) := by
    rw [hneed, leaves, hentry, ← Bool.and_assoc]
  unfold GameSvr.checkPlayer
  rw [h.isOnline_eq hstays]
  cases honline : start.isOnline env user p with
  | true =>
      have hmark := h.mark hentry (by rw [hleaves, honline]; rfl)
      rw [honline] at hmark
      exact hmark
  | false =>
      cases hkick : svr.needKickoutRoom env r user p with
      | true =>
          obtain ⟨svr', hsvr', hchecked⟩ := h.kick hentry hstays
            (by rw [hleaves, honline, hkick]; rfl)
          dsimp only
          rw [if_neg Bool.false_ne_true, if_pos rfl, hsvr']
          exact hchecked
      | false =>
          have hmark := h.mark hentry (by rw [hleaves, honline, hkick]; rfl)
          rw [honline] at hmark
          exact hmark

/-- Who is listed now was listed at the start and has not been sent out. -/
theorem stays_of_mem (h : start.Checked env seat seen svr)
    (hmem : (user, p) ∈ svr.members r) :
    start.playerManager.entry user = some (p, some r) ∧
      (seen user && start.leaves env user) = false := by
  have hlisted := (h.sound.roster.entries r user p).mp hmem
  have hstays : (seen user && start.leaves env user) = false := by
    by_contra hgone
    have hroom := h.sound.room user
    rw [if_pos (by simpa using hgone), PlayerManager.isPlayerInRoom_eq,
      hlisted] at hroom
    cases hroom
  exact ⟨(h.entry user hstays).symm.trans hlisted, hstays⟩

theorem mem_members (h : start.Checked env seat seen svr)
    (hstays : (seen user && start.leaves env user) = false) :
    user ∈ (svr.members r).map Prod.fst ↔
      start.playerManager.isPlayerInRoom user = some r := by
  rw [PlayerManager.isPlayerInRoom_eq, ← h.entry user hstays,
    Option.bind_eq_some_iff, List.mem_map]
  constructor
  · rintro ⟨⟨_, p⟩, hmem, rfl⟩
    exact ⟨_, (h.sound.roster.entries r _ p).mp hmem, rfl⟩
  · rintro ⟨⟨p, _⟩, hentry, rfl⟩
    exact ⟨(user, p), (h.sound.roster.entries r user p).mpr hentry, rfl⟩

theorem checkPlayerOnline (h : start.Checked env seat seen svr) (r : Nat) :
    Meets (start.Checked env seat fun user => seen user ||
        start.playerManager.isPlayerInRoom user = some r)
      (fun _ => False) (svr.checkPlayerOnline env r) := by
  have hloop := Meets.foldlM (E := fun _ => False)
    (K := fun rest svr' => ∃ done, svr.members r = done ++ rest ∧
      start.Checked env seat
        (fun user => seen user || user ∈ done.map Prod.fst) svr')
    (f := GameSvr.checkPlayer env r) ?_ (l := svr.members r)
    (b := svr) ⟨[], rfl, by simpa using h⟩
  · refine hloop.mono (fun svr' hchecked => ?_) fun _ => id
    obtain ⟨done, hdone, hchecked⟩ := hchecked
    rw [List.append_nil] at hdone
    have hseen : (fun user => seen user ||
        decide (start.playerManager.isPlayerInRoom user = some r)) =
          fun user => seen user || decide (user ∈ done.map Prod.fst) := by
      funext user
      cases hgone : seen user && start.leaves env user with
      | true => rw [Bool.and_elim_left hgone, Bool.true_or, Bool.true_or]
      | false =>
          rw [← hdone]
          simp only [h.mem_members hgone]
    rw [hseen]
    exact hchecked
  · rintro ⟨user, p⟩ rest svr₁ ⟨done, hdone, hchecked⟩
    have hmem : (user, p) ∈ svr.members r := by simp [hdone]
    obtain ⟨hentry, hstays⟩ := h.stays_of_mem hmem
    have hkeys := h.sound.roster.keys r
    rw [hdone] at hkeys
    have hnew : user ∉ done.map Prod.fst := notMem_before hkeys
    have hstays₁ : ((seen user || user ∈ done.map Prod.fst) &&
        start.leaves env user) = false := by
      rw [decide_eq_false hnew, Bool.or_false, hstays]
    refine (hchecked.checkPlayer hentry hstays₁).mono
      (fun svr₂ hchecked₂ => ⟨done ++ [(user, p)], by simp [hdone], ?_⟩)
      fun _ => id
    have hseen : (fun other => seen other ||
        decide (other ∈ (done ++ [(user, p)]).map Prod.fst)) =
          fun other => (seen other || decide (other ∈ done.map Prod.fst)) ||
            decide (other = user) := by
      funext other
      rw [Bool.or_assoc, ← Bool.decide_or, List.map_append, List.map_cons,
        List.map_nil]
      simp only [List.mem_append, List.mem_singleton]
    rw [hseen]
    exact hchecked₂

theorem checkHall (env : SvrEnv) (h : svr.Sound seat) :
    Meets (svr.Checked env seat fun user =>
        (svr.playerManager.isPlayerInRoom user).any (· ∈ svr.areaIds))
      (fun _ => False)
      (svr.areaIds.foldlM
        (fun svr r => svr.checkPlayerOnline env r) svr) := by
  have hloop := Meets.foldlM (E := fun _ => False)
    (K := fun rest svr' => ∃ done, svr.areaIds = done ++ rest ∧
      svr.Checked env seat (fun user =>
        (svr.playerManager.isPlayerInRoom user).any (· ∈ done)) svr')
    (f := fun svr r => svr.checkPlayerOnline env r) ?_
    (l := svr.areaIds) (b := svr) ⟨[], rfl, ?_⟩
  · refine hloop.mono (fun svr' hchecked => ?_) fun _ => id
    obtain ⟨done, hdone, hchecked⟩ := hchecked
    rw [List.append_nil] at hdone
    rw [hdone]
    exact hchecked
  · rintro r rest svr₁ ⟨done, hdone, hchecked⟩
    refine (hchecked.checkPlayerOnline r).mono
      (fun svr₂ hchecked₂ => ⟨done ++ [r], by simp [hdone], ?_⟩) fun _ => id
    convert hchecked₂ using 2 with user
    cases svr.playerManager.isPlayerInRoom user with
    | none => rfl
    | some room => simp
  · convert init h using 2 with user
    cases svr.playerManager.isPlayerInRoom user <;> rfl

end Checked

theorem check_spec (env : SvrEnv) (h : svr.Sound seat) :
    ∃ svr', svr.handle (env, .checkPlayerOnline) = .ok (svr', none) ∧
      svr'.Sound (fun user => if svr.leaves env user then none
        else seat user) ∧
      ∀ user p r, svr.playerManager.entry user = some (p, some r) →
        svr.leaves env user = false →
          svr'.offline p = !svr.isOnline env user p := by
  have hchecked := Checked.checkHall env h
  unfold handle
  dsimp only
  cases hloop : svr.areaIds.foldlM
      (fun svr r => svr.checkPlayerOnline env r) svr with
  | error fault => exact (hchecked.failure hloop).elim
  | ok svr' =>
      have hchecked := hchecked.result hloop
      have hseen : ∀ user p r,
          svr.playerManager.entry user = some (p, some r) →
            (svr.playerManager.isPlayerInRoom user).any
              (· ∈ svr.areaIds) = true := by
        intro user p r hentry
        have hroom : svr.playerManager.isPlayerInRoom user = some r := by
          rw [PlayerManager.isPlayerInRoom_eq, hentry]
          rfl
        have hseat := h.room user
        rw [hroom] at hseat ⊢
        obtain ⟨⟨r', number⟩, hplace, heq⟩ :=
          Option.map_eq_some_iff.mp hseat.symm
        have hwithin := h.within user r' number hplace
        rw [show r' = r from heq] at hwithin
        simpa using hwithin
      refine ⟨svr', rfl, ?_, fun user p r hentry hstays =>
        hchecked.offline user p r (hseen user p r hentry) hstays hentry⟩
      have hsound := hchecked.sound
      have hgone : (fun user => if (svr.playerManager.isPlayerInRoom
          user).any (· ∈ svr.areaIds) && svr.leaves env user then none
            else seat user) =
          fun user => if svr.leaves env user then none else seat user := by
        funext user
        cases hleaves : svr.leaves env user with
        | false => rw [Bool.and_false]
        | true =>
            unfold leaves at hleaves
            split at hleaves
            next p r hentry => rw [hseen user p r hentry]; rfl
            next => cases hleaves
      rw [hgone] at hsound
      exact hsound

/-! ## Runs -/

theorem tokenLogin_sound (h : svr.Sound seat) (user : Int) (session : Nat) :
    (svr.setManager env
      (svr.playerManager.addUserSession user session)).Sound seat := by
  obtain ⟨htidy, hentry⟩ := h.roster.tidy.addUserSession user session
  refine ⟨h.toPlaced.setManager htidy fun other p r => ?_, h.desks⟩
  rw [hentry]
  split_ifs with hnew
  · rw [Function.update_apply]
    split_ifs with hother
    · rw [hother, PlayerManager.entry_eq_none.mpr hnew]
      simp
    · rfl
  · rfl

theorem sessionClose_spec (h : svr.Sound seat) (session : Nat) :
    Meets (fun res : GameSvr × Option ErrorCode => res.1.Sound seat)
      (fun _ => False) (svr.handle (env, .sessionClose session)) := by
  have hclose := h.roster.tidy.onSessionClose session
  unfold handle
  dsimp only
  cases hresult : svr.playerManager.onSessionClose .game session with
  | error fault => exact (hclose.failure hresult).elim
  | ok manager =>
      obtain ⟨htidy, hentry⟩ := hclose.result hresult
      refine ⟨h.toPlaced.setManager htidy fun other p r => ?_, h.desks⟩
      rcases hentry with hentry | ⟨user, q, hnone, hentry⟩ <;> rw [hentry]
      rw [Function.update_apply]
      split_ifs with hother
      · rw [hother, hnone]
        simp
      · rfl

def AreaMessage.quits : AreaMessage → Bool
  | .enterRoom _ | .quitRoom | .standup => true
  | _ => false

def Event.clears (r : Nat) : Event → Bool
  | .waitRoundTimeout r' | .area r' _ .closeAccountBox => r = r'
  | .checkPlayerOnline => true
  | _ => false

inductive Moves (svr : GameSvr) (seat : Int → Option (Nat × SeatNum))
    (user : Int) : Event → Option (Nat × SeatNum) → Prop where
  | stays (event : Event) : Moves svr seat user event (seat user)
  | quits (r : Nat) (msg : AreaMessage) (hquits : msg.quits)
      (hfree : svr.Free seat user) :
      Moves svr seat user (.area r user msg) none
  | enters (r session : Nat) (number : SeatNum)
      (hfree : svr.Free seat user) :
      Moves svr seat user (.area r user (.enterRoom session))
        (some (r, number))
  | cleared (event : Event) (r : Nat) (number : SeatNum)
      (hclears : event.clears r) (hseat : seat user = some (r, number))
      (hover : (svr.desk r).isGameOver) :
      Moves svr seat user event none

theorem moves_of_emptied {seat' : Int → Option (Nat × SeatNum)}
    (h : seat' = seat ∨ (svr.desk r).isGameOver ∧ Emptied r seat seat')
    {event : Event} (hclears : event.clears r) (user : Int) :
    svr.Moves seat user event (seat' user) := by
  rcases h with rfl | ⟨hover, hempty⟩
  · exact .stays event
  · rcases hempty user with hsame | ⟨hnone, number, hseat⟩
    · rw [hsame]
      exact .stays event
    · rw [hnone]
      exact .cleared event r number hclears hseat hover

theorem moves_of_quit {seat' : Int → Option (Nat × SeatNum)}
    (h : seat' = seat ∨ seat' = Function.update seat user none ∧
      svr.Free seat user) {msg : AreaMessage} (hquits : msg.quits)
    (other : Int) :
    svr.Moves seat other (.area r user msg) (seat' other) := by
  rcases h with rfl | ⟨rfl, hfree⟩
  · exact .stays _
  · rw [Function.update_apply]
    split_ifs with hother
    · rw [hother]
      exact .quits r msg hquits hfree
    · exact .stays _

theorem free_of_seat (hseat : seat user = some (r, number))
    (hmay : (svr.desk r).mayStandUp number = true) : svr.Free seat user := by
  intro r' number' hseat'
  rw [hseat] at hseat'
  cases hseat'
  exact hmay

theorem onRecvMsg_spec (h : svr.Sound seat) (hr : r ∈ svr.areaIds)
    (msg : AreaMessage) :
    Meets (fun res : GameSvr × Option ErrorCode => ∃ seat',
        res.1.Sound seat' ∧ ∀ other,
          svr.Moves seat other (.area r user msg) (seat' other))
      svr.DeskFault (svr.onRecvMsg env r user msg) := by
  cases msg with
  | enterRoom session =>
      refine (onPlayerEnter_spec h hr session).bind ?_
      rintro ⟨svr', code⟩ - ⟨seat', hsound, hfree, hcode⟩
      refine ⟨seat', hsound, fun other => ?_⟩
      rcases hfree with rfl | hfree
      · exact .stays _
      · cases code <;> dsimp only at hcode
        case success =>
          obtain ⟨number, rfl⟩ := hcode
          rw [Function.update_apply]
          split_ifs with hother
          · rw [hother]
            exact .enters r session number hfree
          · exact .stays _
        case havenoTokenLogin => exact moves_of_quit (.inl hcode.1) rfl _
        case haveNoSeat =>
          exact moves_of_quit (.inr ⟨hcode.1, hfree⟩) rfl _
        case userBuyInFailed =>
          exact moves_of_quit (.inr ⟨hcode.1, hfree⟩) rfl _
  | quitRoom =>
      refine (onPlayerExit_spec env user h).bind ?_
      rintro ⟨svr', code⟩ - ⟨seat', hsound, -, -, hcode⟩
      refine ⟨seat', hsound, fun other => moves_of_quit ?_ rfl other⟩
      cases code <;> dsimp only at hcode
      case success =>
        obtain ⟨⟨number, hseat, hmay⟩, hleft⟩ := hcode
        exact .inr ⟨hleft, free_of_seat hseat hmay⟩
      case userNotInRoom => exact .inl hcode.2
      case gameNotOver => exact .inl hcode.2
  | seat seatNumber =>
      refine ((onApplySeat_spec h seatNumber).mono (fun _ => id)
        fun _ => False.elim).bind ?_
      rintro ⟨svr', code⟩ - hsound
      exact ⟨seat, hsound, fun _ => .stays _⟩
  | standup =>
      refine (onApplyStandup_spec h).bind ?_
      rintro ⟨svr', code⟩ - ⟨seat', hsound, hmoved⟩
      refine ⟨seat', hsound, fun other => moves_of_quit ?_ rfl other⟩
      rcases hmoved with hsame | ⟨hleft, number, hseat, hmay⟩
      · exact .inl hsame
      · exact .inr ⟨hleft, free_of_seat hseat hmay⟩
  | play play =>
      exact (onPlay_spec h play).mono
        (fun _ hsound => ⟨seat, hsound, fun _ => .stays _⟩) fun _ => id
  | notice notice =>
      exact ⟨seat, onNotice_spec h notice, fun _ => .stays _⟩
  | closeAccountBox =>
      refine ((onApplyCloseAccountBox_spec h).mono (fun _ => id)
        fun _ => False.elim).bind ?_
      rintro ⟨svr', code⟩ - ⟨seat', hsound, hmoved⟩
      exact ⟨seat', hsound,
        moves_of_emptied hmoved (decide_eq_true rfl)⟩

/-- Any event keeps a placement, and only the step of a desk can fail. -/
theorem handle_spec (h : svr.Sound seat) (env : SvrEnv) (event : Event) :
    Meets (fun res : GameSvr × Option ErrorCode => ∃ seat',
        res.1.Sound seat' ∧ ∀ user,
          svr.Moves seat user event (seat' user))
      svr.DeskFault (svr.handle (env, event)) := by
  cases event with
  | tokenLogin user session =>
      exact ⟨seat, tokenLogin_sound h user session, fun _ => .stays _⟩
  | sessionClose session =>
      exact (sessionClose_spec h session).mono
        (fun _ hsound => ⟨seat, hsound, fun _ => .stays _⟩)
        fun _ => False.elim
  | heartbeat session =>
      refine ⟨seat, ?_, fun _ => .stays _⟩
      dsimp only
      unfold flushUserOnline
      split
      · exact h
      · exact flush_sound env h _
  | area r user msg =>
      change Meets _ _ (svr.dispatchAreaMsg env r user msg)
      unfold dispatchAreaMsg
      split_ifs with hr
      · exact onRecvMsg_spec h hr msg
      · exact ⟨seat, h, fun _ => .stays _⟩
  | waitRoundTimeout r =>
      change Meets _ _ (if r ∈ svr.areaIds then _ else _)
      split_ifs
      · refine (stepNewRound_spec h).bind ?_
        rintro svr' - ⟨seat', hsound, hmoved⟩
        exact ⟨seat', hsound,
          moves_of_emptied hmoved (decide_eq_true rfl)⟩
      · exact ⟨seat, h, fun _ => .stays _⟩
  | checkPlayerOnline =>
      obtain ⟨svr', hsvr', hsound, -⟩ := check_spec env h
      rw [hsvr']
      refine ⟨_, hsound, fun user => ?_⟩
      split_ifs with hleaves
      · obtain ⟨r, number, hseat, hover⟩ := leaves_spec h.toPlaced hleaves
        exact .cleared _ r number rfl hseat hover
      · exact .stays _

theorem Opened.sound (h : svr.Opened) : svr.Sound fun _ => none where
  roster := by
    refine ⟨?_, fun r user p => ?_, fun r => ?_⟩
    · rw [h.manager]
      exact PlayerManager.Tidy.new
    · rw [h.empty, h.manager]
      exact iff_of_false List.not_mem_nil (by rintro ⟨⟩)
    · rw [h.empty]
      exact List.nodup_nil
  room user := by
    rw [h.manager]
    rfl
  occupant r number user := by
    obtain ⟨dealer, hdesk⟩ := h.desks r
    rw [hdesk]
    exact iff_of_false (by rintro ⟨⟩) (by rintro ⟨⟩)
  within _ _ _ hseat := nomatch hseat
  desks r := by
    obtain ⟨dealer, hdesk⟩ := h.desks r
    exact .start ⟨dealer, hdesk⟩

theorem Reachable.sound (h : svr.Reachable) : ∃ seat, svr.Sound seat := by
  refine Reaches.invariant (J := fun svr => ∃ seat, svr.Sound seat)
    (fun svr hopened => ⟨_, hopened.sound⟩) ?_ h
  rintro svr ⟨env, event⟩ svr' ⟨seat, hsound⟩ - hnext
  have hspec := (handle_spec hsound env event).bind
    (f := fun res : GameSvr × Option ErrorCode => .ok res.1)
    (R := fun svr' : GameSvr => ∃ seat', svr'.Sound seat')
    fun res _ ⟨seat', hsound, _⟩ => ⟨seat', hsound⟩
  exact hspec.result hnext

/-! ## Places -/

def place (svr : GameSvr) (user : Int) : Option (Nat × SeatNum) :=
  (svr.playerManager.isPlayerInRoom user).bind fun r =>
    ((svr.desk r).getSeat user).map fun number => (r, number)

theorem Placed.eq_place (h : svr.Placed seat) : seat = svr.place := by
  funext user
  rw [place, h.room]
  cases hseat : seat user with
  | none => rfl
  | some place =>
      obtain ⟨r, number⟩ := place
      rw [Option.map_some, Option.bind_some, h.getSeat.mpr hseat]
      rfl

theorem Reachable.place (h : svr.Reachable) : svr.Sound svr.place := by
  obtain ⟨seat, hsound⟩ := h.sound
  rw [← hsound.toPlaced.eq_place]
  exact hsound

def sampleSvrEnv (now : Int) : SvrEnv where
  toEnv := sampleEnv now
  buyIn _ := true

def openedHall : GameSvr where
  playerManager := .new
  onlineCheckTime _ := 0
  offline _ := false
  areaIds := [0]
  gameArea _ := ⟨sampleRoom, [], .create looseDealer⟩

theorem openedHall_opened : openedHall.Opened where
  manager := rfl
  empty _ := rfl
  desks _ := ⟨looseDealer, rfl⟩

theorem exists_guests :
    ∃ svr, Reachable svr ∧ svr.areaIds = [0] ∧
      svr.place 1 = some (0, 0) ∧ svr.place 2 = some (0, 1) ∧
      svr.leaves (sampleSvrEnv 100) 1 = true ∧
      (svr.desk 0).occupant 0 = some 1 := by
  let events : List (SvrEnv × Event) :=
    [(sampleSvrEnv 0, .area 0 1 (.enterRoom 7)),
      (sampleSvrEnv 0, .area 0 2 (.enterRoom 8))]
  let settled (svr : GameSvr) : Bool := svr.areaIds = [0] ∧
    svr.place 1 = some (0, 0) ∧ svr.place 2 = some (0, 1) ∧
    svr.leaves (sampleSvrEnv 100) 1 = true ∧
    (svr.desk 0).occupant 0 = some 1
  have hreach : ∃ svr, Reachable svr ∧ settled svr :=
    exists_reaches openedHall_opened events settled (by decide +kernel)
  obtain ⟨svr, h, hsvr⟩ := hreach
  exact ⟨svr, h, of_decide_eq_true hsvr⟩

/--
On every reachable server the manager's pointers, the tables of the rooms and
the seats of the desks agree, nobody sits twice, and every desk is one its
rules can reach.
-/
theorem accounts_agree (h : svr.Reachable) :
    (∀ user r, svr.playerManager.isPlayerInRoom user = some r ↔
      ∃ number, (svr.desk r).occupant number = some user) ∧
    (∀ user r, user ∈ (svr.members r).map Prod.fst ↔
      ∃ number, (svr.desk r).occupant number = some user) ∧
    (∀ r, ((svr.members r).map Prod.fst).Nodup) ∧
    (∀ user r r' number number',
      (svr.desk r).occupant number = some user →
      (svr.desk r').occupant number' = some user →
        r = r' ∧ number = number') ∧
    ∀ r, Desk.Reachable (svr.info r) (fun _ _ => True) (svr.desk r) := by
  have hsound := h.place
  have hroom : ∀ user r, svr.playerManager.isPlayerInRoom user = some r ↔
      ∃ number, (svr.desk r).occupant number = some user := by
    intro user r
    simp only [hsound.occupant, hsound.room, Option.map_eq_some_iff]
    constructor
    · rintro ⟨⟨_, number⟩, hseat, rfl⟩
      exact ⟨number, hseat⟩
    · rintro ⟨number, hseat⟩
      exact ⟨_, hseat, rfl⟩
  refine ⟨hroom, fun user r => ?_, hsound.roster.keys, ?_, hsound.desks⟩
  · rw [← hroom, hsound.roster.isPlayerInRoom_eq_some]
    constructor
    · intro hmem
      obtain ⟨⟨_, p⟩, hlisted, rfl⟩ := List.mem_map.mp hmem
      have hentry := (hsound.roster.entries r _ p).mp hlisted
      exact ⟨p, hsound.roster.lookup_eq_some.mpr hentry⟩
    · rintro ⟨p, hp⟩
      have hentry := hsound.roster.lookup_eq_some.mp hp
      exact List.mem_map_of_mem ((hsound.roster.entries r user p).mpr hentry)
  · intro user r r' number number' hhere hthere
    rw [hsound.occupant] at hhere hthere
    rw [hhere] at hthere
    cases hthere
    exact ⟨rfl, rfl⟩

theorem accounts_agree_guests :
    ∃ svr, Reachable svr ∧ svr.playerManager.isPlayerInRoom 1 = some 0 ∧
      ∀ r number, (svr.desk r).occupant number = some 1 →
        0 = r ∧ 0 = number := by
  obtain ⟨svr, h, -, -, -, -, hguest⟩ := exists_guests
  obtain ⟨hroom, -, -, honce, -⟩ := accounts_agree h
  exact ⟨svr, h, (hroom 1 0).mpr ⟨0, hguest⟩, fun r number hother =>
    honce 1 0 r 0 number hguest hother⟩

/-- An event fails only where a desk fails, at worst for lack of cards. -/
theorem fails_at_desk (h : svr.Reachable) (event : SvrEnv × Event) :
    Meets (fun res => res.1.Reachable)
      (fun fault => ∃ r request f,
        step (svr.info r) (svr.desk r) request = .error f ∧
        fault = .desk f ∧ ∀ failed, f = .assertion failed →
          failed = .digPiles) (svr.handle event) := by
  have hsound := h.place
  refine meets_of_cases ?_ fun fault hfault => ?_
  · rintro ⟨svr', code⟩ hhandle
    refine h.step (a := event) trivial ?_
    rw [next, hhandle]
    rfl
  · obtain ⟨r, request, f, hstep, rfl⟩ :=
      (handle_spec hsound event.1 event.2).failure hfault
    refine ⟨r, request, f, hstep, rfl, ?_⟩
    rintro failed rfl
    exact GameDesk.assertion_of_step (hsound.desks r) hstep

theorem fails_at_desk_opened :
    Meets (fun res : GameSvr × Option ErrorCode => res.1.Reachable)
      (fun fault => ∃ r request f,
        step (openedHall.info r) (openedHall.desk r) request = .error f ∧
        fault = .desk f ∧ ∀ failed, f = .assertion failed →
          failed = .digPiles)
      (openedHall.handle (sampleSvrEnv 0, .area 0 1 (.enterRoom 7))) :=
  fails_at_desk (.start openedHall_opened) _

/--
Whatever happens, a user stays, goes on its own request from a seat it may
leave, or is sent out of a room whose game is over.
-/
theorem handle_moves (h : svr.Reachable) (env : SvrEnv) (event : Event) :
    Meets (fun res => ∀ user,
        svr.Moves svr.place user event (res.1.place user))
      svr.DeskFault (svr.handle (env, event)) := by
  refine (handle_spec h.place env event).mono ?_ fun _ => id
  rintro ⟨svr', code⟩ ⟨seat', hsound, hmoves⟩ user
  rw [← hsound.toPlaced.eq_place]
  exact hmoves user

theorem handle_moves_guests :
    ∃ svr, Reachable svr ∧
      Meets (fun res : GameSvr × Option ErrorCode =>
          res.1.place 1 = some (0, 0)) svr.DeskFault
        (svr.handle (sampleSvrEnv 1, .area 0 2 .quitRoom)) := by
  obtain ⟨svr, h, -, hplace, -⟩ := exists_guests
  refine ⟨svr, h, (handle_moves h (sampleSvrEnv 1)
    (.area 0 2 .quitRoom)).mono (fun res hmoves => ?_) fun _ => id⟩
  have hmove := hmoves 1
  generalize res.1.place 1 = after at hmove ⊢
  cases hmove with
  | stays => exact hplace
  | cleared _ _ _ hclears => cases hclears

/-- The answer to a request for a room says where the user is then. -/
theorem enterRoom_answer (h : svr.Reachable) (hr : r ∈ svr.areaIds)
    (env : SvrEnv) (user : Int) (session : Nat) :
    Meets (fun res : GameSvr × ErrorCode =>
        match res.2 with
        | .success => ∃ number, res.1.place =
            Function.update svr.place user (some (r, number))
        | .havenoTokenLogin => res.1.place = svr.place ∧
            ∃ r' number, r' ≠ r ∧ svr.place user = some (r', number) ∧
              (svr.desk r').mayStandUp number = false
        | .haveNoSeat =>
            res.1.place = Function.update svr.place user none ∧
              ∀ number, (svr.desk r).occupant number ≠ none
        | .userBuyInFailed =>
            res.1.place = Function.update svr.place user none ∧
              env.buyIn user = false
        | _ => False)
      svr.DeskFault (svr.onPlayerEnter env r user session) := by
  refine (onPlayerEnter_spec h.place hr session).mono ?_ fun _ => id
  rintro ⟨svr', code⟩ ⟨seat', hsound, -, hcode⟩
  have hplace := hsound.toPlaced.eq_place
  subst hplace
  exact hcode

theorem enterRoom_answer_opened :
    Meets (fun res : GameSvr × ErrorCode =>
        match res.2 with
        | .success => ∃ number, res.1.place =
            Function.update openedHall.place 1 (some (0, number))
        | .havenoTokenLogin => res.1.place = openedHall.place ∧
            ∃ r' number, r' ≠ 0 ∧
              openedHall.place 1 = some (r', number) ∧
              (openedHall.desk r').mayStandUp number = false
        | .haveNoSeat =>
            res.1.place = Function.update openedHall.place 1 none ∧
              ∀ number, (openedHall.desk 0).occupant number ≠ none
        | .userBuyInFailed =>
            res.1.place = Function.update openedHall.place 1 none ∧
              (sampleSvrEnv 0).buyIn 1 = false
        | _ => False)
      openedHall.DeskFault
      (openedHall.onPlayerEnter (sampleSvrEnv 0) 0 1 7) :=
  enterRoom_answer (.start openedHall_opened) List.mem_cons_self _ 1 7

/--
A check for signs of life never fails.  It sends out exactly the users it must
and marks all others by whether they are online.
-/
theorem check_sends_out (h : svr.Reachable) (env : SvrEnv) :
    ∃ svr', svr.handle (env, .checkPlayerOnline) = .ok (svr', none) ∧
      (∀ user, svr'.place user =
        if svr.leaves env user then none else svr.place user) ∧
      ∀ user p r, svr.playerManager.entry user = some (p, some r) →
        svr.leaves env user = false →
          svr'.offline p = !svr.isOnline env user p := by
  obtain ⟨svr', hsvr', hsound, hmarks⟩ := check_spec env h.place
  refine ⟨svr', hsvr', fun user => ?_, hmarks⟩
  exact (congrFun hsound.toPlaced.eq_place user).symm

theorem check_sends_out_guests :
    ∃ svr svr', Reachable svr ∧ svr.place 1 = some (0, 0) ∧
      svr.handle (sampleSvrEnv 100, .checkPlayerOnline) =
        .ok (svr', none) ∧ svr'.place 1 = none := by
  obtain ⟨svr, h, -, hplace, -, hleaves, -⟩ := exists_guests
  obtain ⟨svr', hsvr', hgone, -⟩ := check_sends_out h (sampleSvrEnv 100)
  refine ⟨svr, svr', h, hplace, hsvr', ?_⟩
  rw [hgone, hleaves, if_pos rfl]

end GameSvr

end StarsGaming.Desk
