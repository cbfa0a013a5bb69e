import StarsGaming.Foundation.Runs
import StarsGaming.Net.Session

/-!
# The connection of a client

Three flags, two timers and the socket that is being connected.  A handler that
is queued runs later with whatever the flags are then.  The timers for the heart
beat and for checking the link are left out: all they can do to the connection
is to close the session.
-/

namespace StarsGaming.Net

open Foundation

/--
`socket` is `m_socket`, null or with whether it is open.  `connects` counts the
`async_connect` operations whose handler has not run, `sessions` holds the
sessions that are open, and `started` what `m_auto_reconnect` was at every
`async_connect`.
-/
structure Client where
  autoReconnect : Bool
  isConnecting : Bool
  isWaitConnect : Bool
  isConnected : Bool
  socket : Option Bool
  connects : Nat
  sessionRef : Option Nat
  sessions : List Nat
  sessionCount : Nat
  reconnetTimer : List TimerState
  connectTimer : List TimerState
  started : List Bool

namespace Client

inductive Fault where
  | nullSocket
  | nullSession

def new : Client :=
  ⟨false, false, false, false, none, 0, none, [], 0, [], [], []⟩

def expiresFromNow (timer : List TimerState) : List TimerState :=
  timer.map TimerState.cancel ++ [.waiting]

def registerConnectTimer (s : Client) : Client :=
  { s with
    isWaitConnect := true
    reconnetTimer := expiresFromNow s.reconnetTimer }

def connect (s : Client) : Client :=
  { s with
    socket := some true
    connectTimer := expiresFromNow s.connectTimer
    connects := s.connects + 1
    isConnecting := true
    started := s.started ++ [s.autoReconnect] }

def onConnetComplete (err : Bool) (s : Client) : Except Fault Client :=
  let s := { s with
    isConnecting := false
    connectTimer := s.connectTimer.map TimerState.cancel }
  match s.socket with
  | none => .error .nullSocket
  | some isOpen =>
      if ¬isOpen ∨ err then
        let s := { s with socket := none }
        .ok (if s.autoReconnect then s.registerConnectTimer else s)
      else
        .ok { s with
          isConnected := true
          sessionRef := some s.sessionCount
          sessions := s.sessions ++ [s.sessionCount]
          sessionCount := s.sessionCount + 1
          socket := none }

def onWaitReconnect (err : Bool) (s : Client) : Client :=
  let s := { s with isWaitConnect := false }
  if err then s else s.connect

def onConnectTimeout (err : Bool) (s : Client) : Client :=
  if err then s else { s with socket := s.socket.map fun _ => false }

def closeSession (session : Nat) (s : Client) : Client :=
  { s with
    sessions := s.sessions.erase session
    isConnected := false }.connect

/-- `m_session_ref.lock()->close()` -/
def closeRef (s : Client) : Except Fault Client :=
  match s.sessionRef with
  | none => .error .nullSession
  | some session =>
      if session ∈ s.sessions then .ok (s.closeSession session)
      else .error .nullSession

/-- `m_socket->close()` -/
def closeSocket (s : Client) : Except Fault Client :=
  match s.socket with
  | none => .error .nullSocket
  | some _ => .ok { s with socket := some false }

def cancelReconnect (s : Client) : Client :=
  { s with
    isWaitConnect := false
    reconnetTimer := s.reconnetTimer.map TimerState.cancel }

def doConnect (s : Client) : Except Fault Client :=
  let s := { s with autoReconnect := true }
  if s.isConnected then s.closeRef
  else if s.isConnecting then s.closeSocket
  else .ok (if s.isWaitConnect then s.cancelReconnect else s).connect

def doCloseClient (s : Client) : Except Fault Client := do
  let s := { s with autoReconnect := false }
  let s ←
    if s.isConnected then s.closeRef
    else if s.isConnecting then s.closeSocket
    else .ok (if s.isWaitConnect then s.cancelReconnect else s)
  return { s with connectTimer := s.connectTimer.map TimerState.cancel }

inductive Event where
  | doConnect
  | doCloseClient
  | connetComplete (err : Bool)
  | expireReconnet (k : Nat)
  | waitReconnect (k : Nat)
  | expireConnect (k : Nat)
  | connectTimeout (k : Nat)
  | closeSession (session : Nat)
  deriving DecidableEq

def step (s : Client) : Event → Except Fault Client
  | .doConnect => s.doConnect
  | .doCloseClient => s.doCloseClient
  | .connetComplete err =>
      { s with connects := s.connects - 1 }.onConnetComplete err
  | .expireReconnet k =>
      .ok { s with reconnetTimer := s.reconnetTimer.set k .expired }
  | .waitReconnect k =>
      .ok ({ s with reconnetTimer := s.reconnetTimer.eraseIdx k }.onWaitReconnect
        (s.reconnetTimer[k]? = some TimerState.cancelled))
  | .expireConnect k =>
      .ok { s with connectTimer := s.connectTimer.set k .expired }
  | .connectTimeout k =>
      .ok ({ s with connectTimer := s.connectTimer.eraseIdx k }.onConnectTimeout
        (s.connectTimer[k]? = some TimerState.cancelled))
  | .closeSession session => .ok (s.closeSession session)

def Enabled (s : Client) : Event → Prop
  | .doConnect | .doCloseClient => True
  | .connetComplete _ => 0 < s.connects
  | .expireReconnet k => s.reconnetTimer[k]? = some .waiting
  | .waitReconnect k =>
      s.reconnetTimer[k]? = some .expired ∨
        s.reconnetTimer[k]? = some .cancelled
  | .expireConnect k => s.connectTimer[k]? = some .waiting
  | .connectTimeout k =>
      s.connectTimer[k]? = some .expired ∨
        s.connectTimer[k]? = some .cancelled
  | .closeSession session => session ∈ s.sessions

/-- The states of a client all of whose steps meet `ok`. -/
def Reachable (ok : Client → Event → Prop) (s : Client) : Prop :=
  Reaches (fun s => s = new) (fun s e => Enabled s e ∧ ok s e) step s

/-! ## One connection at a time -/

/-- The timer to reconnect runs out only while there is nothing to connect. -/
def Awaited (s : Client) : Event → Prop
  | .waitReconnect k =>
      s.reconnetTimer[k]? = some .expired →
        s.isConnecting = false ∧ s.isConnected = false
  | _ => True

def flagCount (s : Client) : Nat :=
  s.isConnected.toNat + s.isConnecting.toNat + s.isWaitConnect.toNat

structure Single (s : Client) : Prop where
  flags : s.flagCount ≤ 1
  outstanding : s.connects = s.isConnecting.toNat
  socket : s.socket.isSome = s.isConnecting
  sessions : s.isConnected = false → s.sessions = []
  ref : s.isConnected = true →
    ∃ session, s.sessionRef = some session ∧ s.sessions = [session]

section Singles

variable {s : Client}

theorem single_new : new.Single := by
  refine ⟨by decide, rfl, rfl, fun _ => rfl, ?_⟩
  intro h
  cases h

theorem Single.of_isConnected (h : s.Single) (hc : s.isConnected = true) :
    s.isConnecting = false ∧ s.isWaitConnect = false := by
  have hflags := h.flags
  rw [flagCount, hc] at hflags
  cases hconnecting : s.isConnecting <;> cases hwait : s.isWaitConnect <;>
    simp [hconnecting, hwait] at hflags ⊢

theorem Single.of_isConnecting (h : s.Single) (hc : s.isConnecting = true) :
    s.isConnected = false ∧ s.isWaitConnect = false := by
  have hflags := h.flags
  rw [flagCount, hc] at hflags
  cases hconnected : s.isConnected <;> cases hwait : s.isWaitConnect <;>
    simp [hconnected, hwait] at hflags ⊢

theorem single_connect (hconnected : s.isConnected = false)
    (hwait : s.isWaitConnect = false) (hconnects : s.connects = 0)
    (hsessions : s.sessions = []) : s.connect.Single := by
  refine ⟨?_, ?_, rfl, fun _ => hsessions, ?_⟩
  · simp [flagCount, connect, hconnected, hwait]
  · simp [connect, hconnects]
  · intro hc
    rw [connect, hconnected] at hc
    cases hc

theorem Single.closeRef (h : s.Single) (hc : s.isConnected = true) :
    ∃ s', s.closeRef = .ok s' ∧ s'.Single := by
  obtain ⟨session, href, hsessions⟩ := h.ref hc
  obtain ⟨hconnecting, hwait⟩ := h.of_isConnected hc
  have hconnects := h.outstanding
  rw [hconnecting] at hconnects
  refine ⟨s.closeSession session, ?_, ?_⟩
  · rw [Client.closeRef]
    simp [href, hsessions]
  · exact single_connect rfl hwait hconnects (by simp [hsessions])

theorem Single.closeSocket (h : s.Single) (hc : s.isConnecting = true) :
    ∃ s', s.closeSocket = .ok s' ∧ s'.Single := by
  have hsocket := h.socket
  rw [hc] at hsocket
  obtain ⟨isOpen, hopen⟩ := Option.isSome_iff_exists.mp hsocket
  refine ⟨{ s with socket := some false }, ?_, ?_⟩
  · rw [Client.closeSocket, hopen]
  · exact ⟨h.flags, h.outstanding, hc.symm, h.sessions, h.ref⟩

theorem Single.setTimers (h : s.Single) (auto : Bool)
    (reconnet connect : List TimerState) :
    Single { s with
      autoReconnect := auto
      reconnetTimer := reconnet
      connectTimer := connect } :=
  ⟨h.flags, h.outstanding, h.socket, h.sessions, h.ref⟩

theorem Single.cancelReconnect (h : s.Single) : s.cancelReconnect.Single := by
  refine ⟨?_, h.outstanding, h.socket, h.sessions, h.ref⟩
  have hflags := h.flags
  rw [flagCount] at hflags
  simp only [flagCount, Client.cancelReconnect, Bool.toNat_false]
  omega

theorem Single.doConnect (h : s.Single) :
    ∃ s', s.doConnect = .ok s' ∧ s'.Single := by
  have hauto : Single { s with autoReconnect := true } :=
    h.setTimers true _ _
  rw [Client.doConnect]
  dsimp only
  split_ifs with hc hcing hwait
  · exact hauto.closeRef hc
  · exact hauto.closeSocket hcing
  all_goals
    rw [Bool.not_eq_true] at hc hcing
    have hconnects := h.outstanding
    rw [hcing] at hconnects
    refine ⟨_, rfl, ?_⟩
  · exact single_connect hc rfl hconnects (h.sessions hc)
  · rw [Bool.not_eq_true] at hwait
    exact single_connect hc hwait hconnects (h.sessions hc)

theorem Single.doCloseClient (h : s.Single) :
    ∃ s', s.doCloseClient = .ok s' ∧ s'.Single := by
  have hauto : Single { s with autoReconnect := false } :=
    h.setTimers false _ _
  rw [Client.doCloseClient]
  dsimp only
  split_ifs with hc hcing hwait
  · obtain ⟨t, ht, hsingle⟩ := hauto.closeRef hc
    rw [ht]
    exact ⟨_, rfl, hsingle.setTimers _ _ _⟩
  · obtain ⟨t, ht, hsingle⟩ := hauto.closeSocket hcing
    rw [ht]
    exact ⟨_, rfl, hsingle.setTimers _ _ _⟩
  · exact ⟨_, rfl, hauto.cancelReconnect.setTimers _ _ _⟩
  · exact ⟨_, rfl, hauto.setTimers _ _ _⟩

theorem Single.connetComplete (h : s.Single) (hpending : 0 < s.connects)
    (err : Bool) :
    ∃ s', s.step (.connetComplete err) = .ok s' ∧ s'.Single := by
  have hconnects := h.outstanding
  have hcing : s.isConnecting = true := by
    cases hcing : s.isConnecting with
    | true => rfl
    | false =>
        rw [hcing, Bool.toNat_false] at hconnects
        omega
  obtain ⟨hc, hwait⟩ := h.of_isConnecting hcing
  have hsocket := h.socket
  rw [hcing] at hsocket hconnects
  obtain ⟨isOpen, hopen⟩ := Option.isSome_iff_exists.mp hsocket
  have hsessions := h.sessions hc
  rw [Client.step, onConnetComplete]
  simp only [hopen]
  split_ifs
  · refine ⟨_, rfl, ?_, ?_, rfl, fun _ => hsessions, ?_⟩
    · simp [flagCount, registerConnectTimer, hc]
    · simp [registerConnectTimer, hconnects]
    · intro hconnected
      rw [registerConnectTimer, hc] at hconnected
      cases hconnected
  · refine ⟨_, rfl, ?_, ?_, rfl, fun _ => hsessions, ?_⟩
    · simp [flagCount, hc, hwait]
    · simp [hconnects]
    · intro hconnected
      rw [hc] at hconnected
      cases hconnected
  · refine ⟨_, rfl, ?_, ?_, rfl, ?_, ?_⟩
    · simp [flagCount, hwait]
    · simp [hconnects]
    · intro hfalse
      cases hfalse
    · intro _
      exact ⟨s.sessionCount, rfl, by simp [hsessions]⟩

theorem Single.step (h : s.Single) {e : Event} (henabled : s.Enabled e)
    (hawaited : s.Awaited e) :
    ∃ s', s.step e = .ok s' ∧ s'.Single := by
  cases e with
  | doConnect => exact h.doConnect
  | doCloseClient => exact h.doCloseClient
  | connetComplete err => exact h.connetComplete henabled err
  | expireReconnet k => exact ⟨_, rfl, h.setTimers _ _ _⟩
  | waitReconnect k =>
      refine ⟨_, rfl, ?_⟩
      have hcancel := h.cancelReconnect
      rw [onWaitReconnect]
      split_ifs with herr
      · exact hcancel.setTimers _ _ _
      · rw [decide_eq_true_eq] at herr
        rcases henabled with hexpired | hcancelled
        · obtain ⟨hcing, hc⟩ := hawaited hexpired
          have hconnects := h.outstanding
          rw [hcing] at hconnects
          exact single_connect hc rfl hconnects (h.sessions hc)
        · exact absurd hcancelled herr
  | expireConnect k => exact ⟨_, rfl, h.setTimers _ _ _⟩
  | connectTimeout k =>
      refine ⟨_, rfl, ?_⟩
      rw [onConnectTimeout]
      split_ifs
      · exact h.setTimers _ _ _
      · refine ⟨h.flags, h.outstanding, ?_, h.sessions, h.ref⟩
        rw [Option.isSome_map]
        exact h.socket
  | closeSession session =>
      refine ⟨_, rfl, ?_⟩
      have hmem : session ∈ s.sessions := henabled
      have hc : s.isConnected = true := by
        cases hc : s.isConnected with
        | true => rfl
        | false =>
            rw [h.sessions hc] at hmem
            cases hmem
      obtain ⟨ref, _, hsessions⟩ := h.ref hc
      obtain ⟨hcing, hwait⟩ := h.of_isConnected hc
      have hconnects := h.outstanding
      rw [hcing] at hconnects
      rw [hsessions] at hmem
      refine single_connect rfl hwait hconnects ?_
      simp [hsessions, List.mem_singleton.mp hmem]

theorem Reachable.single (h : Reachable Awaited s) : s.Single := by
  apply Reaches.invariant _ _ h
  · rintro s rfl
    exact single_new
  · intro s e s' hs hok hstep
    obtain ⟨t, ht, hsingle⟩ := hs.step hok.1 hok.2
    rw [ht] at hstep
    cases hstep
    exact hsingle

theorem Single.step_ok (h : s.Single) {e : Event} (henabled : s.Enabled e) :
    ∃ s', s.step e = .ok s' := by
  cases e with
  | waitReconnect k => exact ⟨_, rfl⟩
  | doConnect =>
      obtain ⟨s', hs', _⟩ := h.doConnect
      exact ⟨s', hs'⟩
  | doCloseClient =>
      obtain ⟨s', hs', _⟩ := h.doCloseClient
      exact ⟨s', hs'⟩
  | connetComplete err =>
      obtain ⟨s', hs', _⟩ := h.connetComplete henabled err
      exact ⟨s', hs'⟩
  | expireReconnet k => exact ⟨_, rfl⟩
  | expireConnect k => exact ⟨_, rfl⟩
  | connectTimeout k => exact ⟨_, rfl⟩
  | closeSession session => exact ⟨_, rfl⟩

end Singles

/-- What holds between any two handlers. -/
structure OneConnection (s : Client) : Prop where
  flags : s.flagCount ≤ 1
  outstanding : s.connects = if s.isConnecting then 1 else 0
  socket : ∀ err, s.Enabled (.connetComplete err) → s.socket ≠ none

theorem Single.oneConnection {s : Client} (h : s.Single) :
    s.OneConnection := by
  refine ⟨h.flags, ?_, ?_⟩
  · rw [h.outstanding]
    cases s.isConnecting <;> rfl
  · intro _ hpending hnull
    have hpos : 0 < s.connects := hpending
    have hsocket := h.socket
    rw [hnull, Option.isSome_none] at hsocket
    rw [h.outstanding, ← hsocket] at hpos
    exact Nat.lt_irrefl 0 hpos

end Client

/--
A client whose timer to reconnect never runs out while it is connecting or
connected has one connection at most, and no handler meets a null pointer.
-/
theorem client_one_connection (s : Client)
    (h : Client.Reachable Client.Awaited s) :
    s.OneConnection ∧ ∀ e, s.Enabled e → ∃ s', s.step e = .ok s' := by
  refine ⟨h.single.oneConnection, ?_⟩
  intro e henabled
  exact h.single.step_ok henabled

namespace Client

instance (s : Client) : ∀ e, Decidable (s.Enabled e)
  | .doConnect | .doCloseClient => .isTrue trivial
  | .connetComplete _ => inferInstanceAs (Decidable (_ < _))
  | .expireReconnet _ | .expireConnect _ => inferInstanceAs (Decidable (_ = _))
  | .waitReconnect _ | .connectTimeout _ => inferInstanceAs (Decidable (_ ∨ _))
  | .closeSession _ => inferInstanceAs (Decidable (_ ∈ _))

instance (s : Client) : ∀ e, Decidable (s.Awaited e)
  | .waitReconnect _ => inferInstanceAs (Decidable (_ → _))
  | .doConnect | .doCloseClient | .connetComplete _ | .expireReconnet _
  | .expireConnect _ | .connectTimeout _ | .closeSession _ => .isTrue trivial

theorem exists_reachable {ok : Client → Event → Prop}
    [∀ s e, Decidable (ok s e)] (inputs : List Event) (p : Client → Bool)
    (h : (runs (fun s e => Enabled s e ∧ ok s e) step new inputs).any p) :
    ∃ s, Reachable ok s ∧ p s := by
  apply exists_reaches _ inputs p h
  rfl

def sampleConnects : List Event :=
  [.doConnect, .connetComplete true, .connectTimeout 0, .expireReconnet 0,
    .waitReconnect 0, .connetComplete false]

def staleReconnect : List Event :=
  [.doConnect, .connetComplete true, .expireReconnet 0, .doConnect,
    .waitReconnect 0]

end Client

theorem sampleConnects_one_connection :
    ∃ s, Client.Reachable Client.Awaited s ∧ s.isConnected = true ∧
      s.started.length = 2 ∧ s.OneConnection := by
  obtain ⟨s, hs, hfacts⟩ :
      ∃ s, Client.Reachable Client.Awaited s ∧
        decide (s.isConnected = true ∧ s.started.length = 2) = true :=
    Client.exists_reachable Client.sampleConnects _ (by decide +kernel)
  obtain ⟨hc, hstarted⟩ := of_decide_eq_true hfacts
  exact ⟨s, hs, hc, hstarted, (client_one_connection s hs).1⟩

theorem staleReconnect_second_connect :
    ¬∀ s, Client.Reachable (fun _ _ => True) s → s.OneConnection := by
  intro h
  obtain ⟨s, hs, hfacts⟩ :
      ∃ s, Client.Reachable (fun _ _ => True) s ∧
        decide (s.connects = 2) = true :=
    Client.exists_reachable Client.staleReconnect _ (by decide +kernel)
  have htwo := of_decide_eq_true hfacts
  have hone := (h s hs).outstanding
  split_ifs at hone <;> omega

/-! ## A closed client -/

namespace Client

/--
`do_close_client` finds no session open, and the timer to reconnect does not
run out on a client that was closed.
-/
def Restrained (s : Client) : Event → Prop
  | .doCloseClient => s.sessions = []
  | .waitReconnect k =>
      s.reconnetTimer[k]? = some .expired → s.autoReconnect = true
  | _ => True

/-- The states that are reached without another `do_connect`. -/
def Later (ok : Client → Event → Prop) (s : Client) : Client → Prop :=
  Reaches (fun t => t = s)
    (fun t e => (Enabled t e ∧ ok t e) ∧ e ≠ .doConnect) step

/-- Nothing was connected while `m_auto_reconnect` was false. -/
structure Silent (s : Client) : Prop where
  started : ∀ auto ∈ s.started, auto = true
  sessions : s.autoReconnect = false → s.sessions = []
  socket : s.autoReconnect = false → s.socket ≠ some true
  ref : s.isConnected = true →
    ∃ session ∈ s.sessions, s.sessionRef = some session
  idle : s.isConnecting = false → s.socket = none

section Silence

variable {s s' : Client}

theorem silent_new : new.Silent := by
  refine ⟨List.forall_mem_nil _, fun _ => rfl, ?_, ?_, fun _ => rfl⟩
  · intro _ hopen
    cases hopen
  · intro hconnected
    cases hconnected

theorem Silent.setTimers (h : s.Silent) (reconnet connect : List TimerState)
    (wait : Bool) :
    Silent { s with
      isWaitConnect := wait
      reconnetTimer := reconnet
      connectTimer := connect } :=
  ⟨h.started, h.sessions, h.socket, h.ref, h.idle⟩

theorem silent_connect (hstarted : ∀ auto ∈ s.started, auto = true)
    (hauto : s.autoReconnect = true)
    (href : s.isConnected = true →
      ∃ session ∈ s.sessions, s.sessionRef = some session) :
    s.connect.Silent := by
  have hwanted : ∀ auto ∈ s.connect.started, auto = true := by
    intro auto hmem
    rcases List.mem_append.mp hmem with hold | hnew
    · exact hstarted auto hold
    · rw [List.mem_singleton.mp hnew]
      exact hauto
  refine ⟨hwanted, ?_, ?_, href, ?_⟩
  · intro hfalse
    rw [connect, hauto] at hfalse
    cases hfalse
  · intro hfalse
    rw [connect, hauto] at hfalse
    cases hfalse
  · intro hfalse
    cases hfalse

theorem silent_closeSession (hstarted : ∀ auto ∈ s.started, auto = true)
    (hauto : s.autoReconnect = true) (session : Nat) :
    (s.closeSession session).Silent := by
  refine silent_connect hstarted hauto ?_
  intro hconnected
  cases hconnected

theorem closeRef_eq_ok (h : s.closeRef = .ok s') :
    ∃ session, s' = s.closeSession session := by
  rw [closeRef] at h
  split at h
  next => cases h
  next session _ =>
    split_ifs at h
    cases h
    exact ⟨session, rfl⟩

theorem closeSocket_eq_ok (h : s.closeSocket = .ok s') :
    s' = { s with socket := some false } := by
  rw [closeSocket] at h
  split at h
  next => cases h
  next =>
    cases h
    rfl

theorem Silent.doConnect (h : s.Silent) (hstep : s.doConnect = .ok s') :
    s'.Silent := by
  rw [Client.doConnect] at hstep
  dsimp only at hstep
  split_ifs at hstep with hc hcing hwait
  · obtain ⟨session, rfl⟩ := closeRef_eq_ok hstep
    exact silent_closeSession (s := { s with autoReconnect := true })
      h.started rfl session
  · rw [closeSocket_eq_ok hstep]
    refine ⟨h.started, ?_, ?_, h.ref, ?_⟩
    · intro hfalse
      cases hfalse
    · intro hfalse
      cases hfalse
    · intro hidle
      rw [hidle] at hcing
      cases hcing
  · cases hstep
    exact silent_connect h.started rfl h.ref
  · cases hstep
    exact silent_connect h.started rfl h.ref

/-- A client without a session does not start to connect when it is closed. -/
theorem Silent.doCloseClient (h : s.Silent) (hnone : s.sessions = [])
    (hstep : s.doCloseClient = .ok s') : s'.Silent := by
  have hc : s.isConnected = false := by
    rw [Bool.eq_false_iff]
    intro hc
    obtain ⟨session, hmem, _⟩ := h.ref hc
    rw [hnone] at hmem
    cases hmem
  have hclosed : s.socket ≠ some true → Silent { s with
      autoReconnect := false } := fun hsocket =>
    ⟨h.started, fun _ => hnone, fun _ => hsocket, h.ref, h.idle⟩
  rw [Client.doCloseClient] at hstep
  dsimp only at hstep
  split_ifs at hstep with hconnected hcing hwait
  · rw [hc] at hconnected
    cases hconnected
  · obtain ⟨t, ht, hs'⟩ := bind_eq_ok hstep
    rw [closeSocket_eq_ok ht] at hs'
    cases hs'
    apply Silent.setTimers
    refine ⟨h.started, fun _ => hnone, ?_, h.ref, ?_⟩
    · intro _ hopen
      cases hopen
    · intro hidle
      rw [hidle] at hcing
      cases hcing
  all_goals
    rw [Bool.not_eq_true] at hcing
    have hsocket : s.socket ≠ some true := by
      rw [h.idle hcing]
      exact (Option.some_ne_none _).symm
    cases hstep
    exact (hclosed hsocket).setTimers _ _ _

theorem Silent.onConnetComplete (h : s.Silent) {err : Bool}
    (hstep : s.onConnetComplete err = .ok s') : s'.Silent := by
  rw [Client.onConnetComplete] at hstep
  dsimp only at hstep
  split at hstep
  next => cases hstep
  next isOpen hsocket =>
    have hnull : ∀ {P : Prop}, none = some true → P := by
      intro P hfalse
      cases hfalse
    split_ifs at hstep with hfailed hauto
    · cases hstep
      exact ⟨h.started, h.sessions, fun _ => hnull, h.ref, fun _ => rfl⟩
    · cases hstep
      exact ⟨h.started, h.sessions, fun _ => hnull, h.ref, fun _ => rfl⟩
    · cases hstep
      have hopen : isOpen = true := by
        rw [not_or, not_not] at hfailed
        exact hfailed.1
      rw [hopen] at hsocket
      refine ⟨h.started, ?_, fun _ => hnull, ?_, fun _ => rfl⟩
      · intro hauto
        exact absurd hsocket (h.socket hauto)
      · intro _
        exact ⟨s.sessionCount,
          List.mem_append_right _ List.mem_cons_self, rfl⟩

theorem Silent.step (h : s.Silent) {e : Event} (henabled : s.Enabled e)
    (hrestrained : s.Restrained e) (hstep : s.step e = .ok s') :
    s'.Silent := by
  cases e with
  | doConnect => exact h.doConnect hstep
  | doCloseClient => exact h.doCloseClient hrestrained hstep
  | connetComplete err =>
      exact Silent.onConnetComplete (s := { s with connects := s.connects - 1 })
        ⟨h.started, h.sessions, h.socket, h.ref, h.idle⟩ hstep
  | expireReconnet k =>
      cases hstep
      exact h.setTimers _ _ _
  | waitReconnect k =>
      cases hstep
      rw [onWaitReconnect]
      split_ifs with herr
      · exact h.setTimers _ _ _
      · rw [decide_eq_true_eq] at herr
        rcases henabled with hexpired | hcancelled
        · exact silent_connect (h.setTimers _ _ _).started
            (hrestrained hexpired) h.ref
        · exact absurd hcancelled herr
  | expireConnect k =>
      cases hstep
      exact h.setTimers _ _ _
  | connectTimeout k =>
      cases hstep
      rw [onConnectTimeout]
      split_ifs
      · exact h.setTimers _ _ _
      · refine ⟨h.started, h.sessions, ?_, h.ref, ?_⟩
        · intro _ hopen
          obtain ⟨_, _, hfalse⟩ := Option.map_eq_some_iff.mp hopen
          cases hfalse
        · intro hidle
          rw [h.idle hidle]
          rfl
  | closeSession session =>
      cases hstep
      have hmem : session ∈ s.sessions := henabled
      have hauto : s.autoReconnect = true := by
        cases hauto : s.autoReconnect with
        | true => rfl
        | false =>
            rw [h.sessions hauto] at hmem
            cases hmem
      exact silent_closeSession h.started hauto session

theorem Reachable.silent (h : Reachable Restrained s) : s.Silent := by
  apply Reaches.invariant _ _ h
  · rintro s rfl
    exact silent_new
  · intro s e s' hs hok hstep
    exact hs.step hok.1 hok.2 hstep

theorem mem_started_connect (h : s.autoReconnect = false) :
    false ∈ s.connect.started := by
  rw [connect, h]
  exact List.mem_append_right _ List.mem_cons_self

theorem started_doCloseClient (h : s.doCloseClient = .ok s') :
    s'.autoReconnect = false ∧
      (s'.started = s.started ∨ false ∈ s'.started) := by
  rw [Client.doCloseClient] at h
  dsimp only at h
  split_ifs at h
  · obtain ⟨t, ht, hs'⟩ := bind_eq_ok h
    obtain ⟨session, rfl⟩ := closeRef_eq_ok ht
    cases hs'
    refine ⟨rfl, .inr ?_⟩
    exact mem_started_connect (s := { s with
      autoReconnect := false
      sessions := s.sessions.erase session
      isConnected := false }) rfl
  · obtain ⟨t, ht, hs'⟩ := bind_eq_ok h
    rw [closeSocket_eq_ok ht] at hs'
    cases hs'
    exact ⟨rfl, .inl rfl⟩
  all_goals
    cases h
    exact ⟨rfl, .inl rfl⟩

theorem started_step (hauto : s.autoReconnect = false) {e : Event}
    (hne : e ≠ .doConnect) (hstep : s.step e = .ok s') :
    s'.autoReconnect = false ∧
      (s'.started = s.started ∨ false ∈ s'.started) := by
  cases e with
  | doConnect => exact absurd rfl hne
  | doCloseClient => exact started_doCloseClient hstep
  | connetComplete err =>
      rw [Client.step, Client.onConnetComplete] at hstep
      dsimp only at hstep
      split at hstep
      next => cases hstep
      next =>
        split_ifs at hstep
        all_goals
          cases hstep
          exact ⟨hauto, .inl rfl⟩
  | waitReconnect k =>
      cases hstep
      rw [onWaitReconnect]
      split_ifs
      · exact ⟨hauto, .inl rfl⟩
      · exact ⟨hauto, .inr (mem_started_connect hauto)⟩
  | connectTimeout k =>
      cases hstep
      rw [onConnectTimeout]
      split_ifs
      · exact ⟨hauto, .inl rfl⟩
      · exact ⟨hauto, .inl rfl⟩
  | expireReconnet k | expireConnect k =>
      cases hstep
      exact ⟨hauto, .inl rfl⟩
  | closeSession session =>
      cases hstep
      exact ⟨hauto, .inr (mem_started_connect hauto)⟩

theorem Silent.started_step (h : s.Silent) (hauto : s.autoReconnect = false)
    {e : Event} (henabled : s.Enabled e) (hrestrained : s.Restrained e)
    (hne : e ≠ .doConnect) (hstep : s.step e = .ok s') :
    s'.Silent ∧ s'.autoReconnect = false ∧ s'.started = s.started := by
  have hsilent := h.step henabled hrestrained hstep
  obtain ⟨hclosed, hsame | htrace⟩ := Client.started_step hauto hne hstep
  · exact ⟨hsilent, hclosed, hsame⟩
  · cases hsilent.started false htrace

theorem Later.started_eq {t u : Client} (h : Later Restrained t u)
    (hsilent : t.Silent) (hauto : t.autoReconnect = false) :
    u.started = t.started := by
  have hlater : u.Silent ∧ u.autoReconnect = false ∧
      u.started = t.started := by
    apply Reaches.invariant (J := fun u : Client => u.Silent ∧
      u.autoReconnect = false ∧ u.started = t.started) _ _ h
    · rintro _ rfl
      exact ⟨hsilent, hauto, rfl⟩
    · rintro s e s' ⟨hs, hclosed, hsame⟩ ⟨⟨henabled, hok⟩, hne⟩ hstep
      obtain ⟨hs', hclosed', hsame'⟩ :=
        hs.started_step hclosed henabled hok hne hstep
      exact ⟨hs', hclosed', hsame'.trans hsame⟩
  exact hlater.2.2

end Silence

instance (s : Client) : ∀ e, Decidable (s.Restrained e)
  | .doCloseClient => inferInstanceAs (Decidable (_ = _))
  | .waitReconnect _ => inferInstanceAs (Decidable (_ → _))
  | .doConnect | .connetComplete _ | .expireReconnet _ | .expireConnect _
  | .connectTimeout _ | .closeSession _ => .isTrue trivial

theorem exists_later {ok : Client → Event → Prop}
    [∀ s e, Decidable (ok s e)] (t : Client) (inputs : List Event)
    (p : Client → Bool)
    (h : (runs (fun s e => (Enabled s e ∧ ok s e) ∧ e ≠ .doConnect) step t
      inputs).any p) :
    ∃ u, Later ok t u ∧ p u := by
  apply exists_reaches _ inputs p h
  rfl

def connecting : Client :=
  { new with autoReconnect := true }.connect

def connected : Client :=
  { connecting with
    isConnecting := false
    isConnected := true
    socket := none
    connects := 0
    sessionRef := some 0
    sessions := [0]
    sessionCount := 1
    connectTimer := [.cancelled] }

theorem reachable_connecting {ok : Client → Event → Prop}
    (h : ok new .doConnect) : Reachable ok connecting :=
  .step (a := .doConnect) (.start rfl) ⟨trivial, h⟩ rfl

theorem reachable_connected : Reachable (fun _ _ => True) connected :=
  .step (a := .connetComplete false) (reachable_connecting trivial)
    ⟨Nat.one_pos, trivial⟩ rfl

end Client

/--
A client that has no session when it is closed, and whose timer to reconnect is
not about to call, starts no connection until it is told to.
-/
theorem client_stays_closed (s t u : Client)
    (h : Client.Reachable Client.Restrained s)
    (hok : s.Restrained .doCloseClient) (hclose : s.doCloseClient = .ok t)
    (hlater : Client.Later Client.Restrained t u) :
    t.started = s.started ∧ u.started = t.started := by
  have hsilent := h.silent.doCloseClient hok hclose
  obtain ⟨hauto, hsame | htrace⟩ := Client.started_doCloseClient hclose
  · exact ⟨hsame, hlater.started_eq hsilent hauto⟩
  · cases hsilent.started false htrace

theorem sampleClose_stays_closed :
    ∃ s t u, Client.Reachable Client.Restrained s ∧
      s.doCloseClient = .ok t ∧ Client.Later Client.Restrained t u ∧
      u.connects = 0 ∧ t.started = s.started ∧ u.started = t.started := by
  let t : Client :=
    { Client.connecting with
      autoReconnect := false
      socket := some false
      connectTimer := [.cancelled] }
  have hs : Client.Reachable Client.Restrained Client.connecting :=
    Client.reachable_connecting trivial
  have hclose : Client.connecting.doCloseClient = .ok t := rfl
  obtain ⟨u, hu, hfacts⟩ :
      ∃ u, Client.Later Client.Restrained t u ∧
        decide (u.connects = 0) = true :=
    Client.exists_later t [.connetComplete true, .connectTimeout 0] _
      (by decide +kernel)
  exact ⟨_, t, u, hs, hclose, hu, of_decide_eq_true hfacts,
    client_stays_closed _ t u hs rfl hclose hu⟩

theorem closeConnected_reconnects :
    ¬∀ s t u, Client.Reachable (fun _ _ => True) s →
      s.doCloseClient = .ok t → Client.Later (fun _ _ => True) t u →
      u.started = t.started := by
  intro h
  let t : Client :=
    { { Client.connected with
        autoReconnect := false
        isConnected := false
        sessions := [] }.connect with
      connectTimer := [.cancelled, .cancelled] }
  obtain ⟨u, hu, hfacts⟩ :
      ∃ u, Client.Later (fun _ _ => True) t u ∧
        decide (u.started ≠ t.started) = true :=
    Client.exists_later t [.connetComplete false, .closeSession 1] _
      (by decide +kernel)
  exact of_decide_eq_true hfacts
    (h _ t u Client.reachable_connected rfl hu)

end StarsGaming.Net
