import Mathlib.Tactic
import StarsGaming.Foundation.Runs

/-!
# The connection to the broker

The client has two flags of its own, the session a handler that the broker's
library calls back.  Whether the session is connected is asked of the handler.
The timer may run out at any time.
-/

namespace StarsGaming.Net

open Foundation

inductive BrokerEvent where
  | onConnected
  | onClosed
  | onError
  deriving DecidableEq

inductive MqTask where
  | init
  | closeFun
  deriving DecidableEq

/--
`handler` is `m_mq_handler`, null or with its `m_is_connected`; `connection` is
`m_connection`, null or with the last event of it, which no function reads.
-/
structure MqClient where
  autoReconnect : Bool
  isConnecting : Bool
  handler : Option Bool
  connection : Option (Option BrokerEvent)
  isSessionOpend : Bool
  posted : List MqTask

namespace MqClient

def new : MqClient :=
  ⟨false, false, none, none, false, []⟩

def isConnected (s : MqClient) : Bool :=
  s.handler.getD false

/-! ## The session -/

def init (s : MqClient) : MqClient :=
  { s with
    handler := some false
    connection := some none }

def doClose (s : MqClient) : MqClient :=
  if !s.isSessionOpend then s
  else { s with
    isSessionOpend := false
    handler := none }

def runTask (s : MqClient) : MqTask → MqClient
  | .init => s.init
  | .closeFun => s.doClose

def closeMq (s : MqClient) : MqClient :=
  { s with handler := s.handler.map fun _ => false }

def onBroker (event : BrokerEvent) (s : MqClient) : MqClient :=
  let s := { s with connection := some (some event) }
  match event with
  | .onConnected => s.closeMq
  | .onClosed => s.closeMq
  | .onError => s.closeMq

/-! ## The client -/

def connectMq (s : MqClient) : MqClient :=
  { s with
    isConnecting := true
    posted := s.posted ++ [.init] }

def doConnect (s : MqClient) : MqClient :=
  if s.isConnected then s
  else { s with autoReconnect := true }.connectMq

def closeSession (s : MqClient) : MqClient :=
  if s.isConnected then { s with posted := s.posted ++ [.closeFun] } else s

def doCloseClient (s : MqClient) : MqClient :=
  { s with
    autoReconnect := false
    isConnecting := false }.closeSession

def onTimeout (err : Bool) (s : MqClient) : MqClient :=
  if err then s
  else if s.isConnecting then
    if s.isConnected then { s with isConnecting := false } else s
  else
    let s := if !s.isConnected then s.closeSession else s
    if s.autoReconnect && !s.isConnected then s.connectMq else s

inductive Event where
  | doConnect
  | doCloseClient
  | timeout (err : Bool)
  | runPosted
  | channelReady
  | broker (event : BrokerEvent)
  deriving DecidableEq

def step (s : MqClient) : Event → MqClient
  | .doConnect => s.doConnect
  | .doCloseClient => s.doCloseClient
  | .timeout err => s.onTimeout err
  | .runPosted =>
      match s.posted with
      | [] => s
      | task :: rest => { s with posted := rest }.runTask task
  | .channelReady => { s with isSessionOpend := true }
  | .broker event => s.onBroker event

def Enabled (s : MqClient) : Event → Prop
  | .channelReady | .broker _ => s.connection.isSome = true
  | _ => True

instance (s : MqClient) : DecidablePred s.Enabled
  | .channelReady | .broker _ =>
      inferInstanceAs (Decidable (s.connection.isSome = true))
  | .doConnect | .doCloseClient | .timeout _ | .runPosted =>
      inferInstanceAs (Decidable True)

/-! ## Reconnecting -/

/-- An attempt was started, and the broker has not answered it. -/
def Pending (s : MqClient) : Prop :=
  .init ∈ s.posted ∨ s.connection = some none

/-- The session is connected exactly if that is the broker's last word. -/
def Follows (s : MqClient) : Prop :=
  s.isConnected = true ↔ s.connection = some (some .onConnected)

/--
A tick starts a connection exactly if there is none and none is on the way.
-/
def Reconnects (s : MqClient) : Event → Prop
  | .timeout false =>
      s.autoReconnect = true →
        ((s.onTimeout false).posted = s.posted ++ [.init] ↔
          s.isConnected = false ∧ ¬s.Pending)
  | _ => True

/-- No connection is established, and no tick finds an attempt answered. -/
def Unanswered (s : MqClient) : Event → Prop
  | .broker .onConnected => False
  | .timeout false => s.autoReconnect = true → s.Pending
  | _ => True

instance (s : MqClient) : Decidable s.Pending :=
  inferInstanceAs (Decidable (_ ∨ _))

instance (s : MqClient) : DecidablePred s.Unanswered
  | .broker .onConnected => .isFalse id
  | .timeout false => inferInstanceAs (Decidable (_ → _))
  | .timeout true | .broker .onClosed | .broker .onError =>
      inferInstanceAs (Decidable True)
  | .doConnect | .doCloseClient | .runPosted | .channelReady =>
      inferInstanceAs (Decidable True)

/-- The handler never says that it is connected, so that the client waits. -/
structure Waits (s : MqClient) : Prop where
  connected : s.isConnected = false
  connecting : s.autoReconnect = true → s.isConnecting = true

section

variable {s : MqClient}

theorem waits_new : new.Waits :=
  ⟨rfl, Bool.noConfusion⟩

/-- A tick finds the client waiting for an attempt, whatever became of it. -/
theorem Waits.onTimeout_eq (h : s.Waits) (err : Bool) : s.onTimeout err = s := by
  rw [onTimeout, h.connected]
  cases hauto : s.autoReconnect with
  | true => simp [h.connecting hauto]
  | false => simp [closeSession, h.connected, hauto]

theorem Waits.runTask (h : s.Waits) (task : MqTask) :
    (s.runTask task).Waits := by
  cases task with
  | init => exact ⟨rfl, h.connecting⟩
  | closeFun =>
      rw [MqClient.runTask, doClose]
      split_ifs
      · exact h
      · exact ⟨rfl, h.connecting⟩

theorem isConnected_onBroker (s : MqClient) (event : BrokerEvent) :
    (s.onBroker event).isConnected = false := by
  have hclose : ∀ t : MqClient, t.closeMq.isConnected = false := by
    intro t
    cases hhandler : t.handler with
    | none => simp [closeMq, isConnected, hhandler]
    | some connected => simp [closeMq, isConnected, hhandler]
  cases event with
  | onConnected => exact hclose _
  | onClosed => exact hclose _
  | onError => exact hclose _

theorem Waits.step (h : s.Waits) (e : Event) : (s.step e).Waits := by
  cases e with
  | doConnect =>
      rw [MqClient.step, doConnect, h.connected, if_neg Bool.false_ne_true]
      exact ⟨h.connected, fun _ => rfl⟩
  | doCloseClient =>
      have hopen : { s with
          autoReconnect := false
          isConnecting := false }.isConnected = false := h.connected
      rw [MqClient.step, doCloseClient, closeSession, hopen,
        if_neg Bool.false_ne_true]
      exact ⟨hopen, Bool.noConfusion⟩
  | timeout err =>
      rw [MqClient.step, h.onTimeout_eq]
      exact h
  | runPosted =>
      rw [MqClient.step]
      split
      · exact h
      · next task rest _ =>
          have hrest : { s with posted := rest }.Waits :=
            ⟨h.connected, h.connecting⟩
          exact hrest.runTask task
  | channelReady => exact ⟨h.connected, h.connecting⟩
  | broker event =>
      refine ⟨isConnected_onBroker s event, ?_⟩
      cases event <;> exact h.connecting

theorem Waits.follows_iff (h : s.Waits) :
    s.Follows ↔ s.connection ≠ some (some .onConnected) := by
  simp [Follows, h.connected]

theorem Waits.reconnects_iff (h : s.Waits) (e : Event) :
    s.Reconnects e ↔ (e = .timeout false → s.autoReconnect = true →
      s.Pending) := by
  by_cases he : e = .timeout false
  · subst he
    simp only [Reconnects, h.onTimeout_eq, h.connected, true_and,
      List.self_eq_append_right, List.cons_ne_nil, false_iff, not_not,
      forall_const]
  · simp only [he, false_imp_iff, iff_true]
    unfold Reconnects
    split
    · exact absurd rfl he
    · trivial

/-- Only an event of the broker says that a connection is established. -/
theorem Waits.connection_step (h : s.Waits)
    (hconnection : s.connection ≠ some (some .onConnected)) (e : Event) :
    (s.step e).connection ≠ some (some .onConnected) ↔
      e ≠ .broker .onConnected := by
  cases e with
  | doConnect =>
      rw [MqClient.step, doConnect, h.connected, if_neg Bool.false_ne_true]
      exact iff_of_true hconnection Event.noConfusion
  | doCloseClient =>
      rw [MqClient.step, doCloseClient, closeSession]
      refine iff_of_true ?_ Event.noConfusion
      split_ifs <;> exact hconnection
  | timeout err =>
      rw [MqClient.step, h.onTimeout_eq]
      exact iff_of_true hconnection Event.noConfusion
  | runPosted =>
      refine iff_of_true ?_ Event.noConfusion
      rw [MqClient.step]
      split
      · exact hconnection
      · next task rest _ =>
          cases task with
          | init => simp [MqClient.runTask, init]
          | closeFun =>
              rw [MqClient.runTask, doClose]
              split_ifs <;> exact hconnection
  | channelReady => exact iff_of_true hconnection Event.noConfusion
  | broker event =>
      have hafter : (s.onBroker event).connection = some (some event) := by
        cases event <;> rfl
      rw [MqClient.step, hafter]
      simp

theorem Waits.step_iff (h : s.Waits) (hfollows : s.Follows) (e : Event) :
    s.Reconnects e ∧ (s.step e).Follows ↔ s.Unanswered e := by
  have hconnection := h.follows_iff.mp hfollows
  rw [h.reconnects_iff, (h.step e).follows_iff,
    h.connection_step hconnection]
  cases e with
  | timeout err => cases err <;> simp [Unanswered]
  | broker event => cases event <;> simp [Unanswered]
  | _ => simp [Unanswered]

end

/--
The broker's events and the ticks are followed all along a run exactly if no
connection is ever established and the broker has answered no attempt when a
tick comes.
-/
theorem reconnects_iff_unanswered (events : List Event)
    (h : Permits Enabled step new events) :
    Permits (fun s e => s.Reconnects e ∧ (s.step e).Follows) step new
        events ↔
      Permits Unanswered step new events := by
  apply Permits.iff (J := fun s => s.Waits ∧ s.Follows) _ _ _ h
  · intro s e hs _
    exact hs.1.step_iff hs.2 e
  · intro s e hs _ hok
    exact ⟨hs.1.step e, hok.2⟩
  · exact ⟨waits_new, waits_new.follows_iff.mpr (by decide)⟩

theorem firstTick_reconnects :
    Permits (fun s e => s.Reconnects e ∧ (s.step e).Follows) step new
      [.doConnect, .runPosted, .timeout false] :=
  (reconnects_iff_unanswered [.doConnect, .runPosted, .timeout false]
    (by decide)).mpr (by decide)

/-- The broker says that the connection is established, the session not. -/
theorem established_not_connected :
    ¬∀ events : List Event, Permits Enabled step new events →
      Permits (fun s e => s.Reconnects e ∧ (s.step e).Follows) step new
        events := by
  intro h
  have hrun := h [.doConnect, .runPosted, .broker .onConnected] (by decide)
  have hfollows := hrun.2.2.1.2
  exact absurd (hfollows.mpr rfl) (by decide)

end MqClient

end StarsGaming.Net
