import StarsGaming.Foundation.Runs
import StarsGaming.Net.Proto
import StarsGaming.Net.Session

/-!
# Synchronous requests

All callers of a session share one promise and one expected number.  A call is
cut into its atomic steps, which other calls and the two halves of
`response_come` on the loop may come between.  A call makes one promise, so
promises are named by the calls that made them.
-/

namespace StarsGaming.Net

open Foundation

variable {H : Type} {P : Protobuf}

inductive Shared (H : Type) (P : Protobuf) where
  | empty
  | value (response : Reply H P)
  | broken

structure ResponsePromise (H : Type) (P : Protobuf) where
  retrieved : Bool
  state : Shared H P

def ResponsePromise.new : ResponsePromise H P := ⟨false, .empty⟩

def ResponsePromise.destroy (promise : ResponsePromise H P) :
    ResponsePromise H P :=
  match promise.state with
  | .empty => { promise with state := .broken }
  | _ => promise

inductive FutureStatus where
  | ready
  | timeout
  | deferred

/-- `wait_for` gives up only where nothing is there yet. -/
def Shared.waitFor : Shared H P → FutureStatus
  | .empty => .timeout
  | _ => .ready

def Shared.For [HeaderType H] (sequenceid : BitVec 64) : Shared H P → Prop
  | .empty => True
  | .value response => response.sequenceid = sequenceid
  | .broken => False

def Shared.isEmpty : Shared H P → Bool
  | .empty => true
  | _ => false

inductive CallState (H : Type) (P : Protobuf) where
  | loaded
  | numbered
  | announced
  | promised
  | holding (promise : Nat)
  | waiting (promise : Nat)
  | answered (response : Reply H P)
  | cleared (response : Reply H P)
  | returned (response : Reply H P)

namespace CallState

def isLoaded : CallState H P → Bool
  | loaded => true
  | _ => false

def isNumbered : CallState H P → Bool
  | numbered => true
  | _ => false

@[simp] theorem isLoaded_loaded : (loaded : CallState H P).isLoaded = true :=
  rfl

def remaining : CallState H P → Nat
  | loaded => 8
  | numbered => 7
  | announced => 6
  | promised => 5
  | holding _ => 4
  | waiting _ => 3
  | answered _ => 2
  | cleared _ => 1
  | returned _ => 0

def isActive : CallState H P → Bool
  | loaded | numbered | returned _ => false
  | _ => true

end CallState

structure Caller (H : Type) (P : Protobuf) where
  header : H
  state : CallState H P

def Caller.sequenceid [HeaderType H] (c : Caller H P) : BitVec 64 :=
  HeaderType.sequenceid c.header

/-- Where the loop stands in `response_come` or in numbering a message. -/
inductive LoopState (H : Type) (P : Protobuf) where
  | idle
  | matched (response : Reply H P)
  | loaded

namespace LoopState

def isIdle : LoopState H P → Bool
  | idle => true
  | _ => false

def isMatched : LoopState H P → Bool
  | matched _ => true
  | _ => false

def isLoaded : LoopState H P → Bool
  | loaded => true
  | _ => false

@[simp] theorem isLoaded_idle : (idle : LoopState H P).isLoaded = false := rfl

@[simp] theorem isLoaded_loaded : (loaded : LoopState H P).isLoaded = true :=
  rfl

theorem isLoaded_of_isIdle {loop : LoopState H P} (h : loop.isIdle) :
    loop.isLoaded = false := by
  cases loop with
  | idle => rfl
  | matched response => rfl
  | loaded => cases h

theorem eq_matched {loop : LoopState H P} (h : loop.isMatched) :
    ∃ response, loop = matched response := by
  cases loop with
  | idle => cases h
  | matched response => exact ⟨response, rfl⟩
  | loaded => cases h

end LoopState

/--
`callers` holds every call of the session in the order of their starts,
`carried` the number of every request and message, and `posted` the requests
that were given to the loop.
-/
structure SynRequest (H : Type) (P : Protobuf) where
  sequenceid : BitVec 64
  sendSequenceid : BitVec 64
  promise : Option Nat
  promises : Nat → ResponsePromise H P
  callers : List (Caller H P)
  loop : LoopState H P
  carried : List (BitVec 64)
  posted : List H

namespace SynRequest

inductive Fault where
  | nullPromise
  | futureAlreadyRetrieved
  | promiseAlreadySatisfied
  | brokenPromise

def new : SynRequest H P :=
  ⟨0, 0, none, fun _ => .new, [], .idle, [], []⟩

def noSequenceid : BitVec 64 := BitVec.allOnes 64

def dropPromise (s : SynRequest H P) : SynRequest H P :=
  { s with
    promise := none
    promises :=
      match s.promise with
      | none => s.promises
      | some p => Function.update s.promises p (s.promises p).destroy }

def makePromise (caller : Nat) (s : SynRequest H P) : SynRequest H P :=
  let s := s.dropPromise
  { s with
    promise := some caller
    promises := Function.update s.promises caller .new }

def getFuture (s : SynRequest H P) : Except Fault (Nat × SynRequest H P) :=
  match s.promise with
  | none => .error .nullPromise
  | some p =>
      if (s.promises p).retrieved then .error .futureAlreadyRetrieved
      else .ok (p, { s with
        promises := Function.update s.promises p
          { s.promises p with retrieved := true } })

def goto (caller : Nat) (c : Caller H P) (state : CallState H P)
    (s : SynRequest H P) : SynRequest H P :=
  { s with callers := s.callers.set caller { c with state } }

def setValue (response : Reply H P) (s : SynRequest H P) :
    Except Fault (SynRequest H P) :=
  match s.promise with
  | none => .ok s
  | some p =>
      match (s.promises p).state with
      | .empty => .ok { s with
          promises := Function.update s.promises p
            { s.promises p with state := .value response } }
      | _ => .error .promiseAlreadySatisfied

section Steps

variable [HeaderType H]

def failed (code : BitVec 32) (sequenceid : BitVec 64) : Reply H P where
  header := HeaderType.setSequenceid sequenceid
    (HeaderType.setResponseResult code HeaderType.empty)
  pbmessage := none

def takeResponse (sequenceid : BitVec 64) (state : Shared H P) :
    Except Fault (Reply H P) :=
  match state.waitFor with
  | .ready =>
      match state with
      | .value response => .ok response
      | _ => .error .brokenPromise
  | .timeout => .ok (failed ErrorCode.waitRespTimeout sequenceid)
  | .deferred => .ok (failed ErrorCode.systemError sequenceid)

def doSendSynMessage (header : H) (s : SynRequest H P) : SynRequest H P :=
  let numbered := setMsgSequenceid
    (HeaderType.setType MsgType.synRequest header) s.sequenceid
  { s with
    callers := s.callers ++ [⟨numbered.1, .loaded⟩]
    carried := s.carried ++ [s.sequenceid] }

def advance (caller : Nat) (c : Caller H P) (s : SynRequest H P) :
    Except Fault (SynRequest H P) :=
  match c.state with
  | .loaded =>
      .ok { s.goto caller c .numbered with sequenceid := s.sequenceid + 1 }
  | .numbered =>
      .ok { s.goto caller c .announced with sendSequenceid := c.sequenceid }
  | .announced => .ok ((s.makePromise caller).goto caller c .promised)
  | .promised => do
      let (p, s) ← s.getFuture
      return s.goto caller c (.holding p)
  | .holding p =>
      .ok { s.goto caller c (.waiting p) with posted := s.posted ++ [c.header] }
  | .waiting p => do
      let response ← takeResponse c.sequenceid (s.promises p).state
      return s.goto caller c (.answered response)
  | .answered response =>
      .ok { s.goto caller c (.cleared response) with
        sendSequenceid := noSequenceid }
  | .cleared response => .ok (s.dropPromise.goto caller c (.returned response))
  | .returned _ => .ok s

inductive Event (H : Type) (P : Protobuf) where
  | call (header : H)
  | advance (caller : Nat)
  | responseCome (response : Reply H P)
  | setValue
  | number
  | increment

/-- `number` and `increment` are other messages the loop numbers. -/
def step (s : SynRequest H P) : Event H P → Except Fault (SynRequest H P)
  | .call header => .ok (s.doSendSynMessage header)
  | .advance caller =>
      match s.callers[caller]? with
      | none => .ok s
      | some c => s.advance caller c
  | .responseCome response =>
      if s.sendSequenceid ≠ response.sequenceid then .ok s
      else .ok { s with loop := .matched response }
  | .setValue =>
      match s.loop with
      | .matched response => { s with loop := .idle }.setValue response
      | _ => .ok s
  | .number =>
      .ok { s with loop := .loaded, carried := s.carried ++ [s.sequenceid] }
  | .increment =>
      .ok { s with loop := .idle, sequenceid := s.sequenceid + 1 }

def Enabled (s : SynRequest H P) : Event H P → Prop
  | .call _ => True
  | .advance caller => caller < s.callers.length
  | .responseCome _ | .number => s.loop.isIdle
  | .setValue => s.loop.isMatched
  | .increment => s.loop.isLoaded

def loading (s : SynRequest H P) : Nat :=
  s.callers.countP (fun c => c.state.isLoaded) + s.loop.isLoaded.toNat

/--
A number is taken when none is being counted and some are left.  A call
announces its number when no other call is between this and its return, and
the loop is not in the middle of a response.  A response that is expected comes
before the promise was given another.
-/
def Orderly (s : SynRequest H P) : Event H P → Prop
  | .call _ | .number => s.loading = 0 ∧ s.carried.length < 2 ^ 64
  | .advance caller =>
      ∀ c ∈ s.callers[caller]?, c.state.isNumbered →
        ¬s.loop.isMatched ∧ ∀ other ∈ s.callers, ¬other.state.isActive
  | .responseCome response =>
      s.sendSequenceid = response.sequenceid →
        ∀ p ∈ s.promise, (s.promises p).state.isEmpty
  | .setValue | .increment => True

/-- The states of a session all of whose steps meet `ok`. -/
def Reachable (ok : SynRequest H P → Event H P → Prop)
    (s : SynRequest H P) : Prop :=
  Reaches (fun s => s = new) (fun s e => Enabled s e ∧ ok s e) step s

end Steps

/-! ## Numbers -/

section Numbers

variable [HeaderType H] {s : SynRequest H P}

structure Numbered (s : SynRequest H P) : Prop where
  carried : s.carried =
    (List.range s.carried.length).map (BitVec.ofNat 64)
  length_le : s.carried.length ≤ 2 ^ 64
  counter : s.sequenceid + BitVec.ofNat 64 s.loading =
    BitVec.ofNat 64 s.carried.length
  callers : (s.callers.map Caller.sequenceid).Sublist s.carried

theorem numbered_new : (new : SynRequest H P).Numbered :=
  ⟨rfl, Nat.zero_le _, rfl, .slnil⟩

theorem Numbered.nodup (h : s.Numbered) : s.carried.Nodup := by
  rw [h.carried]
  apply List.nodup_range.map_on
  intro a ha b hb heq
  have hle := h.length_le
  have htoNat := congrArg BitVec.toNat heq
  rw [BitVec.toNat_ofNat, BitVec.toNat_ofNat] at htoNat
  rw [List.mem_range] at ha hb
  rw [Nat.mod_eq_of_lt (by omega), Nat.mod_eq_of_lt (by omega)] at htoNat
  exact htoNat

theorem Numbered.carried_concat (h : s.Numbered) (hloading : s.loading = 0) :
    s.carried ++ [s.sequenceid] =
      (List.range (s.carried ++ [s.sequenceid]).length).map
        (BitVec.ofNat 64) := by
  have hcounter := h.counter
  rw [hloading] at hcounter
  rw [List.length_append, List.length_singleton, List.range_succ,
    List.map_append, ← h.carried, List.map_singleton, ← hcounter]
  simp

omit [HeaderType H] in
theorem loading_set {caller : Nat} {c : Caller H P} (state : CallState H P)
    (hc : s.callers[caller]? = some c) :
    (s.callers.set caller { c with state }).countP
        (fun c => c.state.isLoaded) + c.state.isLoaded.toNat =
      s.callers.countP (fun c => c.state.isLoaded) + state.isLoaded.toNat := by
  obtain ⟨hlt, hget⟩ := List.getElem?_eq_some_iff.mp hc
  rw [List.countP_set hlt, hget]
  have hpos : c.state.isLoaded →
      0 < s.callers.countP (fun c => c.state.isLoaded) := by
    intro hloaded
    rw [List.countP_pos_iff]
    exact ⟨c, List.mem_of_getElem? hc, hloaded⟩
  cases hold : c.state.isLoaded <;> cases state.isLoaded <;>
    simp_all [Bool.toNat]

omit [HeaderType H] in
theorem getFuture_eq_ok {p : Nat} {s' : SynRequest H P}
    (h : s.getFuture = .ok (p, s')) :
    s.promise = some p ∧ s' = { s with
      promises := Function.update s.promises p
        { s.promises p with retrieved := true } } := by
  rw [getFuture] at h
  split at h
  next => cases h
  next q hq =>
    split_ifs at h
    cases h
    exact ⟨hq, rfl⟩

omit [HeaderType H] in
theorem setValue_eq_ok {response : Reply H P} {s' : SynRequest H P}
    (h : s.setValue response = .ok s') :
    ∃ promises, s' = { s with promises } := by
  rw [SynRequest.setValue] at h
  split at h
  next =>
    cases h
    exact ⟨_, rfl⟩
  next =>
    split at h
    next =>
      cases h
      exact ⟨_, rfl⟩
    next => cases h

theorem advance_frame {caller : Nat} {c : Caller H P} {s' : SynRequest H P}
    (hc : s.callers[caller]? = some c) (h : s.advance caller c = .ok s') :
    ∃ state, s'.callers = s.callers.set caller { c with state } ∧
      state.isLoaded = false ∧ state.remaining = c.state.remaining - 1 ∧
      s'.loop = s.loop ∧ s'.carried = s.carried ∧
      s'.sequenceid = s.sequenceid +
        BitVec.ofNat 64 c.state.isLoaded.toNat := by
  obtain ⟨header, state⟩ := c
  cases state with
  | loaded =>
      cases h
      exact ⟨_, rfl, rfl, rfl, rfl, rfl, rfl⟩
  | numbered =>
      cases h
      exact ⟨_, rfl, rfl, rfl, rfl, rfl, (BitVec.add_zero _).symm⟩
  | announced =>
      cases h
      exact ⟨_, rfl, rfl, rfl, rfl, rfl, (BitVec.add_zero _).symm⟩
  | promised =>
      obtain ⟨⟨p, t⟩, hfuture, ht⟩ := bind_eq_ok h
      obtain ⟨_, rfl⟩ := getFuture_eq_ok hfuture
      cases ht
      exact ⟨_, rfl, rfl, rfl, rfl, rfl, (BitVec.add_zero _).symm⟩
  | holding p =>
      cases h
      exact ⟨_, rfl, rfl, rfl, rfl, rfl, (BitVec.add_zero _).symm⟩
  | waiting p =>
      obtain ⟨response, _, hs'⟩ := bind_eq_ok h
      cases hs'
      exact ⟨_, rfl, rfl, rfl, rfl, rfl, (BitVec.add_zero _).symm⟩
  | answered response =>
      cases h
      exact ⟨_, rfl, rfl, rfl, rfl, rfl, (BitVec.add_zero _).symm⟩
  | cleared response =>
      cases h
      exact ⟨_, rfl, rfl, rfl, rfl, rfl, (BitVec.add_zero _).symm⟩
  | returned response =>
      cases h
      obtain ⟨hlt, hget⟩ := List.getElem?_eq_some_iff.mp hc
      refine ⟨.returned response, ?_, rfl, rfl, rfl, rfl,
        (BitVec.add_zero _).symm⟩
      rw [← hget, List.set_getElem_self]

theorem Numbered.count (h : s.Numbered) {s' : SynRequest H P} {k : Nat}
    (hcallers : s'.callers.map Caller.sequenceid =
      s.callers.map Caller.sequenceid)
    (hcarried : s'.carried = s.carried)
    (hseq : s'.sequenceid = s.sequenceid + BitVec.ofNat 64 k)
    (hloading : k + s'.loading = s.loading) : s'.Numbered := by
  constructor
  · rw [hcarried]
    exact h.carried
  · rw [hcarried]
    exact h.length_le
  · rw [hseq, BitVec.add_assoc, ← BitVec.ofNat_add, hloading, hcarried]
    exact h.counter
  · rw [hcallers, hcarried]
    exact h.callers

theorem Numbered.take (h : s.Numbered) {s' : SynRequest H P}
    (hnone : s.loading = 0) (hlt : s.carried.length < 2 ^ 64)
    (hcarried : s'.carried = s.carried ++ [s.sequenceid])
    (hseq : s'.sequenceid = s.sequenceid) (hone : s'.loading = 1)
    (hcallers : (s'.callers.map Caller.sequenceid).Sublist s'.carried) :
    s'.Numbered := by
  have hcounter := h.counter
  rw [hnone, BitVec.add_zero] at hcounter
  refine ⟨?_, ?_, ?_, hcallers⟩
  · rw [hcarried]
    exact h.carried_concat hnone
  · rw [hcarried, List.length_append, List.length_singleton]
    omega
  · rw [hseq, hone, hcarried, List.length_append, List.length_singleton,
      BitVec.ofNat_add, hcounter]

theorem Numbered.advance (h : s.Numbered) {caller : Nat} {c : Caller H P}
    {s' : SynRequest H P} (hc : s.callers[caller]? = some c)
    (hadvance : s.advance caller c = .ok s') : s'.Numbered := by
  obtain ⟨state, hcallers, hloaded, _, hloop, hcarried, hseq⟩ :=
    advance_frame hc hadvance
  apply h.count _ hcarried hseq
  · have hset := loading_set state hc
    rw [hloaded, Bool.toNat_false] at hset
    rw [loading, loading, hcallers, hloop]
    omega
  · obtain ⟨hlt, hget⟩ := List.getElem?_eq_some_iff.mp hc
    have hlt' : caller < (s.callers.map Caller.sequenceid).length := by
      rw [List.length_map]
      exact hlt
    have hself := List.set_getElem_self hlt'
    rw [List.getElem_map, hget] at hself
    rw [hcallers, List.map_set]
    exact hself

theorem Numbered.step (h : s.Numbered) {e : Event H P} {s' : SynRequest H P}
    (henabled : s.Enabled e) (horderly : s.Orderly e)
    (hstep : s.step e = .ok s') : s'.Numbered := by
  cases e with
  | call header =>
      cases hstep
      obtain ⟨hnone, hlt⟩ := horderly
      refine h.take hnone hlt rfl rfl ?_ ?_
      · rw [loading] at hnone
        simp only [doSendSynMessage, loading, List.countP_append,
          List.countP_singleton, CallState.isLoaded_loaded, if_true]
        omega
      · simp only [doSendSynMessage, List.map_append, List.map_singleton,
          Caller.sequenceid, sequenceid_setMsgSequenceid]
        exact h.callers.append (List.Sublist.refl _)
  | advance caller =>
      have hlt : caller < s.callers.length := henabled
      rw [SynRequest.step, List.getElem?_eq_getElem hlt] at hstep
      exact h.advance (List.getElem?_eq_getElem hlt) hstep
  | responseCome response =>
      rw [SynRequest.step] at hstep
      split_ifs at hstep
      · cases hstep
        exact h
      · cases hstep
        refine h.count rfl rfl (BitVec.add_zero _).symm ?_
        rw [loading, loading, LoopState.isLoaded_of_isIdle henabled]
        exact Nat.zero_add _
  | setValue =>
      obtain ⟨response, hloop⟩ := LoopState.eq_matched henabled
      rw [SynRequest.step, hloop] at hstep
      obtain ⟨promises, rfl⟩ := setValue_eq_ok hstep
      refine h.count rfl rfl (BitVec.add_zero _).symm ?_
      rw [loading, loading, hloop]
      exact Nat.zero_add _
  | number =>
      cases hstep
      obtain ⟨hnone, hlt⟩ := horderly
      refine h.take hnone hlt rfl rfl ?_ ?_
      · rw [loading] at hnone
        simp only [loading, LoopState.isLoaded_loaded, Bool.toNat_true]
        omega
      · exact h.callers.trans (List.sublist_append_left _ _)
  | increment =>
      cases hstep
      have hloaded : s.loop.isLoaded = true := henabled
      refine h.count (k := 1) rfl rfl rfl ?_
      simp only [loading, hloaded, LoopState.isLoaded_idle, Bool.toNat_true,
        Bool.toNat_false]
      omega

end Numbers

/-! ## The promise and the call it belongs to -/

section Exchanges

variable [HeaderType H] {s s' : SynRequest H P}

/-- Nothing but a response to this number can come to the promise. -/
def Expects (s : SynRequest H P) (c : Caller H P) : Prop :=
  s.sendSequenceid = c.sequenceid ∧
    ∀ response, s.loop = .matched response →
      response.sequenceid = c.sequenceid

def Fits (s : SynRequest H P) (caller : Nat) (c : Caller H P) : Prop :=
  match c.state with
  | .loaded | .numbered => True
  | .announced => s.promise = none ∧ s.Expects c
  | .promised =>
      s.promise = some caller ∧ s.Expects c ∧
        (s.promises caller).state.For c.sequenceid ∧
        (s.promises caller).retrieved = false
  | .holding p | .waiting p =>
      p = caller ∧ s.promise = some caller ∧ s.Expects c ∧
        (s.promises caller).state.For c.sequenceid
  | .answered response | .cleared response =>
      s.promise = some caller ∧ response.sequenceid = c.sequenceid
  | .returned response => response.sequenceid = c.sequenceid

structure Exchange (s : SynRequest H P) : Prop where
  only : ∀ (i j : Nat) (c d : Caller H P), s.callers[i]? = some c →
    s.callers[j]? = some d → c.state.isActive → d.state.isActive → i = j
  fits : ∀ i c, s.callers[i]? = some c → s.Fits i c
  quiet : (∀ c ∈ s.callers, ¬c.state.isActive) → s.promise = none
  unset : ∀ response, s.loop = .matched response →
    ∀ p ∈ s.promise, (s.promises p).state = .empty

theorem exchange_new : (new : SynRequest H P).Exchange := by
  constructor
  · intro i j c d hc
    cases hc
  · intro i c hc
    cases hc
  · exact fun _ => rfl
  · intro response hloop
    cases hloop

theorem Fits.of_inactive {caller : Nat} {c : Caller H P}
    (h : s.Fits caller c) (hinactive : ¬c.state.isActive) :
    s'.Fits caller c := by
  obtain ⟨header, state⟩ := c
  cases state with
  | loaded => trivial
  | numbered => trivial
  | returned response => exact h
  | announced => exact absurd rfl hinactive
  | promised => exact absurd rfl hinactive
  | holding p => exact absurd rfl hinactive
  | waiting p => exact absurd rfl hinactive
  | answered response => exact absurd rfl hinactive
  | cleared response => exact absurd rfl hinactive

theorem Fits.of_promise {caller : Nat} {c : Caller H P}
    (h : s.Fits caller c) (hpromise : s'.promise = s.promise)
    (hexpects : s.Expects c → s'.Expects c)
    (hretrieved : (s'.promises caller).retrieved =
      (s.promises caller).retrieved)
    (hstate : s.promise = some caller → s.Expects c →
      (s.promises caller).state.For c.sequenceid →
      (s'.promises caller).state.For c.sequenceid) :
    s'.Fits caller c := by
  obtain ⟨header, state⟩ := c
  cases state with
  | loaded => trivial
  | numbered => trivial
  | announced => exact ⟨hpromise.trans h.1, hexpects h.2⟩
  | promised =>
      obtain ⟨hown, hexp, hfor, hfresh⟩ := h
      exact ⟨hpromise.trans hown, hexpects hexp, hstate hown hexp hfor,
        hretrieved.trans hfresh⟩
  | holding p =>
      obtain ⟨heq, hown, hexp, hfor⟩ := h
      exact ⟨heq, hpromise.trans hown, hexpects hexp, hstate hown hexp hfor⟩
  | waiting p =>
      obtain ⟨heq, hown, hexp, hfor⟩ := h
      exact ⟨heq, hpromise.trans hown, hexpects hexp, hstate hown hexp hfor⟩
  | answered response => exact ⟨hpromise.trans h.1, h.2⟩
  | cleared response => exact ⟨hpromise.trans h.1, h.2⟩
  | returned response => exact h

theorem Exchange.move (h : s.Exchange) {caller : Nat} {c : Caller H P}
    {state : CallState H P} (hc : s.callers[caller]? = some c)
    (hcallers : s'.callers = s.callers.set caller { c with state })
    (hothers : ∀ (j : Nat) (d : Caller H P), s.callers[j]? = some d →
      j ≠ caller → s'.Fits j d ∧ (state.isActive → ¬d.state.isActive))
    (hfits : s'.Fits caller { c with state })
    (hquiet : (∀ d ∈ s'.callers, ¬d.state.isActive) → s'.promise = none)
    (hunset : ∀ response, s'.loop = .matched response →
      ∀ p ∈ s'.promise, (s'.promises p).state = .empty) :
    s'.Exchange := by
  have hself : s'.callers[caller]? = some { c with state } := by
    rw [hcallers, List.getElem?_set_self]
    exact (List.getElem?_eq_some_iff.mp hc).1
  have hother : ∀ j, j ≠ caller → s'.callers[j]? = s.callers[j]? := by
    intro j hj
    rw [hcallers, List.getElem?_set_ne hj.symm]
  have hclash : ∀ (j : Nat) (d : Caller H P), s'.callers[j]? = some d →
      d.state.isActive → state.isActive → j = caller := by
    intro j d hd hactive hstate
    by_contra hj
    rw [hother j hj] at hd
    exact (hothers j d hd hj).2 hstate hactive
  refine ⟨?_, ?_, hquiet, hunset⟩
  · intro i j d e hd he hactive hactive'
    by_cases hi : i = caller
    · subst hi
      rw [hself] at hd
      cases hd
      exact (hclash j e he hactive' hactive).symm
    · by_cases hj : j = caller
      · subst hj
        rw [hself] at he
        cases he
        exact hclash i d hd hactive hactive'
      · rw [hother i hi] at hd
        rw [hother j hj] at he
        exact h.only i j d e hd he hactive hactive'
  · intro j d hd
    by_cases hj : j = caller
    · subst hj
      rw [hself] at hd
      cases hd
      exact hfits
    · rw [hother j hj] at hd
      exact (hothers j d hd hj).1

theorem Exchange.alone (h : s.Exchange) {caller : Nat} {c : Caller H P}
    {state : CallState H P} (hc : s.callers[caller]? = some c)
    (hothers : ∀ (j : Nat) (d : Caller H P), s.callers[j]? = some d →
      j ≠ caller → ¬d.state.isActive)
    (hcallers : s'.callers = s.callers.set caller { c with state })
    (hfits : s'.Fits caller { c with state })
    (hquiet : ¬state.isActive → s'.promise = none)
    (hunset : ∀ response, s'.loop = .matched response →
      ∀ p ∈ s'.promise, (s'.promises p).state = .empty) :
    s'.Exchange := by
  apply h.move hc hcallers _ hfits _ hunset
  · intro j d hd hj
    have hinactive := hothers j d hd hj
    exact ⟨(h.fits j d hd).of_inactive hinactive, fun _ => hinactive⟩
  · intro hnone
    apply hquiet
    apply hnone { c with state }
    rw [hcallers]
    exact List.mem_set (List.getElem?_eq_some_iff.mp hc).1 _

theorem Exchange.work (h : s.Exchange) {caller : Nat} {c : Caller H P}
    {state : CallState H P} (hc : s.callers[caller]? = some c)
    (hothers : ∀ (j : Nat) (d : Caller H P), s.callers[j]? = some d →
      j ≠ caller → ¬d.state.isActive)
    (hcallers : s'.callers = s.callers.set caller { c with state })
    (hactive : state.isActive) (hfits : s'.Fits caller { c with state })
    (hunset : ∀ response, s'.loop = .matched response →
      ∀ p ∈ s'.promise, (s'.promises p).state = .empty) :
    s'.Exchange := by
  apply h.alone hc hothers hcallers hfits _ hunset
  intro hinactive
  exact absurd hactive hinactive

theorem Exchange.others (h : s.Exchange) {caller : Nat} {c : Caller H P}
    (hc : s.callers[caller]? = some c) (hactive : c.state.isActive)
    (j : Nat) (d : Caller H P) (hd : s.callers[j]? = some d)
    (hj : j ≠ caller) : ¬d.state.isActive := by
  intro hactive'
  exact hj (h.only j caller d c hd hc hactive' hactive)

theorem sequenceid_takeResponse {sequenceid : BitVec 64}
    {state : Shared H P} {response : Reply H P}
    (hfor : state.For sequenceid)
    (h : takeResponse sequenceid state = .ok response) :
    response.sequenceid = sequenceid := by
  cases state with
  | empty =>
      cases h
      simp [failed, Reply.sequenceid]
  | value response =>
      cases h
      exact hfor
  | broken => exact hfor.elim

theorem Exchange.load (h : s.Exchange) {caller : Nat} {header : H}
    (hc : s.callers[caller]? = some ⟨header, .loaded⟩)
    (hadvance : s.advance caller ⟨header, .loaded⟩ = .ok s') :
    s'.Exchange := by
  cases hadvance
  refine h.move hc rfl ?_ trivial ?_ h.unset
  · intro j d hd _
    have hkept : s.Fits j d := h.fits j d hd
    exact ⟨hkept.of_promise rfl id rfl fun _ _ hfor => hfor,
      fun hactive => by cases hactive⟩
  · intro hnone
    apply h.quiet
    intro d hd
    obtain ⟨j, hj⟩ := List.getElem?_of_mem hd
    by_cases heq : j = caller
    · subst heq
      rw [hc] at hj
      cases hj
      exact Bool.false_ne_true
    · apply hnone d
      apply List.mem_of_getElem? (i := j)
      rw [← hj]
      exact List.getElem?_set_ne (Ne.symm heq)

theorem Exchange.announce (h : s.Exchange) {caller : Nat} {header : H}
    (hc : s.callers[caller]? = some ⟨header, .numbered⟩)
    (horderly : s.Orderly (.advance caller))
    (hadvance : s.advance caller ⟨header, .numbered⟩ = .ok s') :
    s'.Exchange := by
  cases hadvance
  obtain ⟨hloop, hnone⟩ := horderly _ hc rfl
  have hpromise := h.quiet hnone
  refine h.work hc ?_ rfl rfl ⟨hpromise, rfl, ?_⟩ h.unset
  · intro j d hd _
    exact hnone d (List.mem_of_getElem? hd)
  · intro response hmatched
    exact absurd (congrArg LoopState.isMatched hmatched) hloop

theorem Exchange.promise (h : s.Exchange) {caller : Nat} {header : H}
    (hc : s.callers[caller]? = some ⟨header, .announced⟩)
    (hadvance : s.advance caller ⟨header, .announced⟩ = .ok s') :
    s'.Exchange := by
  obtain ⟨hpromise, hexpects⟩ := h.fits caller _ hc
  cases hadvance
  have hmade : (s.makePromise caller).promises caller = .new :=
    Function.update_self _ _ _
  refine h.work hc (h.others hc rfl) rfl rfl ⟨rfl, hexpects, ?_, ?_⟩ ?_
  · change ((s.makePromise caller).promises caller).state.For _
    rw [hmade]
    trivial
  · exact congrArg ResponsePromise.retrieved hmade
  · intro response _ p hp
    cases hp
    exact congrArg ResponsePromise.state hmade

theorem Exchange.hold (h : s.Exchange) {caller : Nat} {header : H}
    (hc : s.callers[caller]? = some ⟨header, .promised⟩)
    (hadvance : s.advance caller ⟨header, .promised⟩ = .ok s') :
    s'.Exchange := by
  obtain ⟨hpromise, hexpects, hstate, hfresh⟩ := h.fits caller _ hc
  obtain ⟨⟨p, t⟩, hfuture, ht⟩ := bind_eq_ok hadvance
  obtain ⟨hp, rfl⟩ := getFuture_eq_ok hfuture
  rw [hpromise] at hp
  cases hp
  cases ht
  have hkept : ∀ p, (Function.update s.promises caller
      { s.promises caller with retrieved := true } p).state =
      (s.promises p).state := by
    intro p
    rw [Function.update_apply]
    split_ifs with heq
    · rw [heq]
    · rfl
  refine h.work hc (h.others hc rfl) rfl rfl
    ⟨rfl, hpromise, hexpects, ?_⟩ ?_
  · exact (hkept caller).symm ▸ hstate
  · intro response hloop p hp
    exact (hkept p).trans (h.unset response hloop p hp)

theorem Exchange.advance (h : s.Exchange) {caller : Nat} {c : Caller H P}
    (hc : s.callers[caller]? = some c)
    (horderly : s.Orderly (.advance caller))
    (hadvance : s.advance caller c = .ok s') : s'.Exchange := by
  have hfits := h.fits caller c hc
  have hothers := h.others hc
  obtain ⟨header, state⟩ := c
  cases state with
  | loaded => exact h.load hc hadvance
  | numbered => exact h.announce hc horderly hadvance
  | announced => exact h.promise hc hadvance
  | promised => exact h.hold hc hadvance
  | holding p =>
      cases hadvance
      obtain ⟨rfl, hpromise, hexpects, hstate⟩ := hfits
      exact h.work hc (hothers rfl) rfl rfl
        ⟨rfl, hpromise, hexpects, hstate⟩ h.unset
  | waiting p =>
      obtain ⟨rfl, hpromise, hexpects, hstate⟩ := hfits
      obtain ⟨response, htake, hs'⟩ := bind_eq_ok hadvance
      cases hs'
      refine h.work hc (hothers rfl) rfl rfl ⟨hpromise, ?_⟩ h.unset
      exact sequenceid_takeResponse hstate htake
  | answered response =>
      cases hadvance
      exact h.work hc (hothers rfl) rfl rfl hfits h.unset
  | cleared response =>
      cases hadvance
      refine h.alone hc (hothers rfl) rfl hfits.2 (fun _ => rfl) ?_
      intro _ _ p hp
      cases hp
  | returned response =>
      cases hadvance
      exact h

theorem Exchange.loop (h : s.Exchange) (hcallers : s'.callers = s.callers)
    (hpromise : s'.promise = s.promise)
    (hfits : ∀ i c, s.callers[i]? = some c → s.Fits i c → s'.Fits i c)
    (hunset : ∀ response, s'.loop = .matched response →
      ∀ p ∈ s'.promise, (s'.promises p).state = .empty) :
    s'.Exchange := by
  refine ⟨?_, ?_, ?_, hunset⟩
  · rw [hcallers]
    exact h.only
  · intro i c hc
    rw [hcallers] at hc
    exact hfits i c hc (h.fits i c hc)
  · rw [hcallers, hpromise]
    exact h.quiet

theorem Exchange.responseCome (h : s.Exchange) {response : Reply H P}
    (hmatch : s.sendSequenceid = response.sequenceid)
    (horderly : s.Orderly (.responseCome response)) :
    Exchange { s with loop := .matched response } := by
  refine h.loop rfl rfl ?_ ?_
  · intro i c _ hfits
    refine hfits.of_promise rfl ?_ rfl fun _ _ hfor => hfor
    intro hexpects
    refine ⟨hexpects.1, ?_⟩
    intro other hother
    cases hother
    rw [← hmatch]
    exact hexpects.1
  · intro other _ p hp
    have hempty := horderly hmatch p hp
    cases hstate : (s.promises p).state with
    | empty => rfl
    | value r =>
        rw [hstate] at hempty
        cases hempty
    | broken =>
        rw [hstate] at hempty
        cases hempty

theorem Exchange.idle (h : s.Exchange) {s' : SynRequest H P}
    (hcallers : s'.callers = s.callers) (hpromise : s'.promise = s.promise)
    (hpromises : s'.promises = s.promises)
    (hsend : s'.sendSequenceid = s.sendSequenceid)
    (hloop : ¬s'.loop.isMatched) : s'.Exchange := by
  have hnever : ∀ response, s'.loop ≠ .matched response := by
    intro response heq
    exact hloop (congrArg LoopState.isMatched heq)
  refine h.loop hcallers hpromise ?_ ?_
  · intro i c _ hfits
    refine hfits.of_promise hpromise ?_ (by rw [hpromises]) ?_
    · intro hexpects
      exact ⟨hsend.trans hexpects.1,
        fun response heq => absurd heq (hnever response)⟩
    · rw [hpromises]
      exact fun _ _ hfor => hfor
  · exact fun response heq => absurd heq (hnever response)

theorem Exchange.setValue (h : s.Exchange) {response : Reply H P}
    (hloop : s.loop = .matched response) :
    ∃ s', { s with loop := .idle }.setValue response = .ok s' ∧
      s'.Exchange := by
  cases hpromise : s.promise with
  | none =>
      refine ⟨{ s with loop := .idle }, ?_, ?_⟩
      · rw [SynRequest.setValue]
        simp only [hpromise]
      · exact h.idle rfl rfl rfl rfl Bool.false_ne_true
  | some p =>
      have hempty := h.unset response hloop p hpromise
      refine ⟨{ s with
        loop := .idle
        promises := Function.update s.promises p
          { s.promises p with state := .value response } }, ?_, ?_⟩
      · rw [SynRequest.setValue]
        simp only [hpromise, hempty]
      · refine h.loop rfl rfl ?_ ?_
        · intro i c _ hfits
          refine hfits.of_promise rfl ?_ ?_ ?_
          · intro hexpects
            refine ⟨hexpects.1, ?_⟩
            intro other hother
            cases hother
          · simp only [Function.update_apply]
            split_ifs with heq
            · rw [heq]
            · rfl
          · intro hown hexpects _
            rw [hpromise] at hown
            cases hown
            simp only [Function.update_self]
            exact hexpects.2 response hloop
        · intro other hother
          cases hother

theorem Exchange.doSendSynMessage (h : s.Exchange) (header : H) :
    (s.doSendSynMessage header).Exchange := by
  have hold : ∀ (i : Nat) (c : Caller H P),
      (s.doSendSynMessage header).callers[i]? = some c →
      s.callers[i]? = some c ∨ c.state = .loaded := by
    intro i c hc
    rw [SynRequest.doSendSynMessage, List.getElem?_append] at hc
    split_ifs at hc
    · exact .inl hc
    · rw [List.mem_singleton.mp (List.mem_of_getElem? hc)]
      exact .inr rfl
  have hactive : ∀ (i : Nat) (c : Caller H P),
      (s.doSendSynMessage header).callers[i]? = some c →
      c.state.isActive → s.callers[i]? = some c := by
    intro i c hc hstate
    rcases hold i c hc with hc | hloaded
    · exact hc
    · rw [hloaded] at hstate
      cases hstate
  refine ⟨?_, ?_, ?_, h.unset⟩
  · intro i j c d hc hd hi hj
    exact h.only i j c d (hactive i c hc hi) (hactive j d hd hj) hi hj
  · intro i c hc
    rcases hold i c hc with hc | hloaded
    · exact h.fits i c hc
    · rw [Fits, hloaded]
      trivial
  · intro hnone
    apply h.quiet
    intro c hc
    exact hnone c (List.mem_append_left _ hc)

theorem Exchange.step (h : s.Exchange) {e : Event H P}
    (henabled : s.Enabled e) (horderly : s.Orderly e)
    (hstep : s.step e = .ok s') : s'.Exchange := by
  cases e with
  | call header =>
      cases hstep
      exact h.doSendSynMessage header
  | advance caller =>
      have hlt : caller < s.callers.length := henabled
      rw [SynRequest.step, List.getElem?_eq_getElem hlt] at hstep
      exact h.advance (List.getElem?_eq_getElem hlt) horderly hstep
  | responseCome response =>
      rw [SynRequest.step] at hstep
      split_ifs at hstep with hmatch
      · cases hstep
        exact h
      · cases hstep
        exact h.responseCome (not_not.mp hmatch) horderly
  | setValue =>
      obtain ⟨response, hloop⟩ := LoopState.eq_matched henabled
      obtain ⟨t, ht, hexchange⟩ := h.setValue hloop
      rw [SynRequest.step, hloop] at hstep
      have heq : s' = t := Except.ok.inj (hstep.symm.trans ht)
      exact heq ▸ hexchange
  | number =>
      cases hstep
      exact h.idle rfl rfl rfl rfl Bool.false_ne_true
  | increment =>
      cases hstep
      exact h.idle rfl rfl rfl rfl Bool.false_ne_true

theorem Exchange.advance_ok (h : s.Exchange) {caller : Nat} {c : Caller H P}
    (hc : s.callers[caller]? = some c) :
    ∃ s', s.advance caller c = .ok s' := by
  have hfits := h.fits caller c hc
  obtain ⟨header, state⟩ := c
  cases state with
  | promised =>
      obtain ⟨hpromise, _, _, hfresh⟩ := hfits
      have hfuture : s.getFuture = .ok (caller, { s with
          promises := Function.update s.promises caller
            { s.promises caller with retrieved := true } }) := by
        rw [getFuture]
        simp only [hpromise, hfresh]
        rfl
      rw [SynRequest.advance]
      simp only [hfuture]
      exact ⟨_, rfl⟩
  | waiting p =>
      obtain ⟨rfl, _, _, hfor⟩ := hfits
      rw [SynRequest.advance]
      simp only
      cases hstate : (s.promises p).state with
      | empty => exact ⟨_, rfl⟩
      | value response => exact ⟨_, rfl⟩
      | broken =>
          rw [hstate] at hfor
          exact hfor.elim
  | loaded => exact ⟨_, rfl⟩
  | numbered => exact ⟨_, rfl⟩
  | announced => exact ⟨_, rfl⟩
  | holding p => exact ⟨_, rfl⟩
  | answered response => exact ⟨_, rfl⟩
  | cleared response => exact ⟨_, rfl⟩
  | returned response => exact ⟨_, rfl⟩

theorem Exchange.step_ok (h : s.Exchange) {e : Event H P}
    (henabled : s.Enabled e) : ∃ s', s.step e = .ok s' := by
  cases e with
  | advance caller =>
      have hlt : caller < s.callers.length := henabled
      rw [SynRequest.step, List.getElem?_eq_getElem hlt]
      exact h.advance_ok (List.getElem?_eq_getElem hlt)
  | setValue =>
      obtain ⟨response, hloop⟩ := LoopState.eq_matched henabled
      obtain ⟨s', hs', _⟩ := h.setValue hloop
      rw [SynRequest.step, hloop]
      exact ⟨s', hs'⟩
  | responseCome response =>
      rw [SynRequest.step]
      split_ifs
      · exact ⟨_, rfl⟩
      · exact ⟨_, rfl⟩
  | call header => exact ⟨_, rfl⟩
  | number => exact ⟨_, rfl⟩
  | increment => exact ⟨_, rfl⟩

theorem Reachable.sound (h : Reachable Orderly s) :
    s.Numbered ∧ s.Exchange := by
  apply Reaches.invariant (J := fun s => s.Numbered ∧ s.Exchange) _ _ h
  · rintro s rfl
    exact ⟨numbered_new, exchange_new⟩
  · rintro s e s' ⟨hnumbered, hexchange⟩ ⟨henabled, horderly⟩ hstep
    exact ⟨hnumbered.step henabled horderly hstep,
      hexchange.step henabled horderly hstep⟩

end Exchanges

def awaited : CallState H P → Option Nat
  | .holding p | .waiting p => some p
  | _ => none

/--
What callers rely on: responses bear the number of the request they answer,
numbers are used once, and a promise is there as long as someone waits on it.
-/
structure Answers [HeaderType H] (s : SynRequest H P) : Prop where
  own : ∀ c ∈ s.callers, ∀ response, c.state = .returned response →
    response.sequenceid = c.sequenceid
  numbers : s.carried.Nodup
  carried : (s.callers.map Caller.sequenceid).Sublist s.carried
  alive : ∀ c ∈ s.callers, ∀ p ∈ awaited c.state, s.promise = some p

theorem Exchange.answers [HeaderType H] {s : SynRequest H P}
    (h : s.Exchange) (hnumbered : s.Numbered) : s.Answers := by
  refine ⟨?_, hnumbered.nodup, hnumbered.callers, ?_⟩
  · intro c hc response hreturned
    obtain ⟨i, hi⟩ := List.getElem?_of_mem hc
    have hfits := h.fits i c hi
    rw [Fits, hreturned] at hfits
    exact hfits
  · intro c hc p hp
    obtain ⟨i, hi⟩ := List.getElem?_of_mem hc
    have hfits := h.fits i c hi
    obtain ⟨header, state⟩ := c
    cases state with
    | holding q =>
        cases hp
        obtain ⟨rfl, hpromise, _⟩ := hfits
        exact hpromise
    | waiting q =>
        cases hp
        obtain ⟨rfl, hpromise, _⟩ := hfits
        exact hpromise
    | loaded => cases hp
    | numbered => cases hp
    | announced => cases hp
    | promised => cases hp
    | answered response => cases hp
    | cleared response => cases hp
    | returned response => cases hp

end SynRequest

/--
In orderly runs every call keeps its bargain, nothing throws, and every step
of a call brings it nearer to its return.
-/
theorem calls_get_own_answer [HeaderType H] (s : SynRequest H P)
    (h : SynRequest.Reachable SynRequest.Orderly s) :
    s.Answers ∧ (∀ e, s.Enabled e → ∃ s', s.step e = .ok s') ∧
    ∀ caller c, s.callers[caller]? = some c →
      ∃ s' state, s.step (.advance caller) = .ok s' ∧
        s'.callers = s.callers.set caller { c with state } ∧
        state.remaining = c.state.remaining - 1 := by
  obtain ⟨hnumbered, hexchange⟩ := h.sound
  refine ⟨hexchange.answers hnumbered, ?_, ?_⟩
  · intro e henabled
    exact hexchange.step_ok henabled
  · intro caller c hc
    obtain ⟨s', hs'⟩ := hexchange.advance_ok hc
    obtain ⟨state, hcallers, _, hremaining, _⟩ :=
      SynRequest.advance_frame hc hs'
    refine ⟨s', state, ?_, hcallers, hremaining⟩
    rw [SynRequest.step, hc]
    exact hs'

namespace SynRequest

section Samples

variable [HeaderType H]

instance (s : SynRequest H P) : ∀ e, Decidable (s.Enabled e)
  | .call _ => .isTrue trivial
  | .advance _ => inferInstanceAs (Decidable (_ < _))
  | .responseCome _ | .number | .setValue | .increment =>
      inferInstanceAs (Decidable (_ = true))

instance (s : SynRequest H P) : ∀ e, Decidable (s.Orderly e)
  | .call _ | .number => inferInstanceAs (Decidable (_ ∧ _))
  | .advance _ => inferInstanceAs (Decidable (∀ c ∈ _, _))
  | .responseCome _ => inferInstanceAs (Decidable (_ → ∀ p ∈ _, _))
  | .setValue | .increment => .isTrue trivial

theorem exists_reachable {ok : SynRequest H P → Event H P → Prop}
    [∀ s e, Decidable (ok s e)] (inputs : List (Event H P))
    (p : SynRequest H P → Bool)
    (h : (runs (fun s e => Enabled s e ∧ ok s e) step new inputs).any p) :
    ∃ s, Reachable ok s ∧ p s := by
  apply exists_reaches _ inputs p h
  rfl

end Samples

def sampleCall (caller : Nat) : List (Event Header systemProtobuf) :=
  .call .empty :: List.replicate 5 (.advance caller)

def sampleReturn (caller : Nat) : List (Event Header systemProtobuf) :=
  List.replicate 3 (.advance caller)

def sampleAnswer (sequenceid : BitVec 64) : Reply Header systemProtobuf where
  header := { Header.empty with sequenceid }
  pbmessage := none

def sampleCalls : List (Event Header systemProtobuf) :=
  sampleCall 0 ++ [.responseCome (sampleAnswer 0), .setValue] ++
    sampleReturn 0 ++ sampleCall 1 ++ sampleReturn 1

def lateResponse : List (Event Header systemProtobuf) :=
  sampleCall 0 ++ [.responseCome (sampleAnswer 0)] ++ sampleReturn 0 ++
    sampleCall 1 ++ [.setValue] ++ sampleReturn 1

def misled (c : Caller Header systemProtobuf) : Bool :=
  match c.state with
  | .returned response => response.sequenceid ≠ c.sequenceid
  | _ => false

theorem not_answers_of_misled {s : SynRequest Header systemProtobuf}
    {c : Caller Header systemProtobuf} (hc : c ∈ s.callers)
    (hmisled : misled c) : ¬s.Answers := by
  intro h
  rw [misled] at hmisled
  split at hmisled
  next response hstate =>
    rw [decide_eq_true_eq] at hmisled
    exact hmisled (h.own c hc response hstate)
  next => cases hmisled

end SynRequest

theorem sampleCalls_get_own_answer :
    ∃ s : SynRequest Header systemProtobuf,
      SynRequest.Reachable SynRequest.Orderly s ∧
      s.callers.map (fun c => c.state.remaining) = [0, 0] ∧ s.Answers := by
  obtain ⟨s, hs, hfacts⟩ :
      ∃ s, SynRequest.Reachable SynRequest.Orderly s ∧
        decide (s.callers.map (fun c => c.state.remaining) = [0, 0]) = true :=
    SynRequest.exists_reachable SynRequest.sampleCalls _ (by decide +kernel)
  rw [decide_eq_true_eq] at hfacts
  exact ⟨s, hs, hfacts, (calls_get_own_answer s hs).1⟩

theorem late_response_misleads :
    ¬∀ s : SynRequest Header systemProtobuf,
      SynRequest.Reachable (fun _ _ => True) s → s.Answers := by
  intro h
  obtain ⟨s, hs, hfacts⟩ :
      ∃ s, SynRequest.Reachable (fun _ _ => True) s ∧
        s.callers.any SynRequest.misled = true :=
    SynRequest.exists_reachable SynRequest.lateResponse _ (by decide +kernel)
  obtain ⟨c, hc, hmisled⟩ := List.any_eq_true.mp hfacts
  exact SynRequest.not_answers_of_misled hc hmisled (h s hs)

end StarsGaming.Net
