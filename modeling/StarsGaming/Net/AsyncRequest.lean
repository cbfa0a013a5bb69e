import StarsGaming.Foundation.Runs
import StarsGaming.Net.Proto
import StarsGaming.Net.Session

/-!
# Asynchronous requests

A request waits in a table under its sequence number, together with a timer.
A response calls the request's function and cancels the timer; the entry leaves
the table only when the timer's handler runs, which cancelling does not recall
once it is queued without an error.
-/

namespace StarsGaming.Net

open Foundation

variable {H : Type} {P : Protobuf}

structure AsynItem (H : Type) where
  request : Nat
  header : H

@[ext] structure Timer where
  sequenceid : BitVec 64
  state : TimerState
  deriving DecidableEq

/--
The requests of one session.  Requests are numbered by the order in which they
entered the table, and each has the timer of its number.  `registered` holds
the sequence number of every request that entered the table and `calls` every
call of a request's function; no handler looks at either.
-/
structure AsyncRequest (H : Type) (P : Protobuf) where
  sequenceid : BitVec 64
  items : BitVec 64 → Option (AsynItem H)
  timers : Nat → Option Timer
  registered : List (BitVec 64)
  calls : List (Nat × Reply H P)

namespace AsyncRequest

inductive Fault where
  | noItem

def new : AsyncRequest H P :=
  ⟨0, fun _ => none, fun _ => none, [], []⟩

section Handlers

variable [HeaderType H]

def find (s : AsyncRequest H P) (response : Reply H P) :
    Option (AsynItem H) :=
  s.items response.sequenceid

def call (request : Nat) (response : Reply H P) (s : AsyncRequest H P) :
    AsyncRequest H P :=
  { s with calls := s.calls ++ [(request, response)] }

def cancelTimer (request : Nat) (s : AsyncRequest H P) :
    AsyncRequest H P :=
  { s with
    timers := Function.update s.timers request
      ((s.timers request).map fun timer =>
        { timer with state := timer.state.cancel }) }

def onResponseCome (response : Reply H P) (s : AsyncRequest H P) :
    AsyncRequest H P :=
  match s.find response with
  | none => s
  | some item => (s.cancelTimer item.request).call item.request response

def timeoutResponse (maker : MessageMaker P) (item : AsynItem H)
    (sequenceid : BitVec 64) : Reply H P :=
  let response : Reply H P :=
    makeResponse maker (HeaderType.cmdtype item.header)
  { response with
    header := HeaderType.setSequenceid sequenceid
      (HeaderType.setResponseResult ErrorCode.waitRespTimeout
        response.header) }

def onResponseTimeout (maker : MessageMaker P) (err : Bool)
    (sequenceid : BitVec 64) (s : AsyncRequest H P) :
    Except Fault (AsyncRequest H P) :=
  match s.items sequenceid with
  | none => .error .noItem
  | some item =>
      let s :=
        if err then s
        else s.call item.request (timeoutResponse maker item sequenceid)
      .ok { s with items := Function.update s.items sequenceid none }

def sendRequest (header : H) (s : AsyncRequest H P) : AsyncRequest H P :=
  let sequenceid := HeaderType.sequenceid header
  match s.items sequenceid with
  | some _ => s
  | none =>
      let request := s.registered.length
      { s with
        items := Function.update s.items sequenceid (some ⟨request, header⟩)
        timers := Function.update s.timers request
          (some ⟨sequenceid, .waiting⟩)
        registered := s.registered ++ [sequenceid] }

def doSendAsynMessage (header : H) (s : AsyncRequest H P) :
    AsyncRequest H P :=
  let numbered := setMsgSequenceid
    (HeaderType.setType MsgType.asynRequest header) s.sequenceid
  sendRequest numbered.1 { s with sequenceid := numbered.2 }

inductive Event (H : Type) (P : Protobuf) where
  | sendAsyn (header : H)
  | sendOther
  | response (response : Reply H P)
  | expire (request : Nat)
  | timerHandler (request : Nat)

def runTimer (maker : MessageMaker P) (request : Nat)
    (s : AsyncRequest H P) : Except Fault (AsyncRequest H P) :=
  match s.timers request with
  | none => .ok s
  | some timer =>
      onResponseTimeout maker (timer.state = .cancelled) timer.sequenceid
        { s with timers := Function.update s.timers request none }

def step (maker : MessageMaker P) (s : AsyncRequest H P) :
    Event H P → Except Fault (AsyncRequest H P)
  | .sendAsyn header => .ok (s.doSendAsynMessage header)
  | .sendOther => .ok { s with sequenceid := s.sequenceid + 1 }
  | .response response => .ok (s.onResponseCome response)
  | .expire request =>
      .ok { s with
        timers := Function.update s.timers request
          ((s.timers request).map fun timer =>
            { timer with state := .expired }) }
  | .timerHandler request => s.runTimer maker request

def Enabled (s : AsyncRequest H P) : Event H P → Prop
  | .expire request =>
      (s.timers request).map Timer.state = some .waiting
  | .timerHandler request =>
      ∃ timer ∈ s.timers request, timer.state ≠ .waiting
  | _ => True

/--
A response finds no entry, or one whose timer still waits: neither an earlier
response nor the end of its time has come.
-/
def Timely (s : AsyncRequest H P) : Event H P → Prop
  | .response response =>
      ∀ item ∈ s.find response,
        (s.timers item.request).map Timer.state = some .waiting
  | _ => True

/-- The states of a session all of whose steps meet `ok`. -/
def Reachable (maker : MessageMaker P)
    (ok : AsyncRequest H P → Event H P → Prop) (s : AsyncRequest H P) : Prop :=
  Reaches (fun s => s = new) (fun s e => Enabled s e ∧ ok s e) (step maker) s

end Handlers

/-! ## Entries and timers -/

structure Linked (items : BitVec 64 → Option (AsynItem H))
    (timers : Nat → Option Timer) (registered : List (BitVec 64)) :
    Prop where
  item_of_timer : ∀ request timer, timers request = some timer →
    ∃ header, items timer.sequenceid = some ⟨request, header⟩
  timer_of_item : ∀ sequenceid item, items sequenceid = some item →
    ∃ state, timers item.request = some ⟨sequenceid, state⟩
  registered_of_timer : ∀ request timer, timers request = some timer →
    registered[request]? = some timer.sequenceid

def Sound (s : AsyncRequest H P) : Prop :=
  Linked s.items s.timers s.registered

theorem sound_new : (new : AsyncRequest H P).Sound := by
  constructor <;> intro _ _ h <;> cases h

namespace Linked

variable {items : BitVec 64 → Option (AsynItem H)}
  {timers : Nat → Option Timer} {registered : List (BitVec 64)}

theorem setState (h : Linked items timers registered) (request : Nat)
    (f : Timer → Timer)
    (hf : ∀ timer, (f timer).sequenceid = timer.sequenceid) :
    Linked items
      (Function.update timers request ((timers request).map f))
      registered := by
  have hold : ∀ r timer,
      Function.update timers request ((timers request).map f) r =
        some timer →
      ∃ old, timers r = some old ∧ timer.sequenceid = old.sequenceid := by
    intro r timer htimer
    rw [Function.update_apply] at htimer
    split_ifs at htimer with hr
    · obtain ⟨old, hold, rfl⟩ := Option.map_eq_some_iff.mp htimer
      exact ⟨old, hr ▸ hold, hf old⟩
    · exact ⟨timer, htimer, rfl⟩
  constructor
  · intro r timer htimer
    obtain ⟨old, hr, hseq⟩ := hold r timer htimer
    rw [hseq]
    exact h.item_of_timer r old hr
  · intro sequenceid item hitem
    obtain ⟨state, hstate⟩ := h.timer_of_item sequenceid item hitem
    by_cases hr : item.request = request
    · subst hr
      refine ⟨(f ⟨sequenceid, state⟩).state, ?_⟩
      rw [Function.update_self, hstate, Option.map_some]
      exact congrArg some (Timer.ext (hf _) rfl)
    · exact ⟨state, by simp [hr, hstate]⟩
  · intro r timer htimer
    obtain ⟨old, hr, hseq⟩ := hold r timer htimer
    rw [hseq]
    exact h.registered_of_timer r old hr

theorem insert (h : Linked items timers registered)
    {sequenceid : BitVec 64} (header : H) (hfree : items sequenceid = none) :
    Linked
      (Function.update items sequenceid (some ⟨registered.length, header⟩))
      (Function.update timers registered.length
        (some ⟨sequenceid, .waiting⟩))
      (registered ++ [sequenceid]) := by
  have hnew : timers registered.length = none := by
    cases hold : timers registered.length with
    | none => rfl
    | some timer =>
        have hreg := h.registered_of_timer _ timer hold
        rw [List.getElem?_eq_none (Nat.le_refl _)] at hreg
        cases hreg
  constructor
  · intro r timer htimer
    by_cases hr : r = registered.length
    · subst hr
      rw [Function.update_self] at htimer
      cases htimer
      exact ⟨header, Function.update_self _ _ _⟩
    · rw [Function.update_of_ne hr] at htimer
      obtain ⟨old, hold⟩ := h.item_of_timer r timer htimer
      have hseq : timer.sequenceid ≠ sequenceid := by
        intro heq
        rw [heq, hfree] at hold
        cases hold
      exact ⟨old, by rw [Function.update_of_ne hseq, hold]⟩
  · intro seq item hitem
    by_cases hseq : seq = sequenceid
    · subst hseq
      rw [Function.update_self] at hitem
      cases hitem
      exact ⟨.waiting, Function.update_self _ _ _⟩
    · rw [Function.update_of_ne hseq] at hitem
      obtain ⟨state, hstate⟩ := h.timer_of_item seq item hitem
      have hr : item.request ≠ registered.length := by
        intro heq
        rw [heq, hnew] at hstate
        cases hstate
      exact ⟨state, by rw [Function.update_of_ne hr, hstate]⟩
  · intro r timer htimer
    by_cases hr : r = registered.length
    · subst hr
      rw [Function.update_self] at htimer
      cases htimer
      exact List.getElem?_concat_length
    · rw [Function.update_of_ne hr] at htimer
      have hreg := h.registered_of_timer r timer htimer
      obtain ⟨hlt, _⟩ := List.getElem?_eq_some_iff.mp hreg
      rw [List.getElem?_append_left hlt]
      exact hreg

theorem remove (h : Linked items timers registered) {request : Nat}
    {timer : Timer} (htimer : timers request = some timer) :
    Linked (Function.update items timer.sequenceid none)
      (Function.update timers request none) registered := by
  obtain ⟨header, hitem⟩ := h.item_of_timer request timer htimer
  constructor
  · intro r other hother
    have hr : r ≠ request := by
      rintro rfl
      rw [Function.update_self] at hother
      cases hother
    rw [Function.update_of_ne hr] at hother
    obtain ⟨header', hitem'⟩ := h.item_of_timer r other hother
    have hseq : other.sequenceid ≠ timer.sequenceid := by
      intro heq
      rw [heq, hitem] at hitem'
      cases hitem'
      exact hr rfl
    exact ⟨header', by rw [Function.update_of_ne hseq, hitem']⟩
  · intro seq item hitem'
    have hseq : seq ≠ timer.sequenceid := by
      rintro rfl
      rw [Function.update_self] at hitem'
      cases hitem'
    rw [Function.update_of_ne hseq] at hitem'
    obtain ⟨state, hstate⟩ := h.timer_of_item seq item hitem'
    have hr : item.request ≠ request := by
      intro heq
      rw [heq, htimer] at hstate
      cases hstate
      exact hseq rfl
    exact ⟨state, by rw [Function.update_of_ne hr, hstate]⟩
  · intro r other hother
    have hr : r ≠ request := by
      rintro rfl
      rw [Function.update_self] at hother
      cases hother
    rw [Function.update_of_ne hr] at hother
    exact h.registered_of_timer r other hother

end Linked

section Steps

variable [HeaderType H] {s : AsyncRequest H P}

theorem Sound.sendRequest (h : s.Sound) (header : H) :
    (s.sendRequest header).Sound := by
  rw [AsyncRequest.sendRequest]
  split
  next => exact h
  next hfree => exact Linked.insert h header hfree

theorem Sound.onResponseCome (h : s.Sound) (response : Reply H P) :
    (s.onResponseCome response).Sound := by
  rw [AsyncRequest.onResponseCome]
  split
  next => exact h
  next => exact Linked.setState h _ _ fun _ => rfl

theorem Sound.runTimer (h : s.Sound) (maker : MessageMaker P)
    {request : Nat} {timer : Timer} (htimer : s.timers request = some timer) :
    ∃ header, s.runTimer maker request = .ok
      { s with
        items := Function.update s.items timer.sequenceid none
        timers := Function.update s.timers request none
        calls :=
          if timer.state = .cancelled then s.calls
          else s.calls ++ [(request,
            timeoutResponse maker ⟨request, header⟩ timer.sequenceid)] } := by
  obtain ⟨header, hitem⟩ := h.item_of_timer request timer htimer
  refine ⟨header, ?_⟩
  rw [AsyncRequest.runTimer, htimer]
  simp only [onResponseTimeout, hitem]
  by_cases hcancelled : timer.state = .cancelled <;> simp [hcancelled, call]

theorem Sound.step (h : s.Sound) (maker : MessageMaker P) {e : Event H P}
    (henabled : s.Enabled e) :
    ∃ s', s.step maker e = .ok s' ∧ s'.Sound := by
  cases e with
  | sendAsyn header =>
      refine ⟨_, rfl, ?_⟩
      exact Sound.sendRequest (s := { s with sequenceid := s.sequenceid + 1 })
        h _
  | sendOther => exact ⟨_, rfl, h⟩
  | response response => exact ⟨_, rfl, h.onResponseCome response⟩
  | expire request =>
      exact ⟨_, rfl, Linked.setState h request _ fun _ => rfl⟩
  | timerHandler request =>
      obtain ⟨timer, htimer, _⟩ := henabled
      obtain ⟨header, hrun⟩ := h.runTimer maker htimer
      exact ⟨_, hrun, Linked.remove h htimer⟩

theorem Reachable.sound {maker : MessageMaker P}
    {ok : AsyncRequest H P → Event H P → Prop}
    (h : Reachable maker ok s) : s.Sound := by
  apply Reaches.invariant _ _ h
  · rintro s rfl
    exact sound_new
  · intro s e s' hs hok hstep
    obtain ⟨t, ht, hsound⟩ := hs.step maker hok.1
    rw [ht] at hstep
    cases hstep
    exact hsound

/-! ## Calls -/

def callCount (s : AsyncRequest H P) (request : Nat) : Nat :=
  (s.calls.map Prod.fst).count request

def due : Option Timer → Nat
  | none => 1
  | some timer => if timer.state = .cancelled then 1 else 0

structure Once (s : AsyncRequest H P) : Prop where
  count : ∀ request < s.registered.length,
    s.callCount request = due (s.timers request)
  answered : ∀ c ∈ s.calls, s.registered[c.1]? = some c.2.sequenceid

omit [HeaderType H] in
theorem callCount_call (s : AsyncRequest H P) (request other : Nat)
    (response : Reply H P) :
    (s.call request response).callCount other =
      s.callCount other + if request = other then 1 else 0 := by
  simp [callCount, call, List.count_append, List.count_singleton]

theorem Once.setTimer (h : s.Once) {request : Nat} {timer : Option Timer}
    (hdue : due timer = due (s.timers request))
    (items : BitVec 64 → Option (AsynItem H)) :
    Once { s with
      items
      timers := Function.update s.timers request timer } := by
  constructor
  · intro other hlt
    have hcount := h.count other hlt
    change s.callCount other = due (Function.update s.timers _ _ other)
    by_cases heq : other = request
    · subst heq
      rw [Function.update_self, hdue, hcount]
    · rw [Function.update_of_ne heq, hcount]
  · exact h.answered

theorem Once.callTimer (h : s.Once) {request : Nat} {timer : Option Timer}
    {response : Reply H P} (hbefore : due (s.timers request) = 0)
    (hafter : due timer = 1)
    (hreg : s.registered[request]? = some response.sequenceid)
    (items : BitVec 64 → Option (AsynItem H)) :
    Once { s.call request response with
      items
      timers := Function.update s.timers request timer } := by
  constructor
  · intro other hlt
    have hcount := h.count other hlt
    change (s.call request response).callCount other =
      due (Function.update s.timers _ _ other)
    rw [callCount_call]
    by_cases heq : other = request
    · subst heq
      rw [Function.update_self, hafter, hcount, hbefore, if_pos rfl]
    · rw [Function.update_of_ne heq, hcount, if_neg (Ne.symm heq)]
      rfl
  · intro c hc
    rcases List.mem_append.mp hc with hold | hnew
    · exact h.answered c hold
    · rw [List.mem_singleton.mp hnew]
      exact hreg

theorem Once.onResponseCome (h : s.Once) (hsound : s.Sound)
    {response : Reply H P} (htimely : s.Timely (.response response)) :
    (s.onResponseCome response).Once := by
  rw [AsyncRequest.onResponseCome]
  cases hfind : s.find response with
  | none => exact h
  | some item =>
      obtain ⟨timer, htimer, hstate⟩ :=
        Option.map_eq_some_iff.mp (htimely item hfind)
      obtain ⟨state, hlink⟩ := hsound.timer_of_item _ item hfind
      apply h.callTimer
      · simp [htimer, due, hstate]
      · simp [htimer, due, hstate, TimerState.cancel]
      · exact hsound.registered_of_timer _ _ hlink

theorem Once.expire (h : s.Once) {request : Nat}
    (henabled : s.Enabled (.expire request)) :
    Once { s with
      timers := Function.update s.timers request
        ((s.timers request).map fun timer =>
          { timer with state := .expired }) } := by
  obtain ⟨timer, htimer, hstate⟩ := Option.map_eq_some_iff.mp henabled
  apply h.setTimer
  simp [htimer, due, hstate]

theorem Once.callCount_length (h : s.Once) :
    s.callCount s.registered.length = 0 := by
  apply List.count_eq_zero.mpr
  intro hmem
  obtain ⟨c, hc, heq⟩ := List.mem_map.mp hmem
  have hreg := h.answered c hc
  rw [heq, List.getElem?_eq_none (Nat.le_refl _)] at hreg
  cases hreg

theorem Once.sendRequest (h : s.Once) (header : H) :
    (s.sendRequest header).Once := by
  rw [AsyncRequest.sendRequest]
  split
  next => exact h
  next hfree =>
    constructor
    · intro request hlt
      change s.callCount request =
        due (Function.update s.timers s.registered.length _ request)
      rw [List.length_append, List.length_singleton] at hlt
      by_cases heq : request = s.registered.length
      · subst heq
        rw [h.callCount_length, Function.update_self]
        rfl
      · rw [Function.update_of_ne heq]
        exact h.count request (by omega)
    · intro c hc
      have hreg := h.answered c hc
      obtain ⟨hlt, _⟩ := List.getElem?_eq_some_iff.mp hreg
      change (s.registered ++ [_])[c.1]? = _
      rw [List.getElem?_append_left hlt]
      exact hreg

theorem Once.runTimer (h : s.Once) (hsound : s.Sound) {request : Nat}
    {timer : Timer} (htimer : s.timers request = some timer)
    {response : Reply H P}
    (hresponse : response.sequenceid = timer.sequenceid) :
    Once { s with
      items := Function.update s.items timer.sequenceid none
      timers := Function.update s.timers request none
      calls :=
        if timer.state = .cancelled then s.calls
        else s.calls ++ [(request, response)] } := by
  by_cases hcancelled : timer.state = .cancelled
  · simp only [hcancelled, if_true]
    apply h.setTimer
    simp [htimer, due, hcancelled]
  · simp only [hcancelled, if_false]
    apply h.callTimer
    · simp [htimer, due, hcancelled]
    · rfl
    · rw [hresponse]
      exact hsound.registered_of_timer request timer htimer

theorem sequenceid_timeoutResponse (maker : MessageMaker P)
    (item : AsynItem H) (sequenceid : BitVec 64) :
    (timeoutResponse maker item sequenceid).sequenceid = sequenceid := by
  simp [timeoutResponse, Reply.sequenceid]

theorem Once.step (h : s.Once) (hsound : s.Sound) {maker : MessageMaker P}
    {e : Event H P} (henabled : s.Enabled e) (htimely : s.Timely e)
    {s' : AsyncRequest H P} (hstep : s.step maker e = .ok s') : s'.Once := by
  cases e with
  | sendAsyn header =>
      cases hstep
      exact Once.sendRequest (s := { s with sequenceid := s.sequenceid + 1 })
        ⟨h.count, h.answered⟩ _
  | sendOther =>
      cases hstep
      exact ⟨h.count, h.answered⟩
  | response response =>
      cases hstep
      exact h.onResponseCome hsound htimely
  | expire request =>
      cases hstep
      exact h.expire henabled
  | timerHandler request =>
      obtain ⟨timer, htimer, _⟩ := henabled
      obtain ⟨header, hrun⟩ := hsound.runTimer maker htimer
      rw [AsyncRequest.step, hrun] at hstep
      cases hstep
      exact h.runTimer hsound htimer (sequenceid_timeoutResponse _ _ _)

theorem Reachable.once {maker : MessageMaker P}
    (h : Reachable maker Timely s) : s.Once := by
  apply Reaches.invariant_of (fun _ => Reachable.sound) _ _ h
  · rintro s rfl
    exact ⟨fun _ hlt => absurd hlt (Nat.not_lt_zero _),
      List.forall_mem_nil _⟩
  · intro s e s' hsound honce hok hstep
    exact honce.step hsound hok.1 hok.2 hstep

end Steps

end AsyncRequest

def AsyncRequest.Pending (s : AsyncRequest H P) (request : Nat) : Prop :=
  ∃ sequenceid header, s.items sequenceid = some ⟨request, header⟩

namespace AsyncRequest

theorem due_le_one (timer : Option Timer) : due timer ≤ 1 := by
  cases timer with
  | none => exact Nat.le_refl 1
  | some timer =>
      rw [due]
      split <;> omega

theorem Sound.pending_iff {s : AsyncRequest H P} (h : s.Sound)
    (request : Nat) : s.Pending request ↔ s.timers request ≠ none := by
  constructor
  · rintro ⟨sequenceid, header, hitem⟩
    obtain ⟨state, hstate⟩ := h.timer_of_item sequenceid _ hitem
    rw [hstate]
    exact Option.some_ne_none _
  · intro hne
    obtain ⟨timer, htimer⟩ := Option.ne_none_iff_exists'.mp hne
    obtain ⟨header, hitem⟩ := h.item_of_timer request timer htimer
    exact ⟨_, header, hitem⟩

end AsyncRequest

/--
No handler of a timer misses its entry.  As long as every response comes in
time, a request's function is called at most once, and once when its entry has
left the table; the response it is given bears the number of the request.
-/
theorem requests_complete_once [HeaderType H] (maker : MessageMaker P)
    (s : AsyncRequest H P) :
    (AsyncRequest.Reachable maker (fun _ _ => True) s →
      ∀ e, s.Enabled e → ∃ s', s.step maker e = .ok s') ∧
    (AsyncRequest.Reachable maker AsyncRequest.Timely s →
      (∀ request < s.registered.length, s.callCount request ≤ 1 ∧
        (¬s.Pending request → s.callCount request = 1)) ∧
      ∀ c ∈ s.calls, s.registered[c.1]? = some c.2.sequenceid) := by
  constructor
  · intro h e henabled
    obtain ⟨s', hs', _⟩ := h.sound.step maker henabled
    exact ⟨s', hs'⟩
  · intro h
    constructor
    · intro request hlt
      rw [h.once.count request hlt]
      constructor
      · exact AsyncRequest.due_le_one _
      · intro hpending
        rw [h.sound.pending_iff, not_not] at hpending
        rw [hpending]
        rfl
    · exact h.once.answered

namespace AsyncRequest

section Samples

variable [HeaderType H]

instance (s : AsyncRequest H P) : ∀ e, Decidable (s.Enabled e)
  | .sendAsyn _ | .sendOther | .response _ => .isTrue trivial
  | .expire _ => inferInstanceAs (Decidable (_ = _))
  | .timerHandler _ => inferInstanceAs (Decidable (∃ timer ∈ _, _))

instance (s : AsyncRequest H P) : ∀ e, Decidable (s.Timely e)
  | .response _ => inferInstanceAs (Decidable (∀ item ∈ _, _))
  | .sendAsyn _ | .sendOther | .expire _ | .timerHandler _ => .isTrue trivial

theorem exists_reachable {maker : MessageMaker P}
    {ok : AsyncRequest H P → Event H P → Prop} [∀ s e, Decidable (ok s e)]
    (inputs : List (Event H P)) (p : AsyncRequest H P → Bool)
    (h : (runs (fun s e => Enabled s e ∧ ok s e) (step maker) new
      inputs).any p) :
    ∃ s, Reachable maker ok s ∧ p s := by
  apply exists_reaches _ inputs p h
  rfl

end Samples

def sampleResponse (sequenceid : BitVec 64) : Reply Header systemProtobuf where
  header := { Header.empty with sequenceid }
  pbmessage := none

def sampleRequests : List (Event Header systemProtobuf) :=
  [.sendAsyn .empty, .sendAsyn .empty, .response (sampleResponse 0),
    .expire 1, .timerHandler 1, .timerHandler 0]

def repeatedResponse : List (Event Header systemProtobuf) :=
  [.sendAsyn .empty, .response (sampleResponse 0),
    .response (sampleResponse 0), .timerHandler 0]

end AsyncRequest

theorem sampleRequests_complete_once :
    ∃ s : AsyncRequest Header systemProtobuf,
      AsyncRequest.Reachable .new AsyncRequest.Timely s ∧
      s.registered.length = 2 ∧ s.calls.map Prod.fst = [0, 1] ∧
      ∀ c ∈ s.calls, s.registered[c.1]? = some c.2.sequenceid := by
  obtain ⟨s, hs, hfacts⟩ :
      ∃ s, AsyncRequest.Reachable .new AsyncRequest.Timely s ∧
        decide (s.registered.length = 2 ∧
          s.calls.map Prod.fst = [0, 1]) = true :=
    AsyncRequest.exists_reachable AsyncRequest.sampleRequests _
      (by decide +kernel)
  rw [decide_eq_true_eq] at hfacts
  exact ⟨s, hs, hfacts.1, hfacts.2,
    ((requests_complete_once .new s).2 hs).2⟩

theorem repeated_response_called_twice :
    ¬∀ (maker : MessageMaker systemProtobuf)
      (s : AsyncRequest Header systemProtobuf),
      AsyncRequest.Reachable maker (fun _ _ => True) s →
      ∀ request < s.registered.length, ¬s.Pending request →
        s.callCount request = 1 := by
  intro h
  obtain ⟨s, hs, hfacts⟩ :
      ∃ s, AsyncRequest.Reachable .new (fun _ _ => True) s ∧
        decide (s.registered.length = 1 ∧ s.timers 0 = none ∧
          s.callCount 0 = 2) = true :=
    AsyncRequest.exists_reachable AsyncRequest.repeatedResponse _
      (by decide +kernel)
  rw [decide_eq_true_eq] at hfacts
  obtain ⟨hlen, htimer, hcount⟩ := hfacts
  have hgone : ¬s.Pending 0 := by
    rw [hs.sound.pending_iff, htimer]
    exact fun hne => hne rfl
  have hone := h .new s hs 0 (by omega) hgone
  omega

end StarsGaming.Net
