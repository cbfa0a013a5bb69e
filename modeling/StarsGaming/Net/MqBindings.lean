import StarsGaming.Foundation.Bytes
import StarsGaming.Foundation.Entries

/-!
# Bindings of the queue

The client and its session each keep the exchanges the queue is bound to and, in
a map keyed by the exchange, the routing keys.  Both maps are filled from the
configuration and by later calls, and the session goes through its own each
time a channel is ready and each time the queue is declared.
-/

namespace StarsGaming.Net

open Foundation

inductive ExchangeType where
  | fanout
  | direct
  | topic
  | headers
  | consistentHash
  deriving DecidableEq

structure BindConfig where
  exchange : List Byte
  routkeys : List (List Byte)

structure MqConfig where
  queue : List Byte
  binds : List BindConfig

structure MqInfo where
  queue : List Byte
  exchanges : List (List Byte × ExchangeType)
  binds : List (List Byte × List (List Byte))

namespace BindConfig

def isDirect (e : BindConfig) : Bool :=
  decide (ascii ".direct" <:+: e.exchange)

def isTopic (e : BindConfig) : Bool :=
  decide (ascii ".topic" <:+: e.exchange)

def exchangeType (e : BindConfig) : Option ExchangeType :=
  if e.isDirect then some .direct
  else if e.isTopic then some .topic
  else none

def allRout (sub : List Byte) (e : BindConfig) : List (List Byte) :=
  e.routkeys.map fun rout =>
    if e.isDirect ∧ sub ≠ [] then rout ++ ascii "-" ++ sub else rout

end BindConfig

namespace MqInfo

def insert (exchange : List Byte) (type : ExchangeType)
    (routKeys : List (List Byte)) (info : MqInfo) : MqInfo :=
  { info with
    exchanges := insertNew exchange type info.exchanges
    binds := insertNew exchange routKeys info.binds }

def parseBind (sub : List Byte) (info : MqInfo) (e : BindConfig) : MqInfo :=
  match e.exchangeType with
  | none => info
  | some type => info.insert e.exchange type (e.allRout sub)

def parseConfig (config : MqConfig) (sub : List Byte) : MqInfo :=
  let queue :=
    if sub ≠ [] then config.queue ++ ascii "-" ++ sub else config.queue
  config.binds.foldl (parseBind sub) ⟨queue, [], []⟩

def bindings (info : MqInfo) : List (List Byte × List Byte) :=
  info.exchanges.flatMap fun one =>
    match info.binds.lookup one.1 with
    | none => []
    | some routKeys => routKeys.map fun e => (one.1, e)

end MqInfo

/-- `bound` is what the broker has bound to the queue. -/
structure MqBindings where
  client : MqInfo
  session : MqInfo
  isSessionOpend : Bool
  bound : List (List Byte × List Byte)

inductive BindEvent where
  /-- a call of `bind_exchange`; `reached` if the broker gets what is sent -/
  | bindExchange (exchange : List Byte) (type : ExchangeType)
      (routKey : List Byte) (reached : Bool)
  | channelReady
  | queueSuccessCall
  /-- the connection is gone; the broker keeps some of the bindings -/
  | connectionLost (kept : List (List Byte × List Byte))
  | doClose

namespace MqBindings

def bindingExchange (s : MqBindings) : MqBindings :=
  { s with bound := s.bound ++ s.session.bindings }

def bindOneExchange (exchange : List Byte) (type : ExchangeType)
    (routKey : List Byte) (reached : Bool) (s : MqBindings) : MqBindings :=
  let s := { s with session := s.session.insert exchange type [routKey] }
  if !s.isSessionOpend then s
  else if reached then { s with bound := s.bound ++ [(exchange, routKey)] }
  else s

def doBind (exchange : List Byte) (type : ExchangeType)
    (routKey : List Byte) (reached : Bool) (s : MqBindings) : MqBindings :=
  bindOneExchange exchange type routKey reached
    { s with client := s.client.insert exchange type [routKey] }

def step (s : MqBindings) : BindEvent → MqBindings
  | .bindExchange exchange type routKey reached =>
      s.doBind exchange type routKey reached
  | .channelReady => { s.bindingExchange with isSessionOpend := true }
  | .queueSuccessCall => s.bindingExchange
  | .connectionLost kept =>
      { s with bound := s.bound.filter fun pair => decide (pair ∈ kept) }
  | .doClose => { s with isSessionOpend := false }

def new (config : MqConfig) (sub : List Byte) : MqBindings where
  client := .parseConfig config sub
  session := .parseConfig config sub
  isSessionOpend := false
  bound := []

def after (config : MqConfig) (sub : List Byte) (events : List BindEvent) :
    MqBindings :=
  events.foldl step (new config sub)

theorem session_doBind (s : MqBindings) (exchange : List Byte)
    (type : ExchangeType) (routKey : List Byte) (reached : Bool) :
    (s.doBind exchange type routKey reached).session =
      s.session.insert exchange type [routKey] := by
  rw [doBind, bindOneExchange]
  dsimp only
  split_ifs <;> rfl

theorem isSessionOpend_doBind (s : MqBindings) (exchange : List Byte)
    (type : ExchangeType) (routKey : List Byte) (reached : Bool) :
    (s.doBind exchange type routKey reached).isSessionOpend =
      s.isSessionOpend := by
  rw [doBind, bindOneExchange]
  dsimp only
  split_ifs <;> rfl

theorem mem_bound_doBind {s : MqBindings} {exchange : List Byte}
    {type : ExchangeType} {routKey : List Byte} {reached : Bool}
    {pair : List Byte × List Byte} :
    pair ∈ (s.doBind exchange type routKey reached).bound ↔
      pair ∈ s.bound ∨ s.isSessionOpend = true ∧ reached = true ∧
        pair = (exchange, routKey) := by
  rw [doBind, bindOneExchange]
  dsimp only
  split_ifs <;> simp_all

end MqBindings

/-! ## What is to be bound -/

def MqConfig.listed (config : MqConfig) (sub : List Byte) :
    List (List Byte × List Byte) :=
  config.binds.flatMap fun e => (e.allRout sub).map fun k => (e.exchange, k)

def BindEvent.passed : BindEvent → List (List Byte × List Byte)
  | .bindExchange exchange _ routKey _ => [(exchange, routKey)]
  | _ => []

def passed (events : List BindEvent) : List (List Byte × List Byte) :=
  events.flatMap BindEvent.passed

def named (config : MqConfig) (sub : List Byte) (events : List BindEvent) :
    List (List Byte × List (List Byte)) :=
  (config.binds.filter fun e => e.exchangeType.isSome).map
      (fun e => (e.exchange, e.allRout sub)) ++
    (passed events).map fun pair => (pair.1, [pair.2])

/-- The key was given when the exchange was named for the first time. -/
def FirstNamed (names : List (List Byte × List (List Byte)))
    (pair : List Byte × List Byte) : Prop :=
  ∃ routKeys, names.lookup pair.1 = some routKeys ∧ pair.2 ∈ routKeys

/-- A channel was ready and the session is not closed since. -/
def Opened (events : List BindEvent) : Prop :=
  ∃ before since, events = before ++ .channelReady :: since ∧
    .doClose ∉ since

/--
The pair was passed while the session was open, the call reached the broker and
the broker kept the pair whenever the connection was lost since.
-/
def KeptSince (events : List BindEvent) (pair : List Byte × List Byte) :
    Prop :=
  ∃ before type since,
    events = before ++ .bindExchange pair.1 type pair.2 true :: since ∧
      Opened before ∧ ∀ kept, .connectionLost kept ∈ since → pair ∈ kept

theorem Opened.concat {events : List BindEvent} (h : Opened events)
    {event : BindEvent} (hne : event ≠ .doClose) :
    Opened (events ++ [event]) := by
  obtain ⟨before, since, rfl, hopen⟩ := h
  refine ⟨before, since ++ [event], ?_, ?_⟩
  · rw [List.append_assoc, List.cons_append]
  · rw [List.mem_append, List.mem_singleton]
    rintro (hmem | heq)
    · exact hopen hmem
    · exact hne heq.symm

theorem KeptSince.concat {events : List BindEvent}
    {pair : List Byte × List Byte} (h : KeptSince events pair)
    {event : BindEvent}
    (hkept : ∀ kept, event = .connectionLost kept → pair ∈ kept) :
    KeptSince (events ++ [event]) pair := by
  obtain ⟨before, type, since, rfl, hopen, hsince⟩ := h
  refine ⟨before, type, since ++ [event], ?_, hopen, fun kept hmem => ?_⟩
  · rw [List.append_assoc, List.cons_append]
  · rcases List.mem_append.mp hmem with hmem | hmem
    · exact hsince kept hmem
    · exact hkept kept (List.mem_singleton.mp hmem).symm

theorem FirstNamed.append {names : List (List Byte × List (List Byte))}
    {pair : List Byte × List Byte} (h : FirstNamed names pair)
    (later : List (List Byte × List (List Byte))) :
    FirstNamed (names ++ later) pair := by
  obtain ⟨routKeys, hlookup, hkey⟩ := h
  refine ⟨routKeys, ?_, hkey⟩
  rw [List.lookup_append, hlookup, Option.some_or]

theorem FirstNamed.exists_mem {names : List (List Byte × List (List Byte))}
    {pair : List Byte × List Byte} (h : FirstNamed names pair) :
    ∃ routKeys, (pair.1, routKeys) ∈ names ∧ pair.2 ∈ routKeys := by
  obtain ⟨routKeys, hlookup, hkey⟩ := h
  obtain ⟨before, rest, rfl, _⟩ := List.lookup_eq_some_iff.mp hlookup
  exact ⟨routKeys, List.mem_append_right _ List.mem_cons_self, hkey⟩

theorem named_concat (config : MqConfig) (sub : List Byte)
    (events : List BindEvent) (event : BindEvent) :
    named config sub (events ++ [event]) =
      named config sub events ++
        event.passed.map fun pair => (pair.1, [pair.2]) := by
  simp [named, passed]

/-! ## The maps -/

namespace MqInfo

structure Holds (names : List (List Byte × List (List Byte)))
    (info : MqInfo) : Prop where
  keys : info.exchanges.map Prod.fst = info.binds.map Prod.fst
  binds : ∀ exchange, info.binds.lookup exchange = names.lookup exchange

variable {names : List (List Byte × List (List Byte))} {info : MqInfo}

theorem Holds.insert (h : info.Holds names) (exchange : List Byte)
    (type : ExchangeType) (routKeys : List (List Byte)) :
    (info.insert exchange type routKeys).Holds
      (names ++ [(exchange, routKeys)]) := by
  constructor
  · exact keys_insertNew h.keys
  · intro one
    change (insertNew exchange routKeys info.binds).lookup one = _
    rw [lookup_insertNew, List.lookup_append, List.lookup_append, h.binds]

theorem Holds.foldl_parseBind (sub : List Byte) (binds : List BindConfig)
    (h : info.Holds names) :
    (binds.foldl (parseBind sub) info).Holds
      (names ++ (binds.filter fun e => e.exchangeType.isSome).map
        fun e => (e.exchange, e.allRout sub)) := by
  induction binds generalizing names info with
  | nil => simpa using h
  | cons e rest ih =>
      rw [List.foldl_cons, parseBind]
      cases htype : e.exchangeType with
      | none =>
          rw [List.filter_cons_of_neg (by simp [htype])]
          exact ih h
      | some type =>
          rw [List.filter_cons_of_pos (by simp [htype]), List.map_cons,
            ← List.singleton_append, ← List.append_assoc]
          exact ih (h.insert e.exchange type (e.allRout sub))

theorem Holds.mem_bindings (h : info.Holds names)
    (pair : List Byte × List Byte) :
    pair ∈ info.bindings ↔ FirstNamed names pair := by
  rw [bindings, List.mem_flatMap]
  constructor
  · rintro ⟨one, _, hpair⟩
    cases hlookup : info.binds.lookup one.1 with
    | none =>
        rw [hlookup] at hpair
        exact absurd hpair List.not_mem_nil
    | some routKeys =>
        rw [hlookup] at hpair
        obtain ⟨key, hkey, rfl⟩ := List.mem_map.mp hpair
        exact ⟨routKeys, (h.binds one.1).symm.trans hlookup, hkey⟩
  · rintro ⟨routKeys, hlookup, hkey⟩
    rw [← h.binds] at hlookup
    obtain ⟨before, rest, hbinds, _⟩ := List.lookup_eq_some_iff.mp hlookup
    have hmem : pair.1 ∈ info.exchanges.map Prod.fst := by
      rw [h.keys, hbinds]
      simp
    obtain ⟨one, hone, hfst⟩ := List.mem_map.mp hmem
    refine ⟨one, hone, ?_⟩
    rw [hfst, hlookup]
    exact List.mem_map_of_mem hkey

end MqInfo

namespace MqBindings

/-- Nothing is bound that was not named. -/
structure Holds (names : List (List Byte × List (List Byte)))
    (s : MqBindings) : Prop where
  session : s.session.Holds names
  bound : ∀ pair ∈ s.bound,
    ∃ routKeys, (pair.1, routKeys) ∈ names ∧ pair.2 ∈ routKeys

variable {names : List (List Byte × List (List Byte))} {s : MqBindings}

theorem Holds.bindingExchange (h : s.Holds names) :
    s.bindingExchange.Holds names := by
  constructor
  · exact h.session
  · intro pair hpair
    rcases List.mem_append.mp hpair with hold | hnew
    · exact h.bound pair hold
    · exact ((h.session.mem_bindings pair).mp hnew).exists_mem

theorem Holds.doBind (h : s.Holds names) (exchange : List Byte)
    (type : ExchangeType) (routKey : List Byte) (reached : Bool) :
    (s.doBind exchange type routKey reached).Holds
      (names ++ [(exchange, [routKey])]) := by
  constructor
  · rw [session_doBind]
    exact h.session.insert exchange type [routKey]
  · intro pair hpair
    rcases mem_bound_doBind.mp hpair with hold | ⟨_, _, rfl⟩
    · obtain ⟨routKeys, hmem, hkey⟩ := h.bound pair hold
      exact ⟨routKeys, List.mem_append_left _ hmem, hkey⟩
    · exact ⟨[routKey], by simp, List.mem_singleton_self routKey⟩

theorem Holds.step (h : s.Holds names) (event : BindEvent) :
    (s.step event).Holds
      (names ++ event.passed.map fun pair => (pair.1, [pair.2])) := by
  cases event with
  | bindExchange exchange type routKey reached =>
      exact h.doBind exchange type routKey reached
  | channelReady =>
      simp only [BindEvent.passed, List.map_nil, List.append_nil]
      exact ⟨h.bindingExchange.session, h.bindingExchange.bound⟩
  | queueSuccessCall =>
      simp only [BindEvent.passed, List.map_nil, List.append_nil]
      exact h.bindingExchange
  | connectionLost kept =>
      simp only [BindEvent.passed, List.map_nil, List.append_nil]
      refine ⟨h.session, fun pair hpair => ?_⟩
      exact h.bound pair (List.mem_filter.mp hpair).1
  | doClose =>
      simp only [BindEvent.passed, List.map_nil, List.append_nil]
      exact ⟨h.session, h.bound⟩

theorem holds_after (config : MqConfig) (sub : List Byte)
    (events : List BindEvent) :
    (after config sub events).Holds (named config sub events) := by
  induction events using List.reverseRecOn with
  | nil =>
      constructor
      · have hempty : MqInfo.Holds [] ⟨if sub ≠ [] then
            config.queue ++ ascii "-" ++ sub else config.queue, [], []⟩ :=
          ⟨rfl, fun _ => rfl⟩
        have hparse := hempty.foldl_parseBind sub config.binds
        rw [List.nil_append] at hparse
        rw [named, passed, List.flatMap_nil, List.map_nil, List.append_nil]
        exact hparse
      · exact List.forall_mem_nil _
  | append_singleton events event ih =>
      rw [named_concat, after, List.foldl_concat]
      exact ih.step event

theorem after_concat (config : MqConfig) (sub : List Byte)
    (events : List BindEvent) (event : BindEvent) :
    after config sub (events ++ [event]) =
      (after config sub events).step event := by
  rw [after, List.foldl_concat]
  rfl

/-! ## Bound from before -/

theorem isSessionOpend_step {s : MqBindings} {event : BindEvent}
    (hready : event ≠ .channelReady) (hclose : event ≠ .doClose) :
    (s.step event).isSessionOpend = s.isSessionOpend := by
  cases event with
  | bindExchange exchange type routKey reached =>
      exact isSessionOpend_doBind s exchange type routKey reached
  | channelReady => exact absurd rfl hready
  | queueSuccessCall => rfl
  | connectionLost kept => rfl
  | doClose => exact absurd rfl hclose

theorem opened_after {config : MqConfig} {sub : List Byte}
    {events : List BindEvent}
    (h : (after config sub events).isSessionOpend = true) : Opened events := by
  induction events using List.reverseRecOn with
  | nil => cases h
  | append_singleton events event ih =>
      rw [after_concat] at h
      by_cases hready : event = .channelReady
      · exact ⟨events, [], by rw [hready], List.not_mem_nil⟩
      · have hclose : event ≠ .doClose := by
          rintro rfl
          cases h
        rw [isSessionOpend_step hready hclose] at h
        exact (ih h).concat hclose

theorem isSessionOpend_foldl {s : MqBindings} (h : s.isSessionOpend = true)
    {since : List BindEvent} (hclose : .doClose ∉ since) :
    (since.foldl step s).isSessionOpend = true := by
  induction since generalizing s with
  | nil => exact h
  | cons event rest ih =>
      rw [List.mem_cons, not_or] at hclose
      refine ih ?_ hclose.2
      by_cases hready : event = .channelReady
      · rw [hready]
        rfl
      · rw [isSessionOpend_step hready (Ne.symm hclose.1)]
        exact h

theorem isSessionOpend_after {config : MqConfig} {sub : List Byte}
    {events : List BindEvent} (h : Opened events) :
    (after config sub events).isSessionOpend = true := by
  obtain ⟨before, since, rfl, hclose⟩ := h
  rw [after, List.foldl_append, List.foldl_cons]
  exact isSessionOpend_foldl rfl hclose

theorem mem_bound_step {s : MqBindings} {pair : List Byte × List Byte}
    (h : pair ∈ s.bound) {event : BindEvent}
    (hkept : ∀ kept, event = .connectionLost kept → pair ∈ kept) :
    pair ∈ (s.step event).bound := by
  cases event with
  | bindExchange exchange type routKey reached =>
      exact mem_bound_doBind.mpr (.inl h)
  | channelReady => exact List.mem_append_left _ h
  | queueSuccessCall => exact List.mem_append_left _ h
  | connectionLost kept =>
      exact List.mem_filter.mpr ⟨h, decide_eq_true (hkept kept rfl)⟩
  | doClose => exact h

theorem mem_bound_foldl {s : MqBindings} {pair : List Byte × List Byte}
    (h : pair ∈ s.bound) {since : List BindEvent}
    (hkept : ∀ kept, .connectionLost kept ∈ since → pair ∈ kept) :
    pair ∈ (since.foldl step s).bound := by
  induction since generalizing s with
  | nil => exact h
  | cons event rest ih =>
      apply ih (mem_bound_step h _)
      · exact fun kept hmem => hkept kept (List.mem_cons_of_mem _ hmem)
      · rintro kept rfl
        exact hkept kept List.mem_cons_self

theorem mem_bound_of_keptSince {config : MqConfig} {sub : List Byte}
    {events : List BindEvent} {pair : List Byte × List Byte}
    (h : KeptSince events pair) :
    pair ∈ (after config sub events).bound := by
  obtain ⟨before, type, since, rfl, hopen, hkept⟩ := h
  have hopend : (after config sub before).isSessionOpend = true :=
    isSessionOpend_after hopen
  rw [after, List.foldl_append, List.foldl_cons]
  apply mem_bound_foldl _ hkept
  exact mem_bound_doBind.mpr (.inr ⟨hopend, rfl, rfl⟩)

theorem bound_step {s : MqBindings} {event : BindEvent}
    {pair : List Byte × List Byte} (h : pair ∈ (s.step event).bound) :
    (pair ∈ s.bound ∧
        ∀ kept, event = .connectionLost kept → pair ∈ kept) ∨
      pair ∈ s.session.bindings ∨
      s.isSessionOpend = true ∧
        ∃ type, event = .bindExchange pair.1 type pair.2 true := by
  cases event with
  | bindExchange exchange type routKey reached =>
      rcases mem_bound_doBind.mp h with hold | ⟨hopen, rfl, rfl⟩
      · exact .inl ⟨hold, fun _ heq => nomatch heq⟩
      · exact .inr (.inr ⟨hopen, type, rfl⟩)
  | channelReady =>
      rcases List.mem_append.mp h with hold | hnew
      · exact .inl ⟨hold, fun _ heq => nomatch heq⟩
      · exact .inr (.inl hnew)
  | queueSuccessCall =>
      rcases List.mem_append.mp h with hold | hnew
      · exact .inl ⟨hold, fun _ heq => nomatch heq⟩
      · exact .inr (.inl hnew)
  | connectionLost kept =>
      obtain ⟨hold, hkept⟩ := List.mem_filter.mp h
      refine .inl ⟨hold, ?_⟩
      rintro _ ⟨⟩
      exact of_decide_eq_true hkept
  | doClose => exact .inl ⟨h, fun _ heq => nomatch heq⟩

theorem firstNamed_or_keptSince {config : MqConfig} {sub : List Byte}
    {events : List BindEvent} {pair : List Byte × List Byte}
    (h : pair ∈ (after config sub events).bound) :
    FirstNamed (named config sub events) pair ∨ KeptSince events pair := by
  induction events using List.reverseRecOn with
  | nil => exact absurd h List.not_mem_nil
  | append_singleton events event ih =>
      rw [after_concat] at h
      rw [named_concat]
      rcases bound_step h with ⟨hold, hkept⟩ | hnew | ⟨hopen, type, rfl⟩
      · rcases ih hold with hfirst | hsince
        · exact .inl (hfirst.append _)
        · exact .inr (hsince.concat hkept)
      · have hsession := (holds_after config sub events).session
        exact .inl (((hsession.mem_bindings pair).mp hnew).append _)
      · refine .inr ⟨events, type, [], rfl, opened_after hopen, ?_⟩
        exact fun _ hmem => absurd hmem List.not_mem_nil

end MqBindings

theorem listed_or_passed_of_named {config : MqConfig} {sub : List Byte}
    {events : List BindEvent} {pair : List Byte × List Byte}
    (h : ∃ routKeys, (pair.1, routKeys) ∈ named config sub events ∧
      pair.2 ∈ routKeys) :
    pair ∈ config.listed sub ∨ pair ∈ passed events := by
  obtain ⟨exchange, key⟩ := pair
  obtain ⟨routKeys, hmem, hkey⟩ := h
  rcases List.mem_append.mp hmem with hmem | hmem
  · obtain ⟨e, he, heq⟩ := List.mem_map.mp hmem
    cases heq
    left
    rw [MqConfig.listed, List.mem_flatMap]
    exact ⟨e, (List.mem_filter.mp he).1, List.mem_map.mpr ⟨_, hkey, rfl⟩⟩
  · obtain ⟨other, hother, heq⟩ := List.mem_map.mp hmem
    cases heq
    right
    have heq : key = other.2 := List.mem_singleton.mp hkey
    rw [heq]
    exact hother

/--
Each time the exchanges are gone through, what is bound is what was listed and
passed exactly if every such pair either was given when its exchange was named
first, or was bound by a later call and is kept since.
-/
theorem bindingExchange_complete_iff (config : MqConfig) (sub : List Byte)
    (events : List BindEvent) :
    (∀ pair,
      pair ∈ (MqBindings.after config sub events).bindingExchange.bound ↔
        pair ∈ config.listed sub ∨ pair ∈ passed events) ↔
    ∀ pair, pair ∈ config.listed sub ∨ pair ∈ passed events →
      FirstNamed (named config sub events) pair ∨ KeptSince events pair := by
  have hafter := MqBindings.holds_after config sub events
  have hbound : ∀ pair,
      pair ∈ (MqBindings.after config sub events).bindingExchange.bound ↔
        FirstNamed (named config sub events) pair ∨ KeptSince events pair := by
    intro pair
    have hmem :
        pair ∈ (MqBindings.after config sub events).bindingExchange.bound ↔
          pair ∈ (MqBindings.after config sub events).bound ∨
            FirstNamed (named config sub events) pair := by
      rw [← hafter.session.mem_bindings]
      exact List.mem_append
    rw [hmem]
    constructor
    · rintro (hold | hfirst)
      · exact MqBindings.firstNamed_or_keptSince hold
      · exact .inl hfirst
    · rintro (hfirst | hsince)
      · exact .inr hfirst
      · exact .inl (MqBindings.mem_bound_of_keptSince hsince)
  constructor
  · intro h pair hpair
    exact (hbound pair).mp ((h pair).mpr hpair)
  · intro h pair
    constructor
    · intro hpair
      apply listed_or_passed_of_named
      exact hafter.bindingExchange.bound pair hpair
    · intro hpair
      exact (hbound pair).mpr (h pair hpair)

def secondKey : BindEvent :=
  .bindExchange (ascii "game.direct") .direct (ascii "k2") true

def oneBind : MqConfig :=
  ⟨ascii "game", [⟨ascii "game.direct", [ascii "k1"]⟩]⟩

theorem secondKey_not_bound :
    ¬∀ (config : MqConfig) (sub : List Byte) (events : List BindEvent)
      (pair : List Byte × List Byte),
      pair ∈ (MqBindings.after config sub events).bindingExchange.bound ↔
        pair ∈ config.listed sub ∨ pair ∈ passed events := by
  intro h
  have hbound := (h oneBind [] [secondKey]
    (ascii "game.direct", ascii "k2")).mpr (.inr (by decide))
  exact absurd hbound (by decide)

end StarsGaming.Net
