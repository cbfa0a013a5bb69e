import StarsGaming.Foundation.Circular
import StarsGaming.Foundation.Runs
import StarsGaming.Net.Framing

/-!
# The write pipeline

Messages wait in a queue while one of them is being written from the send
buffer.  Whether a write is outstanding is nowhere stored: it is read off the
queue, whose front stays in place until its write completes.
-/

namespace StarsGaming.Net

open Foundation

variable {P : Protobuf}

/-! ## The send queue -/

/-- The queue starts with room and never gives it up. -/
structure SendQueue (P : Protobuf) where
  messageQueue : CircularBuffer (TcpMsg P)
  capacity_pos : 0 < messageQueue.capacity

namespace SendQueue

def initSize : Nat := 0x100

def maxSize : Nat := 100000

def items (q : SendQueue P) : List (TcpMsg P) :=
  q.messageQueue.items

def new : SendQueue P :=
  ⟨.new initSize, show 0 < initSize by decide⟩

def isEmpty (q : SendQueue P) : Bool :=
  q.messageQueue.empty

theorem full_pos {q : SendQueue P} (h : q.messageQueue.full) :
    q.items.length < q.items.length + q.items.length := by
  have hpos := q.capacity_pos
  have hlen : q.items.length = q.messageQueue.capacity := of_decide_eq_true h
  omega

def push (msg : TcpMsg P) (q : SendQueue P) : Bool × SendQueue P :=
  let allSize := q.items.length
  if hfull : q.messageQueue.full then
    if maxSize < allSize then (false, q)
    else
      (true,
        ⟨(q.messageQueue.setCapacity (allSize + allSize)).pushBack msg,
          Nat.zero_lt_of_lt (full_pos hfull)⟩)
  else (true, ⟨q.messageQueue.pushBack msg, q.capacity_pos⟩)

def pop (q : SendQueue P) : SendQueue P :=
  if q.messageQueue.empty then q
  else ⟨q.messageQueue.popFront, q.capacity_pos⟩

def front (q : SendQueue P) : Option (TcpMsg P) :=
  q.items.head?

theorem push_cases (msg : TcpMsg P) (q : SendQueue P) :
    q.push msg = (false, q) ∧ maxSize < q.items.length ∨
      ∃ q', q.push msg = (true, q') ∧ q'.items = q.items ++ [msg] := by
  rw [push]
  split
  next hfull =>
    split
    next hmany => exact .inl ⟨rfl, hmany⟩
    next =>
      refine .inr ⟨_, rfl, ?_⟩
      have hroom := full_pos hfull
      have hitems := CircularBuffer.items_setCapacity (Nat.le_of_lt hroom)
      rw [items, CircularBuffer.items_pushBack, hitems]
      · rfl
      · rw [hitems]
        exact hroom
  next hfull =>
    refine .inr ⟨_, rfl, ?_⟩
    have hne : ¬q.items.length = q.messageQueue.capacity := fun h =>
      hfull (decide_eq_true h)
    have hle := q.messageQueue.length_le
    apply CircularBuffer.items_pushBack
    exact Nat.lt_of_le_of_ne hle hne

theorem items_push (msg : TcpMsg P) (q : SendQueue P) :
    (q.push msg).2.items =
      if (q.push msg).1 then q.items ++ [msg] else q.items := by
  rcases q.push_cases msg with ⟨hpush, _⟩ | ⟨q', hpush, hitems⟩
  · rw [hpush]
    rfl
  · rw [hpush]
    exact hitems

theorem many_of_refused {msg : TcpMsg P} {q : SendQueue P}
    (h : (q.push msg).1 = false) : maxSize < q.items.length := by
  rcases q.push_cases msg with ⟨_, hmany⟩ | ⟨q', hpush, _⟩
  · exact hmany
  · rw [hpush] at h
    cases h

@[simp] theorem items_pop (q : SendQueue P) : q.pop.items = q.items.tail := by
  rw [pop]
  split
  next h =>
    have hnil : q.items = [] := List.isEmpty_iff.mp h
    rw [hnil, List.tail_nil]
  next => rfl

theorem isEmpty_iff {q : SendQueue P} : q.isEmpty = true ↔ q.items = [] :=
  List.isEmpty_iff

end SendQueue

/-! ## The writing half of a session -/

/--
`writing` holds the send buffer as it was when each outstanding `async_write`
was started, `sent` the bytes given to `async_write` so far.
-/
structure Writer (P : Protobuf) where
  isOpen : Bool
  sendQueue : SendQueue P
  sendMsgBuf : MsgBuffer
  writing : List MsgBuffer
  sent : List (List Byte)

namespace Writer

variable (bigEndian : Bool)

def new (mem : Memory) : Writer P :=
  ⟨true, .new, .new mem, [], []⟩

def doClose (s : Writer P) : Writer P :=
  { s with isOpen := false }

def asyncWrite (msg : TcpMsg P) (s : Writer P) : Writer P :=
  let framed := frame bigEndian msg s.sendMsgBuf
  { s with
    sendMsgBuf := framed.2
    writing := framed.2 :: s.writing
    sent := s.sent ++ [framed.1] }

def doWrite (msg : TcpMsg P) (s : Writer P) : Writer P :=
  let isInWrite := !s.sendQueue.isEmpty
  match s.sendQueue.push msg with
  | (false, _) => s.doClose
  | (true, q) =>
      let s := { s with sendQueue := q }
      if isInWrite then s
      else if s.isOpen then s.asyncWrite bigEndian msg
      else s

/-- The handler of the outstanding write, which is outstanding no more. -/
def onWriteComplete (err : Bool) (s : Writer P) : Writer P :=
  let s := { s with writing := s.writing.tail }
  if err then s.doClose
  else
    let s := { s with sendQueue := s.sendQueue.pop }
    match s.sendQueue.front with
    | none => s
    | some msg => if s.isOpen then s.asyncWrite bigEndian msg else s

inductive Event (P : Protobuf) where
  | doWrite (msg : TcpMsg P)
  | writeComplete (err : Bool)
  | close

def next (s : Writer P) : Event P → Writer P
  | .doWrite msg => s.doWrite bigEndian msg
  | .writeComplete err => s.onWriteComplete bigEndian err
  | .close => s.doClose

def Allowed (s : Writer P) : Event P → Prop
  | .doWrite msg => frameSize msg ≤ msgBufSize
  | .writeComplete _ => s.writing ≠ []
  | .close => True

instance (s : Writer P) : (e : Event P) → Decidable (Allowed s e)
  | .doWrite _ => inferInstanceAs (Decidable (_ ≤ _))
  | .writeComplete _ => inferInstanceAs (Decidable (_ ≠ []))
  | .close => .isTrue trivial

/-- A session that is open with nothing to write, after the events. -/
def after (mem : Memory) (events : List (Event P)) : Writer P :=
  events.foldl (next bigEndian) (new mem)

/-! ## Flow of messages -/

/-- The messages of the calls of `do_write`, in their order. -/
def asked (events : List (Event P)) : List (TcpMsg P) :=
  events.flatMap fun
    | .doWrite msg => [msg]
    | _ => []

def written (events : List (Event P)) : Nat :=
  events.countP fun
    | .writeComplete false => true
    | _ => false

/--
Where the messages are: all of them are written, or the front of the queue is
being written, or the session was closed and gives nothing more.
-/
inductive Flows (asked : List (TcpMsg P)) (written : Nat) (s : Writer P) :
    Prop where
  | idle (hopen : s.isOpen = true) (hwriting : s.writing = [])
      (hqueue : s.sendQueue.items = []) (hwritten : asked.length = written)
      (hsent : s.sent = asked.map frameBytes)
  | busy (before : List (TcpMsg P)) (msg : TcpMsg P) (rest : List (TcpMsg P))
      (hopen : s.isOpen = true) (hwriting : s.writing = [s.sendMsgBuf])
      (hqueue : s.sendQueue.items = msg :: rest)
      (hwritten : before.length = written)
      (hasked : asked = before ++ msg :: rest)
      (hsent : s.sent = (before ++ [msg]).map frameBytes)
  | closed (given : List (TcpMsg P)) (hclosed : s.isOpen = false)
      (hwriting : s.writing = [] ∨ s.writing = [s.sendMsgBuf])
      (hgiven : given <+: asked) (hsent : s.sent = given.map frameBytes)

variable {bigEndian} {msgs : List (TcpMsg P)} {n : Nat} {s : Writer P}

theorem Flows.given (h : s.Flows msgs n) :
    ∃ given, given <+: msgs ∧ s.sent = given.map frameBytes := by
  cases h with
  | idle _ _ _ _ hsent => exact ⟨msgs, List.prefix_refl _, hsent⟩
  | busy before msg rest _ _ _ _ hasked hsent =>
      refine ⟨before ++ [msg], ⟨rest, ?_⟩, hsent⟩
      rw [hasked, List.append_assoc, List.singleton_append]
  | closed given _ _ hgiven hsent => exact ⟨given, hgiven, hsent⟩

theorem Flows.writing (h : s.Flows msgs n) :
    s.writing = [] ∨ s.writing = [s.sendMsgBuf] := by
  cases h with
  | idle _ hwriting => exact .inl hwriting
  | busy _ _ _ _ hwriting => exact .inr hwriting
  | closed _ _ hwriting => exact hwriting

theorem Flows.tail_writing (h : s.Flows msgs n) : s.writing.tail = [] := by
  rcases h.writing with hwriting | hwriting <;> rw [hwriting] <;> rfl

theorem Flows.all_given (h : s.Flows msgs n) (hopen : s.isOpen = true)
    (hidle : s.writing = []) : s.sent = msgs.map frameBytes := by
  cases h with
  | idle _ _ _ _ hsent => exact hsent
  | busy _ _ _ _ hwriting =>
      rw [hwriting] at hidle
      exact absurd hidle (List.cons_ne_nil _ _)
  | closed _ hclosed =>
      rw [hclosed] at hopen
      exact absurd hopen Bool.false_ne_true

theorem Flows.queued (h : s.Flows msgs n) (hopen : s.isOpen = true) :
    s.sendQueue.items = msgs.drop n := by
  cases h with
  | idle _ _ hqueue hwritten =>
      rw [hqueue, ← hwritten, List.drop_length]
  | busy before msg rest _ _ hqueue hwritten hasked =>
      rw [hqueue, hasked, ← hwritten, List.drop_left]
  | closed _ hclosed =>
      rw [hclosed] at hopen
      exact absurd hopen Bool.false_ne_true

theorem Flows.close (h : s.Flows msgs n) (msgs' : List (TcpMsg P)) (n' : Nat) :
    s.doClose.Flows (msgs ++ msgs') n' := by
  obtain ⟨given, hgiven, hsent⟩ := h.given
  have hgiven' := hgiven.trans (List.prefix_append msgs msgs')
  exact .closed given rfl h.writing hgiven' hsent

theorem flows_asyncWrite {msg : TcpMsg P} {rest : List (TcpMsg P)}
    (hopen : s.isOpen = true) (hwriting : s.writing = [])
    (hqueue : s.sendQueue.items = msg :: rest)
    (hsent : s.sent = msgs.map frameBytes) (hfit : frameSize msg ≤ msgBufSize) :
    (s.asyncWrite bigEndian msg).Flows (msgs ++ msg :: rest) msgs.length := by
  refine .busy msgs msg rest hopen ?_ hqueue rfl rfl ?_
  · rw [asyncWrite, hwriting]
  · simp only [asyncWrite, frame_fst bigEndian s.sendMsgBuf hfit, hsent,
      List.map_append, List.map_singleton]

theorem Flows.doWrite (h : s.Flows msgs n) {msg : TcpMsg P}
    (hfit : frameSize msg ≤ msgBufSize) :
    (s.doWrite bigEndian msg).Flows (msgs ++ [msg]) n := by
  rw [Writer.doWrite]
  rcases s.sendQueue.push_cases msg with ⟨hpush, _⟩ | ⟨q, hpush, hitems⟩
  · rw [hpush]
    exact h.close [msg] n
  rw [hpush]
  cases h with
  | idle hopen hwriting hqueue hwritten hsent =>
      have hidle : s.sendQueue.isEmpty = true :=
        SendQueue.isEmpty_iff.mpr hqueue
      rw [hqueue, List.nil_append] at hitems
      simp only [hidle, Bool.not_true, Bool.false_eq_true, if_false]
      rw [if_pos hopen, ← hwritten]
      exact flows_asyncWrite hopen hwriting hitems hsent hfit
  | busy before front rest hopen hwriting hqueue hwritten hasked hsent =>
      have hbusy : s.sendQueue.isEmpty = false := by
        rw [Bool.eq_false_iff, ne_eq, SendQueue.isEmpty_iff, hqueue]
        exact List.cons_ne_nil _ _
      rw [hqueue, List.cons_append] at hitems
      simp only [hbusy, Bool.not_false, if_true]
      refine .busy before front (rest ++ [msg]) hopen hwriting hitems hwritten
        ?_ hsent
      rw [hasked, List.append_assoc, List.cons_append]
  | closed given hclosed hwriting hgiven hsent =>
      have hgiven' := hgiven.trans (List.prefix_append msgs [msg])
      simp only [hclosed, Bool.false_eq_true, if_false, ite_self]
      exact .closed given rfl hwriting hgiven' hsent

theorem Flows.onWriteComplete (h : s.Flows msgs n)
    (hfits : ∀ msg ∈ msgs, frameSize msg ≤ msgBufSize)
    (hne : s.writing ≠ []) :
    (s.onWriteComplete bigEndian false).Flows msgs (n + 1) := by
  have hidle := h.tail_writing
  cases h with
  | idle _ hwriting => exact absurd hwriting hne
  | closed given hclosed _ hgiven hsent =>
      rw [Writer.onWriteComplete]
      simp only [hclosed, Bool.false_eq_true, if_false]
      split
      next => exact .closed given rfl (.inl hidle) hgiven hsent
      next => exact .closed given rfl (.inl hidle) hgiven hsent
  | busy before msg rest hopen _ hqueue hwritten hasked hsent =>
      have hitems : s.sendQueue.pop.items = rest := by
        rw [SendQueue.items_pop, hqueue, List.tail_cons]
      have hfront : s.sendQueue.pop.front = rest.head? := by
        rw [SendQueue.front, hitems]
      have hlength : (before ++ [msg]).length = n + 1 := by
        rw [List.length_append, List.length_singleton, hwritten]
      have hsplit : msgs = before ++ [msg] ++ rest := by
        rw [hasked, List.append_assoc, List.singleton_append]
      rw [Writer.onWriteComplete]
      simp only [Bool.false_eq_true, if_false, hfront]
      -- the popped message is written; the next one is given, if any
      cases rest with
      | nil =>
          rw [List.append_nil] at hsplit
          rw [hsplit]
          exact .idle hopen hidle hitems hlength hsent
      | cons next rest =>
          have hfit : frameSize next ≤ msgBufSize := by
            apply hfits
            rw [hasked]
            simp
          rw [List.head?_cons]
          dsimp only
          rw [if_pos hopen, hsplit, ← hlength]
          exact flows_asyncWrite hopen hidle hitems hsent hfit

theorem Flows.failWrite (bigEndian : Bool) (h : s.Flows msgs n) :
    (s.onWriteComplete bigEndian true).Flows msgs n := by
  obtain ⟨given, hgiven, hsent⟩ := h.given
  exact .closed given rfl (.inl h.tail_writing) hgiven hsent

structure Tracks (events : List (Event P)) (s : Writer P) : Prop where
  fits : ∀ msg ∈ asked events, frameSize msg ≤ msgBufSize
  flows : s.Flows (asked events) (written events)

theorem tracks_new (mem : Memory) : Tracks [] (new mem : Writer P) :=
  ⟨List.forall_mem_nil _, .idle rfl rfl rfl rfl rfl⟩

theorem Tracks.next {past : List (Event P)} (h : Tracks past s) {e : Event P}
    (hok : Allowed s e) : Tracks (past ++ [e]) (s.next bigEndian e) := by
  have hasked : asked (past ++ [e]) = asked past ++ asked [e] :=
    List.flatMap_append
  have hwritten : written (past ++ [e]) = written past + written [e] :=
    List.countP_append
  cases e with
  | doWrite msg =>
      have hfits := List.forall_mem_append.mpr
        ⟨h.fits, List.forall_mem_singleton.mpr hok⟩
      refine ⟨hasked ▸ hfits, ?_⟩
      rw [hasked, hwritten]
      exact h.flows.doWrite hok
  | writeComplete err =>
      have hsame : asked (past ++ [.writeComplete err]) = asked past :=
        hasked.trans (List.append_nil _)
      refine ⟨hsame ▸ h.fits, ?_⟩
      rw [hsame, hwritten]
      cases err with
      | true => exact h.flows.failWrite bigEndian
      | false => exact h.flows.onWriteComplete h.fits hok
  | close =>
      have hsame : asked (past ++ [.close]) = asked past :=
        hasked.trans (List.append_nil _)
      exact ⟨hsame ▸ h.fits, hasked ▸ h.flows.close _ _⟩

theorem tracks_after {mem : Memory} {events : List (Event P)}
    (h : Permits Allowed (next bigEndian) (new mem) events) :
    Tracks events (after bigEndian mem events) :=
  h.history (fun _ _ _ hpast hok => hpast.next hok) (tracks_new mem)

theorem isOpen_doWrite (s : Writer P) (msg : TcpMsg P) :
    (s.doWrite bigEndian msg).isOpen =
      (s.isOpen && (s.sendQueue.push msg).1) := by
  rw [Writer.doWrite]
  rcases s.sendQueue.push_cases msg with ⟨hpush, _⟩ | ⟨q, hpush, _⟩
  · rw [hpush, Bool.and_false]
    rfl
  · rw [hpush, Bool.and_true]
    dsimp only
    split_ifs <;> rfl

end Writer

def sampleWrites : List (Writer.Event systemProtobuf) :=
  sampleMsgs.map .doWrite ++ [.writeComplete false, .writeComplete false]

end StarsGaming.Net
