import StarsGaming.Foundation.Runs
import StarsGaming.Net.Framing

/-!
# The life of a server session

A session is added by the session manager on the manager's loop and lives on a
loop of its own, which may be the same.  What the application sees of it is
the list of messages its dealer is handed: the notice that it was opened, the
messages it received and the notice that it was closed.
-/

namespace StarsGaming.Net

open Foundation

variable {P : Protobuf}

/-- How far `do_add_session` has come. -/
inductive Admission where
  | fresh
  | starting
  | started
  | refused
  deriving DecidableEq

inductive Task where
  | readHeadLen
  | sessionOpen
  | close
  deriving DecidableEq

/--
`readable` tells whether the socket was open when the pending read was asked
for; a read of a closed socket only ever fails.
-/
structure Life (P : Protobuf) where
  session : TcpSession P
  admission : Admission
  tasks : List Task
  readable : Bool

namespace Life

variable (host : Host P)

def new (mem : Memory) : Life P :=
  ⟨.new mem, .fresh, [], false⟩

def doReadHeadLen (s : Life P) : Life P :=
  { s with
    session := s.session.doReadHeadLen
    readable := s.session.isOpen }

def doSessionOpen (s : Life P) : Life P :=
  { s with session := s.session.deal (notice .sessionOpen) }

def doClose (s : Life P) : Life P :=
  { s with session := s.session.doClose }

def runTask (s : Life P) : Task → Life P
  | .readHeadLen => s.doReadHeadLen
  | .sessionOpen => s.doSessionOpen
  | .close => s.doClose

/--
On the session's own loop `post` runs a function at once.  From another loop
`start` posts two functions one after the other, and the session's loop may run
in between.
-/
inductive Event where
  | addSession (inLoop overLimit : Bool)
  | postOpen
  | runTask (task : Task)
  | readDone (bytes : List Byte)
  | readFailed
  | close

def addSession (inLoop overLimit : Bool) (s : Life P) : Life P :=
  if overLimit then
    let s := { s with admission := .refused }
    if inLoop then s.doClose else { s with tasks := s.tasks ++ [.close] }
  else if inLoop then
    { s.doReadHeadLen.doSessionOpen with admission := .started }
  else
    { s with
      admission := .starting
      tasks := s.tasks ++ [.readHeadLen] }

def next (s : Life P) : Event → Life P
  | .addSession inLoop overLimit => s.addSession inLoop overLimit
  | .postOpen =>
      { s with
        admission := .started
        tasks := s.tasks ++ [.sessionOpen] }
  | .runTask task => { s with tasks := s.tasks.erase task }.runTask task
  | .readDone bytes =>
      let session := s.session.readDone host bytes
      { s with session := session, readable := session.isOpen }
  | .readFailed => { s with session := s.session.readFailed host }
  | .close => s.doClose

/--
What can happen: a session is added once, a read that succeeds was asked of an
open socket, and nobody closes a session before it was added.
-/
def Enabled (s : Life P) : Event → Prop
  | .addSession _ _ => s.admission = .fresh
  | .postOpen => s.admission = .starting
  | .runTask task => task ∈ s.tasks
  | .readDone bytes =>
      s.readable = true ∧
        s.session.reading.map AsyncRead.size = some bytes.length
  | .readFailed => s.session.reading.isSome = true
  | .close => s.admission ≠ .fresh

instance (s : Life P) : (e : Event) → Decidable (Enabled s e)
  | .addSession _ _ => inferInstanceAs (Decidable (_ = _))
  | .postOpen => inferInstanceAs (Decidable (_ = _))
  | .runTask _ => inferInstanceAs (Decidable (_ ∈ _))
  | .readDone _ => inferInstanceAs (Decidable (_ ∧ _))
  | .readFailed => inferInstanceAs (Decidable (_ = _))
  | .close => inferInstanceAs (Decidable (_ ≠ _))

/-! ## What the application expects -/

def isCmd (cmd : SystemMsg) (msg : TcpMsg P) : Prop :=
  msg.header.cmdtype = cmd.cmd

instance (cmd : SystemMsg) (msg : TcpMsg P) : Decidable (isCmd cmd msg) :=
  inferInstanceAs (Decidable (_ = _))

/-- The messages a session deals, as the application expects them. -/
structure Conforms (s : Life P) : Prop where
  open_first : ∀ msg ∈ s.session.dealt.head?, isCmd .sessionOpen msg
  open_once : ∀ msg ∈ s.session.dealt.tail, ¬isCmd .sessionOpen msg
  opened : s.admission = .started → Task.sessionOpen ∉ s.tasks →
    s.session.dealt ≠ []
  close_last : ∀ msg ∈ s.session.dealt.dropLast, ¬isCmd .sessionClose msg
  close_closed : ∀ msg ∈ s.session.dealt, isCmd .sessionClose msg →
    s.session.isOpen = false

/-! ## When it is met -/

/-- `do_close` finds the socket closed or comes after the notice of opening. -/
def ClosesLate (s : Life P) : Prop :=
  s.session.isOpen = false ∨ s.session.dealt ≠ []

/--
A body that was read: no message before the notice of opening, after the socket
was closed or with a command that is the session's own.
-/
def OrderlyMsg (s : Life P) : Option (TcpMsg P) → Prop
  | none => s.ClosesLate
  | some msg =>
      s.session.isOpen = true ∧ s.session.dealt ≠ [] ∧
        ¬isCmd .sessionOpen msg ∧ ¬isCmd .sessionClose msg

/-- Bytes that were read do not close the session before its opening. -/
def OrderlyRead (s : Life P) (bytes : List Byte) : Option AsyncRead → Prop
  | none => True
  | some .headLen =>
      ((s.session.fill .headLen bytes).recvMsgBuf.decodeHeaderLength
        host.bigEndian).headerLength ≤ msgBufSize ∨ s.ClosesLate
  | some (.head size) =>
      (TcpSession.decodeHeader (P := P)
        (s.session.fill (.head size) bytes).recvMsgBuf).isSome = true ∨
          s.ClosesLate
  | some (.body offset size) =>
      s.OrderlyMsg
        ((s.session.fill (.body offset size) bytes).makeMsg host)

/-- The condition on a step, on the state before it. -/
def Orderly (s : Life P) : Event → Prop
  | .addSession _ overLimit => overLimit = false
  | .postOpen => True
  | .runTask .close => s.ClosesLate
  | .runTask _ => True
  | .readDone bytes => s.OrderlyRead host bytes s.session.reading
  | .readFailed => s.ClosesLate
  | .close => s.ClosesLate

instance (s : Life P) : Decidable s.ClosesLate :=
  inferInstanceAs (Decidable (_ ∨ _))

instance (s : Life P) : (msg : Option (TcpMsg P)) →
    Decidable (s.OrderlyMsg msg)
  | none => inferInstanceAs (Decidable s.ClosesLate)
  | some _ => inferInstanceAs (Decidable (_ ∧ _))

instance (s : Life P) (bytes : List Byte) : (r : Option AsyncRead) →
    Decidable (s.OrderlyRead host bytes r)
  | none => .isTrue trivial
  | some .headLen => inferInstanceAs (Decidable (_ ∨ _))
  | some (.head _) => inferInstanceAs (Decidable (_ ∨ _))
  | some (.body _ _) => inferInstanceAs (Decidable (OrderlyMsg _ _))

instance (s : Life P) : (e : Event) → Decidable (s.Orderly host e)
  | .addSession _ _ => inferInstanceAs (Decidable (_ = _))
  | .postOpen => .isTrue trivial
  | .runTask .close => inferInstanceAs (Decidable s.ClosesLate)
  | .runTask .readHeadLen => .isTrue trivial
  | .runTask .sessionOpen => .isTrue trivial
  | .readDone _ => inferInstanceAs (Decidable (OrderlyRead _ _ _ _))
  | .readFailed => inferInstanceAs (Decidable s.ClosesLate)
  | .close => inferInstanceAs (Decidable s.ClosesLate)

/-! ## The stages of a session -/

def view (s : TcpSession P) : Bool × List (TcpMsg P) :=
  (s.isOpen, s.dealt)

/-- A message that is neither of the two notices. -/
def Ordinary (msg : TcpMsg P) : Prop :=
  ¬isCmd .sessionOpen msg ∧ ¬isCmd .sessionClose msg

/--
A session that conforms waits for its notice of opening, or has been opened,
or was closed after that.
-/
inductive Stage (s : Life P) : Prop where
  | waiting (hview : view s.session = (true, []))
      (htasks : s.tasks.count .sessionOpen =
        if s.admission = .started then 1 else 0)
  | opened (data : List (TcpMsg P))
      (hview : view s.session = (true, notice .sessionOpen :: data))
      (hdata : ∀ msg ∈ data, Ordinary msg) (hstarted : s.admission = .started)
      (htasks : s.tasks.count .sessionOpen = 0)
  | closed (data : List (TcpMsg P))
      (hview : view s.session =
        (false, notice .sessionOpen :: (data ++ [notice .sessionClose])))
      (hdata : ∀ msg ∈ data, Ordinary msg) (hstarted : s.admission = .started)
      (htasks : s.tasks.count .sessionOpen = 0)

theorem view_doClose (s : TcpSession P) :
    view s.doClose =
      if s.isOpen then (false, s.dealt ++ [notice .sessionClose])
      else view s := by
  rw [TcpSession.doClose]
  split <;> rfl

theorem view_doClose_congr {s t : TcpSession P} (h : view s = view t) :
    view s.doClose = view t.doClose := by
  obtain ⟨hopen, hdealt⟩ := Prod.mk.inj h
  rw [view_doClose, view_doClose, hopen, hdealt, h]

theorem OrderlyRead.view_readDone {host : Host P} {s : Life P}
    {bytes : List Byte} (h : s.OrderlyRead host bytes s.session.reading) :
    view (s.session.readDone host bytes) = view s.session ∨
    (s.ClosesLate ∧ view (s.session.readDone host bytes) =
      view s.session.doClose) ∨
    ∃ msg, s.session.isOpen = true ∧ s.session.dealt ≠ [] ∧ Ordinary msg ∧
      view (s.session.readDone host bytes) =
        (true, s.session.dealt ++ [msg]) := by
  cases hr : s.session.reading with
  | none =>
      rw [TcpSession.readDone, hr]
      exact .inl rfl
  | some r =>
      rw [TcpSession.readDone, hr]
      rw [hr] at h
      cases r with
      | headLen =>
          simp only [TcpSession.onRead, TcpSession.onReadHeadLenComplete,
            TcpSession.doReadHead, Bool.false_eq_true, if_false]
          split
          next hlarge =>
            have hlate := h.resolve_left (by omega)
            exact .inr (.inl ⟨hlate, view_doClose_congr rfl⟩)
          next => exact .inl rfl
      | head size =>
          simp only [TcpSession.onRead, TcpSession.onReadHeadComplete,
            TcpSession.doReadBody, Bool.false_eq_true, if_false]
          split
          next hnone =>
            rw [OrderlyRead, hnone] at h
            have hlate := h.resolve_left Bool.false_ne_true
            exact .inr (.inl ⟨hlate, view_doClose_congr rfl⟩)
          next => exact .inl rfl
      | body offset size =>
          simp only [TcpSession.onRead, TcpSession.onReadComplete,
            Bool.false_eq_true, if_false]
          split
          next msg hmsg =>
            rw [OrderlyRead, hmsg] at h
            obtain ⟨hopen, hdealt, hordinary⟩ := h
            refine .inr (.inr ⟨msg, hopen, hdealt, hordinary, ?_⟩)
            exact Prod.ext hopen rfl
          next hnone =>
            rw [OrderlyRead, hnone] at h
            exact .inr (.inl ⟨h, view_doClose_congr rfl⟩)

theorem view_readFailed (host : Host P) (s : TcpSession P)
    (h : s.reading.isSome = true) :
    view (s.readFailed host) = view s.doClose := by
  obtain ⟨r, hr⟩ := Option.isSome_iff_exists.mp h
  rw [TcpSession.readFailed, hr]
  cases r <;> exact view_doClose_congr rfl

/-! ### Steps -/

section Steps

variable {s t : Life P}

theorem Stage.of_view (h : s.Stage) (hview : view t.session = view s.session)
    (hadmission : t.admission = s.admission)
    (htasks : t.tasks.count .sessionOpen = s.tasks.count .sessionOpen) :
    t.Stage := by
  cases h with
  | waiting hs hcount =>
      apply Stage.waiting (hview.trans hs)
      rw [htasks, hadmission]
      exact hcount
  | opened data hs hdata hstarted hcount =>
      apply Stage.opened data (hview.trans hs) hdata (hadmission.trans hstarted)
      exact htasks.trans hcount
  | closed data hs hdata hstarted hcount =>
      apply Stage.closed data (hview.trans hs) hdata (hadmission.trans hstarted)
      exact htasks.trans hcount

theorem Stage.of_close (h : s.Stage) (hlate : s.ClosesLate)
    (hview : view t.session = view s.session.doClose)
    (hadmission : t.admission = s.admission)
    (htasks : t.tasks.count .sessionOpen = s.tasks.count .sessionOpen) :
    t.Stage := by
  rw [view_doClose] at hview
  cases h with
  | waiting hs hcount =>
      obtain ⟨hopen, hdealt⟩ := Prod.mk.inj hs
      rcases hlate with hclosed | hne
      · rw [hopen] at hclosed
        cases hclosed
      · exact absurd hdealt hne
  | opened data hs hdata hstarted hcount =>
      obtain ⟨hopen, hdealt⟩ := Prod.mk.inj hs
      rw [if_pos hopen, hdealt] at hview
      apply Stage.closed data hview hdata (hadmission.trans hstarted)
      exact htasks.trans hcount
  | closed data hs hdata hstarted hcount =>
      obtain ⟨hopen, hdealt⟩ := Prod.mk.inj hs
      rw [hopen, if_neg Bool.false_ne_true] at hview
      apply Stage.closed data (hview.trans hs) hdata
        (hadmission.trans hstarted)
      exact htasks.trans hcount

theorem Stage.of_message (h : s.Stage) {msg : TcpMsg P}
    (hopen : s.session.isOpen = true) (hne : s.session.dealt ≠ [])
    (hmsg : Ordinary msg)
    (hview : view t.session = (true, s.session.dealt ++ [msg]))
    (hadmission : t.admission = s.admission)
    (htasks : t.tasks.count .sessionOpen = s.tasks.count .sessionOpen) :
    t.Stage := by
  cases h with
  | waiting hs hcount => exact absurd (Prod.mk.inj hs).2 hne
  | opened data hs hdata hstarted hcount =>
      rw [(Prod.mk.inj hs).2, List.cons_append] at hview
      apply Stage.opened (data ++ [msg]) hview _ (hadmission.trans hstarted)
      · exact htasks.trans hcount
      · rw [List.forall_mem_append, List.forall_mem_singleton]
        exact ⟨hdata, hmsg⟩
  | closed data hs hdata hstarted hcount =>
      rw [(Prod.mk.inj hs).1] at hopen
      cases hopen

theorem Stage.of_open (h : s.Stage) (hmem : .sessionOpen ∈ s.tasks)
    (hview : view t.session =
      view (s.session.deal (notice .sessionOpen)))
    (hadmission : t.admission = s.admission)
    (htasks : t.tasks = s.tasks.erase .sessionOpen) : t.Stage := by
  have hpos : 0 < s.tasks.count .sessionOpen := List.count_pos_iff.mpr hmem
  cases h with
  | waiting hs hcount =>
      obtain ⟨hopen, hdealt⟩ := Prod.mk.inj hs
      split at hcount
      next hstarted =>
        apply Stage.opened [] _ (List.forall_mem_nil _)
          (hadmission.trans hstarted)
        · rw [htasks, List.count_erase_self, hcount]
        · rw [hview, view, TcpSession.deal, hdealt]
          exact Prod.ext hopen rfl
      next => omega
  | opened data hs hdata hstarted hcount => omega
  | closed data hs hdata hstarted hcount => omega

theorem Stage.of_start (h : s.Stage) (hfresh : s.admission ≠ .started)
    (hview : view t.session =
      view (s.session.deal (notice .sessionOpen)))
    (hadmission : t.admission = .started)
    (htasks : t.tasks = s.tasks) : t.Stage := by
  cases h with
  | waiting hs hcount =>
      obtain ⟨hopen, hdealt⟩ := Prod.mk.inj hs
      rw [if_neg hfresh] at hcount
      apply Stage.opened [] _ (List.forall_mem_nil _) hadmission
      · rw [htasks, hcount]
      · rw [hview, view, TcpSession.deal, hdealt]
        exact Prod.ext hopen rfl
  | opened data hs hdata hstarted => exact absurd hstarted hfresh
  | closed data hs hdata hstarted => exact absurd hstarted hfresh

theorem Stage.of_post (h : s.Stage) (hfresh : s.admission ≠ .started)
    (task : Task) (hview : view t.session = view s.session)
    (hadmission : t.admission = .started ↔ task = .sessionOpen)
    (htasks : t.tasks = s.tasks ++ [task]) : t.Stage := by
  cases h with
  | waiting hs hcount =>
      rw [if_neg hfresh] at hcount
      apply Stage.waiting (hview.trans hs)
      rw [htasks, List.count_append, hcount, List.count_singleton]
      simp [hadmission]
  | opened data hs hdata hstarted => exact absurd hstarted hfresh
  | closed data hs hdata hstarted => exact absurd hstarted hfresh

theorem Stage.next {host : Host P} {e : Event} (h : s.Stage)
    (henabled : s.Enabled e) (horderly : s.Orderly host e) :
    (s.next host e).Stage := by
  cases e with
  | addSession inLoop overLimit =>
      cases horderly
      have hfresh : s.admission ≠ .started := by
        rw [henabled]
        decide
      cases inLoop with
      | true => exact h.of_start hfresh rfl rfl rfl
      | false =>
          refine h.of_post hfresh .readHeadLen rfl ?_ rfl
          exact iff_of_false (by intro h; cases h) (by decide)
  | postOpen =>
      have hfresh : s.admission ≠ .started := by
        rw [henabled]
        decide
      exact h.of_post hfresh .sessionOpen rfl (iff_of_true rfl rfl) rfl
  | runTask task =>
      cases task with
      | readHeadLen =>
          refine h.of_view rfl rfl ?_
          exact List.count_erase_of_ne (by decide : Task.sessionOpen ≠ _)
      | sessionOpen => exact h.of_open henabled rfl rfl rfl
      | close =>
          refine h.of_close horderly rfl rfl ?_
          exact List.count_erase_of_ne (by decide : Task.sessionOpen ≠ _)
  | readDone bytes =>
      rcases OrderlyRead.view_readDone horderly with
        hview | ⟨hlate, hview⟩ | ⟨msg, hopen, hne, hmsg, hview⟩
      · exact h.of_view hview rfl rfl
      · exact h.of_close hlate hview rfl rfl
      · exact h.of_message hopen hne hmsg hview rfl rfl
  | readFailed =>
      exact h.of_close horderly (view_readFailed host _ henabled) rfl rfl
  | close => exact h.of_close horderly rfl rfl rfl

end Steps

theorem isCmd_notice (cmd msg : SystemMsg) :
    isCmd cmd (notice msg : TcpMsg P) ↔ msg.cmd = cmd.cmd :=
  Iff.rfl

theorem Stage.conforms {s : Life P} (h : s.Stage) : s.Conforms := by
  cases h with
  | waiting hs hcount =>
      obtain ⟨hopen, hdealt⟩ := Prod.mk.inj hs
      constructor
      case opened =>
        intro hstarted hnot
        rw [if_pos hstarted] at hcount
        exact absurd (List.count_eq_zero.mpr hnot) (by omega)
      all_goals simp [hdealt]
  | opened data hs hdata hstarted hcount =>
      obtain ⟨hopen, hdealt⟩ := Prod.mk.inj hs
      have hclose : ∀ msg ∈ s.session.dealt, ¬isCmd .sessionClose msg := by
        rw [hdealt, List.forall_mem_cons]
        rw [isCmd_notice]
        exact ⟨by decide, fun msg hmsg => (hdata msg hmsg).2⟩
      constructor
      · simp [hdealt, isCmd_notice]
      · rw [hdealt]
        exact fun msg hmsg => (hdata msg hmsg).1
      · simp [hdealt]
      · exact fun msg hmsg => hclose msg (List.mem_of_mem_dropLast hmsg)
      · exact fun msg hmsg hcmd => absurd hcmd (hclose msg hmsg)
  | closed data hs hdata hstarted hcount =>
      obtain ⟨hopen, hdealt⟩ := Prod.mk.inj hs
      constructor
      · simp [hdealt, isCmd_notice]
      · rw [hdealt, List.tail_cons, List.forall_mem_append,
          List.forall_mem_singleton]
        rw [isCmd_notice]
        exact ⟨fun msg hmsg => (hdata msg hmsg).1, by decide⟩
      · simp [hdealt]
      · rw [hdealt, ← List.cons_append, List.dropLast_concat,
          List.forall_mem_cons]
        rw [isCmd_notice]
        exact ⟨by decide, fun msg hmsg => (hdata msg hmsg).2⟩
      · exact fun _ _ _ => hopen

/-- The states of a session all of whose steps meet `ok`. -/
def Reachable (ok : Life P → Event → Prop) (s : Life P) : Prop :=
  ReachesBy (fun s => ∃ mem, s = new mem)
    (fun s e => Enabled s e ∧ ok s e) (next host) s

end Life

/--
As long as every step is orderly, the application sees a session opened once
and before anything else, closed at most once, after its socket, and nothing
after that.
-/
theorem session_conforms (host : Host P) (s : Life P)
    (h : Life.Reachable host (Life.Orderly host) s) : s.Conforms := by
  have hstage : s.Stage := by
    apply ReachesBy.invariant _ _ h
    · rintro s ⟨mem, rfl⟩
      exact .waiting rfl rfl
    · intro s e hs hok
      exact hs.next hok.1 hok.2
  exact hstage.conforms

namespace Life

def sampleCall : TcpMsg systemProtobuf where
  header :=
    { Header.empty with
      cmdtype := SystemMsg.commRpc.cmd, type := MsgType.asynRequest }
  pbmessage := ⟨.request .commRpc, Fields.text [0x7b, 0x7d]⟩

def sampleHost : Host systemProtobuf := ⟨.new, false⟩

def sampleLife : List Event :=
  [.addSession false false, .postOpen, .runTask .readHeadLen,
    .runTask .sessionOpen,
    .readDone (storeWord true (byteSize (headerBytes sampleCall))),
    .readDone (headerBytes sampleCall),
    .readDone sampleCall.pbmessage.bytes, .close]

def lateRead : List Event :=
  [.addSession true false,
    .readDone (storeWord true (byteSize (headerBytes sampleCall))),
    .readDone (headerBytes sampleCall), .close,
    .readDone sampleCall.pbmessage.bytes]

end Life

theorem sampleLife_conforms :
    ∃ s : Life systemProtobuf,
      s.session.dealt.map (fun msg => msg.header.cmdtype) =
        [SystemMsg.sessionOpen.cmd, SystemMsg.commRpc.cmd,
          SystemMsg.sessionClose.cmd] ∧ s.Conforms := by
  refine ⟨Life.sampleLife.foldl (Life.next Life.sampleHost)
    (.new fun _ => 0), by decide +kernel, ?_⟩
  apply session_conforms Life.sampleHost
  exact ReachesBy.foldl (.start ⟨_, rfl⟩) (by decide +kernel)

theorem message_after_close :
    ¬∀ (host : Host systemProtobuf) (s : Life systemProtobuf),
      Life.Reachable host (fun _ _ => True) s → s.Conforms := by
  intro h
  have hconforms := h Life.sampleHost
    (Life.lateRead.foldl (Life.next Life.sampleHost) (.new fun _ => 0))
    (ReachesBy.foldl (.start ⟨_, rfl⟩) (by decide +kernel))
  have hbad : ∃ msg ∈ (Life.lateRead.foldl (Life.next Life.sampleHost)
      (.new fun _ => 0)).session.dealt.dropLast,
      Life.isCmd .sessionClose msg := by decide +kernel
  obtain ⟨msg, hmem, hcmd⟩ := hbad
  exact hconforms.close_last msg hmem hcmd

end StarsGaming.Net
