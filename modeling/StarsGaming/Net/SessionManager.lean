import StarsGaming.Foundation.Entries
import StarsGaming.Foundation.Runs

/-!
# The sessions of a server

The manager works on one loop, which may also be the loop of some of its
sessions.  For those, closing a session runs `do_close_session` at once; for
the others it is queued.  Sessions are numbered in the order they were added,
and `m_session_all` is a list of entries in an order an iterator might take.
-/

namespace StarsGaming.Net

open Foundation

/-- `numeric_limits<int>::max()`, also the value of `m_max_session_id`. -/
def maxSessionId : Int := 2147483647

/--
What the manager and its sessions have to do with each other: `inLoop` says that
the session lives on the loop of the manager, and `held` that its weak pointer
can be locked.
-/
structure ManagedSession where
  sessionId : Int
  inLoop : Bool
  isOpen : Bool
  held : Bool
  started : Bool
  deriving DecidableEq

/--
`closing` holds the sessions whose `do_close_session` is queued, `assigned`
every id that was given out, and `checked` every session that was checked.
-/
structure SessionManager where
  maxSessionCount : Nat
  currentSession : Int
  sessionAll : List (Int × Nat)
  sessions : List ManagedSession
  closing : List Nat
  assigned : List Int
  checked : List Nat

namespace SessionManager

inductive Fault where
  | signedOverflow
  | invalidIterator
  | running

def new (maxSessionCount : Nat) : SessionManager :=
  ⟨maxSessionCount, 0, [], [], [], [], []⟩

def isSessionOverLimit (s : SessionManager) : Bool :=
  s.maxSessionCount ≤ s.sessionAll.length

def setSession (i : Nat) (session : ManagedSession) (s : SessionManager) :
    SessionManager :=
  { s with sessions := s.sessions.set i session }

def doCloseSession (i : Nat) (s : SessionManager) : SessionManager :=
  match s.sessions[i]? with
  | none => s
  | some session =>
      { s.setSession i { session with sessionId := -1 } with
        sessionAll := eraseKey session.sessionId s.sessionAll }

/-- The session's `do_close`; the manager hears of it on its own loop. -/
def doClose (i : Nat) (s : SessionManager) : SessionManager :=
  match s.sessions[i]? with
  | none => s
  | some session =>
      if session.isOpen then
        let s := s.setSession i { session with isOpen := false }
        if session.inLoop then s.doCloseSession i
        else { s with closing := s.closing ++ [i] }
      else s

def doAddSession (inLoop : Bool) (s : SessionManager) :
    Except Fault SessionManager :=
  let i := s.sessions.length
  let session : ManagedSession := ⟨0, inLoop, true, true, false⟩
  if s.isSessionOverLimit then
    let s := { s with sessions := s.sessions ++ [session] }
    -- `close()` is posted to the loop of the session
    .ok (if inLoop then s.doClose i else s)
  else
    let current := s.currentSession + 1 % maxSessionId
    if current > maxSessionId then .error .signedOverflow
    else
      .ok { s with
        currentSession := current
        assigned := s.assigned ++ [current]
        sessions := s.sessions ++
          [{ session with sessionId := current, started := true }]
        sessionAll := insertNew current i s.sessionAll }

/-! ## The sweep -/

def isHeld (s : SessionManager) (i : Nat) : Bool :=
  (s.sessions[i]?).any ManagedSession.held

/-- On another loop the check is queued; what it does there is a `doClose`. -/
def checkAlive (expired : Bool) (i : Nat) (s : SessionManager) :
    SessionManager :=
  let s := { s with checked := s.checked ++ [i] }
  if (s.sessions[i]?).any ManagedSession.inLoop ∧ expired then s.doClose i
  else s

/-- `++it` for an iterator that stands on `key`. -/
def advance (key : Int) (s : SessionManager) : Except Fault (Option Int) :=
  match entriesAfter key s.sessionAll with
  | none => .error .invalidIterator
  | some rest => .ok (rest.head?.map Prod.fst)

def sweep (expired : Nat → Bool) :
    Nat → Option Int → SessionManager → Except Fault SessionManager
  | 0, _, _ => .error .running
  | _ + 1, none, s => .ok s
  | fuel + 1, some key, s =>
      match s.sessionAll.lookup key with
      | none => .error .invalidIterator
      | some i =>
          if s.isHeld i then do
            let s := s.checkAlive (expired i) i
            let next ← s.advance key
            sweep expired fuel next s
          else do
            let next ← s.advance key
            sweep expired fuel next
              { s with sessionAll := eraseKey key s.sessionAll }

def sweepFrom (expired : Nat → Bool) (fuel : Nat) (s : SessionManager) :
    Except Fault SessionManager :=
  s.sweep expired fuel (s.sessionAll.head?.map Prod.fst)

def checkSessionAlive (expired : Nat → Bool) (s : SessionManager) :
    Except Fault SessionManager :=
  s.sweepFrom expired (s.sessionAll.length + 1)

/-! ## Entries and the sessions they stand for -/

structure Consistent (s : SessionManager) : Prop where
  nodup : (s.sessionAll.map Prod.fst).Nodup
  own : ∀ e ∈ s.sessionAll, ∃ session, s.sessions[e.2]? = some session ∧
    session.sessionId = e.1

def ClosesInline (expired : Nat → Bool) (s : SessionManager)
    (e : Int × Nat) : Prop :=
  expired e.2 ∧ ∃ session ∈ s.sessions[e.2]?,
    session.held ∧ session.inLoop ∧ session.isOpen

def visit (e : Int × Nat) (s : SessionManager) : SessionManager :=
  if s.isHeld e.2 then { s with checked := s.checked ++ [e.2] }
  else { s with sessionAll := eraseKey e.1 s.sessionAll }

theorem checkAlive_of_not_closesInline {expired : Nat → Bool}
    {s : SessionManager} {e : Int × Nat} (hheld : s.isHeld e.2)
    (h : ¬s.ClosesInline expired e) :
    s.checkAlive (expired e.2) e.2 =
      { s with checked := s.checked ++ [e.2] } := by
  rw [checkAlive]
  split_ifs with hinline
  · obtain ⟨hloop, hexpired⟩ := hinline
    rw [Option.any_eq_true] at hloop
    obtain ⟨session, hsession, hloop⟩ := hloop
    have hopen : session.isOpen = false := by
      rw [Bool.eq_false_iff]
      intro hopen
      rw [isHeld, hsession, Option.any_some] at hheld
      exact h ⟨hexpired, session, hsession, hheld, hloop, hopen⟩
    rw [doClose]
    simp only [hsession, hopen, Bool.false_eq_true, if_false]
  · rfl

/-- The entry under the iterator is erased before the iterator moves on. -/
theorem advance_of_closesInline {expired : Nat → Bool}
    {s : SessionManager} (hs : s.Consistent) {e : Int × Nat}
    (he : e ∈ s.sessionAll) (h : s.ClosesInline expired e) :
    (s.checkAlive (expired e.2) e.2).advance e.1 =
      .error .invalidIterator := by
  obtain ⟨hexpired, session, hsession, hheld, hloop, hopen⟩ := h
  have hget : s.sessions[e.2]? = some session := hsession
  obtain ⟨own, hown, hid⟩ := hs.own e he
  rw [hget] at hown
  cases hown
  have hlt := (List.getElem?_eq_some_iff.mp hget).1
  have herased : (s.checkAlive (expired e.2) e.2).sessionAll =
      eraseKey e.1 s.sessionAll := by
    simp [checkAlive, hexpired, hget, hloop, doClose, hopen, setSession,
      doCloseSession, List.getElem?_set_self hlt, hid]
  rw [advance, herased, entriesAfter_eraseKey]

theorem advance_append {k : Int} {i : Nat} {before rest : List (Int × Nat)}
    {s : SessionManager} (hs : s.sessionAll = before ++ (k, i) :: rest)
    (hnodup : (s.sessionAll.map Prod.fst).Nodup) :
    s.advance k = .ok (rest.head?.map Prod.fst) := by
  rw [hs] at hnodup
  rw [advance, hs, entriesAfter_append (notMem_before hnodup)]

section Sweeps

variable {expired : Nat → Bool} {s : SessionManager} {e : Int × Nat}
  {before rest : List (Int × Nat)}

theorem lookup_append (hs : s.sessionAll = before ++ e :: rest)
    (hnodup : (s.sessionAll.map Prod.fst).Nodup) :
    s.sessionAll.lookup e.1 = some e.2 := by
  rw [hs] at hnodup ⊢
  exact Foundation.lookup_append (notMem_before hnodup)

theorem sweep_visit (hs : s.sessionAll = before ++ e :: rest)
    (hnodup : (s.sessionAll.map Prod.fst).Nodup)
    (h : ¬s.ClosesInline expired e) (fuel : Nat) :
    s.sweep expired (fuel + 1) (some e.1) =
      (s.visit e).sweep expired fuel (rest.head?.map Prod.fst) := by
  have hadvance := advance_append hs hnodup
  rw [sweep, lookup_append hs hnodup, visit]
  by_cases hheld : s.isHeld e.2
  · simp only [hheld, if_true, checkAlive_of_not_closesInline hheld h]
    change (s.advance e.1 >>= _) = _
    rw [hadvance]
    rfl
  · simp only [hheld, hadvance]
    rfl

theorem sweep_of_closesInline (hs : s.sessionAll = before ++ e :: rest)
    (hcons : s.Consistent) (h : s.ClosesInline expired e) (fuel : Nat) :
    s.sweep expired (fuel + 1) (some e.1) = .error .invalidIterator := by
  have he : e ∈ s.sessionAll := by
    rw [hs]
    exact List.mem_append_right _ List.mem_cons_self
  have hheld : s.isHeld e.2 := by
    obtain ⟨_, session, hsession, hheld, _⟩ := h
    rw [isHeld, Option.any_eq_true]
    exact ⟨session, hsession, hheld⟩
  rw [sweep, lookup_append hs hcons.nodup]
  simp only [hheld, if_true, advance_of_closesInline hcons he h]
  rfl

theorem sessionAll_visit (hs : s.sessionAll = before ++ e :: rest)
    (hnodup : (s.sessionAll.map Prod.fst).Nodup) :
    (s.visit e).sessionAll =
      (before ++ if s.isHeld e.2 then [e] else []) ++ rest := by
  rw [visit]
  split_ifs
  · rw [List.append_assoc]
    exact hs
  · rw [hs] at hnodup
    simp only [hs, List.append_nil]
    exact eraseKey_append hnodup

theorem sessions_visit : (s.visit e).sessions = s.sessions := by
  rw [visit]
  split_ifs <;> rfl

theorem nodup_visit (e : Int × Nat)
    (h : (s.sessionAll.map Prod.fst).Nodup) :
    ((s.visit e).sessionAll.map Prod.fst).Nodup := by
  rw [visit]
  split_ifs
  · exact h
  · exact nodup_eraseKey h

theorem Consistent.visit (h : s.Consistent) (e : Int × Nat) :
    (s.visit e).Consistent := by
  refine ⟨nodup_visit e h.nodup, ?_⟩
  intro other hother
  rw [sessions_visit]
  apply h.own
  rw [SessionManager.visit] at hother
  split_ifs at hother
  · exact hother
  · exact (mem_eraseKey.mp hother).1

theorem sweep_eq_ok {fuel : Nat} (hs : s.sessionAll = before ++ rest)
    (hnodup : (s.sessionAll.map Prod.fst).Nodup)
    (hfine : ∀ e ∈ rest, ¬s.ClosesInline expired e)
    (hfuel : rest.length < fuel) :
    s.sweep expired fuel (rest.head?.map Prod.fst) = .ok { s with
      sessionAll := before ++ rest.filter fun e => s.isHeld e.2
      checked := s.checked ++
        (rest.filter fun e => s.isHeld e.2).map Prod.snd } := by
  induction rest generalizing s before fuel with
  | nil =>
      obtain ⟨fuel, rfl⟩ :=
        Nat.exists_eq_succ_of_ne_zero (Nat.ne_zero_of_lt hfuel)
      simp only [List.head?_nil, Option.map_none, sweep, List.filter_nil,
        List.map_nil, List.append_nil] at hs ⊢
      rw [← hs]
  | cons e rest ih =>
      obtain ⟨fuel, rfl⟩ :=
        Nat.exists_eq_succ_of_ne_zero (Nat.ne_zero_of_lt hfuel)
      have hvisit := sessionAll_visit hs hnodup
      have hsessions : (s.visit e).sessions = s.sessions := sessions_visit
      have hheld : (s.visit e).isHeld = s.isHeld := by
        funext i
        rw [isHeld, isHeld, hsessions]
      have hnodup' := nodup_visit e hnodup
      have hfine' : ∀ e' ∈ rest, ¬(s.visit e).ClosesInline expired e' := by
        intro e' he'
        rw [ClosesInline, hsessions]
        exact hfine e' (List.mem_cons_of_mem _ he')
      rw [List.head?_cons, Option.map_some,
        sweep_visit hs hnodup (hfine e List.mem_cons_self),
        ih hvisit hnodup' hfine' (by simpa using hfuel), hheld, visit]
      by_cases hself : s.isHeld e.2
      · simp [hself]
      · simp [hself]

theorem sweep_ne_ok (hs : s.sessionAll = before ++ rest)
    (hcons : s.Consistent) (hbad : ∃ e ∈ rest, s.ClosesInline expired e)
    (fuel : Nat) (s' : SessionManager) :
    s.sweep expired fuel (rest.head?.map Prod.fst) ≠ .ok s' := by
  induction rest generalizing s before fuel with
  | nil =>
      obtain ⟨e, he, _⟩ := hbad
      cases he
  | cons e rest ih =>
      cases fuel with
      | zero =>
          intro h
          cases h
      | succ fuel =>
          rw [List.head?_cons, Option.map_some]
          by_cases hself : s.ClosesInline expired e
          · rw [sweep_of_closesInline hs hcons hself]
            intro h
            cases h
          · rw [sweep_visit hs hcons.nodup hself]
            apply ih (sessionAll_visit hs hcons.nodup) (hcons.visit e)
            obtain ⟨e', he', hbad⟩ := hbad
            rcases List.mem_cons.mp he' with rfl | he'
            · exact absurd hbad hself
            · refine ⟨e', he', ?_⟩
              rw [ClosesInline, sessions_visit]
              exact hbad

theorem Consistent.nodup_sessions (h : s.Consistent) :
    (s.sessionAll.map Prod.snd).Nodup := by
  let idOf (i : Nat) : Int :=
    ((s.sessions[i]?).map ManagedSession.sessionId).getD 0
  have hids : s.sessionAll.map Prod.fst =
      (s.sessionAll.map Prod.snd).map idOf := by
    rw [List.map_map]
    apply List.map_congr_left
    intro e he
    obtain ⟨session, hsession, hid⟩ := h.own e he
    simp [idOf, hsession, hid]
  have hnodup := h.nodup
  rw [hids] at hnodup
  exact hnodup.of_map idOf

end Sweeps

def liveSessions (s : SessionManager) : List Nat :=
  (s.sessionAll.filter fun e => s.isHeld e.2).map Prod.snd

/--
The loop ends without advancing an iterator that has become invalid, and it
checks every session that is still there, once.
-/
def SweepsAll (expired : Nat → Bool) (s : SessionManager) : Prop :=
  ∃ s', (∀ fuel > s.sessionAll.length, s.sweepFrom expired fuel = .ok s') ∧
    s'.checked = s.checked ++ s.liveSessions ∧ s.liveSessions.Nodup

end SessionManager

/--
The sweep is safe unless it meets a session on its own loop that is open and
whose time is up.
-/
theorem check_session_alive_safe_iff (s : SessionManager)
    (h : s.Consistent) (expired : Nat → Bool) :
    s.SweepsAll expired ↔
      ∀ e ∈ s.sessionAll, ∀ session ∈ s.sessions[e.2]?,
        ¬(expired e.2 ∧ session.held ∧ session.inLoop ∧ session.isOpen) := by
  constructor
  · rintro ⟨s', hsweep, _⟩ e he session hsession ⟨hexpired, hrest⟩
    apply SessionManager.sweep_ne_ok (List.nil_append _).symm h
      ⟨e, he, hexpired, session, hsession, hrest⟩
    exact hsweep (s.sessionAll.length + 1) (Nat.lt_succ_self _)
  · intro hfine
    have hnone : ∀ e ∈ s.sessionAll, ¬s.ClosesInline expired e := by
      rintro e he ⟨hexpired, session, hsession, hrest⟩
      exact hfine e he session hsession ⟨hexpired, hrest⟩
    have hsweep : ∀ fuel > s.sessionAll.length, s.sweepFrom expired fuel =
        .ok { s with
          sessionAll := s.sessionAll.filter fun e => s.isHeld e.2
          checked := s.checked ++ s.liveSessions } := by
      intro fuel hfuel
      exact SessionManager.sweep_eq_ok (List.nil_append _).symm h.nodup hnone
        hfuel
    refine ⟨_, hsweep, rfl, ?_⟩
    exact (List.filter_sublist.map Prod.snd).nodup h.nodup_sessions

namespace SessionManager

def sample : SessionManager :=
  { new 5000 with
    currentSession := 4
    sessionAll := [(1, 0), (4, 3), (2, 1), (3, 2)]
    sessions := [⟨1, true, true, true, true⟩, ⟨2, false, true, true, true⟩,
      ⟨3, true, true, true, true⟩, ⟨4, true, true, false, true⟩] }

theorem consistent_sample : sample.Consistent := by
  constructor
  · decide
  · have hown : ∀ e ∈ sample.sessionAll, (sample.sessions[e.2]?).any
        fun session => session.sessionId = e.1 := by decide
    intro e he
    obtain ⟨session, hsession, hid⟩ :=
      (Option.any_eq_true _ _).mp (hown e he)
    exact ⟨session, hsession, of_decide_eq_true hid⟩

end SessionManager

theorem sample_swept :
    SessionManager.sample.SweepsAll (fun i => i = 1) ∧
      SessionManager.sample.liveSessions = [0, 1, 2] := by
  refine ⟨?_, by decide⟩
  rw [check_session_alive_safe_iff _ SessionManager.consistent_sample]
  decide

theorem sample_not_swept :
    ¬∀ s : SessionManager, s.Consistent →
      ∀ expired, s.SweepsAll expired := by
  intro h
  obtain ⟨s', hsweep, _⟩ := h SessionManager.sample
    SessionManager.consistent_sample fun i => i = 0
  have hfault : SessionManager.sample.sweepFrom (fun i => i = 0) 5 =
      .error .invalidIterator := by rfl
  rw [hsweep 5 (by decide)] at hfault
  cases hfault

end StarsGaming.Net
