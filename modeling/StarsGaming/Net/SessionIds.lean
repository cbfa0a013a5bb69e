import StarsGaming.Net.SessionManager

/-!
# Session ids

Ids are counted up by one: in `m_current_session + 1 % m_max_session_id` the
remainder is taken of the one.  They are distinct as long as the counter stays
below its largest value.
-/

namespace StarsGaming.Net

open Foundation

namespace SessionManager

/-! ## Runs of the manager -/

inductive Event where
  | addSession (inLoop : Bool)
  | close (i : Nat)
  | closeSession (i : Nat)
  | checkAlive (order : List (Int × Nat)) (expired : Nat → Bool)
  | release (i : Nat)

def step (s : SessionManager) : Event → Except Fault SessionManager
  | .addSession inLoop => s.doAddSession inLoop
  | .close i => .ok (s.doClose i)
  | .closeSession i =>
      .ok ({ s with closing := s.closing.erase i }.doCloseSession i)
  | .checkAlive order expired =>
      { s with sessionAll := order }.checkSessionAlive expired
  | .release i =>
      match s.sessions[i]? with
      | none => .ok s
      | some session => .ok (s.setSession i { session with held := false })

def Enabled (s : SessionManager) : Event → Prop
  | .addSession _ => True
  | .close i => s.isHeld i
  | .closeSession i => i ∈ s.closing
  | .checkAlive order _ => order.Perm s.sessionAll
  | .release i => i ∉ s.closing

/-- A session is admitted only while the counter can still be increased. -/
def Countable (s : SessionManager) : Event → Prop
  | .addSession _ =>
      ¬s.isSessionOverLimit → s.currentSession + 1 < maxSessionId
  | _ => True

/-- A session is refused only when none is open that was refused before. -/
def RefusesOne (s : SessionManager) : Event → Prop
  | .addSession _ =>
      s.isSessionOverLimit →
        ∀ session ∈ s.sessions, session.isOpen → session.started
  | _ => True

/-- The states of a manager all of whose steps meet `ok`. -/
def Reachable (maxSessionCount : Nat)
    (ok : SessionManager → Event → Prop) (s : SessionManager) : Prop :=
  Reaches (fun s => s = new maxSessionCount)
    (fun s e => Enabled s e ∧ ok s e) step s

/-! ## Entries -/

section Consistency

variable {s : SessionManager}

theorem one_mod_maxSessionId : (1 : Int) % maxSessionId = 1 := by decide

theorem doAddSession_eq_ok {inLoop : Bool} {s' : SessionManager}
    (h : s.doAddSession inLoop = .ok s') :
    let refused := { s with
      sessions := s.sessions ++ [⟨0, inLoop, true, true, false⟩] }
    (s.isSessionOverLimit ∧
      s' = if inLoop then refused.doClose s.sessions.length else refused) ∨
    (¬s.isSessionOverLimit ∧ s' = { s with
      currentSession := s.currentSession + 1
      assigned := s.assigned ++ [s.currentSession + 1]
      sessions := s.sessions ++
        [⟨s.currentSession + 1, inLoop, true, true, true⟩]
      sessionAll := insertNew (s.currentSession + 1) s.sessions.length
        s.sessionAll }) := by
  rw [SessionManager.doAddSession] at h
  simp only [one_mod_maxSessionId] at h
  split_ifs at h with hover hloop hmax
  · cases h
    exact .inl ⟨hover, by simp [hloop]⟩
  · cases h
    exact .inl ⟨hover, by simp [hloop]⟩
  · cases h
    exact .inr ⟨hover, rfl⟩

theorem Consistent.setSession (h : s.Consistent) {i : Nat}
    {session session' : ManagedSession} (hi : s.sessions[i]? = some session)
    (hid : session'.sessionId = session.sessionId) :
    (s.setSession i session').Consistent := by
  refine ⟨h.nodup, ?_⟩
  intro e he
  obtain ⟨own, hown, hkey⟩ := h.own e he
  by_cases heq : e.2 = i
  · subst heq
    rw [hi] at hown
    cases hown
    have hlt := (List.getElem?_eq_some_iff.mp hi).1
    exact ⟨session', List.getElem?_set_self hlt, hid.trans hkey⟩
  · refine ⟨own, ?_, hkey⟩
    rw [SessionManager.setSession, List.getElem?_set_ne (Ne.symm heq)]
    exact hown

theorem Consistent.doCloseSession (h : s.Consistent) (i : Nat) :
    (s.doCloseSession i).Consistent := by
  rw [SessionManager.doCloseSession]
  split
  next => exact h
  next session hi =>
    refine ⟨nodup_eraseKey h.nodup, ?_⟩
    intro e he
    obtain ⟨hmem, hne⟩ := mem_eraseKey.mp he
    obtain ⟨own, hown, hkey⟩ := h.own e hmem
    have heq : e.2 ≠ i := by
      rintro rfl
      rw [hi] at hown
      cases hown
      exact hne hkey.symm
    refine ⟨own, ?_, hkey⟩
    change (s.sessions.set i _)[e.2]? = _
    rw [List.getElem?_set_ne (Ne.symm heq)]
    exact hown

theorem Consistent.doClose (h : s.Consistent) (i : Nat) :
    (s.doClose i).Consistent := by
  rw [SessionManager.doClose]
  split
  next => exact h
  next session hi =>
    have hset : (s.setSession i { session with isOpen := false }).Consistent :=
      h.setSession hi rfl
    simp only
    split_ifs
    · exact hset.doCloseSession i
    · exact ⟨hset.nodup, hset.own⟩
    · exact h

theorem Consistent.own_append (h : s.Consistent) (session : ManagedSession)
    {e : Int × Nat} (he : e ∈ s.sessionAll) :
    ∃ own, (s.sessions ++ [session])[e.2]? = some own ∧
      own.sessionId = e.1 := by
  obtain ⟨own, hown, hkey⟩ := h.own e he
  exact ⟨own, getElem?_append_of_eq_some hown, hkey⟩

theorem Consistent.doAddSession (h : s.Consistent) {inLoop : Bool}
    {s' : SessionManager} (hadd : s.doAddSession inLoop = .ok s') :
    s'.Consistent := by
  rcases doAddSession_eq_ok hadd with ⟨_, rfl⟩ | ⟨_, rfl⟩
  · have hrefused : Consistent { s with
        sessions := s.sessions ++ [⟨0, inLoop, true, true, false⟩] } :=
      ⟨h.nodup, fun e he => h.own_append _ he⟩
    split_ifs
    · exact hrefused.doClose _
    · exact hrefused
  · refine ⟨nodup_insertNew h.nodup, ?_⟩
    intro e he
    rcases mem_insertNew he with hold | rfl
    · exact h.own_append _ hold
    · exact ⟨_, List.getElem?_concat_length, rfl⟩

theorem Consistent.checkSessionAlive (h : s.Consistent)
    {expired : Nat → Bool} {s' : SessionManager}
    (hsweep : s.checkSessionAlive expired = .ok s') :
    s' = { s with
      sessionAll := s.sessionAll.filter fun e => s.isHeld e.2
      checked := s.checked ++ s.liveSessions } := by
  by_cases hbad : ∃ e ∈ s.sessionAll, s.ClosesInline expired e
  · exact absurd hsweep
      (sweep_ne_ok (List.nil_append _).symm h hbad _ s')
  · have hfine : ∀ e ∈ s.sessionAll, ¬s.ClosesInline expired e :=
      fun e he hcloses => hbad ⟨e, he, hcloses⟩
    have hok := sweep_eq_ok (List.nil_append _).symm h.nodup hfine
      (Nat.lt_succ_self _)
    exact Except.ok.inj (hsweep.symm.trans hok)

theorem Consistent.perm (h : s.Consistent) {order : List (Int × Nat)}
    (hperm : order.Perm s.sessionAll) :
    Consistent { s with sessionAll := order } := by
  refine ⟨(hperm.map Prod.fst).nodup_iff.mpr h.nodup, ?_⟩
  intro e he
  exact h.own e (hperm.mem_iff.mp he)

theorem Consistent.step (h : s.Consistent) {e : Event} {s' : SessionManager}
    (henabled : s.Enabled e) (hstep : s.step e = .ok s') :
    s'.Consistent := by
  cases e with
  | addSession inLoop => exact h.doAddSession hstep
  | close i =>
      cases hstep
      exact h.doClose i
  | closeSession i =>
      cases hstep
      apply Consistent.doCloseSession
      exact ⟨h.nodup, h.own⟩
  | checkAlive order expired =>
      have hperm := h.perm henabled
      rw [hperm.checkSessionAlive hstep]
      refine ⟨(List.filter_sublist.map Prod.fst).nodup hperm.nodup, ?_⟩
      intro e he
      exact hperm.own e (List.mem_filter.mp he).1
  | release i =>
      rw [SessionManager.step] at hstep
      split at hstep
      next =>
        cases hstep
        exact h
      next session hi =>
        cases hstep
        exact h.setSession hi rfl

theorem Reachable.consistent {maxSessionCount : Nat}
    {ok : SessionManager → Event → Prop} (h : Reachable maxSessionCount ok s) :
    s.Consistent := by
  apply Reaches.invariant _ _ h
  · rintro s rfl
    exact ⟨List.nodup_nil, List.forall_mem_nil _⟩
  · intro s e s' hs hok hstep
    exact hs.step hok.1 hstep

end Consistency

/-! ## Ids -/

section Ids

variable {s : SessionManager}

structure Tracked (s : SessionManager) : Prop where
  current : 0 ≤ s.currentSession ∧ s.currentSession < maxSessionId
  assigned : ∀ id ∈ s.assigned, 0 < id ∧ id ≤ s.currentSession
  entries : ∀ e ∈ s.sessionAll, 0 < e.1
  le : ∀ (i : Nat) (a : ManagedSession), s.sessions[i]? = some a →
    a.sessionId ≤ s.currentSession
  pos : ∀ (i : Nat) (a : ManagedSession), s.sessions[i]? = some a →
    a.isOpen → if a.started then 0 < a.sessionId else a.sessionId = 0
  unique : ∀ (i j : Nat) (a b : ManagedSession), s.sessions[i]? = some a →
    s.sessions[j]? = some b → 0 < a.sessionId →
    a.sessionId = b.sessionId → i = j
  present : ∀ (i : Nat) (a : ManagedSession), s.sessions[i]? = some a →
    a.started → a.isOpen → a.held → (a.sessionId, i) ∈ s.sessionAll
  closed : ∀ i ∈ s.closing, ∃ a, s.sessions[i]? = some a ∧
    a.isOpen = false
  count : s.sessionAll.length ≤ s.maxSessionCount

theorem Tracked.setSession (h : s.Tracked) {i : Nat}
    {a b : ManagedSession} (hi : s.sessions[i]? = some a)
    (hid : b.sessionId = a.sessionId) (hstarted : b.started = a.started)
    (hopen : b.isOpen → a.isOpen) (hheld : b.held → a.held) :
    (s.setSession i b).Tracked := by
  have hold : ∀ (j : Nat) (c : ManagedSession),
      (s.setSession i b).sessions[j]? = some c →
      ∃ d, s.sessions[j]? = some d ∧ c.sessionId = d.sessionId ∧
        c.started = d.started ∧ (c.isOpen → d.isOpen) ∧
        (c.held → d.held) := by
    intro j c hc
    rcases eq_or_of_getElem?_set hc with ⟨rfl, rfl⟩ | ⟨_, hc⟩
    · exact ⟨a, hi, hid, hstarted, hopen, hheld⟩
    · exact ⟨c, hc, rfl, rfl, id, id⟩
  refine ⟨h.current, h.assigned, h.entries, ?_, ?_, ?_, ?_, ?_, h.count⟩
  · intro j c hc
    obtain ⟨d, hd, hcid, _⟩ := hold j c hc
    rw [hcid]
    exact h.le j d hd
  · intro j c hc hcopen
    obtain ⟨d, hd, hcid, hcstarted, hdopen, _⟩ := hold j c hc
    rw [hcid, hcstarted]
    exact h.pos j d hd (hdopen hcopen)
  · intro j k c c' hc hc' hpos heq
    obtain ⟨d, hd, hcid, _⟩ := hold j c hc
    obtain ⟨d', hd', hcid', _⟩ := hold k c' hc'
    rw [hcid] at hpos heq
    rw [hcid'] at heq
    exact h.unique j k d d' hd hd' hpos heq
  · intro j c hc hcstarted hcopen hcheld
    obtain ⟨d, hd, hcid, hdstarted, hdopen, hdheld⟩ := hold j c hc
    rw [hcid]
    rw [hdstarted] at hcstarted
    exact h.present j d hd hcstarted (hdopen hcopen) (hdheld hcheld)
  · intro j hj
    obtain ⟨d, hd, hshut⟩ := h.closed j hj
    by_cases heq : j = i
    · subst heq
      rw [hi] at hd
      cases hd
      have hlt := (List.getElem?_eq_some_iff.mp hi).1
      refine ⟨b, List.getElem?_set_self hlt, ?_⟩
      rw [Bool.eq_false_iff] at hshut ⊢
      exact fun hbopen => hshut (hopen hbopen)
    · refine ⟨d, ?_, hshut⟩
      rw [SessionManager.setSession, List.getElem?_set_ne (Ne.symm heq)]
      exact hd

theorem Tracked.doCloseSession (h : s.Tracked) {i : Nat}
    (hclosed : ∃ a, s.sessions[i]? = some a ∧ a.isOpen = false) :
    (s.doCloseSession i).Tracked := by
  rw [SessionManager.doCloseSession]
  split
  next => exact h
  next a hi =>
    have hshut : a.isOpen = false := by
      obtain ⟨b, hb, hshut⟩ := hclosed
      rw [hi] at hb
      cases hb
      exact hshut
    have hold : ∀ (j : Nat) (c : ManagedSession),
        (s.sessions.set i { a with sessionId := -1 })[j]? = some c →
        c.isOpen ∨ 0 < c.sessionId → s.sessions[j]? = some c ∧ j ≠ i := by
      intro j c hc hlive
      rcases eq_or_of_getElem?_set hc with ⟨rfl, rfl⟩ | ⟨hj, hc⟩
      · rcases hlive with hopen | hpos
        · rw [hshut] at hopen
          cases hopen
        · have hneg : ¬(0 : Int) < -1 := by decide
          exact absurd hpos hneg
      · exact ⟨hc, hj⟩
    refine ⟨h.current, h.assigned, ?_, ?_, ?_, ?_, ?_, ?_, ?_⟩
    · intro e he
      exact h.entries e (mem_eraseKey.mp he).1
    · intro j c hc
      rcases eq_or_of_getElem?_set hc with ⟨rfl, rfl⟩ | ⟨_, hc⟩
      · have hneg : (-1 : Int) ≤ 0 := by decide
        exact Int.le_trans hneg h.current.1
      · exact h.le j c hc
    · intro j c hc hopen
      exact h.pos j c (hold j c hc (.inl hopen)).1 hopen
    · intro j k c d hc hd hpos heq
      have hd' := hold k d hd (.inr (heq ▸ hpos))
      exact h.unique j k c d (hold j c hc (.inr hpos)).1 hd'.1 hpos heq
    · intro j c hc hstarted hopen hheld
      obtain ⟨hc, hj⟩ := hold j c hc (.inl hopen)
      have hpos := h.pos j c hc hopen
      rw [if_pos hstarted] at hpos
      refine mem_eraseKey.mpr ⟨h.present j c hc hstarted hopen hheld, ?_⟩
      intro heq
      exact hj (h.unique j i c a hc hi hpos heq)
    · intro j hj
      obtain ⟨c, hc, hcshut⟩ := h.closed j hj
      by_cases heq : j = i
      · subst heq
        have hlt := (List.getElem?_eq_some_iff.mp hi).1
        exact ⟨_, List.getElem?_set_self hlt, hshut⟩
      · refine ⟨c, ?_, hcshut⟩
        change (s.sessions.set i _)[j]? = _
        rw [List.getElem?_set_ne (Ne.symm heq)]
        exact hc
    · exact Nat.le_trans (List.length_filter_le _ _) h.count

theorem Tracked.doClose (h : s.Tracked) (i : Nat) :
    (s.doClose i).Tracked := by
  rw [SessionManager.doClose]
  split
  next => exact h
  next a hi =>
    have hlt := (List.getElem?_eq_some_iff.mp hi).1
    have hset : (s.setSession i { a with isOpen := false }).Tracked :=
      h.setSession hi rfl rfl (fun hopen => by cases hopen) id
    have hshut : ∃ b, (s.setSession i
        { a with isOpen := false }).sessions[i]? = some b ∧
        b.isOpen = false :=
      ⟨_, List.getElem?_set_self hlt, rfl⟩
    simp only
    split_ifs
    · exact hset.doCloseSession hshut
    · refine ⟨hset.current, hset.assigned, hset.entries, hset.le, hset.pos,
        hset.unique, hset.present, ?_, hset.count⟩
      intro j hj
      rcases List.mem_append.mp hj with hold | hnew
      · exact hset.closed j hold
      · rw [List.mem_singleton.mp hnew]
        exact hshut
    · exact h

theorem Tracked.closed_append (h : s.Tracked) (session : ManagedSession)
    (i : Nat) (hi : i ∈ s.closing) :
    ∃ a, (s.sessions ++ [session])[i]? = some a ∧ a.isOpen = false := by
  obtain ⟨a, ha, hshut⟩ := h.closed i hi
  exact ⟨a, getElem?_append_of_eq_some ha, hshut⟩

theorem Tracked.refuse (h : s.Tracked) (inLoop : Bool) :
    Tracked { s with
      sessions := s.sessions ++ [⟨0, inLoop, true, true, false⟩] } := by
  refine ⟨h.current, h.assigned, h.entries, ?_, ?_, ?_, ?_, ?_, h.count⟩
  · intro j c hc
    rcases eq_or_of_getElem?_concat hc with ⟨_, rfl⟩ | hc
    · exact h.current.1
    · exact h.le j c hc
  · intro j c hc hopen
    rcases eq_or_of_getElem?_concat hc with ⟨_, rfl⟩ | hc
    · rfl
    · exact h.pos j c hc hopen
  · intro j k c d hc hd hpos heq
    rcases eq_or_of_getElem?_concat hc with ⟨_, rfl⟩ | hc
    · exact absurd hpos (Int.lt_irrefl 0)
    · rcases eq_or_of_getElem?_concat hd with ⟨_, rfl⟩ | hd
      · rw [heq] at hpos
        exact absurd hpos (Int.lt_irrefl 0)
      · exact h.unique j k c d hc hd hpos heq
  · intro j c hc hstarted hopen hheld
    rcases eq_or_of_getElem?_concat hc with ⟨_, rfl⟩ | hc
    · cases hstarted
    · exact h.present j c hc hstarted hopen hheld
  · exact h.closed_append _

theorem Tracked.admit (h : s.Tracked) (hcons : s.Consistent)
    (inLoop : Bool) (hlimit : ¬s.isSessionOverLimit)
    (hcountable : s.currentSession + 1 < maxSessionId) : Tracked { s with
      currentSession := s.currentSession + 1
      assigned := s.assigned ++ [s.currentSession + 1]
      sessions := s.sessions ++
        [⟨s.currentSession + 1, inLoop, true, true, true⟩]
      sessionAll := insertNew (s.currentSession + 1) s.sessions.length
        s.sessionAll } := by
  have hcurrent := h.current
  have hfresh : s.currentSession + 1 ∉ s.sessionAll.map Prod.fst := by
    intro hmem
    obtain ⟨e, he, hkey⟩ := List.mem_map.mp hmem
    obtain ⟨own, hown, hid⟩ := hcons.own e he
    have hle := h.le e.2 own hown
    omega
  have hentries : insertNew (s.currentSession + 1) s.sessions.length
      s.sessionAll =
        s.sessionAll ++ [(s.currentSession + 1, s.sessions.length)] :=
    if_neg hfresh
  have hnext : 0 < s.currentSession + 1 := by omega
  refine ⟨⟨Int.le_of_lt hnext, hcountable⟩, ?_, ?_, ?_, ?_, ?_, ?_, ?_, ?_⟩
  · intro id hid
    rcases List.mem_append.mp hid with hold | hnew
    · obtain ⟨hpos, hle⟩ := h.assigned id hold
      exact ⟨hpos, Int.le_trans hle (Int.le_add_one (Int.le_refl _))⟩
    · rw [List.mem_singleton.mp hnew]
      exact ⟨hnext, Int.le_refl _⟩
  · intro e he
    rcases mem_insertNew he with hold | rfl
    · exact h.entries e hold
    · exact hnext
  · intro j c hc
    rcases eq_or_of_getElem?_concat hc with ⟨_, rfl⟩ | hc
    · exact Int.le_refl _
    · have hle := h.le j c hc
      change c.sessionId ≤ s.currentSession + 1
      omega
  · intro j c hc hopen
    rcases eq_or_of_getElem?_concat hc with ⟨_, rfl⟩ | hc
    · exact hnext
    · exact h.pos j c hc hopen
  · intro j k c d hc hd hpos heq
    rcases eq_or_of_getElem?_concat hc with ⟨hj, rfl⟩ | hc
    · rcases eq_or_of_getElem?_concat hd with ⟨hk, _⟩ | hd
      · rw [hj, hk]
      · have hle := h.le k d hd
        simp only at heq
        omega
    · rcases eq_or_of_getElem?_concat hd with ⟨_, rfl⟩ | hd
      · have hle := h.le j c hc
        simp only at heq
        omega
      · exact h.unique j k c d hc hd hpos heq
  · intro j c hc hstarted hopen hheld
    change (c.sessionId, j) ∈ insertNew _ _ _
    rw [hentries]
    rcases eq_or_of_getElem?_concat hc with ⟨rfl, rfl⟩ | hc
    · exact List.mem_append_right _ List.mem_cons_self
    · exact List.mem_append_left _ (h.present j c hc hstarted hopen hheld)
  · exact h.closed_append _
  · change (insertNew _ _ _).length ≤ s.maxSessionCount
    rw [isSessionOverLimit, decide_eq_true_eq] at hlimit
    rw [hentries, List.length_append, List.length_singleton]
    omega

theorem Tracked.doAddSession (h : s.Tracked) (hcons : s.Consistent)
    {inLoop : Bool} (hcountable : s.Countable (.addSession inLoop))
    {s' : SessionManager} (hadd : s.doAddSession inLoop = .ok s') :
    s'.Tracked := by
  rcases doAddSession_eq_ok hadd with ⟨_, rfl⟩ | ⟨hlimit, rfl⟩
  · split_ifs
    · exact (h.refuse inLoop).doClose _
    · exact h.refuse inLoop
  · exact h.admit hcons inLoop hlimit (hcountable hlimit)

theorem Tracked.checkSessionAlive (h : s.Tracked) (hcons : s.Consistent)
    {expired : Nat → Bool} {s' : SessionManager}
    (hsweep : s.checkSessionAlive expired = .ok s') : s'.Tracked := by
  rw [hcons.checkSessionAlive hsweep]
  refine ⟨h.current, h.assigned, ?_, h.le, h.pos, h.unique, ?_, h.closed, ?_⟩
  · intro e he
    exact h.entries e (List.mem_filter.mp he).1
  · intro i a ha hstarted hopen hheld
    refine List.mem_filter.mpr ⟨h.present i a ha hstarted hopen hheld, ?_⟩
    rw [isHeld, ha]
    exact hheld
  · exact Nat.le_trans (List.length_filter_le _ _) h.count

theorem Tracked.perm (h : s.Tracked) {order : List (Int × Nat)}
    (hperm : order.Perm s.sessionAll) :
    Tracked { s with sessionAll := order } := by
  refine ⟨h.current, h.assigned, ?_, h.le, h.pos, h.unique, ?_, h.closed, ?_⟩
  · intro e he
    exact h.entries e (hperm.mem_iff.mp he)
  · intro i a ha hstarted hopen hheld
    exact hperm.mem_iff.mpr (h.present i a ha hstarted hopen hheld)
  · rw [hperm.length_eq]
    exact h.count

theorem Tracked.step (h : s.Tracked) (hcons : s.Consistent) {e : Event}
    {s' : SessionManager} (henabled : s.Enabled e)
    (hcountable : s.Countable e) (hstep : s.step e = .ok s') :
    s'.Tracked := by
  cases e with
  | addSession inLoop => exact h.doAddSession hcons hcountable hstep
  | close i =>
      cases hstep
      exact h.doClose i
  | closeSession i =>
      cases hstep
      have hrest : ∀ j ∈ s.closing.erase i, j ∈ s.closing :=
        fun j => List.mem_of_mem_erase
      have htracked : Tracked { s with closing := s.closing.erase i } :=
        ⟨h.current, h.assigned, h.entries, h.le, h.pos, h.unique, h.present,
          fun j hj => h.closed j (hrest j hj), h.count⟩
      exact htracked.doCloseSession (h.closed i henabled)
  | checkAlive order expired =>
      exact (h.perm henabled).checkSessionAlive (hcons.perm henabled) hstep
  | release i =>
      rw [SessionManager.step] at hstep
      split at hstep
      next =>
        cases hstep
        exact h
      next session hi =>
        cases hstep
        exact h.setSession hi rfl rfl id fun hheld => by cases hheld

theorem tracked_new (maxSessionCount : Nat) :
    (new maxSessionCount).Tracked := by
  have hzero : (0 : Int) < maxSessionId := by decide
  refine ⟨⟨Int.le_refl 0, hzero⟩, List.forall_mem_nil _,
    List.forall_mem_nil _, ?_, ?_, ?_, ?_, List.forall_mem_nil _,
    Nat.zero_le _⟩
  · intro i a ha
    cases ha
  · intro i a ha
    cases ha
  · intro i j a b ha
    cases ha
  · intro i a ha
    cases ha

theorem Reachable.tracked {maxSessionCount : Nat}
    (h : Reachable maxSessionCount Countable s) : s.Tracked := by
  apply Reaches.invariant_of (fun _ => Reachable.consistent) _ _ h
  · rintro s rfl
    exact tracked_new maxSessionCount
  · intro s e s' hcons htracked hok hstep
    exact htracked.step hcons hok.1 hok.2 hstep

/-! ## Sessions that were refused -/

def Refused (sessions : List ManagedSession) (i : Nat) : Prop :=
  ∃ a, sessions[i]? = some a ∧ a.started = false ∧ a.isOpen = true

theorem Refused.of_set {l : List ManagedSession} {i j : Nat}
    {a b : ManagedSession} (h : Refused (l.set i b) j)
    (hi : l[i]? = some a) (hstarted : b.started = a.started)
    (hopen : b.isOpen = true → a.isOpen = true) : Refused l j := by
  obtain ⟨c, hc, hcstarted, hcopen⟩ := h
  rcases eq_or_of_getElem?_set hc with ⟨rfl, rfl⟩ | ⟨_, hc⟩
  · exact ⟨a, hi, hstarted ▸ hcstarted, hopen hcopen⟩
  · exact ⟨c, hc, hcstarted, hcopen⟩

theorem Refused.of_doCloseSession {i j : Nat}
    (h : Refused (s.doCloseSession i).sessions j) :
    Refused s.sessions j := by
  rw [SessionManager.doCloseSession] at h
  split at h
  next => exact h
  next a hi => exact h.of_set hi rfl id

theorem Refused.of_doClose {i j : Nat}
    (h : Refused (s.doClose i).sessions j) : Refused s.sessions j := by
  rw [SessionManager.doClose] at h
  split at h
  next => exact h
  next a hi =>
    have hshut : false = true → a.isOpen = true := fun hfalse => by
      cases hfalse
    simp only at h
    split_ifs at h
    · exact h.of_doCloseSession.of_set hi rfl hshut
    · exact h.of_set hi rfl hshut
    · exact h

theorem Refused.of_append {l : List ManagedSession} {j : Nat}
    {a : ManagedSession} (h : Refused (l ++ [a]) j) :
    Refused l j ∨ (j = l.length ∧ a.started = false) := by
  obtain ⟨c, hc, hcstarted, hcopen⟩ := h
  rcases eq_or_of_getElem?_concat hc with ⟨hj, rfl⟩ | hc
  · exact .inr ⟨hj, hcstarted⟩
  · exact .inl ⟨c, hc, hcstarted, hcopen⟩

theorem Refused.of_step (hcons : s.Consistent) {e : Event}
    {s' : SessionManager} (henabled : s.Enabled e)
    (hrefuses : s.RefusesOne e) (hstep : s.step e = .ok s') {j : Nat}
    (h : Refused s'.sessions j) :
    Refused s.sessions j ∨ (j = s.sessions.length ∧
      ∀ session ∈ s.sessions, session.isOpen → session.started) := by
  cases e with
  | addSession inLoop =>
      rcases doAddSession_eq_ok hstep with ⟨hover, rfl⟩ | ⟨_, rfl⟩
      · have hnew : Refused
            (s.sessions ++ [⟨0, inLoop, true, true, false⟩]) j := by
          split_ifs at h
          · exact h.of_doClose
          · exact h
        rcases hnew.of_append with hold | ⟨hj, _⟩
        · exact .inl hold
        · exact .inr ⟨hj, hrefuses hover⟩
      · rcases h.of_append with hold | ⟨_, hstarted⟩
        · exact .inl hold
        · cases hstarted
  | close i =>
      cases hstep
      exact .inl h.of_doClose
  | closeSession i =>
      cases hstep
      exact .inl h.of_doCloseSession
  | checkAlive order expired =>
      rw [(hcons.perm henabled).checkSessionAlive hstep] at h
      exact .inl h
  | release i =>
      rw [SessionManager.step] at hstep
      split at hstep
      next =>
        cases hstep
        exact .inl h
      next session hi =>
        cases hstep
        exact .inl (h.of_set hi rfl id)

theorem Refused.unique_step (hcons : s.Consistent) {e : Event}
    {s' : SessionManager} (henabled : s.Enabled e)
    (hrefuses : s.RefusesOne e) (hstep : s.step e = .ok s')
    (hunique : ∀ i j, Refused s.sessions i → Refused s.sessions j → i = j)
    (i j : Nat) (hi : Refused s'.sessions i) (hj : Refused s'.sessions j) :
    i = j := by
  have hnone : (∀ session ∈ s.sessions, session.isOpen → session.started) →
      ∀ k, ¬Refused s.sessions k := by
    rintro hall k ⟨a, ha, hstarted, hopen⟩
    rw [hall a (List.mem_of_getElem? ha) hopen] at hstarted
    cases hstarted
  rcases hi.of_step hcons henabled hrefuses hstep with hi | ⟨hi, hall⟩
  · rcases hj.of_step hcons henabled hrefuses hstep with hj | ⟨_, hall⟩
    · exact hunique i j hi hj
    · exact absurd hi (hnone hall i)
  · rcases hj.of_step hcons henabled hrefuses hstep with hj | ⟨hj, _⟩
    · exact absurd hj (hnone hall j)
    · rw [hi, hj]

theorem Reachable.refused_unique {maxSessionCount : Nat}
    (h : Reachable maxSessionCount
      (fun s e => s.Countable e ∧ s.RefusesOne e) s) :
    ∀ i j, Refused s.sessions i → Refused s.sessions j → i = j := by
  apply Reaches.invariant_of (fun _ => Reachable.consistent) _ _ h
  · rintro s rfl i j ⟨a, ha, _⟩
    cases ha
  · intro s e s' hcons hunique hok hstep
    exact Refused.unique_step hcons hok.1 hok.2.2 hstep hunique

end Ids

/-- What the ids of admitted sessions are for. -/
structure ValidIds (s : SessionManager) : Prop where
  range : ∀ id ∈ s.assigned, 0 ≤ id ∧ id < maxSessionId
  distinct : ∀ (i j : Nat) (a b : ManagedSession), s.sessions[i]? = some a →
    s.sessions[j]? = some b → a.started → b.started → a.isOpen → b.isOpen →
    a.sessionId = b.sessionId → i = j
  present : ∀ (i : Nat) (a : ManagedSession), s.sessions[i]? = some a →
    a.started → a.isOpen → a.held → (a.sessionId, i) ∈ s.sessionAll
  count : s.sessionAll.length ≤ s.maxSessionCount

theorem Tracked.validIds {s : SessionManager} (h : s.Tracked) :
    s.ValidIds := by
  refine ⟨?_, ?_, h.present, h.count⟩
  · intro id hid
    obtain ⟨hpos, hle⟩ := h.assigned id hid
    exact ⟨Int.le_of_lt hpos, Int.lt_of_le_of_lt hle h.current.2⟩
  · intro i j a b ha hb hstarted _ hopen _ heq
    have hpos := h.pos i a ha hopen
    rw [if_pos hstarted] at hpos
    exact h.unique i j a b ha hb hpos heq

end SessionManager

/--
As long as the counter can be increased, admitted sessions have ids of their
own.  A session that was refused keeps the id zero until it is closed, so there
should be one such session at most.
-/
theorem session_ids_valid (s : SessionManager) (maxSessionCount : Nat) :
    (SessionManager.Reachable maxSessionCount SessionManager.Countable s →
      s.ValidIds) ∧
    (SessionManager.Reachable maxSessionCount
        (fun s e => s.Countable e ∧ s.RefusesOne e) s →
      ∀ (i j : Nat) (a b : ManagedSession), s.sessions[i]? = some a →
        s.sessions[j]? = some b → a.isOpen → b.isOpen →
        a.sessionId = b.sessionId → i = j) := by
  constructor
  · intro h
    exact h.tracked.validIds
  · intro h i j a b ha hb haopen hbopen heq
    have hcountable : SessionManager.Reachable maxSessionCount
        SessionManager.Countable s :=
      Reaches.mono (fun s e hok => ⟨hok.1, hok.2.1⟩) h
    have htracked := hcountable.tracked
    have hapos := htracked.pos i a ha haopen
    have hbpos := htracked.pos j b hb hbopen
    cases hastarted : a.started with
    | true =>
        rw [if_pos hastarted] at hapos
        exact htracked.unique i j a b ha hb hapos heq
    | false =>
        cases hbstarted : b.started with
        | true =>
            rw [if_pos hbstarted] at hbpos
            exact (htracked.unique j i b a hb ha hbpos heq.symm).symm
        | false =>
            exact h.refused_unique i j ⟨a, ha, hastarted, haopen⟩
              ⟨b, hb, hbstarted, hbopen⟩

namespace SessionManager

theorem Reachable.addClose {s : SessionManager} {maxSessionCount : Nat}
    (h : Reachable maxSessionCount (fun _ _ => True) s)
    (hmax : 0 < s.maxSessionCount) (hnone : s.sessionAll = [])
    (hlt : s.currentSession < maxSessionId) :
    ∃ s', Reachable maxSessionCount (fun _ _ => True) s' ∧
      s'.maxSessionCount = s.maxSessionCount ∧ s'.sessionAll = [] ∧
      s'.currentSession = s.currentSession + 1 ∧
      s.currentSession + 1 ∈ s'.assigned := by
  let added : SessionManager := { s with
    currentSession := s.currentSession + 1
    assigned := s.assigned ++ [s.currentSession + 1]
    sessions := s.sessions ++ [⟨s.currentSession + 1, true, true, true, true⟩]
    sessionAll := [(s.currentSession + 1, s.sessions.length)] }
  have hlimit : s.isSessionOverLimit = false := by
    rw [isSessionOverLimit, hnone]
    exact decide_eq_false (Nat.not_le.mpr hmax)
  have hadd : s.step (.addSession true) = .ok added := by
    have hle : ¬s.currentSession + 1 > maxSessionId := by omega
    simp [SessionManager.step, SessionManager.doAddSession, hlimit,
      one_mod_maxSessionId, hle, hnone, insertNew, added]
  have hget : added.sessions[s.sessions.length]? =
      some ⟨s.currentSession + 1, true, true, true, true⟩ :=
    List.getElem?_concat_length
  have hreach : Reachable maxSessionCount (fun _ _ => True) added :=
    Reaches.step (a := .addSession true) h ⟨trivial, trivial⟩ hadd
  refine ⟨added.doClose s.sessions.length, Reaches.step (a :=
    .close s.sessions.length) hreach ⟨?_, trivial⟩ rfl, ?_⟩
  · change added.isHeld s.sessions.length
    rw [isHeld, hget]
    rfl
  · have hset : ∀ a, (added.sessions.set s.sessions.length
        a)[s.sessions.length]? = some a := by
      intro a
      exact List.getElem?_set_self (List.getElem?_eq_some_iff.mp hget).1
    rw [doClose, hget]
    simp only [if_true, setSession, doCloseSession, hset]
    refine ⟨rfl, ?_, rfl, ?_⟩
    · simp [added, eraseKey]
    · simp [added]

theorem exists_reachable_current (n : Nat) (h : (n : Int) < maxSessionId) :
    ∃ s, Reachable 5000 (fun _ _ => True) s ∧ s.maxSessionCount = 5000 ∧
      s.sessionAll = [] ∧ s.currentSession = n := by
  induction n with
  | zero => exact ⟨new 5000, .start rfl, rfl, rfl, rfl⟩
  | succ n ih =>
      have hlt : (n : Int) < maxSessionId := by omega
      obtain ⟨s, hs, hmax, hnone, hcurrent⟩ := ih hlt
      obtain ⟨s', hs', hmax', hnone', hcurrent', _⟩ :=
        hs.addClose (by omega) hnone (by omega)
      refine ⟨s', hs', hmax'.trans hmax, hnone', ?_⟩
      rw [hcurrent', hcurrent]
      rfl

instance (s : SessionManager) : ∀ e, Decidable (s.Enabled e)
  | .addSession _ => .isTrue trivial
  | .close _ => inferInstanceAs (Decidable (_ = true))
  | .closeSession _ => inferInstanceAs (Decidable (_ ∈ _))
  | .checkAlive _ _ => inferInstanceAs (Decidable (List.Perm _ _))
  | .release _ => inferInstanceAs (Decidable (_ ∉ _))

instance (s : SessionManager) : ∀ e, Decidable (s.Countable e)
  | .addSession _ => inferInstanceAs (Decidable (_ → _))
  | .close _ | .closeSession _ | .checkAlive _ _ | .release _ =>
      .isTrue trivial

theorem exists_reachable {maxSessionCount : Nat}
    {ok : SessionManager → Event → Prop} [∀ s e, Decidable (ok s e)]
    (inputs : List Event) (p : SessionManager → Bool)
    (h : (runs (fun s e => Enabled s e ∧ ok s e) step
      (new maxSessionCount) inputs).any p) :
    ∃ s, Reachable maxSessionCount ok s ∧ p s := by
  apply exists_reaches _ inputs p h
  rfl

def sampleSessions : List Event :=
  [.addSession true, .addSession false, .close 1, .closeSession 1,
    .checkAlive [(1, 0)] (fun _ => false)]

end SessionManager

theorem sampleSessions_valid :
    ∃ s, SessionManager.Reachable 1 SessionManager.Countable s ∧
      s.assigned = [1] ∧ s.sessionAll = [(1, 0)] ∧ s.checked = [0] ∧
      s.ValidIds := by
  obtain ⟨s, hs, hfacts⟩ :
      ∃ s, SessionManager.Reachable 1 SessionManager.Countable s ∧
        decide (s.assigned = [1] ∧ s.sessionAll = [(1, 0)] ∧
          s.checked = [0]) = true :=
    SessionManager.exists_reachable SessionManager.sampleSessions _
      (by decide +kernel)
  obtain ⟨hassigned, hall, hchecked⟩ := of_decide_eq_true hfacts
  exact ⟨s, hs, hassigned, hall, hchecked, (session_ids_valid s 1).1 hs⟩

theorem session_id_out_of_range :
    ¬∀ (s : SessionManager) (maxSessionCount : Nat),
      SessionManager.Reachable maxSessionCount (fun _ _ => True) s →
      s.ValidIds := by
  intro h
  obtain ⟨s, hs, hmax, hnone, hcurrent⟩ :=
    SessionManager.exists_reachable_current 2147483646 (by decide)
  obtain ⟨s', hs', _, _, _, hassigned⟩ :=
    hs.addClose (by omega) hnone (by rw [hcurrent]; decide)
  have hrange := (h s' 5000 hs').range _ hassigned
  rw [hcurrent] at hrange
  exact absurd hrange.2 (by decide)

end StarsGaming.Net
