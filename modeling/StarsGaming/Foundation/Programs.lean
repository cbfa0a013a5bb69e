import Mathlib.Data.List.Nodup
import Mathlib.Logic.Relation

/-!
# Programs over a shared store

A program gives commands to a store that it shares with others.  A command is
atomic, but what it replies and what it leaves behind may be left open.  Between
two commands of one program the others give theirs, and the store may change on
its own.  A program that fails returns nothing.

Replies may grant tickets, each of them once.  Every ticket is then held by one
program at most, and whatever results are made of the tickets held differ.
-/

namespace StarsGaming.Foundation

/-- Programs with commands `κ`, replies `ρ`, failures `ε` and results `α`. -/
inductive Prog (κ : Type) (ρ : κ → Type) (ε α : Type) where
  | pure (a : α)
  | fail (e : ε)
  | call (c : κ) (next : ρ c → Prog κ ρ ε α)

namespace Prog

variable {κ : Type} {ρ : κ → Type} {ε α β : Type} {σ ι τ : Type}

def bind (p : Prog κ ρ ε α) (f : α → Prog κ ρ ε β) : Prog κ ρ ε β :=
  match p with
  | .pure a => f a
  | .fail e => .fail e
  | .call c next => .call c fun r => (next r).bind f

instance : Monad (Prog κ ρ ε) where
  pure := .pure
  bind := .bind

def ofExcept {ε' : Type} (f : ε' → ε) : Except ε' α → Prog κ ρ ε α
  | .ok a => .pure a
  | .error e => .fail (f e)

def ofOption (e : ε) : Option α → Prog κ ρ ε α
  | some a => .pure a
  | none => .fail e

/-! ## What a program ensures -/

section Ensures

variable (exec : (c : κ) → σ → ρ c → σ → Prop) (I : σ → Prop)
  (grant : (c : κ) → ρ c → List τ)

/--
Every command keeps `I`, if all others do, and `Q` holds of the tickets that are
held in the end and the result.
-/
def Ensures (Q : List τ → α → Prop) : Prog κ ρ ε α → List τ → Prop
  | .pure a, held => Q held a
  | .fail _, _ => True
  | .call c next, held => ∀ s r s', I s → exec c s r s' →
      I s' ∧ (next r).Ensures Q (held ++ grant c r)

variable {exec I grant} {Q : List τ → α → Prop} {held : List τ}

theorem Ensures.bind {R : List τ → β → Prop} {p : Prog κ ρ ε α}
    {f : α → Prog κ ρ ε β} (hp : p.Ensures exec I grant Q held)
    (hf : ∀ held' a, Q held' a → (f a).Ensures exec I grant R held') :
    (p >>= f).Ensures exec I grant R held := by
  induction p generalizing held with
  | pure a => exact hf held a hp
  | fail e => trivial
  | call c next ih =>
      intro s r s' hs hexec
      obtain ⟨hs', hnext⟩ := hp s r s' hs hexec
      exact ⟨hs', ih r hnext⟩

theorem Ensures.mono {R : List τ → α → Prop} {p : Prog κ ρ ε α}
    (hp : p.Ensures exec I grant Q held)
    (h : ∀ held' a, Q held' a → R held' a) :
    p.Ensures exec I grant R held := by
  induction p generalizing held with
  | pure a => exact h held a hp
  | fail e => trivial
  | call c next ih =>
      intro s r s' hs hexec
      obtain ⟨hs', hnext⟩ := hp s r s' hs hexec
      exact ⟨hs', ih r hnext⟩

theorem ensures_ofExcept {ε' : Type} {f : ε' → ε} {x : Except ε' α}
    (h : ∀ a, x = .ok a → Q held a) :
    (ofExcept f x : Prog κ ρ ε α).Ensures exec I grant Q held := by
  cases x with
  | ok a => exact h a rfl
  | error e => trivial

theorem ensures_ofOption {e : ε} {x : Option α}
    (h : ∀ a, x = some a → Q held a) :
    (ofOption e x : Prog κ ρ ε α).Ensures exec I grant Q held := by
  cases x with
  | some a => exact h a rfl
  | none => trivial

theorem ensures_forM {items : List β} {f : β → Prog κ ρ ε Unit}
    (h : ∀ b ∈ items,
      (f b).Ensures exec I grant (fun held' _ => held' = held) held) :
    (items.forM f).Ensures exec I grant (fun held' _ => held' = held)
      held := by
  induction items with
  | nil => exact rfl
  | cons b rest ih =>
      change (f b >>= fun _ => rest.forM f).Ensures exec I grant _ _
      apply (h b List.mem_cons_self).bind
      rintro _ _ rfl
      exact ih fun b hb => h b (List.mem_cons_of_mem _ hb)

end Ensures

/-! ## Programs side by side -/

structure Pool (κ : Type) (ρ : κ → Type) (ε α σ ι : Type) where
  store : σ
  running : List (ι × Prog κ ρ ε α)
  results : List (ι × α)

variable (exec : (c : κ) → σ → ρ c → σ → Prop) (drift : σ → σ → Prop)
  (ok : Pool κ ρ ε α σ ι → ι → Prop) (prog : ι → Prog κ ρ ε α)

/-- A program is started for an input that satisfies `ok`. -/
inductive Pool.Step : Pool κ ρ ε α σ ι → Pool κ ρ ε α σ ι → Prop where
  | start (pool : Pool κ ρ ε α σ ι) (i : ι) (hok : ok pool i) :
      Step pool { pool with running := pool.running ++ [(i, prog i)] }
  | run (pool : Pool κ ρ ε α σ ι) {before rest : List (ι × Prog κ ρ ε α)}
      {i : ι} {c : κ} {next : ρ c → Prog κ ρ ε α} {r : ρ c} {s : σ}
      (hrunning : pool.running = before ++ (i, .call c next) :: rest)
      (hexec : exec c pool.store r s) :
      Step pool { pool with
        store := s
        running := before ++ (i, next r) :: rest }
  | finish (pool : Pool κ ρ ε α σ ι)
      {before rest : List (ι × Prog κ ρ ε α)} {i : ι} {a : α}
      (hrunning : pool.running = before ++ (i, .pure a) :: rest) :
      Step pool { pool with
        running := before ++ rest
        results := pool.results ++ [(i, a)] }
  | crash (pool : Pool κ ρ ε α σ ι)
      {before rest : List (ι × Prog κ ρ ε α)} {i : ι} {p : Prog κ ρ ε α}
      (hrunning : pool.running = before ++ (i, p) :: rest) :
      Step pool { pool with running := before ++ rest }
  | drift (pool : Pool κ ρ ε α σ ι) {s : σ} (h : drift pool.store s) :
      Step pool { pool with store := s }

def Pool.Reachable (init : σ) : Pool κ ρ ε α σ ι → Prop :=
  Relation.ReflTransGen (Step exec drift ok prog) ⟨init, [], []⟩

/-! ## Tickets -/

/-- Tickets stay granted, and those of a reply were not granted before. -/
structure Grants (I : σ → Prop) (grant : (c : κ) → ρ c → List τ)
    (Granted : σ → τ → Prop) : Prop where
  stay : ∀ c s r s', I s → exec c s r s' → ∀ t, Granted s t → Granted s' t
  fresh : ∀ c s r s', I s → exec c s r s' →
    ∀ t ∈ grant c r, ¬Granted s t ∧ Granted s' t
  nodup : ∀ c r, (grant c r).Nodup
  drift : ∀ s s', I s → drift s s' →
    I s' ∧ ∀ t, Granted s t → Granted s' t

structure Pool.Sound (I : σ → Prop) (grant : (c : κ) → ρ c → List τ)
    (Granted : σ → τ → Prop) (Q : ι → List τ → α → Prop)
    (pool : Pool κ ρ ε α σ ι) (runs : List (List τ × ι × Prog κ ρ ε α))
    (done : List (List τ × ι × α)) : Prop where
  running : runs.map Prod.snd = pool.running
  results : done.map Prod.snd = pool.results
  store : I pool.store
  ensures : ∀ e ∈ runs, e.2.2.Ensures exec I grant (Q e.2.1) e.1
  holds : ∀ e ∈ done, Q e.2.1 e.1 e.2.2
  nodup : (runs.flatMap Prod.fst ++ done.flatMap Prod.fst).Nodup
  granted : ∀ t ∈ runs.flatMap Prod.fst ++ done.flatMap Prod.fst,
    Granted pool.store t

variable {exec drift ok prog} {I : σ → Prop}
  {grant : (c : κ) → ρ c → List τ} {Granted : σ → τ → Prop}
  {Q : ι → List τ → α → Prop}

theorem exists_entry {runs : List (List τ × ι × Prog κ ρ ε α)}
    {before rest : List (ι × Prog κ ρ ε α)} {e : ι × Prog κ ρ ε α}
    (h : runs.map Prod.snd = before ++ e :: rest) :
    ∃ first held last, runs = first ++ (held, e) :: last ∧
      first.map Prod.snd = before ∧ last.map Prod.snd = rest := by
  obtain ⟨first, later, rfl, hfirst, hlater⟩ := List.map_eq_append_iff.mp h
  obtain ⟨⟨held, e'⟩, last, rfl, rfl, hlast⟩ :=
    List.map_eq_cons_iff.mp hlater
  exact ⟨first, held, last, rfl, hfirst, hlast⟩

theorem Pool.Sound.step {pool pool' : Pool κ ρ ε α σ ι}
    {runs : List (List τ × ι × Prog κ ρ ε α)} {done : List (List τ × ι × α)}
    (hgrants : Grants exec drift I grant Granted)
    (hprog : ∀ pool i, ok pool i → (prog i).Ensures exec I grant (Q i) [])
    (h : pool.Sound exec I grant Granted Q runs done)
    (hstep : Step exec drift ok prog pool pool') :
    ∃ runs' done', pool'.Sound exec I grant Granted Q runs' done' := by
  classical
  cases hstep with
  | start i hok =>
      refine ⟨runs ++ [([], i, prog i)], done, ?_, h.results, h.store,
        fun e he => ?_, h.holds, ?_, ?_⟩
      · rw [List.map_append, h.running]
        rfl
      · rcases List.mem_append.mp he with hold | hnew
        · exact h.ensures e hold
        · rw [List.mem_singleton.mp hnew]
          exact hprog pool i hok
      · simpa using h.nodup
      · simpa using h.granted
  | @run before rest i c next r s hrunning hexec =>
      obtain ⟨first, held, last, rfl, hfirst, hlast⟩ :=
        exists_entry (h.running.trans hrunning)
      have hcall := h.ensures (held, i, .call c next) (by simp)
      obtain ⟨hstore, hnext⟩ := hcall _ r s h.store hexec
      have hfresh := hgrants.fresh c _ r s h.store hexec
      -- the tickets of the reply are new among those that are held
      have hperm : ((first ++ (held ++ grant c r, i, next r) :: last).flatMap
          Prod.fst ++ done.flatMap Prod.fst).Perm
          (grant c r ++ ((first ++ (held, i, Prog.call c next) :: last).flatMap
            Prod.fst ++ done.flatMap Prod.fst)) := by
        simp only [List.flatMap_append, List.flatMap_cons]
        rw [List.perm_iff_count]
        intro t
        simp only [List.count_append]
        omega
      refine ⟨first ++ (held ++ grant c r, i, next r) :: last, done, ?_,
        h.results, hstore, fun e he => ?_, h.holds, ?_, fun t ht => ?_⟩
      · rw [List.map_append, List.map_cons, hfirst, hlast]
      · rcases List.mem_append.mp he with hbefore | hrest
        · exact h.ensures e (by simp [hbefore])
        · rcases List.mem_cons.mp hrest with rfl | hrest
          · exact hnext
          · exact h.ensures e (by simp [hrest])
      · rw [hperm.nodup_iff, List.nodup_append']
        refine ⟨hgrants.nodup c r, h.nodup, fun t hnew hold => ?_⟩
        exact (hfresh t hnew).1 (h.granted t hold)
      · rcases List.mem_append.mp (hperm.mem_iff.mp ht) with hnew | hold
        · exact (hfresh t hnew).2
        · exact hgrants.stay c _ r s h.store hexec t (h.granted t hold)
  | @finish before rest i a hrunning =>
      obtain ⟨first, held, last, rfl, hfirst, hlast⟩ :=
        exists_entry (h.running.trans hrunning)
      have hpure := h.ensures (held, i, .pure a) (by simp)
      have hperm : ((first ++ last).flatMap Prod.fst ++
          (done ++ [(held, i, a)]).flatMap Prod.fst).Perm
          ((first ++ (held, i, Prog.pure a) :: last).flatMap Prod.fst ++
            done.flatMap Prod.fst) := by
        simp only [List.flatMap_append, List.flatMap_cons, List.flatMap_nil]
        rw [List.perm_iff_count]
        intro t
        simp only [List.count_append, List.count_nil]
        omega
      refine ⟨first ++ last, done ++ [(held, i, a)], ?_, ?_, h.store,
        fun e he => ?_, fun e he => ?_, hperm.nodup_iff.mpr h.nodup,
        fun t ht => h.granted t (hperm.mem_iff.mp ht)⟩
      · rw [List.map_append, hfirst, hlast]
      · rw [List.map_append, h.results]
        rfl
      · apply h.ensures e
        rcases List.mem_append.mp he with hbefore | hrest
        · simp [hbefore]
        · simp [hrest]
      · rcases List.mem_append.mp he with hold | hnew
        · exact h.holds e hold
        · rw [List.mem_singleton.mp hnew]
          exact hpure
  | @crash before rest i p hrunning =>
      obtain ⟨first, held, last, rfl, hfirst, hlast⟩ :=
        exists_entry (h.running.trans hrunning)
      have hsub : ((first ++ last).flatMap Prod.fst ++
          done.flatMap Prod.fst).Sublist
          ((first ++ (held, i, p) :: last).flatMap Prod.fst ++
            done.flatMap Prod.fst) := by
        apply List.Sublist.append_right
        rw [List.flatMap_append, List.flatMap_append, List.flatMap_cons]
        exact (List.sublist_append_right _ _).append_left _
      refine ⟨first ++ last, done, ?_, h.results, h.store, fun e he => ?_,
        h.holds, h.nodup.sublist hsub, fun t ht => h.granted t (hsub.mem ht)⟩
      · rw [List.map_append, hfirst, hlast]
      · apply h.ensures e
        rcases List.mem_append.mp he with hbefore | hrest
        · simp [hbefore]
        · simp [hrest]
  | drift hs =>
      obtain ⟨hstore, hstay⟩ := hgrants.drift _ _ h.store hs
      exact ⟨runs, done, h.running, h.results, hstore, h.ensures, h.holds,
        h.nodup, fun t ht => hstay t (h.granted t ht)⟩

theorem Pool.Reachable.sound {init : σ} {pool : Pool κ ρ ε α σ ι}
    (hgrants : Grants exec drift I grant Granted)
    (hprog : ∀ pool i, ok pool i → (prog i).Ensures exec I grant (Q i) [])
    (hinit : I init) (h : Reachable exec drift ok prog init pool) :
    ∃ runs done, pool.Sound exec I grant Granted Q runs done := by
  induction h with
  | refl => exact ⟨[], [], rfl, rfl, hinit, List.forall_mem_nil _,
      List.forall_mem_nil _, List.nodup_nil, List.forall_mem_nil _⟩
  | tail _ hstep ih =>
      obtain ⟨runs, done, hsound⟩ := ih
      exact hsound.step hgrants hprog hstep

def Backed (Granted : σ → τ → Prop) (Q : ι → List τ → α → Prop) (s : σ)
    (e : ι × α) (held : List τ) : Prop :=
  Q e.1 held e.2 ∧ ∀ t ∈ held, Granted s t

theorem Pool.Reachable.backed {init : σ} {pool : Pool κ ρ ε α σ ι}
    (hgrants : Grants exec drift I grant Granted)
    (hprog : ∀ pool i, ok pool i → (prog i).Ensures exec I grant (Q i) [])
    (hinit : I init) (h : Reachable exec drift ok prog init pool) :
    (∀ e ∈ pool.results, ∃ held, Backed Granted Q pool.store e held) ∧
      pool.results.Pairwise fun e e' => ∃ held held',
        Backed Granted Q pool.store e held ∧
          Backed Granted Q pool.store e' held' ∧ held.Disjoint held' := by
  obtain ⟨runs, done, hsound⟩ := h.sound hgrants hprog hinit
  have hbacked : ∀ e ∈ done, Backed Granted Q pool.store e.2 e.1 := by
    intro e he
    refine ⟨hsound.holds e he, fun t ht => ?_⟩
    apply hsound.granted
    exact List.mem_append_right _ (List.mem_flatMap.mpr ⟨e, he, ht⟩)
  have hapart := (List.nodup_flatMap.mp
    (List.nodup_append'.mp hsound.nodup).2.1).2
  rw [← hsound.results]
  constructor
  · intro e he
    obtain ⟨entry, hentry, rfl⟩ := List.mem_map.mp he
    exact ⟨entry.1, hbacked entry hentry⟩
  · rw [List.pairwise_map]
    apply hapart.imp_of_mem
    intro e e' he he' hdisjoint
    exact ⟨e.1, e'.1, hbacked e he, hbacked e' he', hdisjoint⟩

/-! ## Inputs -/

def Pool.parties (counts : α → Bool) (pool : Pool κ ρ ε α σ ι) : List ι :=
  pool.running.map Prod.fst ++
    (pool.results.filter fun e => counts e.2).map Prod.fst

/-- What a start requires of the inputs before holds between all of them. -/
theorem Pool.Reachable.parties_pairwise {init : σ}
    {pool : Pool κ ρ ε α σ ι} {counts : α → Bool} {R : ι → ι → Prop}
    (hsymm : ∀ i j, R i j → R j i)
    (hok : ∀ pool i, ok pool i → ∀ j ∈ Pool.parties counts pool, R j i)
    (h : Reachable exec drift ok prog init pool) :
    (pool.parties counts).Pairwise R := by
  have hperm {first second : List ι} (hperm : first.Perm second) :
      first.Pairwise R ↔ second.Pairwise R :=
    hperm.pairwise_iff (fun {i j} => hsymm i j)
  induction h with
  | refl => exact List.Pairwise.nil
  | tail _ hstep ih =>
      cases hstep with
      | start i hi =>
          rw [parties, List.map_append, List.append_assoc,
            hperm (List.perm_append_comm.append_left _), ← List.append_assoc]
          refine List.pairwise_append.mpr ⟨ih, List.pairwise_singleton _ _, ?_⟩
          intro j hj i' hi'
          rw [List.mem_singleton.mp hi']
          exact hok _ i hi j hj
      | run hrunning hexec =>
          rw [parties, hrunning, List.map_append, List.map_cons] at ih
          rw [parties, List.map_append, List.map_cons]
          exact ih
      | @finish before rest i a hrunning =>
          rw [parties, hrunning, List.map_append, List.map_cons] at ih
          rw [parties, List.map_append, List.filter_append, List.map_append]
          cases hcounts : counts a with
          | true =>
              have hone : [(i, a)].filter (fun e => counts e.2) = [(i, a)] :=
                List.filter_cons_of_pos hcounts
              rw [hone]
              refine (hperm ?_).mp ih
              simp only [List.map_cons, List.map_nil, List.append_assoc]
              refine List.Perm.append_left _ ?_
              rw [← List.append_assoc, List.cons_append]
              exact (List.perm_append_singleton i _).symm
          | false =>
              have hnone : [(i, a)].filter (fun e => counts e.2) = [] :=
                List.filter_cons_of_neg (by simp [hcounts])
              rw [hnone, List.map_nil, List.append_nil]
              refine List.Pairwise.sublist ?_ ih
              apply List.Sublist.append_right
              exact (List.sublist_cons_self _ _).append_left _
      | @crash before rest i p hrunning =>
          rw [parties, hrunning, List.map_append, List.map_cons] at ih
          rw [parties, List.map_append]
          refine List.Pairwise.sublist ?_ ih
          apply List.Sublist.append_right
          exact (List.sublist_cons_self _ _).append_left _
      | drift hs => exact ih

/-! ## One program alone -/

def answer (oracle : (c : κ) → σ → Option (ρ c × σ)) :
    Prog κ ρ ε α → σ → Option (α × σ)
  | .pure a, s => some (a, s)
  | .fail _, _ => none
  | .call c next, s =>
      match oracle c s with
      | some (r, s') => (next r).answer oracle s'
      | none => none

theorem Pool.Reachable.run_answer {init : σ}
    {oracle : (c : κ) → σ → Option (ρ c × σ)}
    (horacle : ∀ c s r s', oracle c s = some (r, s') → exec c s r s')
    {i : ι} {a : α} {p : Prog κ ρ ε α} {s' : σ} {pool : Pool κ ρ ε α σ ι}
    (hanswer : p.answer oracle pool.store = some (a, s'))
    (h : Reachable exec drift ok prog init
      { pool with running := pool.running ++ [(i, p)] }) :
    Reachable exec drift ok prog init
      { pool with
        store := s'
        results := pool.results ++ [(i, a)] } := by
  induction p generalizing pool with
  | pure b =>
      cases hanswer
      have hfinish := h.tail (.finish _ rfl)
      rwa [List.append_nil] at hfinish
  | fail e => cases hanswer
  | call c next ih =>
      rw [answer] at hanswer
      split at hanswer
      next r s hr =>
        have hrun := h.tail (.run _ rfl (horacle c _ r s hr))
        exact @ih r { pool with store := s } hanswer hrun
      next => cases hanswer

/-- A program that an oracle answers while no other one runs. -/
theorem Pool.Reachable.answer {init : σ}
    {oracle : (c : κ) → σ → Option (ρ c × σ)}
    (horacle : ∀ c s r s', oracle c s = some (r, s') → exec c s r s')
    {i : ι} {a : α} {s' : σ} {pool : Pool κ ρ ε α σ ι} (hok : ok pool i)
    (hanswer : (prog i).answer oracle pool.store = some (a, s'))
    (h : Reachable exec drift ok prog init pool) :
    Reachable exec drift ok prog init
      { pool with
        store := s'
        results := pool.results ++ [(i, a)] } :=
  run_answer horacle hanswer (h.tail (.start pool i hok))

end Prog

end StarsGaming.Foundation
