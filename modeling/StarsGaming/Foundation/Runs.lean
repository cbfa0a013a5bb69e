import Mathlib.Logic.Relation

/-!
# Runs of fallible programs and the machines they simulate

A program step either fails with a fault or returns a new state.  A `Machine`
is an abstract transition system whose moves carry labels and pass through
internal modes; a program step that starts and ends in the mode `rest` is
matched by a path of moves.  Invariants are proved for single moves and then
hold along every run of the program whose steps only use permitted labels.
-/

namespace StarsGaming.Foundation

variable {μ σ ℓ ε δ α : Type*}

/-! ## Reachable states -/

/-- The states reached by steps that satisfy `ok` and do not fail. -/
inductive Reaches (init : δ → Prop) (ok : δ → α → Prop)
    (step : δ → α → Except ε δ) : δ → Prop where
  | start {d : δ} (h : init d) : Reaches init ok step d
  | step {d d' : δ} {a : α} (h : Reaches init ok step d) (hok : ok d a)
      (hstep : step d a = .ok d') : Reaches init ok step d'

theorem Reaches.mono {init : δ → Prop} {ok ok' : δ → α → Prop}
    {step : δ → α → Except ε δ} (himp : ∀ d a, ok d a → ok' d a) {d : δ}
    (h : Reaches init ok step d) : Reaches init ok' step d := by
  induction h with
  | start h => exact .start h
  | step _ hok hstep ih => exact .step ih (himp _ _ hok) hstep

/-- What holds at the start and survives every permitted step holds always. -/
theorem Reaches.invariant {init : δ → Prop} {ok : δ → α → Prop}
    {step : δ → α → Except ε δ} {J : δ → Prop} (hinit : ∀ d, init d → J d)
    (hstep : ∀ d a d', J d → ok d a → step d a = .ok d' → J d') {d : δ}
    (h : Reaches init ok step d) : J d := by
  induction h with
  | start h => exact hinit _ h
  | step _ hok hs ih => exact hstep _ _ _ ih hok hs

theorem Reaches.invariant_of {init : δ → Prop} {ok : δ → α → Prop}
    {step : δ → α → Except ε δ} {K J : δ → Prop}
    (hK : ∀ d, Reaches init ok step d → K d) (hinit : ∀ d, init d → J d)
    (hstep : ∀ d a d', K d → J d → ok d a → step d a = .ok d' → J d')
    {d : δ} (h : Reaches init ok step d) : J d := by
  induction h with
  | start h => exact hinit _ h
  | step h hok hs ih => exact hstep _ _ _ (hK _ h) ih hok hs

abbrev ReachesBy (init : δ → Prop) (ok : δ → α → Prop)
    (next : δ → α → δ) : δ → Prop :=
  Reaches init ok fun d a => (Except.ok (next d a) : Except Empty δ)

theorem ReachesBy.invariant {init : δ → Prop} {ok : δ → α → Prop}
    {next : δ → α → δ} {J : δ → Prop} (hinit : ∀ d, init d → J d)
    (hnext : ∀ d a, J d → ok d a → J (next d a)) {d : δ}
    (h : ReachesBy init ok next d) : J d := by
  apply Reaches.invariant hinit _ h
  intro d a d' hd hok hstep
  cases hstep
  exact hnext d a hd hok

/-- Every input is permitted in the state the inputs before it lead to. -/
def Permits (ok : δ → α → Prop) (next : δ → α → δ) : δ → List α → Prop
  | _, [] => True
  | d, a :: rest => ok d a ∧ Permits ok next (next d a) rest

instance {ok : δ → α → Prop} [∀ d a, Decidable (ok d a)]
    {next : δ → α → δ} : ∀ d inputs, Decidable (Permits ok next d inputs)
  | _, [] => .isTrue trivial
  | d, a :: rest =>
      have : Decidable (Permits ok next (next d a) rest) :=
        instDecidablePermits _ _
      inferInstanceAs (Decidable (_ ∧ _))

theorem ReachesBy.foldl {init : δ → Prop} {ok : δ → α → Prop}
    {next : δ → α → δ} {inputs : List α} {d : δ}
    (h : ReachesBy init ok next d) (hinputs : Permits ok next d inputs) :
    ReachesBy init ok next (inputs.foldl next d) := by
  induction inputs generalizing d with
  | nil => exact h
  | cons a rest ih => exact ih (Reaches.step h hinputs.1 rfl) hinputs.2

theorem permits_true (next : δ → α → δ) (d : δ) (inputs : List α) :
    Permits (fun _ _ => True) next d inputs := by
  induction inputs generalizing d with
  | nil => trivial
  | cons a rest ih => exact ⟨trivial, ih (next d a)⟩

/--
Two conditions on the inputs agree along a run if they agree in the states of an
invariant that the inputs keep.
-/
theorem Permits.iff {enabled ok ok' : δ → α → Prop} {next : δ → α → δ}
    {J : δ → Prop}
    (hiff : ∀ d a, J d → enabled d a → (ok d a ↔ ok' d a))
    (hnext : ∀ d a, J d → enabled d a → ok d a → J (next d a))
    {inputs : List α} {d : δ} (hd : J d)
    (henabled : Permits enabled next d inputs) :
    Permits ok next d inputs ↔ Permits ok' next d inputs := by
  induction inputs generalizing d with
  | nil => exact Iff.rfl
  | cons a rest ih =>
      have hrest (h : ok d a) := ih (hnext d a hd henabled.1 h) henabled.2
      constructor
      · rintro ⟨ha, h⟩
        exact ⟨(hiff d a hd henabled.1).mp ha, (hrest ha).mp h⟩
      · rintro ⟨ha, h⟩
        have ha := (hiff d a hd henabled.1).mpr ha
        exact ⟨ha, (hrest ha).mpr h⟩

/-- What holds of the inputs so far and the state they lead to. -/
theorem Permits.history {ok : δ → α → Prop} {next : δ → α → δ}
    {J : List α → δ → Prop}
    (hnext : ∀ past a d, J past d → ok d a → J (past ++ [a]) (next d a))
    {inputs past : List α} {d : δ} (hd : J past d)
    (h : Permits ok next d inputs) :
    J (past ++ inputs) (inputs.foldl next d) := by
  induction inputs generalizing past d with
  | nil => simpa using hd
  | cons a rest ih =>
      have hrest := ih (hnext past a d hd h.1) h.2
      rwa [List.append_assoc, List.singleton_append] at hrest

/-- The state after given inputs, if none is refused and no step fails. -/
def runs (ok : δ → α → Prop) [∀ d a, Decidable (ok d a)]
    (step : δ → α → Except ε δ) : δ → List α → Option δ
  | d, [] => some d
  | d, a :: rest =>
      if ok d a then
        match step d a with
        | .ok d' => runs ok step d' rest
        | .error _ => none
      else none

theorem Reaches.runs {init : δ → Prop} {ok : δ → α → Prop}
    [∀ d a, Decidable (ok d a)] {step : δ → α → Except ε δ}
    {inputs : List α} {d d' : δ} (h : Reaches init ok step d)
    (hruns : runs ok step d inputs = some d') : Reaches init ok step d' := by
  induction inputs generalizing d with
  | nil =>
      cases hruns
      exact h
  | cons a rest ih =>
      rw [Foundation.runs] at hruns
      split at hruns
      next hok =>
        split at hruns
        next next hstep => exact ih (h.step hok hstep) hruns
        next => cases hruns
      next => cases hruns

theorem exists_reaches {init : δ → Prop} {ok : δ → α → Prop}
    [∀ d a, Decidable (ok d a)] {step : δ → α → Except ε δ} {d : δ}
    (hinit : init d) (inputs : List α) (p : δ → Bool)
    (h : (runs ok step d inputs).any p) :
    ∃ d', Reaches init ok step d' ∧ p d' := by
  obtain ⟨d', hd', hp⟩ := (Option.any_eq_true p _).mp h
  exact ⟨d', (Reaches.start hinit).runs hd', hp⟩

/-! ## Loops -/

universe u

theorem ok_bind {β γ : Type u} (b : β) (f : β → Except ε γ) :
    (Except.ok b >>= f) = f b :=
  rfl

theorem bind_eq_ok {β γ : Type u} {x : Except ε β} {f : β → Except ε γ}
    {c : γ} (h : x >>= f = .ok c) : ∃ b, x = .ok b ∧ f b = .ok c := by
  cases x with
  | error e => cases h
  | ok b => exact ⟨b, rfl, h⟩

/--
A loop that never fails: `K` holds of the items still to come and the state.
-/
theorem foldlM_ok {ι : Type*} {body : δ → ι → Except ε δ}
    {K : List ι → δ → Prop}
    (hbody : ∀ a rest d, K (a :: rest) d →
      ∃ d', body d a = .ok d' ∧ K rest d') :
    ∀ {items : List ι} {d : δ}, K items d →
      ∃ d', items.foldlM body d = .ok d' ∧ K [] d' := by
  intro items
  induction items with
  | nil => exact fun h => ⟨_, rfl, h⟩
  | cons a rest ih =>
      intro d h
      obtain ⟨first, hfirst, hrest⟩ := hbody a rest d h
      obtain ⟨last, hlast, hnil⟩ := ih hrest
      refine ⟨last, ?_, hnil⟩
      rw [List.foldlM_cons, hfirst]
      exact hlast

/-! ## Machines with modes -/

structure Machine (μ σ ℓ ε : Type*) where
  rest : μ
  move : μ → σ → ℓ → μ → σ → Prop
  stuck : μ → σ → ε → Prop

namespace Machine

variable (M : Machine μ σ ℓ ε)

def Path (allow : ℓ → Prop) : μ × σ → μ × σ → Prop :=
  Relation.ReflTransGen fun c c' =>
    ∃ l, allow l ∧ M.move c.1 c.2 l c'.1 c'.2

def Serves (view : δ → σ) (allow : ℓ → Prop) (c : μ × σ) :
    Except ε δ → Prop
  | .ok d => M.Path allow c (M.rest, view d)
  | .error f => ∃ c', M.Path allow c c' ∧ M.stuck c'.1 c'.2 f

/-- `J` survives every move whose label satisfies `P`. -/
def Preserves (P : ℓ → Prop) (J : μ → σ → Prop) : Prop :=
  ∀ ⦃m s l m' s'⦄, P l → M.move m s l m' s' → J m s → J m' s'

/-- Every step of the program is matched from every state that keeps `B`. -/
def Simulates (view : δ → σ) (step : δ → α → Except ε δ)
    (allow : δ → α → ℓ → Prop) (B : μ → σ → Prop) : Prop :=
  ∀ d a, B M.rest (view d) →
    M.Serves view (allow d a) (M.rest, view d) (step d a)

variable {M}

theorem Path.single {allow : ℓ → Prop} {m m' : μ} {s s' : σ} {l : ℓ}
    (hl : allow l) (h : M.move m s l m' s') :
    M.Path allow (m, s) (m', s') :=
  Relation.ReflTransGen.single ⟨l, hl, h⟩

theorem Path.invariant {allow P : ℓ → Prop} {J : μ → σ → Prop}
    (hJ : M.Preserves P J) (hallow : ∀ l, allow l → P l) {c c' : μ × σ}
    (h : M.Path allow c c') (hc : J c.1 c.2) : J c'.1 c'.2 := by
  induction h with
  | refl => exact hc
  | tail _ hmove ih =>
      obtain ⟨l, hl, hmove⟩ := hmove
      exact hJ (hallow l hl) hmove ih

theorem Serves.head {view : δ → σ} {allow : ℓ → Prop} {c c' : μ × σ}
    {r : Except ε δ} (hpath : M.Path allow c c')
    (h : M.Serves view allow c' r) : M.Serves view allow c r := by
  cases r with
  | ok d => exact hpath.trans h
  | error f =>
      obtain ⟨c'', hpath', hstuck⟩ := h
      exact ⟨c'', hpath.trans hpath', hstuck⟩

theorem Serves.bind {view : δ → σ} {allow : ℓ → Prop} {c : μ × σ}
    {r : Except ε δ} {f : δ → Except ε δ} (h : M.Serves view allow c r)
    (hf : ∀ d, r = .ok d → M.Path allow c (M.rest, view d) →
      M.Serves view allow (M.rest, view d) (f d)) :
    M.Serves view allow c (r >>= f) := by
  cases r with
  | ok d => exact (hf d rfl h).head h
  | error f => exact h

theorem Serves.foldlM {ι : Type*} {view : δ → σ} {allow : ℓ → Prop}
    {body : δ → ι → Except ε δ} {K : δ → Prop}
    (hbody : ∀ d a, K d → M.Serves view allow (M.rest, view d) (body d a) ∧
      ∀ d', body d a = .ok d' → K d') (items : List ι) {d : δ} (h : K d) :
    M.Serves view allow (M.rest, view d) (items.foldlM body d) := by
  induction items generalizing d with
  | nil => exact Relation.ReflTransGen.refl
  | cons a rest ih =>
      rw [List.foldlM_cons]
      refine Serves.bind (hbody d a h).1 fun d' hd' _ => ?_
      exact ih ((hbody d a h).2 d' hd')

section Runs

variable {view : δ → σ} {step : δ → α → Except ε δ}
  {allow : δ → α → ℓ → Prop} {B J : μ → σ → Prop} {P : ℓ → Prop}
  {init : δ → Prop} {ok : δ → α → Prop}

/-- Invariants of the moves hold in every state the program reaches. -/
theorem Simulates.invariant (hsim : M.Simulates view step allow B)
    (hJ : M.Preserves P J) (hB : ∀ m s, J m s → B m s)
    (hok : ∀ d a l, ok d a → allow d a l → P l)
    (hinit : ∀ d, init d → J M.rest (view d)) {d : δ}
    (h : Reaches init ok step d) : J M.rest (view d) := by
  induction h with
  | start h => exact hinit _ h
  | @step d d' a _ hka hstep ih =>
      have hserves := hsim d a (hB _ _ ih)
      rw [hstep] at hserves
      exact Path.invariant hJ (fun l => hok d a l hka) hserves ih

theorem Simulates.fault (hsim : M.Simulates view step allow B)
    (hJ : M.Preserves P J) (hB : ∀ m s, J m s → B m s)
    (hok : ∀ d a l, ok d a → allow d a l → P l) {d : δ} {a : α} {f : ε}
    (hd : J M.rest (view d)) (hka : ok d a) (h : step d a = .error f) :
    ∃ m s, J m s ∧ M.stuck m s f := by
  have hserves := hsim d a (hB _ _ hd)
  rw [h] at hserves
  obtain ⟨⟨m, s⟩, hpath, hstuck⟩ := hserves
  exact ⟨m, s, Path.invariant hJ (fun l => hok d a l hka) hpath hd, hstuck⟩

end Runs

end Machine

end StarsGaming.Foundation
