import Mathlib.Data.List.Basic

/-!
# Loops that append to an output list

`collect` is a loop whose body appends to an output and may abort the whole
computation.  `loopUntil` also threads a state and lets the body return from
the enclosing function.  The rules below say what such loops produce in terms
of what their bodies produce.
-/

namespace StarsGaming.Foundation

variable {α β γ σ : Type*}

def collect (f : α → Option (List β)) : List α → Option (List β)
  | [] => some []
  | a :: rest => do
      let out ← f a
      let outs ← collect f rest
      some (out ++ outs)

theorem collect_mem {f : α → Option (List β)} {items : List α}
    {P : α → β → Prop}
    (h : ∀ a ∈ items, ∃ out, f a = some out ∧ ∀ b, b ∈ out ↔ P a b) :
    ∃ outs, collect f items = some outs ∧
      ∀ b, b ∈ outs ↔ ∃ a ∈ items, P a b := by
  induction items with
  | nil => exact ⟨[], rfl, by simp⟩
  | cons a rest ih =>
      obtain ⟨out, hout, hP⟩ := h a List.mem_cons_self
      obtain ⟨outs, houts, hmem⟩ :=
        ih fun b hb => h b (List.mem_cons_of_mem a hb)
      refine ⟨out ++ outs, by simp [collect, hout, houts], fun b => ?_⟩
      rw [List.mem_append, hP, hmem]
      simp

theorem collect_eq_flatMap {f : α → Option (List β)} {g : α → List β}
    {items : List α} (h : ∀ a ∈ items, f a = some (g a)) :
    collect f items = some (items.flatMap g) := by
  induction items with
  | nil => rfl
  | cons a rest ih =>
      simp [collect, h a List.mem_cons_self,
        ih fun b hb => h b (List.mem_cons_of_mem a hb)]

theorem flatMap_closed {f : α → List β} {C : List β → Prop}
    (hnil : C []) (happend : ∀ first second, C first → C second →
      C (first ++ second))
    {items : List α} (h : ∀ a ∈ items, C (f a)) : C (items.flatMap f) := by
  induction items with
  | nil => exact hnil
  | cons a rest ih =>
      rw [List.flatMap_cons]
      exact happend _ _ (h a List.mem_cons_self)
        (ih fun b hb => h b (List.mem_cons_of_mem a hb))

theorem split_append {first second pre post : List β} {b : β}
    (h : first ++ second = pre ++ b :: post) :
    (∃ mid, first = pre ++ b :: mid) ∨
      ∃ mid, second = mid ++ b :: post ∧ pre = first ++ mid := by
  rcases List.append_eq_append_iff.mp h with
    ⟨mid, hpre, hsecond⟩ | ⟨mid, hfirst, hmid⟩
  · exact Or.inr ⟨mid, hsecond, hpre⟩
  · cases mid with
    | nil => exact Or.inr ⟨[], by simpa using hmid.symm, by simp [hfirst]⟩
    | cons b' mid =>
        obtain ⟨rfl, -⟩ := List.cons.inj hmid
        exact Or.inl ⟨mid, hfirst⟩

def Preceded (r : β → β → Prop) (bad : β → Prop) (items : List β) : Prop :=
  ∀ pre b post, items = pre ++ b :: post → bad b → ∃ b' ∈ pre, r b' b

theorem Preceded.of_forall_not {r : β → β → Prop} {bad : β → Prop}
    {items : List β} (h : ∀ b ∈ items, ¬ bad b) : Preceded r bad items := by
  rintro pre b post rfl hbad
  exact absurd hbad (h b (by simp))

theorem Preceded.append {r : β → β → Prop} {bad : β → Prop}
    {first second : List β} (h₁ : Preceded r bad first)
    (h₂ : Preceded r bad second) : Preceded r bad (first ++ second) := by
  intro pre b post heq hbad
  rcases split_append heq with ⟨mid, hfirst⟩ | ⟨mid, hsecond, rfl⟩
  · exact h₁ pre b mid hfirst hbad
  · obtain ⟨b', hmem, hr⟩ := h₂ mid b post hsecond hbad
    exact ⟨b', List.mem_append_right _ hmem, hr⟩

/-- What is bad in the second list is preceded in the first. -/
theorem Preceded.append_of_forall {r : β → β → Prop} {bad : β → Prop}
    {first second : List β} (h : Preceded r bad first)
    (hsecond : ∀ b ∈ second, bad b → ∃ b' ∈ first, r b' b) :
    Preceded r bad (first ++ second) := by
  intro pre b post heq hbad
  rcases split_append heq with ⟨mid, hfirst⟩ | ⟨mid, hlater, rfl⟩
  · exact h pre b mid hfirst hbad
  · obtain ⟨b', hmem, hr⟩ := hsecond b (by simp [hlater]) hbad
    exact ⟨b', List.mem_append_left _ hmem, hr⟩

theorem Preceded.mono {r : β → β → Prop} {bad bad' : β → Prop}
    {items : List β} (h : Preceded r bad items)
    (himp : ∀ b, bad' b → bad b) : Preceded r bad' items :=
  fun pre b post heq hbad => h pre b post heq (himp b hbad)

theorem Preceded.filter {r : β → β → Prop} {bad : β → Prop}
    {items : List β} (h : Preceded r bad items) {p : β → Bool}
    (hp : ∀ b' ∈ items, ∀ b ∈ items, r b' b → p b = true → p b' = true) :
    Preceded r bad (items.filter p) := by
  intro pre b post heq hbad
  obtain ⟨items₁, items₂, rfl, rfl, htail⟩ := List.filter_eq_append_iff.mp heq
  obtain ⟨skipped, items₃, rfl, hskipped, hb, -⟩ :=
    List.filter_eq_cons_iff.mp htail
  obtain ⟨b', hmem, hr⟩ := h (items₁ ++ skipped) b items₃ (by simp) hbad
  have hb' : p b' = true := by
    refine hp b' ?_ b (by simp) hr hb
    rw [← List.append_assoc]
    exact List.mem_append_left _ hmem
  rcases List.mem_append.mp hmem with hmem | hmem
  · exact ⟨b', List.mem_filter.mpr ⟨hmem, hb'⟩, hr⟩
  · exact absurd hb' (hskipped b' hmem)

theorem Preceded.map {f : α → β} {r : β → β → Prop} {bad : β → Prop}
    {items : List α}
    (h : Preceded (fun a' a => r (f a') (f a)) (fun a => bad (f a)) items) :
    Preceded r bad (items.map f) := by
  intro pre b post heq hbad
  obtain ⟨items₁, rest, rfl, rfl, hrest⟩ := List.map_eq_append_iff.mp heq
  obtain ⟨a, items₂, rfl, rfl, -⟩ := List.map_eq_cons_iff.mp hrest
  obtain ⟨a', hmem, hr⟩ := h items₁ a items₂ rfl hbad
  exact ⟨f a', List.mem_map_of_mem hmem, hr⟩

/-- In an ascending list what is less than an element stands before it. -/
theorem mem_before_of_lt {before after : List Nat} {n m : Nat}
    (h : (before ++ n :: after).Pairwise (· < ·))
    (hm : m ∈ before ++ n :: after) (hlt : m < n) : m ∈ before := by
  rcases List.mem_append.mp hm with hm | hm
  · exact hm
  · have hafter := (List.pairwise_append.mp h).2.1
    rcases List.mem_cons.mp hm with rfl | hm
    · exact absurd hlt (Nat.lt_irrefl _)
    · exact absurd hlt
        (Nat.lt_asymm (List.rel_of_pairwise_cons hafter hm))

/-- The output of one item of a loop, and what was put out before it. -/
theorem collect_split {f : α → Option (List β)} {items : List α}
    {outs : List β} (h : collect f items = some outs) {pre post : List β}
    {b : β} (heq : outs = pre ++ b :: post) :
    ∃ items₁ a items₂ out pre' post', items = items₁ ++ a :: items₂ ∧
      f a = some out ∧ out = pre' ++ b :: post' ∧ pre' ⊆ pre ∧
      ∀ a' ∈ items₁, ∃ out', f a' = some out' ∧ out' ⊆ pre := by
  induction items generalizing outs pre with
  | nil =>
      obtain rfl := Option.some_inj.mp h
      simp at heq
  | cons a rest ih =>
      simp only [collect, Option.bind_eq_bind, Option.bind_eq_some_iff,
        Option.some.injEq] at h
      obtain ⟨out, hout, outs', houts, rfl⟩ := h
      rcases split_append heq with ⟨mid, hfirst⟩ | ⟨mid, hlater, rfl⟩
      · exact ⟨[], a, rest, out, pre, mid, rfl, hout, hfirst,
          List.Subset.refl pre, by simp⟩
      · obtain ⟨items₁, a', items₂, out', pre', post', rfl, hf, hout', hpre,
          hbefore⟩ := ih houts hlater
        refine ⟨a :: items₁, a', items₂, out', pre', post', rfl, hf, hout',
          List.subset_append_of_subset_right out hpre, fun a'' ha'' => ?_⟩
        rcases List.mem_cons.mp ha'' with rfl | ha''
        · exact ⟨out, hout, List.subset_append_left out mid⟩
        · obtain ⟨out'', hf'', hsub⟩ := hbefore a'' ha''
          exact ⟨out'', hf'', List.subset_append_of_subset_right out hsub⟩

theorem flatMap_split {f : α → List β} {items : List α} {pre post : List β}
    {b : β} (heq : items.flatMap f = pre ++ b :: post) :
    ∃ items₁ a items₂ pre' post', items = items₁ ++ a :: items₂ ∧
      f a = pre' ++ b :: post' ∧ pre' ⊆ pre ∧ ∀ a' ∈ items₁, f a' ⊆ pre := by
  have h : collect (fun a => some (f a)) items = some (items.flatMap f) :=
    collect_eq_flatMap fun _ _ => rfl
  obtain ⟨items₁, a, items₂, out, pre', post', rfl, hf, hout, hpre, hbefore⟩ :=
    collect_split h heq
  refine ⟨items₁, a, items₂, pre', post', rfl,
    (Option.some_inj.mp hf).trans hout, hpre, fun a' ha' => ?_⟩
  obtain ⟨out', hf', hsub⟩ := hbefore a' ha'
  exact Option.some_inj.mp hf' ▸ hsub

def LastHas (p : β → Prop) (items : List β) : Prop :=
  ∀ b, items.getLast? = some b → p b

theorem LastHas.append {p : β → Prop} {first second : List β}
    (h₁ : LastHas p first) (h₂ : LastHas p second) :
    LastHas p (first ++ second) := by
  intro b hb
  by_cases hne : second = []
  · subst hne
    exact h₁ b (by simpa using hb)
  · rw [List.getLast?_append_of_ne_nil _ hne] at hb
    exact h₂ b hb

theorem LastHas.of_forall {p : β → Prop} {items : List β}
    (h : ∀ b ∈ items, p b) : LastHas p items :=
  fun b hb => h b (List.mem_of_getLast? hb)

def loopUntil (f : σ → α → Option (σ × List β × Bool)) :
    σ → List α → Option (σ × List β × Bool)
  | s, [] => some (s, [], false)
  | s, a :: rest => do
      let (s', out, stop) ← f s a
      if stop then some (s', out, true)
      else
        let (s'', outs, stop') ← loopUntil f s' rest
        some (s'', out ++ outs, stop')

/-- The outputs of the body in the order of the items, up to a return. -/
inductive LoopRun (R : α → List β → Bool → Prop) :
    List α → List β → Bool → Prop
  | done : LoopRun R [] [] false
  | stop {a : α} {rest : List α} {out : List β} (h : R a out true) :
      LoopRun R (a :: rest) out true
  | next {a : α} {rest : List α} {out outs : List β} {stop : Bool}
      (h : R a out false) (hrest : LoopRun R rest outs stop) :
      LoopRun R (a :: rest) (out ++ outs) stop

theorem loopUntil_run {f : σ → α → Option (σ × List β × Bool)}
    {items : List α} {I : σ → Prop} {R : α → List β → Bool → Prop}
    (h : ∀ a ∈ items, ∀ s, I s → ∃ s' out stop,
      f s a = some (s', out, stop) ∧ I s' ∧ R a out stop)
    {s : σ} (hs : I s) :
    ∃ s' outs stop, loopUntil f s items = some (s', outs, stop) ∧ I s' ∧
      LoopRun R items outs stop := by
  induction items generalizing s with
  | nil => exact ⟨s, [], false, rfl, hs, .done⟩
  | cons a rest ih =>
      obtain ⟨s', out, stop, hf, hs', hR⟩ := h a List.mem_cons_self s hs
      cases stop with
      | true => exact ⟨s', out, true, by simp [loopUntil, hf], hs', .stop hR⟩
      | false =>
          obtain ⟨s'', outs, stop', hloop, hs'', hrun⟩ :=
            ih (fun b hb => h b (List.mem_cons_of_mem a hb)) hs'
          exact ⟨s'', out ++ outs, stop', by simp [loopUntil, hf, hloop],
            hs'', .next hR hrun⟩

/-- A property of the state that the body keeps is kept by the loop. -/
theorem loopUntil_keeps {f : σ → α → Option (σ × List β × Bool)}
    {I : σ → Prop}
    (h : ∀ s a s' out stop, I s → f s a = some (s', out, stop) → I s')
    {items : List α} {s s' : σ} {outs : List β} {stop : Bool} (hs : I s)
    (hloop : loopUntil f s items = some (s', outs, stop)) : I s' := by
  induction items generalizing s outs stop with
  | nil =>
      obtain ⟨rfl, -⟩ := Prod.mk.inj (Option.some.inj hloop)
      exact hs
  | cons a rest ih =>
      simp only [loopUntil, Option.bind_eq_bind, Option.bind_eq_some_iff]
        at hloop
      obtain ⟨⟨s₁, out, stop₁⟩, hf, hrest⟩ := hloop
      have hs₁ := h s a s₁ out stop₁ hs hf
      cases stop₁ with
      | true =>
          obtain ⟨rfl, -⟩ := Prod.mk.inj (Option.some.inj hrest)
          exact hs₁
      | false =>
          simp only [Bool.false_eq_true, if_false, Option.bind_eq_some_iff]
            at hrest
          obtain ⟨⟨s₂, outs₂, stop₂⟩, hloop₂, heq⟩ := hrest
          obtain ⟨rfl, -⟩ := Prod.mk.inj (Option.some.inj heq)
          exact ih hs₁ hloop₂

/-- What a loop calls on, when its body calls on `calls s a`. -/
def loopCalls (f : σ → α → Option (σ × List β × Bool))
    (calls : σ → α → List γ) : σ → List α → List γ
  | _, [] => []
  | s, a :: rest =>
      calls s a ++
        match f s a with
        | some (s', _, false) => loopCalls f calls s' rest
        | _ => []

theorem loopCalls_forall {f : σ → α → Option (σ × List β × Bool)}
    {calls : σ → α → List γ} {I : σ → Prop} {P : γ → Prop}
    (hkeep : ∀ s a s' out stop, I s → f s a = some (s', out, stop) → I s')
    (hcalls : ∀ s a, I s → ∀ c ∈ calls s a, P c) {s : σ} (hs : I s)
    (items : List α) : ∀ c ∈ loopCalls f calls s items, P c := by
  induction items generalizing s with
  | nil => simp [loopCalls]
  | cons a rest ih =>
      intro c hc
      rcases List.mem_append.mp hc with hc | hc
      · exact hcalls s a hs c hc
      · split at hc
        · rename_i s' out heq
          exact ih (hkeep s a s' out false hs heq) c hc
        · simp at hc

/-- Bodies that agree where their calls do make the same loop. -/
theorem loopUntil_congr {f g : σ → α → Option (σ × List β × Bool)}
    {calls : σ → α → List γ} {P : γ → Prop}
    (h : ∀ s a, (∀ c ∈ calls s a, P c) → f s a = g s a) {s : σ}
    {items : List α} (hP : ∀ c ∈ loopCalls g calls s items, P c) :
    loopUntil f s items = loopUntil g s items := by
  induction items generalizing s with
  | nil => rfl
  | cons a rest ih =>
      have hbody : f s a = g s a :=
        h s a fun c hc => hP c (List.mem_append_left _ hc)
      simp only [loopUntil, hbody]
      cases hg : g s a with
      | none => rfl
      | some result =>
          obtain ⟨s', out, stop⟩ := result
          cases stop with
          | true => rfl
          | false =>
              have hrest := ih (s := s') fun c hc =>
                hP c (List.mem_append_right _ (by rw [hg]; exact hc))
              simp only [Option.bind_eq_bind, Option.bind_some,
                Bool.false_eq_true, if_false, hrest]

section Runs

variable {R : α → List β → Bool → Prop} {items : List α} {outs : List β}
  {stop : Bool}

/-- The run up to some output, which belongs to one of the items. -/
theorem LoopRun.split (h : LoopRun R items outs stop) {pre post : List β}
    {b : β} (heq : outs = pre ++ b :: post) :
    ∃ items₁ a items₂ outs₁ out stop' pre' post',
      items = items₁ ++ a :: items₂ ∧ LoopRun R items₁ outs₁ false ∧
      R a out stop' ∧ out = pre' ++ b :: post' ∧ pre = outs₁ ++ pre' := by
  induction h generalizing pre with
  | done => simp at heq
  | @stop a rest out h =>
      exact ⟨[], a, rest, [], out, true, pre, post, rfl, .done, h, heq, rfl⟩
  | @next a rest out outs stop h _ ih =>
      rcases split_append heq with ⟨mid, hout⟩ | ⟨mid, hlater, hpre⟩
      · exact ⟨[], a, rest, [], out, false, pre, mid, rfl, .done, h, hout,
          rfl⟩
      · obtain ⟨items₁, a', items₂, outs₁, out', stop', pre', post', hitems,
          hrun, hR, hout', hpre'⟩ := ih hlater
        exact ⟨a :: items₁, a', items₂, out ++ outs₁, out', stop', pre',
          post', by simp [hitems], .next h hrun, hR, hout',
          by simp [hpre, hpre']⟩

theorem LoopRun.imp (h : LoopRun R items outs stop)
    {R' : α → List β → Bool → Prop}
    (himp : ∀ a ∈ items, ∀ out stop', R a out stop' → R' a out stop') :
    LoopRun R' items outs stop := by
  induction h with
  | done => exact .done
  | @stop a rest out h => exact .stop (himp a List.mem_cons_self out true h)
  | @next a rest out outs stop h _ ih =>
      exact .next (himp a List.mem_cons_self out false h)
        (ih fun b hb => himp b (List.mem_cons_of_mem a hb))

theorem LoopRun.mem (h : LoopRun R items outs stop) {b : β} (hb : b ∈ outs) :
    ∃ a ∈ items, ∃ out stop', R a out stop' ∧ b ∈ out := by
  obtain ⟨pre, post, heq⟩ := List.append_of_mem hb
  obtain ⟨items₁, a, items₂, -, out, stop', pre', post', rfl, -, hR, rfl, -⟩ :=
    h.split heq
  exact ⟨a, by simp, _, stop', hR, by simp⟩

/-- A loop that was not left has the output of every item. -/
theorem LoopRun.covers (h : LoopRun R items outs false) {a : α}
    (ha : a ∈ items) : ∃ out, R a out false ∧ out ⊆ outs := by
  generalize hstop : false = stop at h
  induction h with
  | done => simp at ha
  | stop => simp at hstop
  | @next a' rest out outs stop h _ ih =>
      rcases List.mem_cons.mp ha with rfl | ha
      · exact ⟨out, hstop ▸ h, List.subset_append_left out outs⟩
      · obtain ⟨out', hR, hsub⟩ := ih ha hstop
        exact ⟨out', hR, List.subset_append_of_subset_right out hsub⟩

theorem LoopRun.stopped (h : LoopRun R items outs true) :
    ∃ items₁ a items₂ out, items = items₁ ++ a :: items₂ ∧
      (∀ a' ∈ items₁, ∃ out', R a' out' false) ∧ R a out true ∧
      out <:+ outs := by
  generalize hstop : true = stop at h
  induction h with
  | done => simp at hstop
  | @stop a rest out h =>
      exact ⟨[], a, rest, out, rfl, by simp, h, List.suffix_refl out⟩
  | @next a rest out outs stop h _ ih =>
      obtain ⟨items₁, a', items₂, out', rfl, hitems, hR, hsuf⟩ := ih hstop
      refine ⟨a :: items₁, a', items₂, out', rfl, ?_, hR,
        hsuf.trans (List.suffix_append out outs)⟩
      intro x hx
      rcases List.mem_cons.mp hx with rfl | hx
      · exact ⟨out, h⟩
      · exact hitems x hx

/-- The last output of a loop that was not left belongs to its last item. -/
theorem LoopRun.last (h : LoopRun R items outs false)
    (hne : ∀ a ∈ items, ∀ out, R a out false → out ≠ []) {b : β}
    (hb : outs.getLast? = some b) :
    ∃ items₁ a out, items = items₁ ++ [a] ∧ R a out false ∧
      out.getLast? = some b := by
  generalize hstop : false = stop at h
  induction h with
  | done => simp at hb
  | stop => simp at hstop
  | @next a rest out outs stop h hrest ih =>
      subst hstop
      cases rest with
      | nil =>
          cases hrest
          exact ⟨[], a, out, rfl, h, by simpa using hb⟩
      | cons a' rest =>
          have hne' : outs ≠ [] := by
            obtain ⟨out', hR, hsub⟩ := hrest.covers List.mem_cons_self
            exact List.ne_nil_of_mem (hsub (List.head_mem
              (hne a' (by simp) out' hR)))
          rw [List.getLast?_append_of_ne_nil _ hne'] at hb
          obtain ⟨items₁, x, out', heq, hR, hlast⟩ :=
            ih (fun x hx => hne x (List.mem_cons_of_mem a hx)) hb rfl
          exact ⟨a :: items₁, x, out', by simp [heq], hR, hlast⟩

theorem LoopRun.preceded (h : LoopRun R items outs stop)
    {r : α → α → Prop} {bad : α → Prop} (hitems : Preceded r bad items)
    {r' : β → β → Prop} {bad' : β → Prop}
    (hbad : ∀ a ∈ items, ∀ out stop', R a out stop' → ∀ b ∈ out, bad' b →
      bad a)
    (hr : ∀ a' ∈ items, ∀ a ∈ items, r a' a → ∀ out', R a' out' false →
      ∀ out stop', R a out stop' → ∀ b ∈ out, bad' b → ∃ b' ∈ out', r' b' b) :
    Preceded r' bad' outs := by
  intro pre b post heq hb
  obtain ⟨items₁, a, items₂, outs₁, out, stop', pre', post', rfl, hrun, hR,
    rfl, rfl⟩ := h.split heq
  have hmem : b ∈ pre' ++ b :: post' := by simp
  obtain ⟨a', ha', hrel⟩ := hitems items₁ a items₂ rfl
    (hbad a (by simp) _ stop' hR b hmem hb)
  obtain ⟨out', hR', hsub⟩ := hrun.covers ha'
  obtain ⟨b', hb', hrel'⟩ := hr a' (List.mem_append_left _ ha') a (by simp)
    hrel out' hR' _ stop' hR b hmem hb
  exact ⟨b', List.mem_append_left _ (hsub hb'), hrel'⟩

/-- What appending keeps passes from the outputs of the body to the loop's. -/
theorem LoopRun.closed (h : LoopRun R items outs stop)
    {C : List β → Bool → Prop} (hnil : C [] false)
    (happend : ∀ first second stop', C first false → C second stop' →
      C (first ++ second) stop')
    (hC : ∀ a ∈ items, ∀ out stop', R a out stop' → C out stop') :
    C outs stop := by
  induction h with
  | done => exact hnil
  | @stop a rest out h => exact hC a List.mem_cons_self out true h
  | @next a rest out outs stop h _ ih =>
      exact happend out outs stop (hC a List.mem_cons_self out false h)
        (ih fun b hb => hC b (List.mem_cons_of_mem a hb))

end Runs

end StarsGaming.Foundation
