import Mathlib.Logic.Basic
import Mathlib.Data.List.Basic

/-!
# Outcomes of fallible programs

A program that may fail is judged by what holds of its result and by which
failures it admits.  The rules follow the shape of the program: a sequence is
judged by its parts, a loop by what every turn keeps.
-/

namespace StarsGaming.Foundation

universe u

variable {ε ε' α ι : Type*}

/-- `Q` holds of the result, or `E` of the failure. -/
def Meets (Q : α → Prop) (E : ε → Prop) : Except ε α → Prop
  | .ok a => Q a
  | .error e => E e

abbrev Yields (Q : α → Prop) (x : Except ε α) : Prop :=
  Meets Q (fun _ => True) x

section

variable {Q : α → Prop} {E : ε → Prop} {x : Except ε α}

@[simp] theorem meets_ok {a : α} :
    Meets Q E (.ok a : Except ε α) ↔ Q a :=
  Iff.rfl

@[simp] theorem meets_error {e : ε} :
    Meets Q E (.error e : Except ε α) ↔ E e :=
  Iff.rfl

theorem Meets.mono {R : α → Prop} {F : ε → Prop} (h : Meets Q E x)
    (hQ : ∀ a, Q a → R a) (hE : ∀ e, E e → F e) : Meets R F x := by
  cases x with
  | ok a => exact hQ a h
  | error e => exact hE e h

theorem Meets.result {a : α} (h : Meets Q E x) (hx : x = .ok a) : Q a := by
  subst hx
  exact h

theorem Meets.failure {e : ε} (h : Meets Q E x) (hx : x = .error e) :
    E e := by
  subst hx
  exact h

/-- Results and failures may be judged one after the other. -/
theorem meets_of_cases (hok : ∀ a, x = .ok a → Q a)
    (herror : ∀ e, x = .error e → E e) : Meets Q E x := by
  cases x with
  | ok a => exact hok a rfl
  | error e => exact herror e rfl

end

section

variable {β γ : Type u} {E : ε → Prop}

theorem Meets.bind {Q : β → Prop} {R : γ → Prop} {x : Except ε β}
    {f : β → Except ε γ} (h : Meets Q E x)
    (hf : ∀ b, x = .ok b → Q b → Meets R E (f b)) :
    Meets R E (x >>= f) := by
  cases x with
  | ok b => exact hf b rfl h
  | error e => exact h

/-- A loop every turn of which takes `K` of one item to `K` of the next. -/
theorem Meets.foldlM {K : List ι → β → Prop} {f : β → ι → Except ε β}
    (hbody : ∀ i rest b, K (i :: rest) b → Meets (K rest) E (f b i))
    {l : List ι} {b : β} (h : K l b) : Meets (K []) E (l.foldlM f b) := by
  induction l generalizing b with
  | nil => exact h
  | cons i rest ih =>
      rw [List.foldlM_cons]
      exact (hbody i rest b h).bind fun b' _ hb' => ih hb'

theorem Meets.foldlM_keeps {Q : β → Prop} {f : β → ι → Except ε β}
    (hbody : ∀ i b, Q b → Meets Q E (f b i)) (l : List ι) {b : β}
    (h : Q b) : Meets Q E (l.foldlM f b) :=
  Meets.foldlM (K := fun _ => Q) (fun i _ b => hbody i b) h

end

def raise (f : ε' → ε) : Except ε' α → Except ε α
  | .ok a => .ok a
  | .error e => .error (f e)

end StarsGaming.Foundation
