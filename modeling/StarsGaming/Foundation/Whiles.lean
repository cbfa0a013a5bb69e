import Mathlib.Order.Basic

/-!
# Loops that end

A loop is a step that says `none` where the loop is left.  `EndsWithin` bounds
the rounds it takes; its rules follow the loop one round, or a stretch of
rounds, at a time.
-/

namespace StarsGaming.Foundation

variable {σ : Type*} {step : σ → Option σ}

/-- The loop with a bound on its rounds; `none` if it is not left by then. -/
def loopFrom (step : σ → Option σ) : Nat → σ → Option σ
  | 0, _ => none
  | fuel + 1, s =>
      match step s with
      | none => some s
      | some s' => loopFrom step fuel s'

def EndsWithin (step : σ → Option σ) (rounds : Nat) (s last : σ) : Prop :=
  ∀ fuel, rounds < fuel → loopFrom step fuel s = some last

namespace EndsWithin

theorem done {s : σ} (h : step s = none) : EndsWithin step 0 s s := by
  intro fuel hfuel
  cases fuel with
  | zero => exact absurd hfuel (Nat.not_lt_zero 0)
  | succ fuel => rw [loopFrom, h]

theorem next {rounds : Nat} {s s' last : σ} (hstep : step s = some s')
    (h : EndsWithin step rounds s' last) :
    EndsWithin step (rounds + 1) s last := by
  intro fuel hfuel
  cases fuel with
  | zero => exact absurd hfuel (Nat.not_lt_zero _)
  | succ fuel =>
      rw [loopFrom, hstep]
      exact h fuel (Nat.lt_of_succ_lt_succ hfuel)

theorem mono {rounds rounds' : Nat} {s last : σ}
    (h : EndsWithin step rounds s last) (hle : rounds ≤ rounds') :
    EndsWithin step rounds' s last :=
  fun fuel hfuel => h fuel (Nat.lt_of_le_of_lt hle hfuel)

end EndsWithin

end StarsGaming.Foundation
