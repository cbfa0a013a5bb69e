import Mathlib.Logic.Function.Basic

/-!
# Ciphers that work in rounds

A block is added to a key, substituted and mixed, round after round; the last
round does not mix.  A cipher of inverse layers undoes it with the same program
and the keys in reverse order, those of the inner rounds mixed.
-/

namespace StarsGaming.Foundation

structure RoundCipher (α : Type*) where
  addKey : α → α → α
  substitute : α → α
  mix : α → α

namespace RoundCipher

variable {α : Type*}

/-- The first key and `n` whole rounds. -/
def rounds (C : RoundCipher α) (keys : Nat → α) : Nat → α → α
  | 0, block => C.addKey block (keys 0)
  | n + 1, block =>
      C.addKey (C.mix (C.substitute (C.rounds keys n block))) (keys (n + 1))

/-- `n` whole rounds and the last one. -/
def run (C : RoundCipher α) (keys : Nat → α) (n : Nat) (block : α) : α :=
  C.addKey (C.substitute (C.rounds keys n block)) (keys (n + 1))

def reverseKeys (D : RoundCipher α) (keys : Nat → α) (n i : Nat) : α :=
  if i = 0 ∨ i = n + 1 then keys (n + 1 - i) else D.mix (keys (n + 1 - i))

theorem rounds_congr (C : RoundCipher α) {keys keys' : Nat → α} {n : Nat}
    (h : ∀ i ≤ n, keys i = keys' i) (block : α) :
    C.rounds keys n block = C.rounds keys' n block := by
  induction n with
  | zero => rw [rounds, rounds, h 0 (Nat.le_refl 0)]
  | succ n ih =>
      have hn : ∀ i ≤ n, keys i = keys' i :=
        fun i hi => h i (Nat.le_succ_of_le hi)
      rw [rounds, rounds, ih hn, h (n + 1) (Nat.le_refl _)]

theorem run_congr (C : RoundCipher α) {keys keys' : Nat → α} {n : Nat}
    (h : ∀ i ≤ n + 1, keys i = keys' i) (block : α) :
    C.run keys n block = C.run keys' n block := by
  have hn : ∀ i ≤ n, keys i = keys' i :=
    fun i hi => h i (Nat.le_succ_of_le hi)
  rw [run, run, C.rounds_congr hn, h (n + 1) (Nat.le_refl _)]

/-- The layers of `D` undo those of `C`, and `D` mixes what is added apart. -/
structure Undoes (D C : RoundCipher α) : Prop where
  addKey_addKey : ∀ block key, D.addKey (C.addKey block key) key = block
  substitute_substitute : ∀ block, D.substitute (C.substitute block) = block
  mix_mix : ∀ block, D.mix (C.mix block) = block
  mix_addKey : ∀ block key,
    D.mix (C.addKey block key) = C.addKey (D.mix block) (D.mix key)

namespace Undoes

variable {C D : RoundCipher α}

/-- After `m` rounds back the block is as before the last `m` rounds. -/
theorem rounds_run (h : D.Undoes C) (keys : Nat → α) {n m : Nat}
    (hm : m ≤ n) (block : α) :
    D.rounds (D.reverseKeys keys n) m (C.run keys n block) =
      C.substitute (C.rounds keys (n - m) block) := by
  induction m with
  | zero =>
      rw [rounds, reverseKeys, if_pos (Or.inl rfl), run, Nat.sub_zero,
        h.addKey_addKey, Nat.sub_zero]
  | succ m ih =>
      have hinner : ¬(m + 1 = 0 ∨ m + 1 = n + 1) := by omega
      have hround : n - m = n - (m + 1) + 1 := by omega
      have hkey : n + 1 - (m + 1) = n - (m + 1) + 1 := by omega
      rw [rounds, ih (by omega), h.substitute_substitute, hround, rounds,
        h.mix_addKey, h.mix_mix, reverseKeys, if_neg hinner, hkey,
        h.addKey_addKey]

theorem run_run (h : D.Undoes C) (keys : Nat → α) (n : Nat) (block : α) :
    D.run (D.reverseKeys keys n) n (C.run keys n block) = block := by
  rw [run, h.rounds_run keys (Nat.le_refl n), Nat.sub_self,
    h.substitute_substitute, rounds, reverseKeys, if_pos (Or.inr rfl),
    Nat.sub_self, h.addKey_addKey]

end Undoes

end RoundCipher

end StarsGaming.Foundation
