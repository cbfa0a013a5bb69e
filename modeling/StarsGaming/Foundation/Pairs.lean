import Mathlib.Algebra.BigOperators.Fin
import Mathlib.Algebra.BigOperators.Intervals
import Mathlib.Data.List.GetD

/-!
# Weights of pairs

A loop over the pairs of a list adds the weight of a pair to both of its
entries.  What one entry gains in the whole loop is the sum over the pairs it
is in.
-/

namespace StarsGaming.Foundation

open Finset

section Shares

variable {M : Type*} [AddCommMonoid M]

/-- What the entry `k` gains from the pair of `i` and `j`. -/
def pairShare (i j : Nat) (weight : M) (k : Nat) : M :=
  (if k = i then weight else 0) + if k = j then weight else 0

@[simp] theorem pairShare_zero (i j k : Nat) :
    pairShare i j (0 : M) k = 0 := by
  simp [pairShare]

theorem pairShare_add (i j : Nat) (weight other : M) (k : Nat) :
    pairShare i j (weight + other) k =
      pairShare i j weight k + pairShare i j other k := by
  unfold pairShare
  rw [add_add_add_comm, ← ite_add_zero, ← ite_add_zero]

/-- The entry is the first one of some pairs and the second one of others. -/
theorem sum_pairShare {n k : Nat} (hk : k < n) (weight : Nat → Nat → M) :
    ∑ i ∈ range n, ∑ j ∈ range n, pairShare i j (weight i j) k =
      ∑ j ∈ range n, (weight k j + weight j k) := by
  have hmem : k ∈ range n := mem_range.mpr hk
  simp only [pairShare, sum_add_distrib]
  congr 1
  · rw [sum_comm]
    exact sum_congr rfl fun j _ => by rw [sum_ite_eq, if_pos hmem]
  · exact sum_congr rfl fun i _ => by rw [sum_ite_eq, if_pos hmem]

end Shares

section Lists

variable {α M : Type*}

theorem sum_map_eq_range [AddCommMonoid M] (xs : List α) (f : α → M)
    (default : α) :
    (xs.map f).sum = ∑ j ∈ range xs.length, f (xs.getD j default) := by
  rw [Finset.sum_range, ← Fin.sum_univ_fun_getElem]
  exact sum_congr rfl fun j _ => by rw [List.getD_eq_getElem _ _ j.isLt]

theorem sum_eraseIdx_eq_range [AddCommGroup M] {xs : List α} {k : Nat}
    (hk : k < xs.length) (f : α → M) (default : α) :
    ((xs.eraseIdx k).map f).sum =
      ∑ j ∈ (range xs.length).erase k, f (xs.getD j default) := by
  have hlist : f xs[k] + ((xs.eraseIdx k).map f).sum = (xs.map f).sum := by
    rw [← List.eraseIdx_map, ← List.getElem_map f]
    exact List.CommMonoid.add_sum_eraseIdx (by simpa using hk)
  have hrange := add_sum_erase (range xs.length)
    (fun j => f (xs.getD j default)) (mem_range.mpr hk)
  rw [sum_map_eq_range xs f default, ← hrange] at hlist
  simp only [List.getD_eq_getElem _ _ hk] at hlist
  exact add_left_cancel hlist

theorem sum_range'_eq_range [AddCommMonoid M] (n i : Nat) (f : Nat → M) :
    ((List.range' (i + 1) (n - (i + 1))).map f).sum =
      ∑ j ∈ range n, if i < j then f j else 0 := by
  rw [← sum_filter, List.range'_eq_map_range, List.map_map]
  have hfilter : (range n).filter (i < ·) = Ico (i + 1) n := by
    ext j
    simp only [mem_filter, mem_range, mem_Ico]
    omega
  rw [hfilter, sum_Ico_eq_sum_range]
  rfl

end Lists

end StarsGaming.Foundation
