import Mathlib.Data.Nat.Digits.Lemmas

/-!
# Numerals written one behind the other

A number is written with its highest digit first and without leading zeros.
Several numerals without anything between them read like one; which numbers
they came from is settled by where one ends and the next begins, and nothing in
the digits says where that is.
-/

namespace StarsGaming.Foundation

def numeral (b n : Nat) : List Nat :=
  if n = 0 then [0] else (Nat.digits b n).reverse

def width (b n : Nat) : Nat :=
  Nat.log b n + 1

def valueOf (b : Nat) (digits : List Nat) : Nat :=
  Nat.ofDigits b digits.reverse

def row (b : Nat) (ns : List Nat) : List Nat :=
  ns.flatMap (numeral b)

variable {b : Nat}

theorem length_numeral (hb : 1 < b) (n : Nat) :
    (numeral b n).length = width b n := by
  rw [numeral, width]
  split_ifs with hzero
  · rw [hzero, Nat.log_zero_right]
    rfl
  · rw [List.length_reverse, Nat.length_digits b n hb hzero]

theorem lt_of_mem_numeral (hb : 1 < b) {n digit : Nat}
    (h : digit ∈ numeral b n) : digit < b := by
  rw [numeral] at h
  split_ifs at h
  · rw [List.mem_singleton.mp h]
    omega
  · exact Nat.digits_lt_base hb (List.mem_reverse.mp h)

theorem valueOf_numeral (n : Nat) : valueOf b (numeral b n) = n := by
  rw [valueOf, numeral]
  split_ifs with hzero
  · rw [hzero]
    simp
  · rw [List.reverse_reverse, Nat.ofDigits_digits]

theorem length_row (hb : 1 < b) (ns : List Nat) :
    (row b ns).length = (ns.map (width b)).sum := by
  induction ns with
  | nil => rfl
  | cons n ns ih =>
      rw [row, List.flatMap_cons, List.length_append, length_numeral hb,
        List.map_cons, List.sum_cons, ← ih, row]

theorem lt_of_mem_row (hb : 1 < b) {ns : List Nat} {digit : Nat}
    (h : digit ∈ row b ns) : digit < b := by
  obtain ⟨n, -, hn⟩ := List.mem_flatMap.mp h
  exact lt_of_mem_numeral hb hn

theorem eq_of_row_eq (hb : 1 < b) {ns ms : List Nat}
    (hwidth : ns.map (width b) = ms.map (width b))
    (hrow : row b ns = row b ms) : ns = ms := by
  induction ns generalizing ms with
  | nil =>
      cases ms with
      | nil => rfl
      | cons m ms => cases hwidth
  | cons n ns ih =>
      cases ms with
      | nil => cases hwidth
      | cons m ms =>
          rw [List.map_cons, List.map_cons, List.cons.injEq] at hwidth
          obtain ⟨hhead, htail⟩ := List.append_inj hrow (by
            rw [length_numeral hb, length_numeral hb, hwidth.1])
          have hn := congrArg (valueOf b) hhead
          rw [valueOf_numeral, valueOf_numeral] at hn
          rw [hn, ih hwidth.2 htail]

theorem numeral_valueOf (hb : 1 < b) {digits : List Nat} (hne : digits ≠ [])
    (hdigits : ∀ digit ∈ digits, 0 < digit ∧ digit < b) :
    numeral b (valueOf b digits) = digits := by
  have hvalue : Nat.digits b (valueOf b digits) = digits.reverse := by
    apply Nat.digits_ofDigits b hb
    · exact fun digit hmem => (hdigits digit (List.mem_reverse.mp hmem)).2
    · intro hrev
      have hlast := List.mem_reverse.mp (List.getLast_mem hrev)
      exact (hdigits _ hlast).1.ne'
  have hzero : valueOf b digits ≠ 0 := by
    intro hzero
    rw [hzero, Nat.digits_zero] at hvalue
    exact hne (List.reverse_eq_nil_iff.mp hvalue.symm)
  rw [numeral, if_neg hzero, hvalue, List.reverse_reverse]

/-- Digits without zeros may be cut into numerals anywhere. -/
theorem exists_row (hb : 1 < b) {widths : List Nat} {digits : List Nat}
    (hpos : ∀ w ∈ widths, 0 < w) (hlength : digits.length = widths.sum)
    (hdigits : ∀ digit ∈ digits, 0 < digit ∧ digit < b) :
    ∃ ns, ns.map (width b) = widths ∧ row b ns = digits := by
  induction widths generalizing digits with
  | nil => exact ⟨[], rfl, (List.length_eq_zero_iff.mp hlength).symm⟩
  | cons w widths ih =>
      rw [List.sum_cons] at hlength
      rw [List.forall_mem_cons] at hpos
      have hdrop : (digits.drop w).length = widths.sum := by
        rw [List.length_drop]
        omega
      obtain ⟨ns, hwidths, hrow⟩ := ih hpos.2 hdrop
        fun digit hmem => hdigits digit (List.mem_of_mem_drop hmem)
      have htake : (digits.take w).length = w := by
        rw [List.length_take]
        omega
      have hnumeral : numeral b (valueOf b (digits.take w)) = digits.take w := by
        apply numeral_valueOf hb
        · exact List.length_pos_iff.mp (htake.symm ▸ hpos.1)
        · exact fun digit hmem => hdigits digit (List.mem_of_mem_take hmem)
      refine ⟨valueOf b (digits.take w) :: ns, ?_, ?_⟩
      · rw [List.map_cons, ← length_numeral hb, hnumeral, htake, hwidths]
      · rw [row, List.flatMap_cons, hnumeral, ← row, hrow,
          List.take_append_drop]

theorem width_pos (b n : Nat) : 0 < width b n :=
  Nat.succ_pos _

theorem lt_pow_of_width_le (hb : 1 < b) {n w : Nat} (h : width b n ≤ w) :
    n < b ^ w :=
  Nat.lt_pow_of_log_lt hb h

theorem width_le_of_lt_pow {n w : Nat} (hw : w ≠ 0) (h : n < b ^ w) :
    width b n ≤ w :=
  Nat.log_lt_of_lt_pow' hw h

end StarsGaming.Foundation
