import Mathlib.Data.List.Induction
import Mathlib.Data.List.Nodup
import Mathlib.Data.Nat.Choose.Bounds
import Mathlib.Data.Nat.Choose.Basic

/-!
# Enumerating the `n`-element selections of a list

A selection is a vector of bits, one per position.  `nextChoice` is the usual
in-place successor: exchange the first selected position that is followed by
an unselected one, and move the selected positions before it to the front.
Started at the vector that selects the first `n` positions it visits every
vector with `n` selected positions exactly once, in colexicographic order.
-/

namespace StarsGaming.Foundation

def onesFirst (bits : List Bool) : List Bool :=
  List.replicate (bits.count true) true ++
    List.replicate (bits.count false) false

def nextChoiceFrom (seen : List Bool) : List Bool → Option (List Bool)
  | [] => none
  | [_] => none
  | bit :: next :: rest =>
      if bit = true ∧ next = false then
        some (onesFirst seen ++ false :: true :: rest)
      else nextChoiceFrom (seen ++ [bit]) (next :: rest)

def nextChoice (bits : List Bool) : Option (List Bool) :=
  nextChoiceFrom [] bits

/-- The vectors visited from `bits` on, at most `fuel` of them. -/
def choicesFrom : Nat → List Bool → List (List Bool)
  | 0, _ => []
  | fuel + 1, bits =>
      bits :: match nextChoice bits with
        | none => []
        | some bits' => choicesFrom fuel bits'

/-- All vectors of length `m` with `n` selected positions. -/
def colex : Nat → Nat → List (List Bool)
  | 0, 0 => [[]]
  | 0, _ + 1 => []
  | m + 1, 0 => (colex m 0).map (· ++ [false])
  | m + 1, n + 1 =>
      (colex m (n + 1)).map (· ++ [false]) ++ (colex m n).map (· ++ [true])

def selectBy {α : Type*} : List α → List Bool → List α
  | x :: xs, true :: bits => x :: selectBy xs bits
  | _ :: xs, false :: bits => selectBy xs bits
  | _, _ => []

/-! ## The successor -/

theorem nextChoiceFrom_snoc {seen bits bits' : List Bool} (b : Bool)
    (h : nextChoiceFrom seen bits = some bits') :
    nextChoiceFrom seen (bits ++ [b]) = some (bits' ++ [b]) := by
  induction bits generalizing seen with
  | nil => simp [nextChoiceFrom] at h
  | cons bit rest ih =>
      cases rest with
      | nil => simp [nextChoiceFrom] at h
      | cons next rest =>
          simp only [List.cons_append, nextChoiceFrom] at h ⊢
          split at h
          · rename_i hpair
            simp only [Option.some.injEq] at h
            subst h
            simp [hpair]
          · rename_i hpair
            simp only [hpair, if_false]
            exact ih h

theorem nextChoice_snoc {bits bits' : List Bool} (b : Bool)
    (h : nextChoice bits = some bits') :
    nextChoice (bits ++ [b]) = some (bits' ++ [b]) :=
  nextChoiceFrom_snoc b h

private theorem nextChoiceFrom_ones (seen : List Bool) (n : Nat) :
    nextChoiceFrom seen (List.replicate n true) = none := by
  induction n generalizing seen with
  | zero => rfl
  | succ n ih =>
      cases n with
      | zero => rfl
      | succ n => simpa [List.replicate_succ, nextChoiceFrom] using ih (seen ++ [true])

private theorem nextChoiceFrom_last (seen : List Bool) (n : Nat) :
    nextChoiceFrom seen (List.replicate (n + 1) true ++ [false]) =
      some (onesFirst (seen ++ List.replicate n true) ++ [false, true]) := by
  induction n generalizing seen with
  | zero => simp [nextChoiceFrom]
  | succ n ih =>
      have hnext := ih (seen ++ [true])
      rw [List.replicate_succ, List.cons_append] at hnext
      rw [List.replicate_succ, List.replicate_succ, List.cons_append,
        List.cons_append, nextChoiceFrom]
      simp only [Bool.true_eq_false, and_false, if_false]
      rw [hnext]
      simp

private theorem nextChoiceFrom_zeros (seen rest : List Bool) (k : Nat) :
    nextChoiceFrom seen (List.replicate k false ++ rest) =
      nextChoiceFrom (seen ++ List.replicate k false) rest := by
  induction k generalizing seen with
  | zero => simp
  | succ k ih =>
      have htail := ih (seen ++ [false])
      rw [List.append_assoc, List.singleton_append, ← List.replicate_succ]
        at htail
      rw [← htail, List.replicate_succ, List.cons_append]
      cases hrest : List.replicate k false ++ rest with
      | nil => rfl
      | cons next rest' => simp [nextChoiceFrom]

theorem nextChoice_final (k n : Nat) :
    nextChoice (List.replicate k false ++ List.replicate n true) = none := by
  rw [nextChoice, nextChoiceFrom_zeros]
  exact nextChoiceFrom_ones _ n

/-- One position further, the last vector is followed by a first one. -/
theorem nextChoice_turn (k n : Nat) :
    nextChoice (List.replicate k false ++ List.replicate (n + 1) true ++
        [false]) =
      some (List.replicate n true ++ List.replicate (k + 1) false ++
        [true]) := by
  rw [nextChoice, List.append_assoc, nextChoiceFrom_zeros,
    nextChoiceFrom_last]
  simp [onesFirst, List.count_replicate, List.replicate_succ',
    List.append_assoc]

/-! ## Trails of successors -/

/-- `Trail bits visited last`: the successors from `bits` up to `last`. -/
inductive Trail : List Bool → List (List Bool) → List Bool → Prop
  | single (bits) : Trail bits [bits] bits
  | step {bits bits' visited last} : nextChoice bits = some bits' →
      Trail bits' visited last → Trail bits (bits :: visited) last

theorem Trail.link {bits last bits' last' : List Bool}
    {visited visited' : List (List Bool)} (h : Trail bits visited last)
    (hnext : nextChoice last = some bits')
    (h' : Trail bits' visited' last') :
    Trail bits (visited ++ visited') last' := by
  induction h with
  | single bits => exact .step hnext h'
  | step hstep _ ih => exact .step hstep (ih hnext)

theorem Trail.snoc {bits last : List Bool} {visited : List (List Bool)}
    (h : Trail bits visited last) (b : Bool) :
    Trail (bits ++ [b]) (visited.map (· ++ [b])) (last ++ [b]) := by
  induction h with
  | single bits => exact .single _
  | step hstep _ ih => exact .step (nextChoice_snoc b hstep) ih

theorem Trail.choicesFrom_eq {bits last : List Bool}
    {visited : List (List Bool)} (h : Trail bits visited last)
    (hlast : nextChoice last = none) {fuel : Nat}
    (hfuel : visited.length ≤ fuel) : choicesFrom fuel bits = visited := by
  induction h generalizing fuel with
  | single bits =>
      cases fuel with
      | zero => simp at hfuel
      | succ fuel => simp [choicesFrom, hlast]
  | step hstep _ ih =>
      cases fuel with
      | zero => simp at hfuel
      | succ fuel =>
          simp only [choicesFrom, hstep]
          rw [ih hlast (by simpa using hfuel)]

private theorem colex_of_lt {m n : Nat} (h : m < n) : colex m n = [] := by
  induction m generalizing n with
  | zero =>
      cases n with
      | zero => omega
      | succ n => rfl
  | succ m ih =>
      cases n with
      | zero => omega
      | succ n => simp [colex, ih (show m < n + 1 by omega), ih (show m < n by omega)]

theorem trail_colex {m n : Nat} (h : n ≤ m) :
    Trail (List.replicate n true ++ List.replicate (m - n) false)
      (colex m n)
      (List.replicate (m - n) false ++ List.replicate n true) := by
  induction m generalizing n with
  | zero =>
      obtain rfl : n = 0 := by omega
      exact .single []
  | succ m ih =>
      cases n with
      | zero =>
          have hzero := (ih (Nat.zero_le m)).snoc false
          simpa [colex, List.replicate_succ'] using hzero
      | succ n =>
          have hones := (ih (show n ≤ m by omega)).snoc true
          rw [List.append_assoc (List.replicate (m - n) false),
            ← List.replicate_succ'] at hones
          by_cases hlt : n + 1 ≤ m
          · have hfirst := (ih hlt).snoc false
            have hgap : m - n = (m - (n + 1)) + 1 := by omega
            have hturn := nextChoice_turn (m - (n + 1)) n
            rw [← hgap] at hturn
            have hall := hfirst.link hturn hones
            rw [List.append_assoc, ← List.replicate_succ', ← hgap] at hall
            rw [show m + 1 - (n + 1) = m - n by omega]
            exact hall
          · obtain rfl : n = m := by omega
            simpa [colex, colex_of_lt (show n < n + 1 by omega),
              List.replicate_succ'] using hones

theorem length_colex (m n : Nat) : (colex m n).length = m.choose n := by
  induction m generalizing n with
  | zero => cases n <;> simp [colex]
  | succ m ih =>
      cases n with
      | zero => simp [colex, ih]
      | succ n => simp [colex, ih, Nat.choose_succ_succ, Nat.add_comm]

/-- Enough fuel visits exactly the vectors with `n` selected positions. -/
theorem choicesFrom_first {m n : Nat} (h : n ≤ m) :
    choicesFrom (2 ^ m)
        (List.replicate n true ++ List.replicate (m - n) false) =
      colex m n :=
  (trail_colex h).choicesFrom_eq (nextChoice_final _ _)
    (by rw [length_colex]; exact Nat.choose_le_two_pow m n)

theorem mem_colex {m n : Nat} {bits : List Bool} :
    bits ∈ colex m n ↔ bits.length = m ∧ bits.count true = n := by
  induction m generalizing n bits with
  | zero =>
      rw [List.length_eq_zero_iff]
      cases n with
      | zero =>
          simp only [colex, List.mem_singleton]
          refine ⟨fun h => ⟨h, by simp [h]⟩, fun h => h.1⟩
      | succ n =>
          simp only [colex, List.not_mem_nil, false_iff]
          rintro ⟨rfl, hcount⟩
          simp at hcount
  | succ m ih =>
      cases bits using List.reverseRecOn with
      | nil => cases n <;> simp [colex]
      | append_singleton bits b =>
          cases n with
          | zero => cases b <;> simp [colex, ih]
          | succ n => cases b <;> simp [colex, ih]

/-! ## Selecting elements -/

section Select

variable {α : Type*}

theorem selectBy_sublist (xs : List α) (bits : List Bool) :
    (selectBy xs bits).Sublist xs := by
  induction xs generalizing bits with
  | nil => cases bits <;> simp [selectBy]
  | cons x xs ih =>
      cases bits with
      | nil => simp [selectBy]
      | cons b bits =>
          cases b with
          | false => exact (ih bits).cons x
          | true => exact (ih bits).cons_cons x

theorem length_selectBy {xs : List α} {bits : List Bool}
    (h : bits.length = xs.length) :
    (selectBy xs bits).length = bits.count true := by
  induction xs generalizing bits with
  | nil =>
      obtain rfl : bits = [] := by simpa using h
      rfl
  | cons x xs ih =>
      cases bits with
      | nil => simp at h
      | cons b bits =>
          have hlen : bits.length = xs.length := by simpa using h
          cases b <;> simp [selectBy, ih hlen]

theorem exists_selectBy_of_sublist {xs ys : List α} (h : ys.Sublist xs) :
    ∃ bits : List Bool, bits.length = xs.length ∧ selectBy xs bits = ys := by
  induction h with
  | slnil => exact ⟨[], rfl, rfl⟩
  | cons x _ ih =>
      obtain ⟨bits, hlen, hsel⟩ := ih
      exact ⟨false :: bits, by simp [hlen], by simpa [selectBy] using hsel⟩
  | cons_cons x _ ih =>
      obtain ⟨bits, hlen, hsel⟩ := ih
      exact ⟨true :: bits, by simp [hlen], by simp [selectBy, hsel]⟩

/-- The selections are the sublists of the requested length. -/
theorem mem_map_selectBy_colex {xs ys : List α} {n : Nat} :
    ys ∈ (colex xs.length n).map (selectBy xs) ↔
      ys.Sublist xs ∧ ys.length = n := by
  simp only [List.mem_map, mem_colex]
  constructor
  · rintro ⟨bits, ⟨hlen, hcount⟩, rfl⟩
    exact ⟨selectBy_sublist xs bits, (length_selectBy hlen).trans hcount⟩
  · rintro ⟨hsub, hlen⟩
    obtain ⟨bits, hbits, rfl⟩ := exists_selectBy_of_sublist hsub
    exact ⟨bits, ⟨hbits, by rw [← length_selectBy hbits, hlen]⟩, rfl⟩

end Select

end StarsGaming.Foundation
