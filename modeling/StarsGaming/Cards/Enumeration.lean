import Mathlib.Data.List.FinRange
import StarsGaming.Foundation.Whiles
import StarsGaming.Cards.Cache

/-!
# The loop of `caculate_all_choices`

The loop keeps its own counter, which goes back to the front after every new
combination.  It is shown to end and to visit the selections that the other
modules work with.
-/

namespace StarsGaming.Cards

open StarsGaming.Foundation

variable {α : Type*}

/-! ## The loop -/

/-- `index_to_elem`: the elements whose index is marked with a one. -/
def indexToElem : List α → List Int → List α
  | x :: arr, index :: vecIndex =>
      if index = 1 then x :: indexToElem arr vecIndex
      else indexToElem arr vecIndex
  | _, _ => []

structure ChoiceLoop (α : Type*) where
  i : Nat
  vecIndex : List Int
  allCombines : List (List α)

/-- One round; the counter that is set to `-1` is incremented at its end. -/
def choiceRound (arr : List α) (st : ChoiceLoop α) :
    Option (ChoiceLoop α) :=
  if st.i + 1 < arr.length then
    if st.vecIndex[st.i]? = some 1 ∧ st.vecIndex[st.i + 1]? = some 0 then
      let swapped := (st.vecIndex.set st.i 0).set (st.i + 1) 1
      let vecIndex := (swapped.take st.i).insertionSort (· ≥ ·) ++
        swapped.drop st.i
      some ⟨0, vecIndex, st.allCombines ++ [indexToElem arr vecIndex]⟩
    else some { st with i := st.i + 1 }
  else none

def caculateAllChoicesLoop (fuel : Nat) (arr : List α) (n : Nat)
    (allCombines : List (List α)) : Option (List (List α)) :=
  if arr.length < n then some allCombines
  else
    let vecIndex := List.replicate n 1 ++ List.replicate (arr.length - n) 0
    (loopFrom (choiceRound arr) fuel
      ⟨0, vecIndex, allCombines ++ [indexToElem arr vecIndex]⟩).map
      ChoiceLoop.allCombines

/-! ## Bits -/

def marks (bits : List Bool) : List Int :=
  bits.map fun bit => if bit then 1 else 0

@[simp] theorem length_marks (bits : List Bool) :
    (marks bits).length = bits.length :=
  List.length_map ..

theorem marks_append (first second : List Bool) :
    marks (first ++ second) = marks first ++ marks second :=
  List.map_append ..

theorem indexToElem_marks (arr : List α) (bits : List Bool) :
    indexToElem arr (marks bits) = selectBy arr bits := by
  induction arr generalizing bits with
  | nil => cases bits <;> simp [indexToElem, selectBy]
  | cons x arr ih =>
      cases bits with
      | nil => simp [marks, indexToElem, selectBy]
      | cons bit bits =>
          have htail := ih bits
          rw [marks] at htail ⊢
          cases bit <;> simp [indexToElem, selectBy, htail]

theorem onesFirst_perm (bits : List Bool) : (onesFirst bits).Perm bits := by
  rw [List.perm_iff_count]
  intro bit
  cases bit <;> simp [onesFirst, List.count_replicate]

theorem insertionSort_marks (bits : List Bool) :
    (marks bits).insertionSort (· ≥ ·) = marks (onesFirst bits) := by
  have hsorted : (marks (onesFirst bits)).Pairwise (· ≥ ·) := by
    rw [marks, onesFirst, List.map_append, List.map_replicate,
      List.map_replicate]
    refine List.pairwise_append.mpr ⟨?_, ?_, ?_⟩
    · exact List.pairwise_replicate.mpr (.inr (le_refl _))
    · exact List.pairwise_replicate.mpr (.inr (le_refl _))
    · intro one hone zero hzero
      rw [List.eq_of_mem_replicate hone, List.eq_of_mem_replicate hzero]
      decide
  refine List.Perm.eq_of_pairwise' ?_ hsorted ?_
  · exact List.pairwise_insertionSort _ _
  · exact (List.perm_insertionSort _ _).trans ((onesFirst_perm bits).map _).symm

/-! ## Rounds -/

section Rounds

variable {arr : List α} {out : List (List α)} {seen rest : List Bool}

theorem marks_pair (seen : List Bool) (bit next : Bool) (rest : List Bool) :
    (marks (seen ++ bit :: next :: rest))[seen.length]? =
        some (if bit then 1 else 0) ∧
      (marks (seen ++ bit :: next :: rest))[seen.length + 1]? =
        some (if next then 1 else 0) := by
  rw [marks, List.getElem?_map, List.getElem?_map,
    List.getElem?_append_right (le_refl _),
    List.getElem?_append_right (Nat.le_succ _)]
  simp

theorem choiceRound_end
    (hlength : (seen ++ rest).length = arr.length) (hshort : rest.length ≤ 1)
    (vecIndex : List Int) :
    choiceRound arr ⟨seen.length, vecIndex, out⟩ = none := by
  rw [List.length_append] at hlength
  rw [choiceRound, if_neg (by
    dsimp only
    omega)]

theorem choiceRound_skip {bit next : Bool}
    (hlength : (seen ++ bit :: next :: rest).length = arr.length)
    (hpair : ¬ (bit = true ∧ next = false)) :
    choiceRound arr
        ⟨seen.length, marks (seen ++ bit :: next :: rest), out⟩ =
      some ⟨(seen ++ [bit]).length,
        marks ((seen ++ [bit]) ++ next :: rest), out⟩ := by
  obtain ⟨hbit, hnext⟩ := marks_pair seen bit next rest
  simp only [List.length_append, List.length_cons] at hlength
  have hmore : seen.length + 1 < arr.length := by omega
  rw [choiceRound, if_pos hmore]
  dsimp only
  rw [hbit, hnext, if_neg]
  · simp
  · rintro ⟨hone, hzero⟩
    cases bit <;> cases next <;> simp at hone hzero hpair

theorem choiceRound_swap
    (hlength : (seen ++ true :: false :: rest).length = arr.length) :
    choiceRound arr
        ⟨seen.length, marks (seen ++ true :: false :: rest), out⟩ =
      some ⟨0, marks (onesFirst seen ++ false :: true :: rest), out ++
        [selectBy arr (onesFirst seen ++ false :: true :: rest)]⟩ := by
  obtain ⟨hbit, hnext⟩ := marks_pair seen true false rest
  simp only [List.length_append, List.length_cons] at hlength
  have hmore : seen.length + 1 < arr.length := by omega
  have hswap : ((marks (seen ++ true :: false :: rest)).set
      seen.length 0).set (seen.length + 1) 1 =
        marks seen ++ 0 :: 1 :: marks rest := by
    rw [marks_append, List.set_append_right _ _ (by simp),
      List.set_append_right _ _ (by simp)]
    simp [marks]
  have htake : (marks seen ++ 0 :: 1 :: marks rest).take seen.length =
      marks seen := List.take_left' (length_marks seen)
  have hdrop : (marks seen ++ 0 :: 1 :: marks rest).drop seen.length =
      0 :: 1 :: marks rest := List.drop_left' (length_marks seen)
  have hmarks : marks (onesFirst seen) ++ 0 :: 1 :: marks rest =
      marks (onesFirst seen ++ false :: true :: rest) := by
    rw [marks_append]
    rfl
  rw [choiceRound, if_pos hmore]
  dsimp only
  rw [hbit, hnext, if_pos (by simp), hswap, htake, hdrop,
    insertionSort_marks, hmarks, indexToElem_marks]

theorem endsWithin_scan_none
    (hlength : (seen ++ rest).length = arr.length)
    (hnext : nextChoiceFrom seen rest = none) :
    ∃ last, EndsWithin (choiceRound arr) rest.length
        ⟨seen.length, marks (seen ++ rest), out⟩ last ∧
      last.allCombines = out := by
  fun_induction nextChoiceFrom seen rest with
  | case1 seen =>
      exact ⟨_, .done (choiceRound_end hlength (by simp) _), rfl⟩
  | case2 seen bit =>
      exact ⟨_, (EndsWithin.done (choiceRound_end hlength (by simp)
        _)).mono (Nat.zero_le _), rfl⟩
  | case3 seen bit next rest hpair => cases hnext
  | case4 seen bit next rest hpair ih =>
      obtain ⟨last, hlast, hout⟩ := ih (by simpa using hlength) hnext
      exact ⟨last, hlast.next (choiceRound_skip hlength hpair), hout⟩

theorem endsWithin_scan_some {bits : List Bool} {rounds : Nat}
    {last : ChoiceLoop α}
    (hlength : (seen ++ rest).length = arr.length)
    (hnext : nextChoiceFrom seen rest = some bits)
    (h : EndsWithin (choiceRound arr) rounds
      ⟨0, marks bits, out ++ [selectBy arr bits]⟩ last) :
    EndsWithin (choiceRound arr) (rounds + rest.length)
      ⟨seen.length, marks (seen ++ rest), out⟩ last := by
  fun_induction nextChoiceFrom seen rest with
  | case1 seen => cases hnext
  | case2 seen bit => cases hnext
  | case3 seen bit next rest hpair =>
      obtain ⟨rfl, rfl⟩ := hpair
      obtain rfl := Option.some.inj hnext
      refine (h.next (choiceRound_swap hlength)).mono ?_
      rw [List.length_cons]
      omega
  | case4 seen bit next rest hpair ih =>
      have hrest := ih (by simpa using hlength) hnext
      exact (hrest.next (choiceRound_skip hlength hpair)).mono (le_refl _)

end Rounds

theorem length_nextChoiceFrom {seen rest bits : List Bool}
    (hnext : nextChoiceFrom seen rest = some bits) :
    bits.length = (seen ++ rest).length := by
  fun_induction nextChoiceFrom seen rest with
  | case1 seen => cases hnext
  | case2 seen bit => cases hnext
  | case3 seen bit next rest hpair =>
      obtain rfl := Option.some.inj hnext
      simp [(onesFirst_perm seen).length_eq]
  | case4 seen bit next rest hpair ih =>
      rw [ih hnext]
      simp

theorem endsWithin_trail {arr : List α} {bits final : List Bool}
    {visited : List (List Bool)} (htrail : Trail bits visited final)
    (hfinal : nextChoice final = none) (hlength : bits.length = arr.length)
    (out : List (List α)) :
    ∃ last, EndsWithin (choiceRound arr) (visited.length * arr.length)
        ⟨0, marks bits, out ++ [selectBy arr bits]⟩ last ∧
      last.allCombines = out ++ visited.map (selectBy arr) := by
  induction htrail generalizing out with
  | single bits =>
      obtain ⟨last, hlast, hout⟩ := @endsWithin_scan_none _ arr
        (out ++ [selectBy arr bits]) [] bits hlength hfinal
      refine ⟨last, hlast.mono ?_, hout⟩
      simp [hlength]
  | @step bits bits' visited final hstep htrail ih =>
      have hlength' : bits'.length = arr.length :=
        (length_nextChoiceFrom hstep).trans hlength
      obtain ⟨last, hlast, hout⟩ := ih hfinal hlength'
        (out ++ [selectBy arr bits])
      refine ⟨last, (@endsWithin_scan_some _ arr _ [] bits bits' _ last
        hlength hstep hlast).mono ?_, ?_⟩
      · rw [List.length_cons, Nat.add_mul, Nat.one_mul, hlength]
      · rw [hout, List.map_cons]
        simp

/-! ## Every selection once -/

theorem caculateAllChoicesLoop_eq {arr : List α} {n fuel : Nat}
    (hfuel : arr.length.choose n * arr.length < fuel)
    (allCombines : List (List α)) :
    caculateAllChoicesLoop fuel arr n allCombines =
      some (allCombines ++ caculateAllChoices arr n) := by
  rw [caculateAllChoicesLoop, caculateAllChoices_eq]
  split_ifs with hshort
  · rw [List.length_eq_zero_iff.mp ((length_colex _ _).trans
      (Nat.choose_eq_zero_of_lt hshort))]
    simp
  · have hmarks : (List.replicate n 1 ++ List.replicate (arr.length - n) 0) =
        marks (List.replicate n true ++
          List.replicate (arr.length - n) false) := by
      simp [marks]
    obtain ⟨last, hlast, hout⟩ := endsWithin_trail
      (trail_colex (not_lt.mp hshort)) (nextChoice_final _ _)
      (show _ = arr.length by
        simp only [List.length_append, List.length_replicate]
        omega) allCombines
    dsimp only
    rw [hmarks, indexToElem_marks, hlast fuel (by rwa [length_colex]),
      Option.map_some, hout]

theorem selectBy_map {β : Type*} (f : β → α) (xs : List β)
    (bits : List Bool) :
    selectBy (xs.map f) bits = (selectBy xs bits).map f := by
  fun_induction selectBy xs bits with
  | case1 x xs bits ih => simp [selectBy, ih]
  | case2 x xs bits ih => simp [selectBy, ih]
  | case3 xs bits hpos hneg =>
      cases xs with
      | nil => simp [selectBy]
      | cons x xs =>
          cases bits with
          | nil => simp [selectBy]
          | cons bit bits =>
              cases bit
              · exact absurd rfl (hneg _ _ _ rfl)
              · exact absurd rfl (hpos _ _ _ rfl)

/-- The index subsets with `n` elements, in the order of their enumeration. -/
def indexSubsets (m n : Nat) : List (List (Fin m)) :=
  (colex m n).map (selectBy (List.finRange m))

theorem indexSubsets_perm (m n : Nat) :
    (indexSubsets m n).Perm
      ((List.finRange m).sublists.filter fun s => s.length = n) := by
  have hperm := map_selectBy_colex_perm (List.finRange m) n
  rwa [List.length_finRange] at hperm

theorem caculateAllChoices_eq_map (arr : List α) (n : Nat) :
    caculateAllChoices arr n =
      (indexSubsets arr.length n).map fun s => s.map arr.get := by
  have harr : (List.finRange arr.length).map arr.get = arr := by
    rw [← List.ofFn_eq_map, List.ofFn_get]
  rw [caculateAllChoices_eq, indexSubsets, List.map_map]
  refine List.map_congr_left fun bits _ => ?_
  rw [Function.comp_apply, ← selectBy_map, harr]

/--
The loop ends after at most `m` rounds for each combination and appends, for
each index subset with `n` elements once, the elements it selects; without
such a subset it appends nothing.
-/
theorem caculateAllChoices_enumerates (arr : List α) (n : Nat)
    (allCombines : List (List α)) :
    ∃ subsets : List (List (Fin arr.length)),
      (∀ fuel, arr.length.choose n * arr.length < fuel →
        caculateAllChoicesLoop fuel arr n allCombines =
          some (allCombines ++ subsets.map fun s => s.map arr.get)) ∧
      subsets.Perm ((List.finRange arr.length).sublists.filter
        fun s => s.length = n) ∧
      subsets.Nodup ∧ subsets.length = arr.length.choose n ∧
      (arr.length < n → subsets = []) := by
  have hperm := indexSubsets_perm arr.length n
  have hlength : (indexSubsets arr.length n).length =
      arr.length.choose n := by
    rw [indexSubsets, List.length_map, length_colex]
  refine ⟨indexSubsets arr.length n, fun fuel hfuel => ?_, hperm,
    hperm.nodup_iff.mpr ?_, hlength, fun hshort => ?_⟩
  · rw [caculateAllChoicesLoop_eq hfuel, caculateAllChoices_eq_map]
  · exact (List.nodup_sublists.mpr (List.nodup_finRange _)).filter _
  · rw [← List.length_eq_zero_iff, hlength,
      Nat.choose_eq_zero_of_lt hshort]

example : caculateAllChoicesLoop 20 ["a", "b", "c"] 2 [] =
    some [["a", "b"], ["a", "c"], ["b", "c"]] := by
  decide +kernel

end StarsGaming.Cards
