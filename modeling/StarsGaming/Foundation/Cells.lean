import StarsGaming.Foundation.Bytes

/-!
# Fresh buffers

An allocation returns whatever the heap left there.  A cell remembers, next to
its byte, who wrote it; a text ends at its first zero.  A pointer into a buffer
is the part of the buffer behind it.
-/

namespace StarsGaming.Foundation

structure Cell (W : Type*) where
  value : Byte
  writer : Option W
  deriving DecidableEq, Repr

namespace Cell

variable {W : Type*}

def alloc (heap : Nat → Byte) (size : Nat) : List (Cell W) :=
  (List.range size).map fun i => ⟨heap i, none⟩

def values (cells : List (Cell W)) : List Byte :=
  cells.map Cell.value

def written (writer : W) (bytes : List Byte) : List (Cell W) :=
  bytes.map (⟨·, some writer⟩)

def store (writer : W) (bytes : List Byte) (cells : List (Cell W)) :
    Option (List (Cell W)) :=
  if bytes.length ≤ cells.length then
    some (written writer bytes ++ cells.drop bytes.length)
  else none

def poke (writer : W) (i : Nat) (byte : Byte) (cells : List (Cell W)) :
    Option (List (Cell W)) :=
  if i < cells.length then some (cells.set i ⟨byte, some writer⟩) else none

def cString : List (Cell W) → Option (List (Cell W))
  | [] => none
  | cell :: rest =>
      if cell.value = 0 then some [] else (cString rest).map (cell :: ·)

@[simp] theorem length_alloc (heap : Nat → Byte) (size : Nat) :
    (alloc heap size : List (Cell W)).length = size := by
  simp [alloc]

@[simp] theorem length_written (writer : W) (bytes : List Byte) :
    (written writer bytes).length = bytes.length := by
  simp [written]

@[simp] theorem values_written (writer : W) (bytes : List Byte) :
    values (written writer bytes) = bytes := by
  simp [values, written, Function.comp_def]

@[simp] theorem values_append (first second : List (Cell W)) :
    values (first ++ second) = values first ++ values second := by
  simp [values]

theorem written_append (writer : W) (first second : List Byte) :
    written writer (first ++ second) =
      written writer first ++ written writer second := by
  simp [written]

theorem store_of_le (writer : W) {bytes : List Byte}
    {cells : List (Cell W)} (h : bytes.length ≤ cells.length) :
    store writer bytes cells =
      some (written writer bytes ++ cells.drop bytes.length) :=
  if_pos h

theorem store_of_gt (writer : W) {bytes : List Byte}
    {cells : List (Cell W)} (h : cells.length < bytes.length) :
    store writer bytes cells = none :=
  if_neg (by omega)

theorem store_append (writer : W) (first second : List Byte)
    (cells : List (Cell W)) :
    store writer (first ++ second) cells =
      (store writer first cells).bind fun done =>
        (store writer second (done.drop first.length)).map
          (done.take first.length ++ ·) := by
  have hlength := @List.length_append _ first second
  by_cases hfirst : first.length ≤ cells.length
  · have hdrop : (written writer first ++ cells.drop first.length).drop
        first.length = cells.drop first.length :=
      List.drop_left' (length_written writer first)
    have htake : (written writer first ++ cells.drop first.length).take
        first.length = written writer first :=
      List.take_left' (length_written writer first)
    have hrest := @List.length_drop _ first.length cells
    rw [store_of_le writer hfirst, Option.bind_some, hdrop, htake]
    by_cases hsecond : second.length ≤ (cells.drop first.length).length
    · have hboth : (first ++ second).length ≤ cells.length := by omega
      rw [store_of_le writer hsecond, store_of_le writer hboth]
      simp [written_append]
    · have hboth : cells.length < (first ++ second).length := by omega
      rw [store_of_gt writer hboth, store_of_gt writer (not_le.mp hsecond),
        Option.map_none]
  · have hboth : cells.length < (first ++ second).length := by omega
    rw [store_of_gt writer hboth, store_of_gt writer (not_le.mp hfirst),
      Option.bind_none]

def nonzero (cell : Cell W) : Bool :=
  cell.value ≠ 0

theorem takeWhile_zero {cell : Cell W} (cells : List (Cell W))
    (h : cell.value = 0) : (cell :: cells).takeWhile nonzero = [] :=
  List.takeWhile_cons_of_neg (by simp [nonzero, h])

theorem takeWhile_nonzero {cell : Cell W} (cells : List (Cell W))
    (h : cell.value ≠ 0) :
    (cell :: cells).takeWhile nonzero = cell :: cells.takeWhile nonzero :=
  List.takeWhile_cons_of_pos (by simpa [nonzero] using h)

/-- A text that is followed by a zero ends there or at a zero of its own. -/
theorem cString_append_zero {cells rest : List (Cell W)} {zero : Cell W}
    (hzero : zero.value = 0) :
    cString (cells ++ zero :: rest) =
      some (cells.takeWhile nonzero) := by
  induction cells with
  | nil => simp [cString, hzero]
  | cons cell cells ih =>
      rw [List.cons_append, cString, ih]
      by_cases hcell : cell.value = 0
      · rw [if_pos hcell, takeWhile_zero cells hcell]
      · rw [if_neg hcell, takeWhile_nonzero cells hcell]
        rfl

/-- The last cell set to zero closes the text in front of it. -/
theorem cString_poke_last (writer : W) (cells : List (Cell W))
    (last : Cell W) :
    (poke writer cells.length 0 (cells ++ [last])).bind cString =
      some (cells.takeWhile nonzero) := by
  have hset : (cells ++ [last]).set cells.length ⟨0, some writer⟩ =
      cells ++ [⟨0, some writer⟩] := by
    rw [List.set_append_right _ _ (le_refl _), Nat.sub_self,
      List.set_cons_zero]
  rw [poke, if_pos (by simp), Option.bind_some, hset]
  exact cString_append_zero rfl

theorem values_takeWhile (cells : List (Cell W)) :
    values (cells.takeWhile nonzero) =
      (values cells).takeWhile fun byte => byte ≠ 0 := by
  rw [values, values, List.takeWhile_map]
  rfl

theorem alloc_add (heap : Nat → Byte) (first second : Nat) :
    (alloc heap (first + second) : List (Cell W)) =
      alloc heap first ++
        alloc (fun i => heap (first + i)) second := by
  simp [alloc, List.range_add]

theorem alloc_drop (heap : Nat → Byte) {first size : Nat}
    (h : first ≤ size) :
    (alloc heap size : List (Cell W)).drop first =
      alloc (fun i => heap (first + i)) (size - first) := by
  have hsplit := @alloc_add W heap first (size - first)
  rw [Nat.add_sub_cancel' h] at hsplit
  rw [hsplit, List.drop_left' (length_alloc heap first)]

/-- A text consists of written cells if it ends before the others begin. -/
theorem writer_takeWhile_iff (writer : W) (bytes : List Byte)
    (heap : Nat → Byte) (size : Nat) :
    (∀ cell ∈ (written writer bytes ++ alloc heap size).takeWhile nonzero,
        cell.writer = some writer) ↔
      size = 0 ∨ 0 ∈ bytes ∨ heap 0 = 0 := by
  induction bytes with
  | nil =>
      rw [show written writer [] = [] from rfl, List.nil_append]
      cases size with
      | zero => simp [alloc]
      | succ size =>
          have hcons : (alloc heap (size + 1) : List (Cell W)) =
              ⟨heap 0, none⟩ :: alloc (fun i => heap (1 + i)) size := by
            rw [Nat.add_comm, alloc_add]
            rfl
          rw [hcons]
          by_cases hzero : heap 0 = 0
          · rw [takeWhile_zero _ hzero]
            exact iff_of_true (List.forall_mem_nil _) (.inr (.inr hzero))
          · rw [takeWhile_nonzero _ hzero, List.forall_mem_cons]
            simpa using hzero
  | cons byte bytes ih =>
      have hcons : written writer (byte :: bytes) =
          ⟨byte, some writer⟩ :: written writer bytes := rfl
      rw [hcons, List.cons_append, List.mem_cons]
      by_cases hzero : byte = 0
      · rw [takeWhile_zero _ hzero]
        exact iff_of_true (List.forall_mem_nil _)
          (.inr (.inl (.inl hzero.symm)))
      · rw [takeWhile_nonzero _ hzero, List.forall_mem_cons, ih]
        have hne : ¬ (0 : Byte) = byte := fun h => hzero h.symm
        tauto

end Cell

end StarsGaming.Foundation
