import Mathlib.Data.List.Basic

/-!
# Circular buffers

A queue of bounded capacity that makes room for a new item by giving up its
oldest one.
-/

namespace StarsGaming.Foundation

structure CircularBuffer (α : Type*) where
  capacity : Nat
  items : List α
  length_le : items.length ≤ capacity

namespace CircularBuffer

variable {α : Type*}

def new (capacity : Nat) : CircularBuffer α :=
  ⟨capacity, [], Nat.zero_le _⟩

def full (q : CircularBuffer α) : Bool :=
  q.items.length = q.capacity

def empty (q : CircularBuffer α) : Bool :=
  q.items.isEmpty

def pushBack (a : α) (q : CircularBuffer α) : CircularBuffer α where
  capacity := q.capacity
  items := (q.items ++ [a]).drop (q.items.length + 1 - q.capacity)
  length_le := by
    have := q.length_le
    rw [List.length_drop, List.length_append, List.length_singleton]
    omega

def popFront (q : CircularBuffer α) : CircularBuffer α where
  capacity := q.capacity
  items := q.items.tail
  length_le := by
    have := q.length_le
    rw [List.length_tail]
    omega

def setCapacity (capacity : Nat) (q : CircularBuffer α) :
    CircularBuffer α where
  capacity := capacity
  items := q.items.take capacity
  length_le := List.length_take_le _ _

theorem items_pushBack {q : CircularBuffer α} (a : α)
    (h : q.items.length < q.capacity) :
    (q.pushBack a).items = q.items ++ [a] := by
  have hdrop : q.items.length + 1 - q.capacity = 0 := by omega
  simp only [pushBack, hdrop, List.drop_zero]

theorem items_setCapacity {q : CircularBuffer α} {capacity : Nat}
    (h : q.items.length ≤ capacity) :
    (q.setCapacity capacity).items = q.items :=
  List.take_of_length_le h

end CircularBuffer

end StarsGaming.Foundation
