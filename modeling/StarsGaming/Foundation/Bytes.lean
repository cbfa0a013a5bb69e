import Mathlib.Tactic

/-!
# Bytes, memory and codecs

A memory is what lies behind a pointer.  It has no bound of its own: that
every access stays inside an allocation is something to be proved.  A codec is
a pair of functions of which the second undoes the first.
-/

namespace StarsGaming.Foundation

abbrev Byte := BitVec 8

def ascii (text : String) : List Byte :=
  text.toList.map fun c => BitVec.ofNat 8 c.toNat

abbrev Memory := Nat → Byte

namespace Memory

def write (mem : Memory) (offset : Nat) (bytes : List Byte) : Memory :=
  fun i => if offset ≤ i then bytes[i - offset]?.getD (mem i) else mem i

def read (mem : Memory) (offset size : Nat) : List Byte :=
  (List.range size).map fun i => mem (offset + i)

@[simp] theorem length_read (mem : Memory) (offset size : Nat) :
    (read mem offset size).length = size := by
  simp [read]

theorem getElem_read (mem : Memory) (offset size i : Nat)
    (h : i < (read mem offset size).length) :
    (read mem offset size)[i] = mem (offset + i) := by
  simp [read]

@[simp] theorem read_write (mem : Memory) (offset : Nat)
    (bytes : List Byte) :
    read (write mem offset bytes) offset bytes.length = bytes := by
  apply List.ext_getElem
  · simp
  · intro i _ hi
    simp [getElem_read, write, hi]

theorem read_write_of_disjoint (mem : Memory) {offset size at' : Nat}
    {bytes : List Byte}
    (h : offset + size ≤ at' ∨ at' + bytes.length ≤ offset) :
    read (write mem at' bytes) offset size = read mem offset size := by
  apply List.ext_getElem
  · simp
  · intro i hi _
    rw [length_read] at hi
    rw [getElem_read, getElem_read, write]
    split_ifs with hat
    · have hlen : bytes.length ≤ offset + i - at' := by omega
      rw [List.getElem?_eq_none hlen, Option.getD_none]
    · rfl

theorem read_add (mem : Memory) (offset first second : Nat) :
    read mem offset (first + second) =
      read mem offset first ++ read mem (offset + first) second := by
  simp [read, List.range_add, Nat.add_assoc]

end Memory

/--
A parser that is told to read fewer bytes than none goes on from its pointer;
`misparse` is what it makes of that.
-/
structure Codec (α : Type*) where
  serialize : α → List Byte
  parse : List Byte → Option α
  misparse : Memory → Nat → Int → Option α
  parse_serialize : ∀ a, parse (serialize a) = some a

attribute [simp] Codec.parse_serialize

end StarsGaming.Foundation
