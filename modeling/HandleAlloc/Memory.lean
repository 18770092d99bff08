/-!
# Memory

Pages and buffers are byte arrays of fixed length. The one way to change them is `write`,
whose effect is given byte by byte in `getElem?_write`.
-/

namespace HandleAlloc

namespace Memory

private def pushes (byte : UInt8) : Nat → ByteArray → ByteArray
  | 0, memory => memory
  | count + 1, memory => pushes byte count (memory.push byte)

def constant (length : Nat) (byte : UInt8) : ByteArray :=
  pushes byte length (ByteArray.emptyWithCapacity length)

def zeros (length : Nat) : ByteArray := constant length 0

/-- Copies the first `count` bytes of `data` to `position`, the last one first. -/
private def copy (data : ByteArray) (position : Nat) : (count : Nat) → ByteArray → ByteArray
  | 0, memory => memory
  | count + 1, memory =>
    copy data position count (memory.set! (position + count) (data.get! count))

/-- Puts `data` at `position`, if it fits there; else nothing changes. -/
def write (memory : ByteArray) (position : Nat) (data : ByteArray) : ByteArray :=
  if position + data.size ≤ memory.size then copy data position data.size memory else memory

private theorem data_pushes (byte : UInt8) (count : Nat) (memory : ByteArray) :
    (pushes byte count memory).data = memory.data ++ Array.replicate count byte := by
  induction count generalizing memory with
  | zero => simp [pushes]
  | succ count ih =>
    rw [pushes, ih, ByteArray.data_push]
    apply Array.ext'
    simp [List.replicate_succ]

theorem data_constant (length : Nat) (byte : UInt8) :
    (constant length byte).data = Array.replicate length byte := by
  rw [constant, data_pushes]
  exact Array.empty_append

@[simp] theorem size_constant (length : Nat) (byte : UInt8) :
    (constant length byte).size = length := by
  rw [← ByteArray.size_data, data_constant, Array.size_replicate]

@[simp] theorem size_zeros (length : Nat) : (zeros length).size = length :=
  size_constant length 0

private theorem size_set (memory : ByteArray) (i : Nat) (byte : UInt8) :
    (memory.set! i byte).size = memory.size := by
  change (memory.data.setIfInBounds i byte).size = memory.data.size
  exact Array.size_setIfInBounds

private theorem getElem?_set {memory : ByteArray} {j : Nat} (hj : j < memory.size)
    (byte : UInt8) (i : Nat) :
    (memory.set! j byte)[i]? = if i = j then some byte else memory[i]? := by
  change (memory.data.setIfInBounds j byte)[i]? = if i = j then some byte else memory.data[i]?
  have hdata : j < memory.data.size := hj
  rw [Array.getElem?_setIfInBounds]
  grind

private theorem getElem?_of_lt {data : ByteArray} {i : Nat} (hi : i < data.size) :
    data[i]? = some (data.get! i) := by
  change data.data[i]? = some data.data[i]!
  have hdata : i < data.data.size := hi
  rw [Array.getElem?_eq_getElem hdata, getElem!_pos data.data i hdata]

private theorem size_copy (data : ByteArray) (position count : Nat) (memory : ByteArray) :
    (copy data position count memory).size = memory.size := by
  induction count generalizing memory with
  | zero => rfl
  | succ count ih => rw [copy, ih, size_set]

private theorem getElem?_copy {data memory : ByteArray} {position count : Nat}
    (hdata : count ≤ data.size) (hfits : position + count ≤ memory.size) (i : Nat) :
    (copy data position count memory)[i]? =
      if position ≤ i ∧ i < position + count then data[i - position]? else memory[i]? := by
  induction count generalizing memory with
  | zero =>
    rw [copy, if_neg (by omega)]
  | succ count ih =>
    have hsize := size_set memory (position + count) (data.get! count)
    rw [copy, ih (by omega) (by omega), getElem?_set (by omega)]
    by_cases hlast : i = position + count
    · subst hlast
      rw [if_neg (by omega), if_pos rfl, if_pos (by omega), Nat.add_sub_cancel_left,
        getElem?_of_lt (by omega)]
    · rw [if_neg hlast]
      by_cases hinside : position ≤ i ∧ i < position + count
      · rw [if_pos hinside, if_pos (by omega)]
      · rw [if_neg hinside, if_neg (by omega)]

@[simp] theorem size_write (memory : ByteArray) (position : Nat) (data : ByteArray) :
    (write memory position data).size = memory.size := by
  unfold write
  split
  · exact size_copy ..
  · rfl

/-- A write that fits replaces the bytes from `position` on and keeps every other byte. -/
theorem getElem?_write {memory data : ByteArray} {position : Nat}
    (hfits : position + data.size ≤ memory.size) (i : Nat) :
    (write memory position data)[i]? =
      if position ≤ i ∧ i < position + data.size then data[i - position]? else memory[i]? := by
  rw [write, if_pos hfits, getElem?_copy (Nat.le_refl _) hfits]

end Memory

end HandleAlloc
