import Mathlib.Algebra.Ring.Nat
import HandleAlloc.Proofs.Header
/-!
# Words in memory

A header that is read at an offset where none was stored reads words that straddle the words stored
there: each of them is made of the high bytes of one word and the low bytes of the one behind it
(`Memory.number_straddle`).
-/

namespace HandleAlloc

namespace Memory

variable {memory : ByteArray} {position width shift i : Nat}

/-- The byte at a position, as a number; zero behind the end. -/
def byteAt (memory : ByteArray) (i : Nat) : Nat := (memory[i]?.getD 0).toNat

theorem byteAt_lt (memory : ByteArray) (i : Nat) : byteAt memory i < 256 :=
  UInt8.toNat_lt _

/-- The number that `width` bytes spell, the lowest one first. -/
def number (memory : ByteArray) : (position width : Nat) → Nat
  | _, 0 => 0
  | position, width + 1 => byteAt memory position + 256 * number memory (position + 1) width

theorem number_lt (memory : ByteArray) (position width : Nat) :
    number memory position width < 256 ^ width := by
  induction width generalizing position with
  | zero => exact Nat.one_pos
  | succ width ih =>
    have hbyte := byteAt_lt memory position
    have hrest := ih (position + 1)
    rw [number, Nat.pow_succ]
    omega

theorem number_add (memory : ByteArray) (position low high : Nat) :
    number memory position (low + high) =
      number memory position low + 256 ^ low * number memory (position + low) high := by
  induction low generalizing position with
  | zero => simp [number]
  | succ low ih =>
    rw [Nat.succ_add, number, ih, number, Nat.pow_succ', Nat.add_right_comm position 1,
      Nat.mul_add, Nat.mul_assoc 256, Nat.add_assoc position low 1, Nat.add_assoc (byteAt _ _)]

theorem number_eq_zero_iff : number memory position width = 0 ↔
    ∀ i ∈ interval position (position + width), byteAt memory i = 0 := by
  simp only [mem_interval]
  induction width generalizing position with
  | zero => exact iff_of_true rfl fun i hi => by omega
  | succ width ih =>
    have hsplit : number memory position (width + 1) = 0 ↔
        byteAt memory position = 0 ∧ number memory (position + 1) width = 0 := by
      rw [number]
      omega
    rw [hsplit, ih]
    constructor
    · rintro ⟨hfirst, hrest⟩ i hi
      by_cases heq : i = position
      · rw [heq, hfirst]
      · exact hrest i (by omega)
    · intro hall
      exact ⟨hall position (by omega), fun i hi => hall i (by omega)⟩

theorem decode_eq_number {start stop : Nat} (hstop : stop ≤ memory.size)
    (hwidth : start + position + width ≤ stop) :
    LittleEndian.decode (((memory.extract start stop).data.toList.drop position).take width) =
      number memory (start + position) width := by
  induction width generalizing position with
  | zero => rfl
  | succ width ih =>
    have hsize : (memory.extract start stop).size = stop - start := by
      rw [ByteArray.size_extract, Nat.min_eq_left hstop]
    have hlt : position < (memory.extract start stop).data.toList.length := by
      rw [Array.length_toList, ByteArray.size_data, hsize]
      omega
    have hbyte : (memory.extract start stop).data.toList[position] = memory[start + position] :=
      ByteArray.getElem_extract ..
    rw [List.drop_eq_getElem_cons hlt, List.take_succ_cons, LittleEndian.decode, ih (by omega),
      number, byteAt, getElem?_pos memory (start + position) (by omega), Option.getD_some, hbyte,
      Nat.add_assoc]

/-- The word that starts `shift` bytes into `low`, behind which `high` stands. -/
def straddle (shift low high : Nat) : Nat :=
  low / 256 ^ shift + high % 256 ^ shift * 256 ^ (8 - shift)

theorem number_straddle (hshift : shift ≤ 8) (memory : ByteArray) (position : Nat) :
    number memory (position + shift) 8 =
      straddle shift (number memory position 8) (number memory (position + 8) 8) := by
  have hlow := number_add memory position shift (8 - shift)
  have hhigh := number_add memory (position + 8) shift (8 - shift)
  have hboth := number_add memory (position + shift) (8 - shift) shift
  have hpos : 0 < 256 ^ shift := Nat.pow_pos (by decide)
  have hplace : position + shift + (8 - shift) = position + 8 := by omega
  rw [Nat.add_sub_cancel' hshift] at hlow hhigh
  rw [Nat.sub_add_cancel hshift, hplace] at hboth
  rw [straddle, hlow, hhigh, hboth, Nat.add_mul_div_left _ _ hpos, Nat.add_mul_mod_self_left,
    Nat.div_eq_of_lt (number_lt ..), Nat.mod_eq_of_lt (number_lt ..), Nat.zero_add, Nat.mul_comm]

theorem number_of_zero_behind (hshift : shift ≤ 8)
    (hzero : number memory (position + 8) shift = 0) :
    number memory (position + shift) 8 = number memory position 8 / 256 ^ shift := by
  have hhigh := number_add memory (position + 8) shift (8 - shift)
  rw [Nat.add_sub_cancel' hshift, hzero, Nat.zero_add] at hhigh
  rw [number_straddle hshift, straddle, hhigh, Nat.mul_mod_right, Nat.zero_mul, Nat.add_zero]

end Memory

namespace Header

theorem decode_extract {memory : ByteArray} {offset : Nat} (hoffset : headerSize ≤ offset)
    (hsize : offset ≤ memory.size) :
    decode (memory.extract (offset - headerSize) offset) =
      ⟨Memory.number memory (offset - headerSize) 8, Memory.number memory (offset - headerSize + 8) 8,
        Memory.number memory (offset - headerSize + 16) 8,
        Memory.number memory (offset - headerSize + 24) 8⟩ := by
  rw [headerSize] at *
  rw [decode_eq, Memory.decode_eq_number hsize (by omega), Memory.decode_eq_number hsize (by omega),
    Memory.decode_eq_number hsize (by omega), Memory.decode_eq_number hsize (by omega), Nat.add_zero]

end Header

open Memory

/-- The four words from a position on are those of the header. -/
structure Spells (memory : ByteArray) (position : Nat) (header : Header) : Prop where
  start_eq : number memory position 8 = header.start
  size_eq : number memory (position + 8) 8 = header.size
  alignment_eq : number memory (position + 16) 8 = header.alignment
  selfOffset_eq : number memory (position + 24) 8 = header.selfOffset

section Spells

variable {memory : ByteArray} {offset : Nat} {header : Header} {validate : Bool}

theorem Header.decode_extract_eq_iff (hoffset : headerSize ≤ offset) (hsize : offset ≤ memory.size) :
    decode (memory.extract (offset - headerSize) offset) = header ↔
      Spells memory (offset - headerSize) header := by
  rw [decode_extract hoffset hsize]
  constructor
  · rintro rfl
    exact ⟨rfl, rfl, rfl, rfl⟩
  · rintro ⟨hstart, hcount, halignment, hself⟩
    rw [hstart, hcount, halignment, hself]

theorem spells_of_read? (hread : Header.read? memory offset validate = some header) :
    Spells memory (offset - headerSize) header := by
  obtain ⟨⟨hoffset, hsize⟩, hdecode, _⟩ := Header.read?_eq_some_iff.mp hread
  exact (Header.decode_extract_eq_iff hoffset hsize).mp hdecode

end Spells

end HandleAlloc
