import HandleAlloc.Word
/-!
# Plain data

Values that are stored as a fixed number of bytes and read back from these: integers of
whole bytes (and so the bit patterns of floats), the unit, and arrays of these.
-/

namespace HandleAlloc

/-- A type whose values have a stored form of `size` bytes. -/
class PlainData (α : Type) where
  size : Nat
  encode : α → List UInt8
  decode : List UInt8 → α
  length_encode : ∀ value, (encode value).length = size
  decode_encode : ∀ value, decode (encode value) = value

namespace PlainData

/-- An integer of `width` bytes is stored least significant byte first. -/
instance integer (width : Nat) : PlainData (BitVec (8 * width)) where
  size := width
  encode value := LittleEndian.encode width value.toNat
  decode bytes := BitVec.ofNat (8 * width) (LittleEndian.decode bytes)
  length_encode _ := LittleEndian.length_encode ..
  decode_encode value := by
    have hrange : LittleEndian.range width = 2 ^ (8 * width) := by
      clear value
      induction width with
      | zero => rfl
      | succ width ih => rw [LittleEndian.range, ih, Nat.mul_succ, Nat.pow_add, Nat.mul_comm]
    apply BitVec.eq_of_toNat_eq
    rw [BitVec.toNat_ofNat, LittleEndian.decode_encode, hrange, Nat.mod_mod]
    exact Nat.mod_eq_of_lt value.isLt

/-- The unit is stored in no bytes. -/
instance unit : PlainData Unit where
  size := 0
  encode _ := []
  decode _ := ()
  length_encode _ := rfl
  decode_encode _ := rfl

private theorem length_stored {α : Type} [PlainData α] (values : List α) :
    (values.flatMap encode).length = values.length * size α := by
  induction values with
  | nil => simp
  | cons value values ih =>
    rw [List.flatMap_cons, List.length_append, ih, length_encode, List.length_cons, Nat.succ_mul]
    omega

private theorem slice_stored {α : Type} [PlainData α] (values : List α) (i : Nat)
    (hi : i < values.length) :
    ((values.flatMap encode).drop (i * size α)).take (size α) = encode values[i] := by
  induction values generalizing i with
  | nil => simp at hi
  | cons value values ih =>
    rw [List.flatMap_cons]
    cases i with
    | zero => simp [length_encode]
    | succ i =>
      have hlength : (encode value).length ≤ (i + 1) * size α := by
        rw [length_encode, Nat.succ_mul]
        omega
      rw [List.drop_append, List.drop_eq_nil_of_le hlength, List.nil_append, length_encode,
        Nat.succ_mul, Nat.add_sub_cancel]
      simpa using ih i (by simpa using hi)

/-- An array is stored element after element. -/
instance vector (α : Type) [PlainData α] (count : Nat) : PlainData (Vector α count) where
  size := count * size α
  encode values := values.toList.flatMap encode
  decode bytes := Vector.ofFn fun i => decode ((bytes.drop (i * size α)).take (size α))
  length_encode values := by rw [length_stored, Vector.length_toList]
  decode_encode values := by
    ext i hi
    rw [Vector.getElem_ofFn, slice_stored values.toList i (by simpa using hi),
      decode_encode, Vector.getElem_toList]

end PlainData

end HandleAlloc
