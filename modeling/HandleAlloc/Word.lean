/-!
# Machine words

Sizes and offsets are naturals below `wordSize`. This module holds the rounding rule on
which every placement rests, `alignUp`, and the little-endian codec that headers and typed
values are stored with.
-/

namespace HandleAlloc

/-- The number of machine words: two to the power of 64. -/
def wordSize : Nat := 18446744073709551616

def addWord? (a b : Nat) : Option Nat :=
  if a + b < wordSize then some (a + b) else none

theorem addWord?_eq_some_iff {a b c : Nat} :
    addWord? a b = some c ↔ a + b = c ∧ c < wordSize := by
  unfold addWord?
  split <;> simp <;> omega

/-- `value` rounded up to a multiple of `alignment`, a power of two: the low bits of
`value + (alignment - 1)` are masked off. Nothing when that sum is no machine word. -/
def alignUp (value alignment : Nat) : Option Nat :=
  (addWord? value (alignment - 1)).map (· &&& (wordSize - alignment))

namespace LittleEndian

/-- The `width` lowest bytes of `value`, least significant first. -/
def encode : (width : Nat) → (value : Nat) → List UInt8
  | 0, _ => []
  | width + 1, value => UInt8.ofNat value :: encode width (value / 256)

/-- The number whose bytes are given, least significant first. -/
def decode : List UInt8 → Nat
  | [] => 0
  | byte :: rest => byte.toNat + 256 * decode rest

/-- The number of values that `width` bytes can hold. -/
def range : (width : Nat) → Nat
  | 0 => 1
  | width + 1 => 256 * range width

theorem range_pos (width : Nat) : 0 < range width := by
  induction width with
  | zero => exact Nat.one_pos
  | succ width ih =>
    rw [range]
    omega

theorem range_mono {m n : Nat} (hle : m ≤ n) : range m ≤ range n := by
  induction hle with
  | refl => exact Nat.le_refl _
  | @step width _ ih =>
    rw [range]
    have hpos := range_pos width
    omega

theorem range_eight : range 8 = wordSize := rfl

@[simp] theorem length_encode (width value : Nat) : (encode width value).length = width := by
  induction width generalizing value with
  | zero => rfl
  | succ width ih => simp [encode, ih]

theorem decode_encode (width value : Nat) :
    decode (encode width value) = value % range width := by
  induction width generalizing value with
  | zero => exact (Nat.mod_one value).symm
  | succ width ih => rw [encode, decode, ih, UInt8.toNat_ofNat', range, Nat.mod_mul]

theorem encode_decode (bytes : List UInt8) : encode bytes.length (decode bytes) = bytes := by
  induction bytes with
  | nil => rfl
  | cons byte rest ih =>
    have hbyte := byte.toNat_lt
    have hdiv : (byte.toNat + 256 * decode rest) / 256 = decode rest := by omega
    have hlow : UInt8.ofNat (byte.toNat + 256 * decode rest) = byte := by
      apply UInt8.toNat_inj.mp
      rw [UInt8.toNat_ofNat']
      omega
    rw [List.length_cons, decode, encode, hdiv, hlow, ih]

theorem decode_lt (bytes : List UInt8) : decode bytes < range bytes.length := by
  induction bytes with
  | nil => exact Nat.one_pos
  | cons byte rest ih =>
    have hbyte := byte.toNat_lt
    rw [decode, List.length_cons, range]
    omega

end LittleEndian

end HandleAlloc
