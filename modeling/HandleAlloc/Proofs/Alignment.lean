import Mathlib.Algebra.Ring.Nat
import Mathlib.Order.Bounds.Basic
import HandleAlloc.FreeList
/-!
# Alignment

`alignUp` masks the low bits of a machine word off. Here the mask is tied to arithmetic:
`alignUp_eq` says that the result is the least multiple of the alignment that is not below the
value, `alignUp_exact` that it is missing only where that multiple is no machine word, and
`Header.place?_eq_some_iff` what that means for the place of a request in a block.
-/

namespace HandleAlloc

def leastMultiple (value alignment : Nat) : Nat :=
  (value + (alignment - 1)) / alignment * alignment

section LeastMultiple

variable {value other alignment smaller : Nat}

theorem leastMultiple_mod (value alignment : Nat) : leastMultiple value alignment % alignment = 0 :=
  Nat.mul_mod_left _ _

theorem leastMultiple_eq_sub (value alignment : Nat) :
    leastMultiple value alignment =
      value + (alignment - 1) - (value + (alignment - 1)) % alignment := by
  have hsplit := Nat.div_add_mod' (value + (alignment - 1)) alignment
  unfold leastMultiple
  omega

theorem le_leastMultiple (hpos : 0 < alignment) : value ≤ leastMultiple value alignment := by
  have hmod := Nat.mod_lt (value + (alignment - 1)) hpos
  rw [leastMultiple_eq_sub]
  omega

theorem leastMultiple_lt (hpos : 0 < alignment) :
    leastMultiple value alignment < value + alignment := by
  rw [leastMultiple_eq_sub]
  omega

theorem eq_leastMultiple {multiple : Nat} (hmod : multiple % alignment = 0)
    (hle : value ≤ multiple) (hlt : multiple < value + alignment) :
    multiple = leastMultiple value alignment := by
  obtain ⟨k, rfl⟩ := Nat.dvd_of_mod_eq_zero hmod
  have hdiv : (value + (alignment - 1)) / alignment = k := by
    apply Nat.div_eq_of_lt_le
    · rw [Nat.mul_comm]
      omega
    · rw [Nat.succ_mul, Nat.mul_comm]
      omega
  rw [leastMultiple, hdiv, Nat.mul_comm]

theorem isLeast_leastMultiple (hpos : 0 < alignment) :
    IsLeast {multiple | multiple % alignment = 0 ∧ value ≤ multiple}
      (leastMultiple value alignment) := by
  refine ⟨⟨leastMultiple_mod _ _, le_leastMultiple hpos⟩, ?_⟩
  rintro multiple ⟨hmod, hle⟩
  by_contra hbelow
  have hlt : leastMultiple value alignment < value + alignment := leastMultiple_lt hpos
  exact hbelow (Nat.le_of_eq (eq_leastMultiple hmod hle (by omega)).symm)

theorem leastMultiple_le {multiple : Nat} (hpos : 0 < alignment)
    (hmod : multiple % alignment = 0) (hle : value ≤ multiple) :
    leastMultiple value alignment ≤ multiple :=
  (isLeast_leastMultiple hpos).2 ⟨hmod, hle⟩

theorem leastMultiple_mono (hpos : 0 < alignment) (hle : other ≤ value) :
    leastMultiple other alignment ≤ leastMultiple value alignment :=
  leastMultiple_le hpos (leastMultiple_mod _ _) (Nat.le_trans hle (le_leastMultiple hpos))

theorem leastMultiple_le_of_dvd (hpos : 0 < alignment) (hdvd : smaller ∣ alignment) :
    leastMultiple value smaller ≤ leastMultiple value alignment := by
  apply leastMultiple_le (Nat.pos_of_dvd_of_pos hdvd hpos) _ (le_leastMultiple hpos)
  apply Nat.mod_eq_zero_of_dvd
  exact Nat.dvd_trans hdvd (Nat.dvd_of_mod_eq_zero (leastMultiple_mod _ _))

end LeastMultiple

theorem wordSize_eq : wordSize = 2 ^ 64 := rfl

theorem lt_wordSize_of_le_half {n : Nat} (hle : n ≤ 2 ^ 63) : n < wordSize :=
  Nat.lt_of_le_of_lt hle (by decide)

theorem dvd_of_isPowerOfTwo_of_le {smaller alignment : Nat} (hsmaller : smaller.isPowerOfTwo)
    (halignment : alignment.isPowerOfTwo) (hle : smaller ≤ alignment) : smaller ∣ alignment := by
  obtain ⟨j, rfl⟩ := hsmaller
  obtain ⟨k, rfl⟩ := halignment
  exact Nat.pow_dvd_pow 2 ((Nat.pow_le_pow_iff_right (by decide)).mp hle)

theorem add_le_wordSize {alignment offset : Nat} (halignment : alignment.isPowerOfTwo)
    (hword : alignment < wordSize) (hmod : offset % alignment = 0) (hoffset : offset < wordSize) :
    offset + alignment ≤ wordSize := by
  have hdvd : alignment ∣ wordSize :=
    dvd_of_isPowerOfTwo_of_le halignment ⟨64, rfl⟩ (Nat.le_of_lt hword)
  have hle := Nat.le_of_dvd (by omega) (Nat.dvd_sub hdvd (Nat.dvd_of_mod_eq_zero hmod))
  omega

theorem add_lt_wordSize_iff {value alignment : Nat} (halignment : alignment.isPowerOfTwo)
    (hword : alignment < wordSize) :
    value + (alignment - 1) < wordSize ↔ leastMultiple value alignment < wordSize := by
  have hpos := Nat.pos_of_isPowerOfTwo halignment
  constructor
  · intro hsum
    have hlt : leastMultiple value alignment < value + alignment := leastMultiple_lt hpos
    omega
  · intro hleast
    have hle : value ≤ leastMultiple value alignment := le_leastMultiple hpos
    -- The sum may pass the multiple, but not the next one, which is `wordSize` at most.
    have hnext := add_le_wordSize halignment hword (leastMultiple_mod value alignment) hleast
    omega

theorem land_mask {x k : Nat} (hx : x < wordSize) (hk : k ≤ 64) :
    x &&& (wordSize - 2 ^ k) = x / 2 ^ k * 2 ^ k := by
  have hmask : wordSize - 2 ^ k = 2 ^ k * (2 ^ (64 - k) - 1) := by
    rw [wordSize_eq, Nat.mul_sub, ← Nat.pow_add, Nat.add_sub_cancel' hk, Nat.mul_one]
  apply Nat.eq_of_testBit_eq
  intro i
  rw [hmask, Nat.mul_comm (x / 2 ^ k), Nat.testBit_and, Nat.testBit_two_pow_mul,
    Nat.testBit_two_pow_mul, Nat.testBit_two_pow_sub_one, Nat.testBit_div_two_pow]
  by_cases hlow : i < k
  · simp [show ¬ k ≤ i by omega]
  · have hle : k ≤ i := by omega
    rw [Nat.sub_add_cancel hle]
    by_cases hhigh : i < 64
    · simp [hle, show i - k < 64 - k by omega]
    · have hbit : x.testBit i = false := by
        apply Nat.testBit_lt_two_pow
        calc
          x < 2 ^ 64 := hx
          _ ≤ 2 ^ i := Nat.pow_le_pow_right (by omega) (by omega)
      simp [hbit]

theorem alignUp_eq {value alignment : Nat} (halignment : alignment.isPowerOfTwo) :
    alignUp value alignment =
      if value + (alignment - 1) < wordSize then some (leastMultiple value alignment)
      else none := by
  unfold alignUp addWord?
  split
  case isFalse => rfl
  case isTrue hword =>
    obtain ⟨k, rfl⟩ := halignment
    have hk : k ≤ 64 := by
      apply Nat.le_of_not_lt
      intro hlarge
      have hpow : 2 ^ 65 ≤ 2 ^ k := Nat.pow_le_pow_right (by omega) hlarge
      rw [wordSize_eq] at hword
      omega
    rw [Option.map_some, land_mask hword hk, leastMultiple]

/-- The same on bit vectors: the mask is the complement of the low bits, and what is refused is a
carry out of the sum. -/
theorem alignUp_toNat {value alignment : BitVec 64} (hpos : 1 ≤ alignment) :
    alignUp value.toNat alignment.toNat =
      if value.uaddOverflow (alignment - 1) then none
      else some ((value + (alignment - 1)) &&& ~~~(alignment - 1)).toNat := by
  have hless : (alignment - 1).toNat = alignment.toNat - 1 := BitVec.toNat_sub_of_le hpos
  have hmask : (~~~(alignment - 1)).toNat = wordSize - alignment.toNat := by
    have hone : 1 ≤ alignment.toNat := hpos
    rw [BitVec.toNat_not, hless, wordSize_eq]
    omega
  have hcarry : value.uaddOverflow (alignment - 1) = true ↔
      ¬ value.toNat + (alignment.toNat - 1) < wordSize := by
    rw [BitVec.uaddOverflow, hless, decide_eq_true_iff, Nat.not_lt, wordSize_eq]
  unfold alignUp addWord?
  by_cases hsum : value.toNat + (alignment.toNat - 1) < wordSize
  · have hadd : (value + (alignment - 1)).toNat = value.toNat + (alignment.toNat - 1) := by
      rw [BitVec.toNat_add, hless]
      exact Nat.mod_eq_of_lt hsum
    have hfits : ¬ value.uaddOverflow (alignment - 1) = true := fun h => hcarry.mp h hsum
    rw [if_pos hsum, if_neg hfits, Option.map_some, BitVec.toNat_and, hadd, hmask]
  · rw [if_neg hsum, if_pos (hcarry.mpr hsum), Option.map_none]

/-- Rounding up to a power of two that is a word gives the least multiple of it that is not below
the value, and refuses just if that multiple is no word. -/
theorem alignUp_exact {k : Nat} (hk : k < 64) (value : Nat) :
    let alignment := 2 ^ k
    let least := leastMultiple value alignment
    IsLeast {multiple | multiple % alignment = 0 ∧ value ≤ multiple} least ∧
      least - value < alignment ∧
      alignUp value alignment = if least < wordSize then some least else none := by
  intro alignment least
  have hpower : alignment.isPowerOfTwo := ⟨k, rfl⟩
  have hpos : 0 < alignment := Nat.pos_of_isPowerOfTwo hpower
  have hword : alignment < wordSize := Nat.pow_lt_pow_right (by decide) hk
  refine ⟨isLeast_leastMultiple hpos, ?_, ?_⟩
  · have hlt : least < value + alignment := leastMultiple_lt hpos
    omega
  · rw [alignUp_eq hpower]
    exact if_congr (add_lt_wordSize_iff hpower hword) rfl rfl

/-- The largest alignment has one multiple above zero that is a word. The next one is the first
number that is no word, so that rounding up past the half is refused. -/
theorem alignUp_exact_of_largest_alignment :
    63 < 64 ∧ alignUp 1 (2 ^ 63) = some (2 ^ 63) ∧ 2 ^ 63 - 1 < 2 ^ 63 ∧
      IsLeast {multiple | multiple % 2 ^ 63 = 0 ∧ 2 ^ 63 + 1 ≤ multiple} wordSize ∧
      alignUp (2 ^ 63 + 1) (2 ^ 63) = none := by
  have hk : 63 < 64 := by decide
  have hhalf : leastMultiple 1 (2 ^ 63) = 2 ^ 63 := by decide
  have hend : leastMultiple (2 ^ 63 + 1) (2 ^ 63) = wordSize := by decide
  obtain ⟨_, hpadding, hbelow⟩ := alignUp_exact hk 1
  obtain ⟨hleast, _, habove⟩ := alignUp_exact hk (2 ^ 63 + 1)
  rw [hhalf] at hpadding
  rw [hhalf, if_pos (by decide)] at hbelow
  rw [hend] at hleast
  rw [hend, if_neg (Nat.lt_irrefl _)] at habove
  exact ⟨hk, hbelow, hpadding, hleast, habove⟩

namespace Header

theorem place?_eq_some_iff {start size alignment offset : Nat}
    (halignment : alignment.isPowerOfTwo) :
    place? start size alignment = some offset ↔
      offset = leastMultiple (start + headerSize) alignment ∧
        start + headerSize + (alignment - 1) < wordSize ∧ offset + size < wordSize := by
  unfold place?
  simp only [Option.bind_eq_bind, Option.bind_eq_some_iff, addWord?_eq_some_iff,
    alignUp_eq halignment, Option.pure_def, Option.some.injEq, Option.ite_none_right_eq_some]
  constructor
  · rintro ⟨_, ⟨rfl, _⟩, _, ⟨hround, rfl⟩, _, ⟨rfl, hend⟩, rfl⟩
    exact ⟨rfl, hround, hend⟩
  · rintro ⟨rfl, hround, hend⟩
    exact ⟨_, ⟨rfl, by omega⟩, _, ⟨hround, rfl⟩, _, ⟨rfl, hend⟩, rfl⟩

end Header

/-- Where a request stands in a block that it fits. -/
structure Block.Placed (block : Block) (size alignment offset : Nat) : Prop where
  offset_eq : offset = leastMultiple (block.offset + headerSize) alignment
  alignment_lt : alignment < wordSize
  stop_le : offset + size ≤ block.stop

theorem Block.placed_of_place? {block : Block} {size alignment offset : Nat}
    (halignment : alignment.isPowerOfTwo)
    (hplace : block.place? size alignment = some offset) :
    block.Placed size alignment offset := by
  rw [Block.place?, Option.filter_eq_some_iff, Header.place?_eq_some_iff halignment] at hplace
  obtain ⟨⟨hoffset, hround, _⟩, hstop⟩ := hplace
  refine ⟨hoffset, ?_, of_decide_eq_true hstop⟩
  rw [headerSize] at hround
  omega

namespace Block.Placed

variable {block : Block} {size alignment offset : Nat}

theorem aligned (hplaced : block.Placed size alignment offset) : offset % alignment = 0 := by
  rw [hplaced.offset_eq]
  exact leastMultiple_mod _ _

theorem start_le (hplaced : block.Placed size alignment offset)
    (halignment : alignment.isPowerOfTwo) : block.offset + headerSize ≤ offset := by
  rw [hplaced.offset_eq]
  exact le_leastMultiple (Nat.pos_of_isPowerOfTwo halignment)

theorem padding_lt (hplaced : block.Placed size alignment offset)
    (halignment : alignment.isPowerOfTwo) :
    offset - headerSize - block.offset < alignment := by
  have hpos := Nat.pos_of_isPowerOfTwo halignment
  have hlt : offset < block.offset + headerSize + alignment := by
    rw [hplaced.offset_eq]
    exact leastMultiple_lt hpos
  omega

end Block.Placed

/-- No rounding or sum leaves the range of machine words where the result would be a place in a block,
so what is placed nowhere fits nowhere. -/
theorem Block.place?_eq_none_iff {block : Block} {size alignment : Nat}
    (halignment : alignment.isPowerOfTwo) (hword : alignment < wordSize)
    (hstop : block.stop < wordSize) : block.place? size alignment = none ↔
      ∀ offset, ¬ block.Placed size alignment offset := by
  constructor
  · intro hnone offset hplaced
    have hend := hplaced.stop_le
    have hround : block.offset + headerSize + (alignment - 1) < wordSize := by
      rw [add_lt_wordSize_iff halignment hword, ← hplaced.offset_eq]
      omega
    rw [Block.place?, Option.filter_eq_none_iff] at hnone
    exact hnone offset ((Header.place?_eq_some_iff halignment).mpr
      ⟨hplaced.offset_eq, hround, by omega⟩) (decide_eq_true hend)
  · intro hnone
    rw [Option.eq_none_iff_forall_ne_some]
    intro offset hplace
    exact hnone offset (Block.placed_of_place? halignment hplace)

/-- Whether a request fits in a block, in numbers without a bound: it ends there if it starts at the
least multiple of its alignment that leaves room for a header. -/
def Block.Eligible (block : Block) (size alignment : Nat) : Prop :=
  leastMultiple (block.offset + headerSize) alignment + size ≤ block.stop

instance (block : Block) (size alignment : Nat) : Decidable (block.Eligible size alignment) :=
  inferInstanceAs (Decidable (_ ≤ _))

namespace Block.Eligible

variable {block other : Block} {size alignment smaller less : Nat}

theorem mono (heligible : block.Eligible size alignment) (hpos : 0 < alignment)
    (hle : smaller ≤ size) (hdvd : less ∣ alignment) : block.Eligible smaller less := by
  have hplace : leastMultiple (block.offset + headerSize) less ≤
      leastMultiple (block.offset + headerSize) alignment := leastMultiple_le_of_dvd hpos hdvd
  unfold Eligible at *
  omega

/-- Where the larger block starts decides the padding, but the place in the smaller one is in it. -/
theorem widen (heligible : block.Eligible size alignment) (hpos : 0 < alignment)
    (hstart : other.offset ≤ block.offset) (hstop : block.stop ≤ other.stop) :
    other.Eligible size alignment := by
  have hplace := leastMultiple_mono hpos (Nat.add_le_add_right hstart headerSize)
  unfold Eligible at *
  omega

theorem le_size (heligible : block.Eligible size alignment) (hpos : 0 < alignment) :
    headerSize + size ≤ block.size := by
  have hplace : block.offset + headerSize ≤ leastMultiple (block.offset + headerSize) alignment :=
    le_leastMultiple hpos
  rw [Eligible, Block.stop] at heligible
  omega

end Block.Eligible

/-- The search in machine words is exact for a block that ends at one. -/
theorem Block.place?_eq_some_iff {block : Block} {size alignment offset : Nat}
    (halignment : alignment.isPowerOfTwo) (hword : alignment < wordSize)
    (hstop : block.stop < wordSize) : block.place? size alignment = some offset ↔
      offset = leastMultiple (block.offset + headerSize) alignment ∧
        block.Eligible size alignment := by
  constructor
  · intro hplace
    have hplaced := Block.placed_of_place? halignment hplace
    obtain rfl := hplaced.offset_eq
    exact ⟨rfl, hplaced.stop_le⟩
  · rintro ⟨rfl, heligible⟩
    cases hplace : block.place? size alignment with
    | none =>
      rw [Block.place?_eq_none_iff halignment hword hstop] at hplace
      exact absurd ⟨rfl, hword, heligible⟩ (hplace _)
    | some offset => rw [(Block.placed_of_place? halignment hplace).offset_eq]

end HandleAlloc
