import Mathlib.Tactic.IntervalCases
import HandleAlloc.Proofs.Words
/-!
# Headers read at the wrong place

A handle that is shifted against a live one reads its header from words that straddle those of the
live header. Suppose that all of its words pass validation. Each place at which the words may end is
a case: in the first word of the live header (`Stored.not_in_start`), in the second
(`Stored.not_in_size`), in the last (`Stored.not_in_self`), which is impossible; and in the third,
which leaves a single pattern (`Stored.shadowed`). It takes an allocation of one byte at the
alignment 1, whose alignment is read as the offset of the handle, and whose own offset has to be
just the right one (`Shadowed`).
-/

namespace HandleAlloc

open Memory

section Straddle

variable {shift low high : Nat}

/-- Early in a word, what was stored behind it has to be zero there: the word read is small. -/
theorem straddle_early (hpos : 1 ≤ shift) (hle : shift ≤ 4)
    (hsmall : straddle shift low high < 2 ^ 32) :
    high % 256 ^ shift = 0 ∧ straddle shift low high = low / 256 ^ shift := by
  unfold straddle at *
  interval_cases shift <;> simp only [Nat.reduceSub, Nat.reducePow] at * <;> omega

theorem straddle_late (hle : 5 ≤ shift) (hlt : shift ≤ 7) (hlow : low < 2 ^ 32)
    (hhigh : high < 2 ^ 32) : straddle shift low high = high * 256 ^ (8 - shift) := by
  unfold straddle
  interval_cases shift <;> simp only [Nat.reduceSub, Nat.reducePow] at * <;> omega

theorem straddle_zero : straddle 0 low high = low := by
  rw [straddle, Nat.pow_zero, Nat.div_one, Nat.mod_one, Nat.zero_mul, Nat.add_zero]

end Straddle

/-- A header that is stored from a position on. Everything is small: the buffer is of at most
`2 ^ 32` bytes. -/
structure Stored (position : Nat) (header : Header) : Prop where
  power : header.alignment.isPowerOfTwo
  aligned : (position + headerSize) % header.alignment = 0
  start_le : header.start ≤ position
  padding_lt : position - header.start < header.alignment
  size_pos : 0 < header.size
  stop_le : position + headerSize + header.size ≤ 2 ^ 32

theorem le_two_of_mod_four {a n : Nat} (hpower : a.isPowerOfTwo) (hmod : n % a = 0)
    (hfour : n % 4 ≠ 0) : a ≤ 2 := by
  obtain ⟨k, rfl⟩ := hpower
  match k with
  | 0 => decide
  | 1 => decide
  | k + 2 =>
    have hdvd : 2 ^ 2 ∣ n := Nat.dvd_trans (Nat.pow_dvd_pow 2 (Nat.le_add_left 2 k))
      (Nat.dvd_of_mod_eq_zero hmod)
    omega

section Window

variable {limit x position shift before : Nat} {header : Header}

theorem Stored.alignment_le (hstored : Stored position header) :
    header.alignment ≤ position + headerSize := by
  apply Nat.le_of_dvd _ (Nat.dvd_of_mod_eq_zero hstored.aligned)
  rw [headerSize]
  omega

/-- A word that nothing is left of is a multiple of 256, and a header that far from one is hardly
aligned. -/
theorem Stored.alignment_le_two (hstored : Stored position header) {word words : Nat}
    (hword : word * 256 ^ (8 - shift) = x) (hplace : x = position + 8 * words + shift)
    (hle : 5 ≤ shift) (hlt : shift ≤ 7) : header.alignment ≤ 2 := by
  have hdvd : 256 ∣ x := hword ▸ Dvd.dvd.mul_left (dvd_pow_self 256 (by omega)) word
  apply le_two_of_mod_four hstored.power hstored.aligned
  rw [headerSize]
  omega

theorem Stored.not_in_start (hstored : Stored position header) (hx : headerSize ≤ x)
    (hplace : x = position + shift) (hpos : 1 ≤ shift) (hlt : shift ≤ 7)
    (hbefore : before ≤ position) : straddle shift before header.start ≠ x := by
  intro hself
  have hstop := hstored.stop_le
  have hstart := hstored.start_le
  have hpadding := hstored.padding_lt
  rw [headerSize] at *
  by_cases hearly : shift ≤ 4
  · have hsmall : straddle shift before header.start < 2 ^ 32 := by omega
    obtain ⟨_, hword⟩ := straddle_early hpos hearly hsmall
    have hle : before / 256 ^ shift ≤ before := Nat.div_le_self _ _
    omega
  · rw [straddle_late (by omega) hlt (by omega) (by omega)] at hself
    have htwo := hstored.alignment_le_two hself (show x = position + 8 * 0 + shift by omega)
      (by omega) hlt
    interval_cases shift <;> simp only [Nat.reduceSub, Nat.reducePow] at * <;> omega

theorem Stored.not_in_size (hstored : Stored position header) (hx : headerSize ≤ x)
    (hplace : x = position + 8 + shift) (hlt : shift ≤ 7) (hbefore : before ≤ position)
    (hdvd : straddle shift before header.start ∣ x) :
    straddle shift header.start header.size ≠ x := by
  intro hself
  have hstop := hstored.stop_le
  have hstart := hstored.start_le
  have hpadding := hstored.padding_lt
  have hle := Nat.le_of_dvd (by rw [headerSize] at hx; omega) hdvd
  rw [headerSize] at *
  by_cases hzero : shift = 0
  · rw [hzero, straddle_zero] at hself
    omega
  by_cases hearly : shift ≤ 4
  · have hsmall : straddle shift header.start header.size < 2 ^ 32 := by omega
    obtain ⟨_, hword⟩ := straddle_early (Nat.pos_of_ne_zero hzero) hearly hsmall
    have hdiv : header.start / 256 ^ shift ≤ header.start := Nat.div_le_self _ _
    omega
  · rw [straddle_late (by omega) hlt (by omega) (by omega)] at hself hle
    have htwo := hstored.alignment_le_two hself (show x = position + 8 * 1 + shift by omega)
      (by omega) hlt
    interval_cases shift <;> simp only [Nat.reduceSub, Nat.reducePow] at * <;> omega

theorem Stored.not_in_self (hstored : Stored position header) (hx : headerSize ≤ x)
    (hplace : x = position + 24 + shift) (hlt : shift ≤ 7) :
    straddle shift header.alignment (position + headerSize) ≠ x := by
  intro hself
  have hpos := hstored.size_pos
  have hstop := hstored.stop_le
  have hle := hstored.alignment_le
  have haligned := hstored.aligned
  rw [headerSize] at *
  by_cases hzero : shift = 0
  · rw [hzero, straddle_zero] at hself
    rw [hself, show position + 32 = x + 8 by omega, Nat.add_mod_left] at haligned
    rw [Nat.mod_eq_of_lt (by omega)] at haligned
    contradiction
  by_cases hearly : shift ≤ 4
  · have hsmall : straddle shift header.alignment (position + 32) < 2 ^ 32 := by omega
    obtain ⟨_, hword⟩ := straddle_early (Nat.pos_of_ne_zero hzero) hearly hsmall
    have hdiv : header.alignment / 256 ^ shift ≤ header.alignment / 256 :=
      Nat.div_le_div_left (Nat.le_self_pow hzero 256) (by decide)
    omega
  · rw [straddle_late (by omega) hlt (by omega) (by omega)] at hself
    interval_cases shift <;> simp only [Nat.reduceSub, Nat.reducePow] at * <;> omega

/-- What the word before a header holds: the end of the header of the allocation before, if that is
near, of which the low bytes of its own offset are cut off. -/
def Preceded (position start before : Nat) : Prop :=
  before = 0 ∨ ∃ gap, 1 ≤ gap ∧ gap ≤ 7 ∧ headerSize + gap ≤ position ∧ position < start + gap ∧
    before = (position - gap) / 256 ^ gap

theorem Preceded.le {start : Nat} (hpreceded : Preceded position start before) :
    before ≤ position := by
  obtain rfl | ⟨gap, _, _, _, _, rfl⟩ := hpreceded
  · exact Nat.zero_le _
  · exact Nat.le_trans (Nat.div_le_self _ _) (Nat.sub_le _ _)

/-- The header of one byte at the alignment 1 is mistaken for another one, that of `x`, which starts
`24 - digits` bytes before it: its alignment is read as the offset `x` and its size as an alignment,
both `digits` bytes too long, and so is its start as a size, which has to end within the limit. -/
structure Shadowed (limit x digits position : Nat) (header : Header) : Prop where
  digits_mem : digits = 1 ∨ digits = 2
  x_eq : x = 256 ^ digits
  position_eq : position = x + 8 + digits - headerSize
  header_eq : header = ⟨position, 1, 1, position + headerSize⟩
  stop_le : x + position * 256 ^ digits ≤ limit

theorem Shadowed.le_limit {digits : Nat} (hshadowed : Shadowed limit x digits position header) :
    59904 ≤ limit := by
  obtain ⟨hdigits, rfl, rfl, _, hstop⟩ := hshadowed
  rw [headerSize] at hstop
  obtain rfl | rfl := hdigits <;> omega

theorem Stored.not_at_size_end (hstored : Stored position header) (hplace : x = position + 16)
    (hpreceded : Preceded position header.start before) (hdvd : header.start ∣ x)
    (hsize : before ≠ 0) : False := by
  have hstart := hstored.start_le
  obtain hzero | ⟨gap, _, _, hroom, hgap, _⟩ := hpreceded
  · exact hsize hzero
  · obtain ⟨count, hcount⟩ := hdvd
    rw [headerSize] at hroom
    have htwo : 2 ≤ count := by
      apply Nat.le_of_not_lt
      intro hlt
      obtain rfl | rfl : count = 0 ∨ count = 1 := by omega
      · omega
      · omega
    have hdouble := Nat.mul_le_mul_left header.start htwo
    omega

theorem Stored.not_early_in_alignment (hstored : Stored position header) (hpos : 1 ≤ shift)
    (hpreceded : Preceded position header.start before)
    (hread : header.alignment % 256 ^ shift = 0) (hstart : header.start % 256 ^ shift = 0)
    (hsize : before / 256 ^ shift ≠ 0) : False := by
  have hstartLe := hstored.start_le
  have h256 : 256 ∣ 256 ^ shift := Dvd.intro_left _ (Nat.pow_pred_mul hpos)
  have halignment := Nat.dvd_trans h256 (Nat.dvd_of_mod_eq_zero hread)
  have hposition := Nat.dvd_trans halignment (Nat.dvd_of_mod_eq_zero hstored.aligned)
  have hstart := Nat.dvd_trans h256 (Nat.dvd_of_mod_eq_zero hstart)
  obtain rfl | ⟨gap, _, _, hroom, hgap, _⟩ := hpreceded
  · exact hsize (Nat.zero_div _)
  · rw [headerSize] at *
    omega

theorem Stored.late_in_alignment (hstored : Stored position header)
    (hself : header.selfOffset = position + headerSize) (hle : 5 ≤ shift) (hlt : shift ≤ 7)
    (hplace : x = position + 16 + shift) (hread : header.alignment * 256 ^ (8 - shift) = x)
    (hdvd : header.size * 256 ^ (8 - shift) ∣ x)
    (hstop : x + header.start * 256 ^ (8 - shift) ≤ limit) (hlimit : limit ≤ 2 ^ 32) :
    Shadowed limit x (8 - shift) position header := by
  have hpos := hstored.size_pos
  have hstart := hstored.start_le
  have hpadding := hstored.padding_lt
  have haligned := hstored.aligned
  have halignment := Nat.pos_of_isPowerOfTwo hstored.power
  have htwo := hstored.alignment_le_two hread (show x = position + 8 * 2 + shift by omega) hle hlt
  have hsize : header.size ≤ header.alignment := by
    rw [← hread] at hdvd
    have hscale : 0 < 256 ^ (8 - shift) := Nat.pow_pos (by decide)
    exact Nat.le_of_dvd halignment (Nat.dvd_of_mul_dvd_mul_right hscale hdvd)
  rw [headerSize] at *
  -- Of the six cases left four are too long for the buffer or not aligned.
  have hone : header.alignment = 1 := by
    by_contra hne
    have heq : header.alignment = 2 := by omega
    rw [heq] at hread haligned hpadding
    interval_cases shift <;> simp only [Nat.reduceSub, Nat.reducePow] at * <;> omega
  rw [hone] at hread hsize hpadding
  have hposition : header.start = position := by omega
  have hbyte : header.size = 1 := by omega
  have hsix : 6 ≤ shift := by
    by_contra hne
    obtain rfl : shift = 5 := by omega
    simp only [Nat.reduceSub, Nat.reducePow] at hread hstop
    omega
  refine ⟨by omega, by rw [← hread, Nat.one_mul], by rw [headerSize]; omega, ?_, hposition ▸ hstop⟩
  rw [headerSize, ← hself]
  cases header
  simp_all

theorem Stored.shadowed (hstored : Stored position header)
    (hself : header.selfOffset = position + headerSize) (hx : headerSize ≤ x)
    (hplace : x = position + 16 + shift) (hlt : shift ≤ 7)
    (hpreceded : Preceded position header.start before)
    (hread : straddle shift header.size header.alignment = x)
    (hdvd : straddle shift header.start header.size ∣ x)
    (hsize : straddle shift before header.start ≠ 0)
    (hstop : x + straddle shift before header.start ≤ limit) (hlimit : limit ≤ 2 ^ 32) :
    Shadowed limit x (8 - shift) position header := by
  have hend := hstored.stop_le
  have hstart := hstored.start_le
  have hle := hstored.alignment_le
  have hpos := hstored.size_pos
  have hbefore := hpreceded.le
  have hdvdLe := Nat.le_of_dvd (by rw [headerSize] at hx; omega) hdvd
  by_cases hzero : shift = 0
  · rw [hzero, straddle_zero] at hdvd hsize
    exact (hstored.not_at_size_end (by omega) hpreceded hdvd hsize).elim
  have hone := Nat.pos_of_ne_zero hzero
  rw [headerSize] at hx hend hle
  by_cases hearly : shift ≤ 4
  · have hsmall : straddle shift header.size header.alignment < 2 ^ 32 := by omega
    have halignment := straddle_early hone hearly hsmall
    have hsizeSmall : straddle shift before header.start < 2 ^ 32 := by omega
    have hword := straddle_early hone hearly hsizeSmall
    rw [hword.2] at hsize
    exact (hstored.not_early_in_alignment hone hpreceded halignment.1 hword.1 hsize).elim
  · have hfive : 5 ≤ shift := by omega
    rw [straddle_late hfive hlt (by omega) (by omega)] at hread hdvd hstop
    exact hstored.late_in_alignment hself hfive hlt hplace hread hdvd hstop hlimit

end Window

section Spells

variable {memory : ByteArray} {limit x position digits : Nat} {header read : Header}

/-- A genuine header that ends within a stored one makes a shadow. -/
theorem Spells.shadowed (hread : Spells memory (x - headerSize) read)
    (hspells : Spells memory position header) (hstored : Stored position header)
    (hself : header.selfOffset = position + headerSize)
    (hpreceded : 8 ≤ position → Preceded position header.start (number memory (position - 8) 8))
    (hgenuine : read.isGenuine x = true) (hx : headerSize ≤ x) (hstop : x + read.size ≤ limit)
    (hlimit : limit ≤ 2 ^ 32) (hafter : position < x) (hbefore : x < position + headerSize) :
    ∃ digits, Shadowed limit x digits position header := by
  obtain ⟨hselfRead, hsize, haligned⟩ := Header.isGenuine_iff.mp hgenuine
  have hdvd := Nat.dvd_of_mod_eq_zero haligned
  have hx' := hx
  rw [headerSize] at hx' hbefore
  -- The words that are read start `shift` bytes into words of the memory.
  obtain ⟨shift, hlt, hplace⟩ : ∃ shift ≤ 7, x = position + shift ∨ x = position + 8 + shift ∨
      x = position + 16 + shift ∨ x = position + 24 + shift :=
    ⟨(x - position) % 8, by omega, by omega⟩
  have hword {place low : Nat} (hplace : place = low + shift) : number memory place 8 =
      straddle shift (number memory low 8) (number memory (low + 8) 8) := by
    rw [hplace, number_straddle (by omega)]
  have hbeforeWord {place : Nat} (hposition : 8 ≤ position)
      (hplace : place = position - 8 + shift) : number memory place 8 =
        straddle shift (number memory (position - 8) 8) header.start := by
    rw [hword hplace, Nat.sub_add_cancel hposition, hspells.start_eq]
  have hstartWord {place : Nat} (hplace : place = position + shift) :
      number memory place 8 = straddle shift header.start header.size := by
    rw [hword hplace, hspells.start_eq, hspells.size_eq]
  rw [← hread.selfOffset_eq] at hselfRead
  rw [← hread.alignment_eq] at hdvd
  rw [← hread.size_eq] at hsize hstop
  rw [headerSize] at hselfRead hdvd hsize hstop
  obtain hplace | hplace | hplace | hplace := hplace
  · rw [hbeforeWord (by omega) (by omega)] at hselfRead
    exact absurd hselfRead
      (hstored.not_in_start hx hplace (by omega) hlt (hpreceded (by omega)).le)
  · rw [hstartWord (by omega)] at hselfRead
    rw [hbeforeWord (by omega) (by omega)] at hdvd
    exact absurd hselfRead (hstored.not_in_size hx hplace hlt (hpreceded (by omega)).le hdvd)
  · rw [hword (show x - 32 + 24 = position + 8 + shift by omega), hspells.size_eq,
      hspells.alignment_eq] at hselfRead
    rw [hstartWord (by omega)] at hdvd
    rw [hbeforeWord (by omega) (by omega)] at hsize hstop
    exact ⟨8 - shift, hstored.shadowed hself hx hplace hlt (hpreceded (by omega)) hselfRead hdvd
      hsize hstop hlimit⟩
  · rw [hword (show x - 32 + 24 = position + 16 + shift by omega), hspells.alignment_eq,
      hspells.selfOffset_eq, hself] at hselfRead
    exact absurd hselfRead (hstored.not_in_self hx hplace hlt)

/-- What a shadow reads. Of the word before the stored header nothing is left in the size. -/
theorem Spells.of_shadowed (hspells : Spells memory position header)
    (hshadowed : Shadowed limit x digits position header)
    (hbefore : number memory (position - 8) 8 < 2 ^ 32) :
    Spells memory (x - headerSize)
      ⟨number memory (x - headerSize) 8, position * 256 ^ digits, x, x⟩ := by
  obtain ⟨hdigits, hx, hposition, rfl, _⟩ := hshadowed
  obtain ⟨hstart, hsize, halignment, _⟩ := hspells
  have hlarge : x = 256 ∨ x = 65536 := by
    obtain rfl | rfl := hdigits <;> omega
  simp only at hstart hsize halignment
  rw [show position + 16 = position + 8 + 8 from rfl] at halignment
  rw [headerSize] at *
  have hcancel : position - 8 + 8 = position := by omega
  have hword (low : Nat) {place : Nat} (hplace : place + digits = low + 8)
      (hlow : number memory low 8 < 2 ^ 32) (hhigh : number memory (low + 8) 8 < 2 ^ 32) :
      number memory place 8 = number memory (low + 8) 8 * 256 ^ digits := by
    rw [show place = low + (8 - digits) by omega, number_straddle (by omega),
      straddle_late (by omega) (by omega) hlow hhigh, show 8 - (8 - digits) = digits by omega]
  refine ⟨rfl, ?_, ?_, ?_⟩
  · rw [hword (position - 8) (by omega) hbefore (by rw [hcancel, hstart]; omega), hcancel, hstart]
  · rw [hword position (by omega) (by omega) (by omega), hsize, hx, Nat.one_mul]
  · rw [hword (position + 8) (by omega) (by omega) (by omega), halignment, hx, Nat.one_mul]

end Spells

end HandleAlloc
