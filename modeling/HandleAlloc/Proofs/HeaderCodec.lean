import HandleAlloc.Proofs.Words
/-!
# Headers as bytes

A header stands in the 32 bytes before an offset as four words, the low byte of each first
(`Spells`). What is written there is read back, and whatever stands there is read as a header only
if the region it describes lies within the page (`Acceptable`). The limits are compared in unbounded
integers here: no size that is read makes the sum of offset and size wrap around
(`codec_exact`).
-/

namespace HandleAlloc

namespace Header

/-- What is asked of a header before `offset` in a page of `length` bytes: there is room for it,
the allocation starts before it and ends within the page, and its alignment is a power of two. With
validation it holds its own offset, which is aligned, and some bytes. -/
structure Acceptable (header : Header) (offset length : Nat) (validate : Bool) : Prop where
  room : headerSize ≤ offset ∧ offset ≤ length
  start_le : header.start ≤ offset - headerSize
  stop_le : offset + header.size ≤ length
  power : header.alignment.isPowerOfTwo
  genuine : validate = true →
    header.selfOffset = offset ∧ 0 < header.size ∧ offset % header.alignment = 0

section Codec

variable {page : ByteArray} {header other : Header} {offset length : Nat} {validate : Bool}

theorem Acceptable.of_validate (hacceptable : header.Acceptable offset length true) :
    header.Acceptable offset length validate :=
  { hacceptable with genuine := fun _ => hacceptable.genuine rfl }

/-- The checks compute in machine words, and ask what they would ask in unbounded integers. -/
theorem acceptable_iff (hlength : length < wordSize) : header.Acceptable offset length validate ↔
    (headerSize ≤ offset ∧ offset ≤ length) ∧ header.describesRegion offset length = true ∧
      (validate = true → header.isGenuine offset = true) := by
  rw [describesRegion_iff, isGenuine_iff]
  constructor
  · intro hacceptable
    have hstop := hacceptable.stop_le
    refine ⟨hacceptable.room,
      ⟨hacceptable.power, hacceptable.start_le, Nat.lt_of_le_of_lt hstop hlength, hstop⟩, ?_⟩
    intro hvalidate
    obtain ⟨hself, hpos, haligned⟩ := hacceptable.genuine hvalidate
    exact ⟨hself, Nat.ne_of_gt hpos, haligned⟩
  · rintro ⟨hroom, ⟨hpower, hstart, _, hstop⟩, hgenuine⟩
    refine ⟨hroom, hstart, hstop, hpower, ?_⟩
    intro hvalidate
    obtain ⟨hself, hpos, haligned⟩ := hgenuine hvalidate
    exact ⟨hself, Nat.pos_of_ne_zero hpos, haligned⟩

theorem read?_eq_some_iff_spells (hpage : page.size < wordSize) :
    read? page offset validate = some header ↔
      header.Acceptable offset page.size validate ∧ Spells page (offset - headerSize) header := by
  rw [read?_eq_some_iff, acceptable_iff hpage]
  constructor
  · rintro ⟨hroom, hdecode, hregion, hgenuine⟩
    exact ⟨⟨hroom, hregion, hgenuine⟩, (decode_extract_eq_iff hroom.1 hroom.2).mp hdecode⟩
  · rintro ⟨⟨hroom, hregion, hgenuine⟩, hspells⟩
    exact ⟨hroom, (decode_extract_eq_iff hroom.1 hroom.2).mpr hspells, hregion, hgenuine⟩

theorem spells_store (hoffset : headerSize ≤ offset) (hsize : offset ≤ page.size)
    (hwords : header.InWords) : Spells (store page offset header) (offset - headerSize) header := by
  rw [← decode_extract_eq_iff hoffset (size_store.symm ▸ hsize), extract_store hoffset hsize,
    decode_encode hwords]

theorem eq_of_spells (hspells : Spells page offset header) (hother : Spells page offset other) :
    other = header := by
  cases header
  cases other
  rw [mk.injEq]
  exact ⟨hother.start_eq.symm.trans hspells.start_eq, hother.size_eq.symm.trans hspells.size_eq,
    hother.alignment_eq.symm.trans hspells.alignment_eq,
    hother.selfOffset_eq.symm.trans hspells.selfOffset_eq⟩

theorem read?_store_eq_some_iff (hpage : page.size < wordSize) (hoffset : headerSize ≤ offset)
    (hsize : offset ≤ page.size) (hwords : header.InWords) :
    read? (store page offset header) offset validate = some other ↔
      other = header ∧ header.Acceptable offset page.size validate := by
  have hspells := spells_store hoffset hsize hwords
  rw [read?_eq_some_iff_spells (size_store.symm ▸ hpage), size_store]
  constructor
  · rintro ⟨hacceptable, hother⟩
    obtain rfl := eq_of_spells hspells hother
    exact ⟨rfl, hacceptable⟩
  · rintro ⟨rfl, hacceptable⟩
    exact ⟨hacceptable, hspells⟩

/-- Reading and writing headers, on any page. What is read is what the four words before the offset
spell, provided it is acceptable. A header that is written changes no byte but those of the four
words, which then spell it, and is read back just if it is acceptable. Where a header is wiped none
is read, and what is read with validation is read without it. -/
theorem codec_exact (hpage : page.size < wordSize) :
    (∀ offset validate header, read? page offset validate = some header ↔
      header.Acceptable offset page.size validate ∧ Spells page (offset - headerSize) header) ∧
    (∀ offset header, headerSize ≤ offset → offset ≤ page.size → header.InWords →
      let stored := store page offset header
      stored.size = page.size ∧
        (∀ i ∉ interval (offset - headerSize) offset, stored[i]? = page[i]?) ∧
        Spells stored (offset - headerSize) header ∧
        ∀ validate other, read? stored offset validate = some other ↔
          other = header ∧ header.Acceptable offset page.size validate) ∧
    (∀ offset validate, headerSize ≤ offset → offset ≤ page.size →
      let wiped := clear page offset
      (∀ i ∉ interval (offset - headerSize) offset, wiped[i]? = page[i]?) ∧
        read? wiped offset validate = none) ∧
    ∀ offset header, read? page offset true = some header →
      read? page offset false = some header := by
  refine ⟨fun _ _ _ => read?_eq_some_iff_spells hpage, ?_, ?_, ?_⟩
  · intro offset header hoffset hsize hwords
    exact ⟨size_store, fun _ => getElem?_store_of_notMem hoffset,
      spells_store hoffset hsize hwords,
      fun _ _ => read?_store_eq_some_iff hpage hoffset hsize hwords⟩
  · intro offset validate hoffset _
    exact ⟨fun _ => getElem?_clear_of_notMem hoffset, read?_clear⟩
  · intro offset header hread
    obtain ⟨hacceptable, hspells⟩ := (read?_eq_some_iff_spells hpage).mp hread
    exact (read?_eq_some_iff_spells hpage).mpr ⟨hacceptable.of_validate, hspells⟩

/-- A header at an odd offset, of an allocation that ends where the page does, and one with a size
that would make the end wrap around. -/
theorem codec_exact_of_odd_offset :
    let page := Memory.zeros 96
    let header : Header := ⟨5, 35, 1, 61⟩
    let wrapping : Header := ⟨5, wordSize - 1, 1, 61⟩
    page.size < wordSize ∧ headerSize ≤ 61 ∧ 61 ≤ page.size ∧ header.InWords ∧ wrapping.InWords ∧
      read? (store page 61 header) 61 true = some header ∧
      read? (store page 61 header) 61 false = some header ∧
      read? (store page 61 wrapping) 61 false = none := by
  intro page header wrapping
  have hsize : page.size = 96 := Memory.size_zeros 96
  have hpage : page.size < wordSize := by rw [hsize]; decide
  have hoffset : headerSize ≤ 61 := by decide
  have hroom : 61 ≤ page.size := by rw [hsize]; decide
  have hwords : header.InWords := by simp [InWords, words, header, wordSize]
  have hwrapping : wrapping.InWords := by simp [InWords, words, wrapping, wordSize]
  have hacceptable : header.Acceptable 61 page.size true := by
    rw [hsize]
    exact ⟨by decide, by decide, by decide, ⟨0, rfl⟩, fun _ => by decide⟩
  have hexact := (codec_exact hpage).2.1 61
  obtain ⟨_, _, _, hread⟩ := hexact header hoffset hroom hwords
  obtain ⟨_, _, _, hrefused⟩ := hexact wrapping hoffset hroom hwrapping
  refine ⟨hpage, hoffset, hroom, hwords, hwrapping, (hread true header).mpr ⟨rfl, hacceptable⟩,
    (hread false header).mpr ⟨rfl, hacceptable.of_validate⟩, ?_⟩
  rw [Option.eq_none_iff_forall_ne_some]
  intro other hother
  have hstop := ((hrefused false other).mp hother).2.stop_le
  rw [hsize] at hstop
  exact absurd hstop (by decide)

end Codec

end Header

end HandleAlloc
