import HandleAlloc.Proofs.FreeList.Canonical
/-!
# Headers in memory

What reading a header says about the page it is read from (`Header.read?_eq_some_iff`), and what
the writes of a header change: the 32 bytes before the offset and no others. A stored header reads
back if it is acceptable (`Header.read?_store`), and goes on to do so as long as its bytes stay
(`Header.read?_congr`).
-/

namespace HandleAlloc

namespace Memory

variable {memory other data : ByteArray} {start stop position i : Nat}

theorem getElem?_zeros (length i : Nat) :
    (zeros length)[i]? = if i < length then some 0 else none := by
  have hdata : (zeros length)[i]? = (Array.replicate length (0 : UInt8))[i]? := by
    rw [← data_constant]
    rfl
  rw [hdata, Array.getElem?_replicate]

theorem ext_getElem? (hbytes : ∀ i : Nat, memory[i]? = other[i]?) : memory = other :=
  ByteArray.ext (Array.ext_getElem? hbytes)

theorem extract_congr (hsize : memory.size = other.size)
    (hbytes : ∀ i ∈ interval start stop, memory[i]? = other[i]?) :
    memory.extract start stop = other.extract start stop := by
  apply ByteArray.ext_getElem
  · rw [ByteArray.size_extract, ByteArray.size_extract, hsize]
  · intro i hi hi'
    rw [ByteArray.size_extract] at hi hi'
    have hsame := hbytes (start + i) (mem_interval.mpr ⟨by omega, by omega⟩)
    rw [getElem?_pos memory (start + i) (by omega), getElem?_pos other (start + i) (by omega),
      Option.some.injEq] at hsame
    rw [ByteArray.getElem_extract, ByteArray.getElem_extract, hsame]

theorem extract_write (hfits : position + data.size ≤ memory.size) :
    (write memory position data).extract position (position + data.size) = data := by
  apply ByteArray.ext_getElem
  · rw [ByteArray.size_extract, size_write]
    omega
  · intro i hi hi'
    have hwritten := getElem?_write hfits (position + i)
    rw [if_pos ⟨by omega, by omega⟩, Nat.add_sub_cancel_left, getElem?_pos data i hi',
      getElem?_pos _ _ (by rw [size_write]; omega), Option.some.injEq] at hwritten
    rw [ByteArray.getElem_extract, hwritten]

theorem getElem?_write_of_notMem (houtside : i ∉ interval position (position + data.size)) :
    (write memory position data)[i]? = memory[i]? := by
  rw [mem_interval] at houtside
  by_cases hfits : position + data.size ≤ memory.size
  · rw [getElem?_write hfits, if_neg houtside]
  · rw [write, if_neg hfits]

theorem getElem?_write_congr (hsize : memory.size = other.size) (hbyte : memory[i]? = other[i]?) :
    (write memory position data)[i]? = (write other position data)[i]? := by
  by_cases hfits : position + data.size ≤ memory.size
  · rw [getElem?_write hfits, getElem?_write (hsize ▸ hfits), hbyte]
  · rw [write, write, if_neg hfits, if_neg (hsize ▸ hfits), hbyte]

theorem write_comm {later : ByteArray} {place : Nat}
    (hapart : position + data.size ≤ place ∨ place + later.size ≤ position) :
    write (write memory position data) place later =
      write (write memory place later) position data := by
  apply ext_getElem?
  intro i
  by_cases hlater : i ∈ interval place (place + later.size)
  · have hfirst : i ∉ interval position (position + data.size) := by
      rw [mem_interval] at hlater ⊢
      omega
    rw [getElem?_write_of_notMem hfirst]
    exact getElem?_write_congr (size_write ..) (getElem?_write_of_notMem hfirst)
  · rw [getElem?_write_of_notMem hlater]
    exact (getElem?_write_congr (size_write ..) (getElem?_write_of_notMem hlater)).symm

/-- A copy within the memory puts the bytes as they were before at their new place, also where the two
places overlap. -/
theorem getElem?_write_extract {target count : Nat} (hsource : start + count ≤ memory.size)
    (htarget : target + count ≤ memory.size) (hi : i < count) :
    (write memory target (memory.extract start (start + count)))[target + i]? =
      memory[start + i]? := by
  have hsize : (memory.extract start (start + count)).size = count := by
    rw [ByteArray.size_extract]
    omega
  rw [getElem?_write (by rwa [hsize]), hsize, if_pos (by omega), Nat.add_sub_cancel_left,
    getElem?_pos _ _ (by rwa [hsize]), getElem?_pos _ _ (by omega), ByteArray.getElem_extract]

end Memory

namespace Header

variable {page other : ByteArray} {header : Header} {offset length i : Nat} {validate : Bool}

/-- The positions that an allocation owns whose usable bytes start at `offset`: its padding, its
header and its usable bytes. -/
def bytes (header : Header) (offset : Nat) : List Nat :=
  interval header.start (offset + header.size)

@[simp] theorem mem_bytes : i ∈ header.bytes offset ↔
    header.start ≤ i ∧ i < offset + header.size := mem_interval

theorem describesRegion_iff : header.describesRegion offset length = true ↔
    header.alignment.isPowerOfTwo ∧ header.start ≤ offset - headerSize ∧
      offset + header.size < wordSize ∧ offset + header.size ≤ length := by
  rw [describesRegion, Bool.and_eq_true, Bool.and_eq_true, decide_eq_true_iff,
    decide_eq_true_iff, and_assoc, addWord?]
  split <;> simp [*]

theorem isGenuine_iff : header.isGenuine offset = true ↔
    header.selfOffset = offset ∧ header.size ≠ 0 ∧ offset % header.alignment = 0 := by
  simp [isGenuine, and_assoc]

/-- Reading a header: its bytes lie in the page and describe a region of it, and with validation
it is genuine. -/
theorem read?_eq_some_iff : read? page offset validate = some header ↔
    (headerSize ≤ offset ∧ offset ≤ page.size) ∧
      decode (page.extract (offset - headerSize) offset) = header ∧
      header.describesRegion offset page.size = true ∧
      (validate = true → header.isGenuine offset = true) := by
  unfold read?
  split
  case isFalse hrange => simp [hrange]
  case isTrue hrange =>
    simp only [Option.ite_none_right_eq_some, Option.some.injEq, Bool.and_eq_true,
      Bool.or_eq_true, Bool.not_eq_true']
    constructor
    · rintro ⟨⟨hregion, hgenuine⟩, rfl⟩
      refine ⟨hrange, rfl, hregion, fun hvalidate => hgenuine.resolve_left ?_⟩
      simp [hvalidate]
    · rintro ⟨_, rfl, hregion, hgenuine⟩
      refine ⟨⟨hregion, ?_⟩, rfl⟩
      cases validate with
      | false => exact Or.inl rfl
      | true => exact Or.inr (hgenuine rfl)

theorem encode_decode {bytes : ByteArray} (hsize : bytes.size = headerSize) :
    (decode bytes).encode = bytes := by
  have hlength : bytes.data.toList.length = 32 := hsize
  have hword (position : Nat) (hle : position + 8 ≤ 32) :
      LittleEndian.encode 8 (LittleEndian.decode ((bytes.data.toList.drop position).take 8)) =
        (bytes.data.toList.drop position).take 8 := by
    have hround := LittleEndian.encode_decode ((bytes.data.toList.drop position).take 8)
    rwa [List.length_take, List.length_drop, hlength, Nat.min_eq_left (by omega)] at hround
  have hsplit (position : Nat) : bytes.data.toList.drop position =
      (bytes.data.toList.drop position).take 8 ++ bytes.data.toList.drop (position + 8) := by
    rw [← List.drop_drop, List.take_append_drop]
  have hrest : bytes.data.toList.drop 32 = [] := List.drop_eq_nil_of_le (Nat.le_of_eq hlength)
  apply ByteArray.ext
  apply Array.ext'
  rw [decode_eq, encode]
  simp only [words, List.flatMap_cons, List.flatMap_nil, List.append_nil, hword 0 (by omega),
    hword 8 (by omega), hword 16 (by omega), hword 24 (by omega)]
  calc
    _ = bytes.data.toList.drop 0 := by
      conv => rhs; rw [hsplit 0, hsplit 8, hsplit 16, hsplit 24, hrest, List.append_nil]
    _ = bytes.data.toList := List.drop_zero

theorem extract_eq_encode (hread : read? page offset validate = some header) :
    page.extract (offset - headerSize) offset = header.encode := by
  obtain ⟨hrange, rfl, _⟩ := read?_eq_some_iff.mp hread
  rw [encode_decode]
  rw [ByteArray.size_extract]
  omega

theorem eq_of_read? (hpage : read? page offset validate = some header)
    (hother : read? other offset validate = some header)
    (hframe : ∀ i ∉ interval (offset - headerSize) offset, page[i]? = other[i]?) : page = other := by
  apply Memory.ext_getElem?
  intro i
  by_cases hi : i ∈ interval (offset - headerSize) offset
  · have hsame := (extract_eq_encode hpage).trans (extract_eq_encode hother).symm
    have hrange := (read?_eq_some_iff.mp hpage).1
    have hrange' := (read?_eq_some_iff.mp hother).1
    obtain ⟨j, rfl⟩ := Nat.exists_eq_add_of_le (mem_interval.mp hi).1
    rw [mem_interval] at hi
    have hbyte : (page.extract (offset - headerSize) offset)[j]? =
        (other.extract (offset - headerSize) offset)[j]? := by rw [hsame]
    rw [getElem?_pos _ _ (by rw [ByteArray.size_extract]; omega),
      getElem?_pos _ _ (by rw [ByteArray.size_extract]; omega), ByteArray.getElem_extract,
      ByteArray.getElem_extract] at hbyte
    rw [getElem?_pos _ _ (by omega), getElem?_pos _ _ (by omega), hbyte]
  · exact hframe i hi

theorem read?_congr (hsize : page.size = other.size)
    (hbytes : ∀ i ∈ interval (offset - headerSize) offset, page[i]? = other[i]?) :
    read? page offset validate = read? other offset validate := by
  unfold read?
  rw [Memory.extract_congr hsize hbytes, hsize]

@[simp] theorem size_store : (store page offset header).size = page.size :=
  Memory.size_write ..

@[simp] theorem size_clear : (clear page offset).size = page.size :=
  Memory.size_write ..

theorem getElem?_store_of_notMem (hoffset : headerSize ≤ offset)
    (houtside : i ∉ interval (offset - headerSize) offset) :
    (store page offset header)[i]? = page[i]? := by
  apply Memory.getElem?_write_of_notMem
  rwa [size_encode, Nat.sub_add_cancel hoffset]

theorem getElem?_clear_of_notMem (hoffset : headerSize ≤ offset)
    (houtside : i ∉ interval (offset - headerSize) offset) :
    (clear page offset)[i]? = page[i]? := by
  apply Memory.getElem?_write_of_notMem
  rwa [Memory.size_zeros, Nat.sub_add_cancel hoffset]

theorem extract_store (hoffset : headerSize ≤ offset) (hsize : offset ≤ page.size) :
    (store page offset header).extract (offset - headerSize) offset = header.encode := by
  have hfits : offset - headerSize + header.encode.size ≤ page.size := by
    rwa [size_encode, Nat.sub_add_cancel hoffset]
  have hwrite := Memory.extract_write hfits
  rwa [size_encode, Nat.sub_add_cancel hoffset] at hwrite

theorem store_write (hoffset : headerSize ≤ offset) (page data : ByteArray) (header : Header) :
    store (Memory.write page offset data) offset header =
      Memory.write (store page offset header) offset data := by
  unfold store
  apply Memory.write_comm
  rw [size_encode]
  omega

theorem getElem?_clear (page : ByteArray) (offset i : Nat) : (clear page offset)[i]? =
    if offset - headerSize + headerSize ≤ page.size ∧ offset - headerSize ≤ i ∧
      i < offset - headerSize + headerSize then some 0 else page[i]? := by
  have hsize := Memory.size_zeros headerSize
  rw [clear]
  by_cases hfits : offset - headerSize + headerSize ≤ page.size
  · rw [Memory.getElem?_write (by rwa [hsize]), hsize, Memory.getElem?_zeros]
    by_cases hinside : offset - headerSize ≤ i ∧ i < offset - headerSize + headerSize
    · rw [if_pos hinside, if_pos (by omega), if_pos ⟨hfits, hinside⟩]
    · rw [if_neg hinside, if_neg fun h => hinside h.2]
  · rw [Memory.write, if_neg (by rwa [hsize]), if_neg fun h => hfits h.1]

theorem extract_clear (hoffset : headerSize ≤ offset) (stop : Nat) :
    (clear page offset).extract offset stop = page.extract offset stop := by
  apply Memory.extract_congr size_clear
  intro i hi
  apply getElem?_clear_of_notMem hoffset
  rw [mem_interval] at hi ⊢
  omega

theorem clear_comm (page : ByteArray) (a b : Nat) :
    clear (clear page a) b = clear (clear page b) a := by
  apply Memory.ext_getElem?
  intro i
  simp only [getElem?_clear, size_clear]
  grind

/-- A header of machine words whose allocation, with its usable bytes at `offset`, lies within
`length` bytes. -/
structure Within (header : Header) (offset length : Nat) : Prop where
  inWords : header.InWords
  start_le : header.start + headerSize ≤ offset
  stop_le : offset + header.size ≤ length
  power : header.alignment.isPowerOfTwo

theorem Within.start_lt (hwithin : header.Within offset length) :
    header.start < offset + header.size := by
  have hstart := hwithin.start_le
  rw [headerSize] at hstart
  omega

theorem Within.alignment_lt (hwithin : header.Within offset length) :
    header.alignment < wordSize :=
  hwithin.inWords _ (by simp [words])

theorem Within.range (hwithin : header.Within offset length) :
    headerSize ≤ offset ∧ offset ≤ length := by
  have hstart := hwithin.start_le
  have hstop := hwithin.stop_le
  omega

theorem Within.resize (hwithin : header.Within offset length) {size : Nat}
    (hstop : offset + size ≤ length) (hword : size < wordSize) :
    Within { header with size } offset length := by
  refine ⟨?_, hwithin.start_le, hstop, hwithin.power⟩
  have hwords := hwithin.inWords
  simp only [InWords, words, List.forall_mem_cons, List.not_mem_nil, false_imp_iff, implies_true,
    and_true] at hwords ⊢
  omega

theorem within_of_read? (hread : read? page offset validate = some header) :
    header.Within offset page.size := by
  obtain ⟨⟨hoffset, _⟩, hdecode, hregion, _⟩ := read?_eq_some_iff.mp hread
  obtain ⟨hpower, hstart, _, hstop⟩ := describesRegion_iff.mp hregion
  exact ⟨hdecode ▸ inWords_decode _, by omega, hstop, hpower⟩

theorem isGenuine_of_read? (hread : read? page offset validate = some header)
    (hvalidate : validate = true) : header.isGenuine offset = true :=
  (read?_eq_some_iff.mp hread).2.2.2 hvalidate

theorem read?_store (hwithin : header.Within offset page.size)
    (hword : offset + header.size < wordSize)
    (hgenuine : validate = true → header.isGenuine offset = true) :
    read? (store page offset header) offset validate = some header := by
  have hstart := hwithin.start_le
  have hstop := hwithin.stop_le
  have hoffset : headerSize ≤ offset := by omega
  rw [read?_eq_some_iff, size_store, extract_store hoffset (by omega),
    decode_encode hwithin.inWords, describesRegion_iff]
  exact ⟨⟨hoffset, by omega⟩, rfl, ⟨hwithin.power, by omega, by omega, hstop⟩, hgenuine⟩

/-- Where a header was wiped, none is read: no alignment is zero. -/
theorem read?_clear : read? (clear page offset) offset validate = none := by
  rw [Option.eq_none_iff_forall_ne_some]
  intro header hread
  obtain ⟨⟨hoffset, hle⟩, hdecode, hregion, _⟩ := read?_eq_some_iff.mp hread
  rw [size_clear] at hle
  have hzeros : (clear page offset).extract (offset - headerSize) offset =
      Memory.zeros headerSize := by
    have hsize := Memory.size_zeros headerSize
    have hwrite := Memory.extract_write (show
      offset - headerSize + (Memory.zeros headerSize).size ≤ page.size by omega)
    rwa [hsize, Nat.sub_add_cancel hoffset] at hwrite
  have hpower := (describesRegion_iff.mp hregion).1
  rw [← hdecode, hzeros] at hpower
  exact absurd (Nat.pos_of_isPowerOfTwo hpower) (by decide +kernel)

/-- The header of an allocation whose usable bytes start at `offset`, and that was made or resized
for `size` bytes at a multiple of `alignment`. There is less padding than the alignment before the
header, and less than a header's length of bytes too many. -/
structure Serves (header : Header) (offset size alignment : Nat) : Prop where
  selfOffset_eq : header.selfOffset = offset
  alignment_eq : header.alignment = alignment
  power : alignment.isPowerOfTwo
  aligned : offset % alignment = 0
  start_le : header.start + headerSize ≤ offset
  padding_lt : offset - headerSize - header.start < alignment
  pos : 0 < size
  le_size : size ≤ header.size
  size_lt : header.size < size + headerSize

theorem read?_of_serves {size alignment : Nat} {other : Bool}
    (hread : read? page offset validate = some header)
    (hserves : header.Serves offset size alignment) : read? page offset other = some header := by
  obtain ⟨hrange, hdecode, hregion, _⟩ := read?_eq_some_iff.mp hread
  have hpos := Nat.lt_of_lt_of_le hserves.pos hserves.le_size
  have hgenuine : header.isGenuine offset = true := isGenuine_iff.mpr
    ⟨hserves.selfOffset_eq, Nat.ne_of_gt hpos, hserves.alignment_eq ▸ hserves.aligned⟩
  exact read?_eq_some_iff.mpr ⟨hrange, hdecode, hregion, fun _ => hgenuine⟩

theorem Serves.resize {size newSize alignment bytes : Nat}
    (hserves : header.Serves offset size alignment) (hpos : 0 < newSize) (hle : newSize ≤ bytes)
    (hlt : bytes < newSize + headerSize) :
    Header.Serves { header with size := bytes } offset newSize alignment :=
  { hserves with pos := hpos, le_size := hle, size_lt := hlt }

theorem Serves.span_eq {size alignment : Nat} (hserves : header.Serves offset size alignment)
    (hword : offset + header.size < wordSize) :
    header.span = some (header.bytes offset).length := by
  have hstart := hserves.start_le
  have hle : header.start ≤ offset + header.size := by omega
  rw [span, hserves.selfOffset_eq, addWord?, if_pos hword, bytes, length_interval]
  simp only [Option.bind_eq_bind, Option.bind_some, if_pos hle]

end Header

end HandleAlloc
