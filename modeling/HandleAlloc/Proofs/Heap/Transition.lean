import HandleAlloc.Proofs.Heap.Exchange
/-!
# Transitions of heaps

The changes that the calls on a heap are made of, as functions of the heap: a span is released, a
fitted request is granted, an allocation loses or gains bytes at its end, or moves. Each keeps the
heap sound and exchanges just the bytes that its allocation gives up for those it gets.
-/

namespace HandleAlloc

namespace Heap

/-- An acceptable header stands before the handle, and none of the bytes it claims is free. So it
is with every live allocation, and it may be with bytes that only look like a header. -/
structure Occupied (heap : Heap) (handle : Handle) (header : Header) : Prop where
  decoded : heap.header? handle = some header
  clear : heap.blocks.Clear header.start (handle.offset + header.size)

section Occupied

variable {heap : Heap} {handle : Handle} {header : Header}

theorem header?_eq_some_iff : heap.header? handle = some header ↔
    handle.page = 0 ∧ Header.read? heap.memory handle.offset heap.validate = some header := by
  rw [header?, Option.ite_none_right_eq_some]

theorem within_of_header? (hdecoded : heap.header? handle = some header) :
    header.Within handle.offset heap.totalSize :=
  Header.within_of_read? (header?_eq_some_iff.mp hdecoded).2

theorem isGenuine_of_header? (hdecoded : heap.header? handle = some header)
    (hvalidate : heap.validate = true) : header.isGenuine handle.offset = true :=
  Header.isGenuine_of_read? (header?_eq_some_iff.mp hdecoded).2 hvalidate

end Occupied

/-! ## Storing a header -/

def withHeader (heap : Heap) (offset : Nat) (header : Header) : Heap :=
  { heap with memory := Header.store heap.memory offset header }

theorem header?_withHeader {heap : Heap} {offset : Nat} {header : Header}
    (htotal : heap.totalSize < wordSize) (hwithin : header.Within offset heap.totalSize)
    (hgenuine : heap.validate = true → header.isGenuine offset = true) :
    (heap.withHeader offset header).header? ⟨0, offset⟩ = some header :=
  header?_eq_some_iff.mpr ⟨rfl,
    Header.read?_store hwithin (Nat.lt_of_le_of_lt hwithin.stop_le htotal) hgenuine⟩

theorem Exchange.withHeader {heap after : Heap} {lost gained : List Nat} {offset : Nat}
    (hexchange : Exchange heap lost after gained) (header : Header) (hoffset : headerSize ≤ offset)
    (hgained : ∀ i ∈ interval (offset - headerSize) offset, i ∈ gained) :
    Exchange heap lost (after.withHeader offset header) gained :=
  hexchange.write Header.size_store fun i _ hi =>
    Header.getElem?_store_of_notMem hoffset fun hmem => hi (hgained i hmem)

/-! ## Releasing a span -/

def released (heap : Heap) (start stop : Nat) : Heap :=
  { heap with
    blocks := (heap.blocks.release start stop).1
    used := heap.used - (stop - start) }

section Released

variable {heap : Heap} {start stop : Nat}

theorem Sound.length_le_used (hsound : heap.Sound) (hlt : start < stop)
    (hlong : start + headerSize ≤ stop ∨ ∃ block ∈ heap.blocks, block.offset = stop)
    (hwithin : stop ≤ heap.totalSize) (hclear : heap.blocks.Clear start stop) :
    stop - start ≤ heap.used := by
  have hlength :=
    (FreeList.release_bytes_perm hsound.canonical hsound.least_pos hlt hclear).length_eq
  have hcanonical := FreeList.release_canonical hsound.canonical hsound.least_pos hlt
    (hlong.imp_left fun h => by omega) hwithin hclear
  rw [List.length_append, length_interval, FreeList.length_bytes, FreeList.length_bytes]
    at hlength
  have htotal := hcanonical.total_le
  have hconserved := hsound.conserved
  omega

theorem released_exchange (hsound : heap.Sound) (hlt : start < stop)
    (hlong : start + headerSize ≤ stop ∨ ∃ block ∈ heap.blocks, block.offset = stop)
    (hwithin : stop ≤ heap.totalSize) (hclear : heap.blocks.Clear start stop) :
    Exchange heap (interval start stop) (heap.released start stop) [] := by
  have hused := hsound.length_le_used hlt hlong hwithin hclear
  apply Exchange.of_blocks hsound
  · exact FreeList.release_canonical hsound.canonical hsound.least_pos hlt
      (hlong.imp_left fun h => by omega) hwithin hclear
  · rw [length_interval, List.length_nil]
    omega
  · exact FreeList.release_bytes_perm hsound.canonical hsound.least_pos hlt hclear

end Released

/-! ## Granting a request -/

/-- The header of the allocation that a fitted request becomes. -/
def grant (heap : Heap) (fit : Fit) (size alignment : Nat) : Header :=
  ⟨fit.block.offset, (heap.blocks.carve fit size).2, alignment, fit.offset⟩

def claimed (heap : Heap) (fit : Fit) (size : Nat) : Heap :=
  { heap with
    blocks := (heap.blocks.carve fit size).1
    used := heap.used + (fit.offset + (heap.blocks.carve fit size).2 - fit.block.offset) }

section Claimed

variable {heap : Heap} {fit : Fit} {size alignment : Nat}

theorem grant_within (hsound : heap.Sound) (hfitting : heap.blocks.Fitting fit size alignment)
    (halignment : alignment.isPowerOfTwo) :
    (heap.grant fit size alignment).Within fit.offset heap.totalSize := by
  have hcut := hfitting.cut halignment
  have hstart := hfitting.placed.start_le halignment
  have hword := hfitting.placed.alignment_lt
  have htotal := hsound.totalSize_lt
  have hstop : fit.offset + (heap.blocks.carve fit size).2 ≤ heap.totalSize :=
    Nat.le_trans hcut.stop_le (hsound.canonical.within _ hcut.mem)
  refine ⟨?_, hstart, hstop, halignment⟩
  simp only [Header.InWords, Header.words, grant, List.forall_mem_cons, List.not_mem_nil,
    false_imp_iff, implies_true, and_true]
  omega

theorem grant_isGenuine (hfitting : heap.blocks.Fitting fit size alignment) (hsize : 0 < size) :
    (heap.grant fit size alignment).isGenuine fit.offset = true := by
  have hle := FreeList.le_carve heap.blocks fit size
  exact Header.isGenuine_iff.mpr ⟨rfl, by simp only [grant]; omega, hfitting.placed.aligned⟩

theorem grant_serves (hfitting : heap.blocks.Fitting fit size alignment)
    (halignment : alignment.isPowerOfTwo) (hsize : 0 < size) :
    (heap.grant fit size alignment).Serves fit.offset size alignment where
  selfOffset_eq := rfl
  alignment_eq := rfl
  power := halignment
  aligned := hfitting.placed.aligned
  start_le := hfitting.placed.start_le halignment
  padding_lt := hfitting.placed.padding_lt halignment
  pos := hsize
  le_size := FreeList.le_carve _ _ _
  size_lt := FreeList.carve_lt _ _ _

theorem claimed_exchange (hsound : heap.Sound) (hfitting : heap.blocks.Fitting fit size alignment)
    (halignment : alignment.isPowerOfTwo) :
    Exchange heap [] (heap.claimed fit size) ((heap.grant fit size alignment).bytes fit.offset) := by
  have hcut := hfitting.cut halignment
  apply Exchange.of_blocks hsound
  · exact hcut.canonical hsound.canonical (Nat.min_le_left _ _)
  · rw [Header.bytes, length_interval, List.length_nil]
    rfl
  · exact hcut.bytes_perm

def granted (heap : Heap) (fit : Fit) (size alignment : Nat) : Heap :=
  (heap.claimed fit size).withHeader fit.offset (heap.grant fit size alignment)

theorem granted_exchange (hsound : heap.Sound) (hfitting : heap.blocks.Fitting fit size alignment)
    (halignment : alignment.isPowerOfTwo) :
    Exchange heap [] (heap.granted fit size alignment)
      ((heap.grant fit size alignment).bytes fit.offset) := by
  have hwithin := grant_within hsound hfitting halignment
  have hstart := hwithin.start_le
  apply (claimed_exchange hsound hfitting halignment).withHeader _ (by omega)
  intro i hi
  rw [mem_interval] at hi
  rw [Header.mem_bytes]
  omega

theorem header?_granted (hsound : heap.Sound) (hfitting : heap.blocks.Fitting fit size alignment)
    (halignment : alignment.isPowerOfTwo) (hsize : 0 < size) :
    (heap.granted fit size alignment).header? ⟨0, fit.offset⟩ =
      some (heap.grant fit size alignment) := by
  have hclaimed := claimed_exchange hsound hfitting halignment
  have hwithin := grant_within hsound hfitting halignment
  rw [← hclaimed.totalSize_eq] at hwithin
  exact header?_withHeader hclaimed.sound.totalSize_lt hwithin fun _ =>
    grant_isGenuine hfitting hsize

end Claimed

/-! ## Resizing an allocation -/

def shrunk (heap : Heap) (handle : Handle) (old : Header) (newSize : Nat) : Heap :=
  (heap.released (handle.offset + newSize) (handle.offset + old.size)).withHeader handle.offset
    { old with size := newSize }

/-- The heap after an allocation took `gained` bytes from the free list behind it. -/
def grown (heap : Heap) (handle : Handle) (old : Header) (blocks : FreeList) (gained : Nat) :
    Heap :=
  { heap with blocks, used := heap.used + gained }.withHeader handle.offset
    { old with size := old.size + gained }

/-- The heap without the bytes of an allocation: what a move searches for a place. -/
def vacated (heap : Heap) (handle : Handle) (old : Header) : Heap :=
  heap.released old.start (handle.offset + old.size)

/-- The buffer after the header of an allocation was wiped and its bytes copied to `target`. -/
def transferred (heap : Heap) (handle : Handle) (old : Header) (target : Nat) : ByteArray :=
  let cleared := Header.clear heap.memory handle.offset
  Memory.write cleared target (cleared.extract handle.offset (handle.offset + old.size))

def relocated (heap : Heap) (handle : Handle) (old : Header) (fit : Fit) (newSize : Nat) : Heap :=
  { (heap.vacated handle old).claimed fit newSize with
    memory := heap.transferred handle old fit.offset }.withHeader fit.offset
      ((heap.vacated handle old).grant fit newSize old.alignment)

theorem memory_relocated (heap : Heap) (handle : Handle) (old : Header) (fit : Fit)
    (newSize : Nat) : (heap.relocated handle old fit newSize).memory =
      Header.store (heap.transferred handle old fit.offset) fit.offset
        ((heap.vacated handle old).grant fit newSize old.alignment) := by
  rw [relocated, withHeader]

/-- The ways in which an allocation is resized, each with the handle, the header and the heap that
come of it. -/
inductive Resized (heap : Heap) (handle : Handle) (old : Header) (newSize : Nat) :
    Handle → Header → Heap → Prop where
  /-- It has the size already, or keeps fewer bytes than a header too many. -/
  | kept (hle : newSize ≤ old.size) (hslack : old.size < newSize + headerSize) :
    Resized heap handle old newSize handle old heap
  | shrunk (hlt : newSize < old.size)
    (hlong : headerSize ≤ old.size - newSize ∨
      ∃ block ∈ heap.blocks, block.offset = handle.offset + old.size) :
    Resized heap handle old newSize handle { old with size := newSize }
      (heap.shrunk handle old newSize)
  | grown {blocks : FreeList} {gained : Nat} (hlt : old.size < newSize)
    (htake : heap.blocks.takeTail? (handle.offset + old.size) (newSize - old.size) =
      some (blocks, gained)) :
    Resized heap handle old newSize handle { old with size := old.size + gained }
      (heap.grown handle old blocks gained)
  | moved {fit : Fit} (hlt : old.size < newSize)
    (hstay : heap.blocks.takeTail? (handle.offset + old.size) (newSize - old.size) = none)
    (hfit : (heap.vacated handle old).blocks.bestFit? newSize old.alignment = some fit) :
    Resized heap handle old newSize ⟨0, fit.offset⟩
      ((heap.vacated handle old).grant fit newSize old.alignment)
      (heap.relocated handle old fit newSize)

section Resized

variable {heap after : Heap} {handle moved : Handle} {old header : Header} {fit : Fit}
  {blocks : FreeList} {newSize gained target : Nat}

theorem Occupied.within (hoccupied : heap.Occupied handle old) :
    old.Within handle.offset heap.totalSize :=
  within_of_header? hoccupied.decoded

theorem shrunk_exchange (hsound : heap.Sound) (hoccupied : heap.Occupied handle old)
    (hlt : newSize < old.size)
    (hlong : headerSize ≤ old.size - newSize ∨
      ∃ block ∈ heap.blocks, block.offset = handle.offset + old.size) :
    Exchange heap (old.bytes handle.offset) (heap.shrunk handle old newSize)
      (Header.bytes { old with size := newSize } handle.offset) := by
  have hstart := hoccupied.within.start_le
  have hclear : heap.blocks.Clear (handle.offset + newSize) (handle.offset + old.size) :=
    fun block hmem => (hoccupied.clear block hmem).imp_left fun hstop => by omega
  have hreleased := (released_exchange hsound (by omega) (hlong.imp_left fun h => by omega)
    hoccupied.within.stop_le hclear).keep (interval old.start (handle.offset + newSize))
  rw [interval_append (by omega) (by omega), List.append_nil] at hreleased
  apply hreleased.withHeader _ (by omega)
  intro i hi
  rw [mem_interval] at hi ⊢
  omega

theorem grown_exchange (hsound : heap.Sound) (hoccupied : heap.Occupied handle old)
    (htake : heap.blocks.takeTail? (handle.offset + old.size) (newSize - old.size) =
      some (blocks, gained)) :
    Exchange heap (old.bytes handle.offset) (heap.grown handle old blocks gained)
      (Header.bytes { old with size := old.size + gained } handle.offset) := by
  have hstart := hoccupied.within.start_le
  obtain ⟨block, hoffset, hcut⟩ := FreeList.cut_of_takeTail? htake
  have hbytes := hcut.bytes_perm
  rw [hoffset] at hbytes
  have htaken : Exchange heap [] { heap with blocks, used := heap.used + gained }
      (interval (handle.offset + old.size) (handle.offset + old.size + gained)) := by
    refine Exchange.of_blocks hsound ?_ ?_ hbytes
    · exact hcut.canonical hsound.canonical (Nat.min_le_left _ _)
    · rw [length_interval, List.length_nil]
      omega
  have hkept := htaken.keep (old.bytes handle.offset)
  rw [Header.bytes, interval_append (by omega) (by omega), List.append_nil, Nat.add_assoc]
    at hkept
  apply hkept.withHeader _ (by omega)
  intro i hi
  rw [mem_interval] at hi ⊢
  omega

theorem vacated_exchange (hsound : heap.Sound) (hoccupied : heap.Occupied handle old) :
    Exchange heap (old.bytes handle.offset) (heap.vacated handle old) [] := by
  have hstart := hoccupied.within.start_le
  exact released_exchange hsound hoccupied.within.start_lt (Or.inl (by omega))
    hoccupied.within.stop_le hoccupied.clear

theorem size_transferred : (heap.transferred handle old target).size = heap.memory.size := by
  rw [transferred, Memory.size_write, Header.size_clear]

theorem getElem?_transferred (hoccupied : heap.Occupied handle old) {i : Nat}
    (hheader : i ∉ interval (handle.offset - headerSize) handle.offset)
    (htarget : i ∉ interval target (target + old.size)) :
    (heap.transferred handle old target)[i]? = heap.memory[i]? := by
  have hstart := hoccupied.within.start_le
  have hstop : handle.offset + old.size ≤ heap.memory.size := hoccupied.within.stop_le
  simp only [transferred]
  rw [Memory.getElem?_write_of_notMem, Header.getElem?_clear_of_notMem (by omega) hheader]
  rwa [ByteArray.size_extract, Header.size_clear, Nat.min_eq_left hstop, Nat.add_sub_cancel_left]

/-- The exchange of a move is complete before its header is stored. -/
theorem transferred_exchange (hsound : heap.Sound) (hoccupied : heap.Occupied handle old)
    (hlt : old.size < newSize)
    (hfitting : (heap.vacated handle old).blocks.Fitting fit newSize old.alignment) :
    Exchange heap (old.bytes handle.offset)
      { (heap.vacated handle old).claimed fit newSize with
        memory := heap.transferred handle old fit.offset }
      (((heap.vacated handle old).grant fit newSize old.alignment).bytes fit.offset) := by
  have hstart := hoccupied.within.start_le
  have hvacated := vacated_exchange hsound hoccupied
  have hclaimed := claimed_exchange hvacated.sound hfitting hoccupied.within.power
  have hnew := (grant_within hvacated.sound hfitting hoccupied.within.power).start_le
  have hgranted : newSize ≤ ((heap.vacated handle old).grant fit newSize old.alignment).size :=
    FreeList.le_carve _ _ _
  have hmoved := hvacated.trans hclaimed (by simp)
  apply hmoved.write (size_transferred.trans hmoved.totalSize_eq.symm)
  intro i hlost hgained
  rw [Header.mem_bytes] at hlost hgained
  apply getElem?_transferred hoccupied <;> rw [mem_interval] <;> omega

theorem relocated_exchange (hsound : heap.Sound) (hoccupied : heap.Occupied handle old)
    (hlt : old.size < newSize)
    (hfitting : (heap.vacated handle old).blocks.Fitting fit newSize old.alignment) :
    Exchange heap (old.bytes handle.offset) (heap.relocated handle old fit newSize)
      (((heap.vacated handle old).grant fit newSize old.alignment).bytes fit.offset) := by
  have hvacated := vacated_exchange hsound hoccupied
  have hnew := (grant_within hvacated.sound hfitting hoccupied.within.power).start_le
  apply (transferred_exchange hsound hoccupied hlt hfitting).withHeader _ (by omega)
  intro i hi
  rw [mem_interval] at hi
  rw [Header.mem_bytes]
  omega

theorem Resized.exchange (hresized : heap.Resized handle old newSize moved header after)
    (hsound : heap.Sound) (hoccupied : heap.Occupied handle old) :
    Exchange heap (old.bytes handle.offset) after (header.bytes moved.offset) := by
  cases hresized with
  | kept => exact Exchange.refl hsound _
  | shrunk hlt hlong => exact shrunk_exchange hsound hoccupied hlt hlong
  | grown hlt htake => exact grown_exchange hsound hoccupied htake
  | moved hlt hstay hfit =>
    exact relocated_exchange hsound hoccupied hlt
      (FreeList.fitting_of_bestFit? hoccupied.within.power hfit)

private theorem header?_resized {middle : Heap} {size : Nat} (hsound : heap.Sound)
    (hoccupied : heap.Occupied handle old) (htotal : middle.totalSize = heap.totalSize)
    (hvalidate : middle.validate = heap.validate) (hpos : 0 < size)
    (hstop : handle.offset + size ≤ heap.totalSize) :
    (middle.withHeader handle.offset { old with size }).header? handle =
      some { old with size } := by
  have hold := hoccupied.within
  have hword := hsound.totalSize_lt
  have hwithin : Header.Within { old with size } handle.offset middle.totalSize :=
    htotal ▸ hold.resize hstop (by omega)
  have hgenuine (hvalid : middle.validate = true) :
      Header.isGenuine { old with size } handle.offset = true := by
    obtain ⟨hself, _, haligned⟩ := Header.isGenuine_iff.mp
      (isGenuine_of_header? hoccupied.decoded (hvalidate ▸ hvalid))
    exact Header.isGenuine_iff.mpr ⟨hself, Nat.ne_of_gt hpos, haligned⟩
  have hpage : (⟨0, handle.offset⟩ : Handle) = handle := by
    rw [← (header?_eq_some_iff.mp hoccupied.decoded).1]
  have hread := header?_withHeader (htotal ▸ hword) hwithin hgenuine
  rwa [hpage] at hread

theorem Resized.decoded (hresized : heap.Resized handle old newSize moved header after)
    (hsound : heap.Sound) (hoccupied : heap.Occupied handle old) (hpos : 0 < newSize) :
    after.header? moved = some header := by
  have hstop := hoccupied.within.stop_le
  cases hresized with
  | kept => exact hoccupied.decoded
  | shrunk hlt => exact header?_resized hsound hoccupied rfl rfl hpos (by omega)
  | grown hlt htake =>
    obtain ⟨block, hoffset, hcut⟩ := FreeList.cut_of_takeTail? htake
    obtain ⟨hle, _⟩ := FreeList.gained_bounds htake
    have hcutStop := hcut.stop_le
    have hwithin := hsound.canonical.within block hcut.mem
    exact header?_resized hsound hoccupied rfl rfl (by omega) (by omega)
  | moved hlt hstay hfit =>
    have hfitting := FreeList.fitting_of_bestFit? hoccupied.within.power hfit
    have hvacated := vacated_exchange hsound hoccupied
    have hwithin := grant_within hvacated.sound hfitting hoccupied.within.power
    have htransferred := transferred_exchange hsound hoccupied hlt hfitting
    rw [hvacated.totalSize_eq, ← htransferred.totalSize_eq] at hwithin
    exact header?_withHeader htransferred.sound.totalSize_lt hwithin fun _ =>
      grant_isGenuine hfitting hpos

theorem Resized.serves {size alignment : Nat}
    (hresized : heap.Resized handle old newSize moved header after)
    (hserves : old.Serves handle.offset size alignment) (hpos : 0 < newSize) :
    header.Serves moved.offset newSize alignment := by
  have hheader : 0 < headerSize := by decide
  cases hresized with
  | kept hle hslack => exact hserves.resize hpos hle hslack
  | shrunk hlt => exact hserves.resize hpos (Nat.le_refl _) (by omega)
  | grown hlt htake =>
    obtain ⟨hle, hslack⟩ := FreeList.gained_bounds htake
    exact hserves.resize hpos (by omega) (by omega)
  | moved hlt hstay hfit =>
    rw [hserves.alignment_eq] at hfit ⊢
    exact grant_serves (FreeList.fitting_of_bestFit? hserves.power hfit) hserves.power hpos

end Resized

/-! ## Writing to an allocation -/

section Store

variable {heap : Heap} {handle : Handle} {header : Header} {size position : Nat}
  {data : ByteArray}

theorem store_exchange (hsound : heap.Sound) (handle : Handle) (size position : Nat)
    (data : ByteArray) :
    Exchange heap (interval handle.offset (handle.offset + size))
      (store ⟨0, handle.offset, size⟩ position data heap)
      (interval handle.offset (handle.offset + size)) := by
  unfold store
  split
  case isFalse => exact Exchange.refl hsound _
  case isTrue hfits =>
    simp only at hfits
    apply (Exchange.refl hsound _).write (Memory.size_write ..)
    intro i hi _
    apply Memory.getElem?_write_of_notMem
    simp only [mem_interval] at hi ⊢
    omega

theorem store_owned_exchange (hsound : heap.Sound) (hstart : header.start ≤ handle.offset) :
    Exchange heap (header.bytes handle.offset)
      (store ⟨0, handle.offset, header.size⟩ position data heap)
      (header.bytes handle.offset) := by
  have hstored := (store_exchange hsound handle header.size position data).keep
    (interval header.start handle.offset)
  rwa [interval_append hstart (Nat.le_add_right _ _)] at hstored

theorem header?_store (hsound : heap.Sound) :
    (store ⟨0, handle.offset, size⟩ position data heap).header? handle = heap.header? handle := by
  apply (store_exchange hsound handle size position data).header?_eq
  intro i hi
  rw [mem_interval] at hi
  rw [mem_interval]
  omega

end Store

end Heap

end HandleAlloc
