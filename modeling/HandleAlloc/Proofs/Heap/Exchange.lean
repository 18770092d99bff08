import HandleAlloc.Heap
import HandleAlloc.Proofs.FreeList.Carving
import HandleAlloc.Proofs.FreeList.Release
import HandleAlloc.Proofs.Header
/-!
# Exchanges of bytes

Every change of a heap is an exchange: some bytes go back to the free list, others leave it, and no
byte of the buffer outside of these is written. `Exchange` says so of two heaps, together with the
invariant `Sound` of the second. Exchanges compose (`Exchange.trans`), and a header that stands
outside of the exchanged bytes still reads the same (`Exchange.header?_eq`).
-/

namespace HandleAlloc

namespace Heap

/-- What every call keeps, whatever bytes callers put into the buffer: the free blocks ascend, do
not touch and lie in the buffer, none is shorter than a header unless the whole buffer is, and the
bytes that are not free are the used ones. The buffer is small enough for every position and every
count of bytes in it to be a machine word. -/
structure Sound (heap : Heap) : Prop where
  canonical : heap.blocks.Canonical (min headerSize heap.totalSize) heap.totalSize
  conserved : heap.used + heap.blocks.total = heap.totalSize
  pos : 0 < heap.totalSize
  addressable : heap.totalSize ≤ maxReservation

namespace Sound

variable {heap : Heap}

theorem least_pos (hsound : heap.Sound) : 0 < min headerSize heap.totalSize :=
  Nat.lt_min.mpr ⟨by decide, hsound.pos⟩

theorem block_pos (hsound : heap.Sound) : ∀ block ∈ heap.blocks, 0 < block.size :=
  fun block hmem => Nat.lt_of_lt_of_le hsound.least_pos (hsound.canonical.long block hmem)

theorem totalSize_lt (hsound : heap.Sound) : heap.totalSize < wordSize :=
  Nat.lt_of_le_of_lt hsound.addressable (by decide)

theorem stop_lt (hsound : heap.Sound) : ∀ block ∈ heap.blocks, block.stop < wordSize :=
  fun block hmem => Nat.lt_of_le_of_lt (hsound.canonical.within block hmem) hsound.totalSize_lt

theorem used_le (hsound : heap.Sound) : heap.used ≤ heap.totalSize := by
  rw [← hsound.conserved]
  exact Nat.le_add_right _ _

theorem used_lt (hsound : heap.Sound) : heap.used < wordSize :=
  Nat.lt_of_le_of_lt hsound.used_le hsound.totalSize_lt

end Sound

/-- The bytes `lost` went back to the free list and the bytes `gained` left it; no byte outside of
both was written. -/
structure Exchange (heap : Heap) (lost : List Nat) (after : Heap) (gained : List Nat) : Prop where
  name_eq : after.name = heap.name
  validate_eq : after.validate = heap.validate
  totalSize_eq : after.totalSize = heap.totalSize
  sound : after.Sound
  bytes_perm : (gained ++ after.blocks.bytes).Perm (lost ++ heap.blocks.bytes)
  frame : ∀ i, i ∉ lost → i ∉ gained → after.memory[i]? = heap.memory[i]?

namespace Exchange

variable {heap middle after : Heap} {lost kept gained : List Nat}

theorem refl (hsound : heap.Sound) (kept : List Nat) : Exchange heap kept heap kept :=
  ⟨rfl, rfl, rfl, hsound, List.Perm.refl _, fun _ _ _ => rfl⟩

theorem trans (hfirst : Exchange heap lost middle kept) (hsecond : Exchange middle kept after gained)
    (hkept : ∀ i ∈ kept, i ∈ lost ∨ i ∈ gained) : Exchange heap lost after gained := by
  refine ⟨hsecond.name_eq.trans hfirst.name_eq, hsecond.validate_eq.trans hfirst.validate_eq,
    hsecond.totalSize_eq.trans hfirst.totalSize_eq, hsecond.sound,
    hsecond.bytes_perm.trans hfirst.bytes_perm, ?_⟩
  intro i hlost hgained
  have hi : i ∉ kept := fun hi => (hkept i hi).elim hlost hgained
  rw [hsecond.frame i hi hgained, hfirst.frame i hlost hi]

theorem keep (hexchange : Exchange heap lost after gained) (kept : List Nat) :
    Exchange heap (kept ++ lost) after (kept ++ gained) := by
  refine { hexchange with bytes_perm := ?_, frame := fun i hlost hgained => ?_ }
  · rw [List.append_assoc, List.append_assoc]
    exact List.Perm.append_left kept hexchange.bytes_perm
  · rw [List.mem_append, not_or] at hlost hgained
    exact hexchange.frame i hlost.2 hgained.2

theorem write (hexchange : Exchange heap lost after gained) {memory : ByteArray}
    (hsize : memory.size = after.totalSize)
    (hframe : ∀ i, i ∉ lost → i ∉ gained → memory[i]? = after.memory[i]?) :
    Exchange heap lost { after with memory } gained := by
  have hsound := hexchange.sound
  refine ⟨hexchange.name_eq, hexchange.validate_eq, hsize.trans hexchange.totalSize_eq,
    ⟨?_, ?_, ?_, ?_⟩, hexchange.bytes_perm, ?_⟩
  · rw [totalSize, hsize]
    exact hsound.canonical
  · rw [totalSize, hsize]
    exact hsound.conserved
  · rw [totalSize, hsize]
    exact hsound.pos
  · rw [totalSize, hsize]
    exact hsound.addressable
  · intro i hlost hgained
    rw [hframe i hlost hgained, hexchange.frame i hlost hgained]

theorem of_blocks (hsound : heap.Sound) {blocks : FreeList} {used : Nat}
    (hcanonical : blocks.Canonical (min headerSize heap.totalSize) heap.totalSize)
    (hused : used + lost.length = heap.used + gained.length)
    (hbytes : (gained ++ blocks.bytes).Perm (lost ++ heap.blocks.bytes)) :
    Exchange heap lost { heap with blocks, used } gained := by
  refine ⟨rfl, rfl, rfl, ⟨hcanonical, ?_, hsound.pos, hsound.addressable⟩, hbytes,
    fun _ _ _ => rfl⟩
  have hlength := hbytes.length_eq
  have hconserved := hsound.conserved
  rw [List.length_append, List.length_append, FreeList.length_bytes, FreeList.length_bytes]
    at hlength
  simp only [totalSize] at hconserved ⊢
  omega

theorem header?_eq (hexchange : Exchange heap lost after gained) {handle : Handle}
    (houtside : ∀ i ∈ interval (handle.offset - headerSize) handle.offset, i ∉ lost ∧ i ∉ gained) :
    after.header? handle = heap.header? handle := by
  unfold header?
  rw [hexchange.validate_eq, Header.read?_congr hexchange.totalSize_eq]
  intro i hi
  exact hexchange.frame i (houtside i hi).1 (houtside i hi).2

end Exchange

end Heap

end HandleAlloc
