import HandleAlloc.Proofs.Heap.Resizing
/-!
# Moving an allocation

A move wipes the old header, copies the bytes and stores the new header, and each of these places
may overlap the others. It comes to the same as freeing the allocation, allocating anew, and only
then putting the bytes it had at the new place (`relocated_eq`): the copy reads behind the header
that was wiped, and writes behind the header that is stored.
-/

namespace HandleAlloc

namespace Heap

variable {heap : Heap} {handle : Handle} {old : Header} {fit : Fit} {newSize : Nat}

/-- What a move copies are the bytes that the allocation had before its header was wiped. -/
theorem transferred_eq (hoccupied : heap.Occupied handle old) (target : Nat) :
    heap.transferred handle old target =
      Memory.write (Header.clear heap.memory handle.offset) target (heap.contents handle old) := by
  rw [transferred, Header.extract_clear hoccupied.within.range.1, contents]

/-- A move is a release and a new allocation, with the bytes put back afterwards. -/
theorem relocated_eq (hoccupied : heap.Occupied handle old) (hroom : headerSize ≤ fit.offset) :
    let again := (heap.freed handle old).granted fit newSize old.alignment
    heap.relocated handle old fit newSize =
      { again with
        memory := Memory.write again.memory fit.offset (heap.contents handle old) } := by
  simp only [relocated, transferred_eq hoccupied, withHeader, Header.store_write hroom, granted,
    claimed, grant, freed]

theorem realloc_run_of_not_extensible (hsound : heap.Sound) (hoccupied : heap.Occupied handle old)
    (hlt : old.size < newSize) (hle : newSize ≤ old.size + heap.freeSize)
    (hstay : ¬ heap.Extensible handle old newSize) :
    realloc handle newSize heap =
      match (heap.freed handle old).blocks.bestFit? newSize old.alignment with
      | none => .failed (.outOfMemory heap.name newSize) heap
      | some fit => ⟨.ok ⟨0, fit.offset⟩, heap.relocated handle old fit newSize,
          [.heapRelocated heap.name handle.offset fit.offset newSize]⟩ := by
  rw [realloc_run_of_occupied hsound hoccupied (Nat.zero_lt_of_lt hlt),
    if_neg (Nat.not_lt_of_le hle), resize_run_of_lt hsound hoccupied hlt,
    (takeTail?_eq_none_iff_not_extensible hsound).mpr hstay]
  rfl

/-- A move, of which `moved` is the outcome, comes to the same as the allocation with the outcome
`again`, but for the bytes that the allocation had. They stand at the new place. -/
structure Mirrors (heap : Heap) (handle : Handle) (old : Header) (again moved : Outcome Heap Handle) :
    Prop where
  reply_eq : moved.reply = again.reply
  contents_eq : ((Call.bytes handle).run heap).reply = .ok (heap.contents handle old)
  size_eq : (heap.contents handle old).size = old.size
  stop_le : ∀ target, moved.reply = .ok target → target.offset + old.size ≤ heap.totalSize
  header_eq : ∀ target, moved.reply = .ok target → ∃ header,
    ((Call.header target).run moved.state).reply = .ok header ∧
      ((Call.header target).run again.state).reply = .ok header
  state_eq : ∀ target, moved.reply = .ok target →
    moved.state = { again.state with
      memory := Memory.write again.state.memory target.offset (heap.contents handle old) }

theorem relocated_mirrors (hsound : heap.Sound) (hoccupied : heap.Occupied handle old)
    (hlt : old.size < newSize) (hstay : ¬ heap.Extensible handle old newSize)
    (hfit : (heap.freed handle old).blocks.bestFit? newSize old.alignment = some fit)
    (events later : List Event) :
    heap.Mirrors handle old
      ⟨.ok ⟨0, fit.offset⟩, (heap.freed handle old).granted fit newSize old.alignment, events⟩
      ⟨.ok ⟨0, fit.offset⟩, heap.relocated handle old fit newSize, later⟩ := by
  have hpower := hoccupied.within.power
  have hpos : 0 < newSize := Nat.zero_lt_of_lt hlt
  have hfreed := freed_exchange hsound hoccupied
  have hfitting := FreeList.fitting_of_bestFit? hpower hfit
  have hwithin := grant_within hfreed.sound hfitting hpower
  have hresized : heap.Resized handle old newSize ⟨0, fit.offset⟩ _ _ :=
    .moved hlt ((takeTail?_eq_none_iff_not_extensible hsound).mpr hstay) hfit
  refine ⟨rfl, by rw [call_bytes_run hoccupied.decoded], size_contents hoccupied.decoded, ?_, ?_, ?_⟩
  · rintro _ ⟨⟩
    have hstop := hwithin.stop_le
    have hgranted : newSize ≤ ((heap.freed handle old).grant fit newSize old.alignment).size :=
      FreeList.le_carve _ _ _
    rw [hfreed.totalSize_eq] at hstop
    simp only
    omega
  · rintro _ ⟨⟩
    refine ⟨(heap.freed handle old).grant fit newSize old.alignment, ?_, ?_⟩
    · rw [call_header_run (hresized.decoded hsound hoccupied hpos)]
      rfl
    · rw [call_header_run (header?_granted hfreed.sound hfitting hpower hpos)]
  · rintro _ ⟨⟩
    exact relocated_eq hoccupied hwithin.range.1

/-- An allocation that has to move is freed and allocated anew, as far as a client can tell: it is
refused or gets the same place and header, and the heap is that of the two calls but for the bytes
it had, which stand at the new place. -/
theorem realloc_eq_free_then_alloc (hsound : heap.Sound) (hoccupied : heap.Occupied handle old)
    (hlt : old.size < newSize) (hle : newSize ≤ old.size + heap.freeSize)
    (hstay : ¬ heap.Extensible handle old newSize) :
    let freed := (Call.free handle).run heap
    let again := (Call.alignedAlloc newSize old.alignment).run freed.state
    freed.reply = .ok () ∧
      heap.Mirrors handle old again ((Call.realloc handle newSize).run heap) := by
  intro freed again
  have hfreed : freed = _ := free_run_of_occupied hsound hoccupied
  have hvacant := (freed_exchange hsound hoccupied).sound
  have hagain : again = _ := alignedAlloc_run (hfreed ▸ hvacant : freed.state.Sound) newSize _
  have hmoved : (Call.realloc handle newSize).run heap = _ :=
    realloc_run_of_not_extensible hsound hoccupied hlt hle hstay
  rw [if_neg (not_not_intro hoccupied.within.power), if_neg (Nat.ne_of_gt (Nat.zero_lt_of_lt hlt)),
    hfreed] at hagain
  refine ⟨by rw [hfreed], ?_⟩
  rw [hmoved, hagain]
  cases hfit : (heap.freed handle old).blocks.bestFit? newSize old.alignment with
  | none =>
    exact ⟨rfl, by rw [call_bytes_run hoccupied.decoded], size_contents hoccupied.decoded, nofun,
      nofun, nofun⟩
  | some fit => exact relocated_mirrors hsound hoccupied hlt hstay hfit _ _

/-- The new place overlaps the old one, its header the old header, and the header before the move
does not know its own place. -/
theorem realloc_eq_free_then_alloc_of_overlap :
    let old : Header := ⟨33, 40, 1, 7⟩
    let memory := Memory.write (Header.store (Memory.zeros 105) 65 old) 65 ⟨#[1, 2, 3]⟩
    let heap : Heap := ⟨"general", memory, 72, [⟨0, 33⟩], false⟩
    let freed := (Call.free ⟨0, 65⟩).run heap
    let again := (Call.alignedAlloc 45 old.alignment).run freed.state
    let moved := (Call.realloc ⟨0, 65⟩ 45).run heap
    moved.reply = .ok ⟨0, 32⟩ ∧ heap.Sound ∧ heap.Occupied ⟨0, 65⟩ old ∧ old.size < 45 ∧
      45 ≤ old.size + heap.freeSize ∧ ¬ heap.Extensible ⟨0, 65⟩ old 45 ∧
      freed.reply = .ok () ∧ heap.Mirrors ⟨0, 65⟩ old again moved := by
  intro old memory heap freed again moved
  have htotal : heap.totalSize = 105 := by
    simp only [heap, memory, totalSize, Memory.size_write, Header.size_store, Memory.size_zeros]
  have hsound : heap.Sound := by
    refine ⟨?_, ?_, ?_, ?_⟩ <;> rw [htotal]
    · refine ⟨?_, ?_, ?_⟩ <;> simp [heap, Block.stop, headerSize]
    · rfl
    · decide
    · decide
  have hoccupied : heap.Occupied ⟨0, 65⟩ old :=
    ⟨by decide +kernel, by simp [FreeList.Clear, heap, old, Block.stop]⟩
  have hroom : 45 ≤ old.size + heap.freeSize := by rw [freeSize, htotal]; decide
  have hstay : ¬ heap.Extensible ⟨0, 65⟩ old 45 := by simp [Extensible, heap, old]
  exact ⟨by decide +kernel, hsound, hoccupied, by decide, hroom, hstay,
    realloc_eq_free_then_alloc hsound hoccupied (by decide) hroom hstay⟩

end Heap

end HandleAlloc
