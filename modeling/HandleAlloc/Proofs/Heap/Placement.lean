import HandleAlloc.Proofs.FreeList.BestFit
import HandleAlloc.Proofs.Heap.Resizing
/-!
# Where allocations are placed

On a sound heap the search for a place loses no fit to the range of machine words and invents none:
a request is refused just if it is eligible for no free block, and goes to the best one otherwise.
The free list changes there and nowhere else.
-/

namespace HandleAlloc

namespace Heap

variable {heap : Heap} {fit : Fit} {size alignment : Nat}

/-- A request was placed in a block, at `offset`, and received `received` bytes: what is replied, and
the heap afterwards, whose free blocks are `blocks`. -/
structure Placed (heap : Heap) (block : Block) (offset received alignment : Nat) (blocks : FreeList)
    (outcome : Outcome Heap Handle) : Prop where
  reply_eq : outcome.reply = .ok ⟨0, offset⟩
  header_eq : ((Call.header ⟨0, offset⟩).run outcome.state).reply =
    .ok ⟨block.offset, received, alignment, offset⟩
  blocks_eq : outcome.state.blocks = blocks
  used_eq : outcome.state.used = heap.used + (offset + received - block.offset)
  /-- What is counted as used is what has left the free list. -/
  conserved : outcome.state.used + outcome.state.blocks.total = heap.used + heap.blocks.total

theorem granted_placed (hsound : heap.Sound) (hfitting : heap.blocks.Fitting fit size alignment)
    (halignment : alignment.isPowerOfTwo) (hpos : 0 < size) (events : List Event) :
    Placed heap fit.block fit.offset (heap.blocks.carve fit size).2 alignment
      (heap.blocks.carve fit size).1
      ⟨.ok ⟨0, fit.offset⟩, heap.granted fit size alignment, events⟩ where
  reply_eq := rfl
  header_eq := by rw [call_header_run (header?_granted hsound hfitting halignment hpos), grant]
  blocks_eq := rfl
  used_eq := rfl
  conserved := by
    have hgranted := granted_exchange hsound hfitting halignment
    rw [hgranted.sound.conserved, hsound.conserved, hgranted.totalSize_eq]

/-- A request is refused just if it is eligible for no block. Otherwise it goes to the best of them,
at the first place there. The block gives way to what is left of it behind the request, or the
request receives that too if it is shorter than a header. -/
theorem alignedAlloc_exact (hsound : heap.Sound) (hpos : 0 < size)
    (halignment : alignment.isPowerOfTwo) (hle : alignment ≤ 2 ^ 63) :
    let outcome := (Call.alignedAlloc size alignment).run heap
    (outcome.reply = .error (.outOfMemory heap.name size) ↔
        ¬ ∃ block ∈ heap.blocks, block.Eligible size alignment) ∧
      ((∃ block ∈ heap.blocks, block.Eligible size alignment) →
        ∃ left block right, heap.blocks = left ++ block :: right ∧
          heap.blocks.Best size alignment block ∧
          let offset := leastMultiple (block.offset + headerSize) alignment
          let tail := block.beyond (offset + size)
          if headerSize ≤ tail.size then
            heap.Placed block offset size alignment (left ++ tail :: right) outcome
          else heap.Placed block offset (size + tail.size) alignment (left ++ right) outcome) := by
  intro outcome
  have hword := lt_wordSize_of_le_half hle
  have hrun : outcome = _ := alignedAlloc_run hsound size alignment
  rw [if_neg (not_not_intro halignment), if_neg (Nat.ne_of_gt hpos)] at hrun
  have hnone : heap.blocks.bestFit? size alignment = none ↔ _ :=
    FreeList.bestFit?_eq_none_iff_not_eligible hsound.canonical halignment hword
      hsound.totalSize_lt
  cases hfit : heap.blocks.bestFit? size alignment with
  | none =>
    rw [hfit] at hrun
    rw [hfit, eq_self, true_iff] at hnone
    exact ⟨by simp [hrun, Outcome.failed, hnone], fun heligible => absurd heligible hnone⟩
  | some fit =>
    rw [hfit] at hrun hnone
    replace hrun : outcome = ⟨.ok ⟨0, fit.offset⟩, _, _⟩ := hrun
    refine ⟨by simpa [hrun] using hnone, fun _ => ?_⟩
    obtain ⟨hbest, hoffset⟩ := FreeList.best_of_bestFit? hsound.canonical halignment hword
      hsound.totalSize_lt hfit
    obtain ⟨left, right, hsplit, hindex, _⟩ := FreeList.exists_append_of_bestFit? hfit
    have hplaced := granted_placed hsound (FreeList.fitting_of_bestFit? halignment hfit) halignment
      hpos [.heapAllocated heap.name fit.offset size]
    rw [← hrun] at hplaced
    refine ⟨left, fit.block, right, hsplit, hbest, ?_⟩
    rw [← hoffset]
    intro offset tail
    have hcarve : heap.blocks.carve fit size = if headerSize ≤ tail.size then
        (left ++ tail :: right, size) else (left ++ right, size + tail.size) := by
      rw [hsplit]
      exact FreeList.carve_append hindex fit.block size
    by_cases hlong : headerSize ≤ tail.size
    · rw [if_pos hlong] at hcarve ⊢
      rwa [hcarve] at hplaced
    · rw [if_neg hlong] at hcarve ⊢
      rwa [hcarve] at hplaced

/-- Three blocks fit 8 bytes and have the same size: the lowest is taken whole, as 8 bytes behind
the request are too few for a block. The larger block before them is left alone. -/
theorem alignedAlloc_exact_of_ties :
    let heap : Heap := ⟨"general", Memory.zeros 256, 48,
      [⟨0, 64⟩, ⟨80, 48⟩, ⟨144, 48⟩, ⟨208, 48⟩], true⟩
    let outcome := (Call.alignedAlloc 8 16).run heap
    outcome.reply = .ok ⟨0, 112⟩ ∧ heap.Sound ∧
      (outcome.reply = .error (.outOfMemory heap.name 8) ↔
        ¬ ∃ block ∈ heap.blocks, block.Eligible 8 16) ∧
      ((∃ block ∈ heap.blocks, block.Eligible 8 16) →
        ∃ left block right, heap.blocks = left ++ block :: right ∧
          heap.blocks.Best 8 16 block ∧
          let offset := leastMultiple (block.offset + headerSize) 16
          let tail := block.beyond (offset + 8)
          if headerSize ≤ tail.size then
            heap.Placed block offset 8 16 (left ++ tail :: right) outcome
          else heap.Placed block offset (8 + tail.size) 16 (left ++ right) outcome) := by
  intro heap outcome
  have htotal : heap.totalSize = 256 := by simp only [heap, totalSize, Memory.size_zeros]
  have hsound : heap.Sound := by
    refine ⟨?_, ?_, ?_, ?_⟩ <;> rw [htotal]
    · refine ⟨?_, ?_, ?_⟩ <;> simp [heap, Block.stop, headerSize]
    · rfl
    · decide
    · decide
  exact ⟨by decide +kernel, hsound,
    alignedAlloc_exact hsound (by decide) (by decide) (by decide)⟩

end Heap

end HandleAlloc
