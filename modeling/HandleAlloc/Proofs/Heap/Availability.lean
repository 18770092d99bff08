import HandleAlloc.Proofs.FreeList.BestFit
import HandleAlloc.Proofs.Heap.Resizing
/-!
# What can still be allocated

A request is granted just if it is eligible for some free block (`grants_iff`). A block that is
eligible stays so if the request becomes smaller or less aligned (`Block.Eligible.mono`), and if the
block grows in either direction, wherever its start comes to lie (`Block.Eligible.widen`). So what is
granted is granted after a release too, and to an allocation that is resized.
-/

namespace HandleAlloc

namespace Heap

variable {heap after : Heap} {handle : Handle} {old : Header} {size alignment smaller less : Nat}

def Grants (heap : Heap) (size alignment : Nat) : Prop :=
  ∃ handle, ((Call.alignedAlloc size alignment).run heap).reply = .ok handle

theorem grants_iff (hsound : heap.Sound) : heap.Grants size alignment ↔
    (alignment.isPowerOfTwo ∧ alignment < wordSize ∧ 0 < size) ∧
      ∃ block ∈ heap.blocks, block.Eligible size alignment := by
  have hrun : (Call.alignedAlloc size alignment).run heap = _ := alignedAlloc_run hsound size alignment
  rw [Grants, hrun]
  constructor
  · rintro ⟨handle, hreply⟩
    split at hreply
    case isTrue => contradiction
    case isFalse hpower =>
      have halignment := Decidable.not_not.mp hpower
      split at hreply
      case isTrue => contradiction
      case isFalse hsize =>
        split at hreply
        case h_1 => contradiction
        case h_2 fit hfit =>
          have hfitting := FreeList.fitting_of_bestFit? halignment hfit
          have hword := hfitting.placed.alignment_lt
          have hbest := (FreeList.best_of_bestFit? hsound.canonical halignment hword
            hsound.totalSize_lt hfit).1
          exact ⟨⟨halignment, hword, Nat.pos_of_ne_zero hsize⟩, fit.block,
            List.mem_of_getElem? hfitting.listed, hbest.eligible⟩
  · rintro ⟨⟨halignment, hword, hpos⟩, heligible⟩
    rw [if_neg (not_not_intro halignment), if_neg (Nat.ne_of_gt hpos)]
    cases hfit : heap.blocks.bestFit? size alignment with
    | none =>
      rw [FreeList.bestFit?_eq_none_iff_not_eligible hsound.canonical halignment hword
        hsound.totalSize_lt] at hfit
      exact absurd heligible hfit
    | some fit => exact ⟨_, rfl⟩

namespace Grants

theorem mono (hgrants : heap.Grants size alignment) (hsound : heap.Sound) (hpos : 0 < smaller)
    (hsmaller : smaller ≤ size) (hpower : less.isPowerOfTwo) (hless : less ≤ alignment) :
    heap.Grants smaller less := by
  obtain ⟨⟨halignment, hword, _⟩, block, hmem, heligible⟩ := (grants_iff hsound).mp hgrants
  have hdvd := dvd_of_isPowerOfTwo_of_le hpower halignment hless
  have hmono := heligible.mono (Nat.pos_of_isPowerOfTwo halignment) hsmaller hdvd
  exact (grants_iff hsound).mpr
    ⟨⟨hpower, Nat.lt_of_le_of_lt hless hword, hpos⟩, block, hmem, hmono⟩

/-- A request is granted where no byte is missing that was free: each block lies in one then. -/
theorem of_subset (hgrants : heap.Grants size alignment) (hsound : heap.Sound)
    (hafter : after.Sound) (hsubset : ∀ i ∈ heap.blocks.bytes, i ∈ after.blocks.bytes) :
    after.Grants size alignment := by
  obtain ⟨hrequest, block, hmem, heligible⟩ := (grants_iff hsound).mp hgrants
  have hsize := hsound.block_pos block hmem
  obtain ⟨holder, hholder, hstart, hstop⟩ := hafter.canonical.exists_block
    (show block.offset < block.stop by rw [Block.stop]; omega)
    fun i hle hlt => hsubset i (FreeList.mem_bytes.mpr ⟨block, hmem, hle, hlt⟩)
  have hpos := Nat.pos_of_isPowerOfTwo hrequest.1
  exact (grants_iff hafter).mpr ⟨hrequest, holder, hholder, heligible.widen hpos hstart hstop⟩

theorem vacated (hgrants : heap.Grants size alignment) (hsound : heap.Sound)
    (hoccupied : heap.Occupied handle old) : (heap.vacated handle old).Grants size alignment :=
  hgrants.of_subset hsound (vacated_exchange hsound hoccupied).sound fun _ hfree =>
    (mem_bytes_vacated hsound hoccupied).mpr (Or.inr hfree)

theorem freed (hgrants : heap.Grants size alignment) (hsound : heap.Sound)
    (hoccupied : heap.Occupied handle old) : (heap.freed handle old).Grants size alignment :=
  hgrants.of_subset hsound (freed_exchange hsound hoccupied).sound fun _ hfree =>
    (mem_bytes_vacated hsound hoccupied).mpr (Or.inr hfree)

/-- What could be allocated anew is also granted to an allocation with that alignment: it is not
refused without a search, and the search for a place has more free bytes than the one for the request
has. -/
theorem realloc (hgrants : heap.Grants size old.alignment) (hsound : heap.Sound)
    (hoccupied : heap.Occupied handle old) :
    ∃ moved, ((Call.realloc handle size).run heap).reply = .ok moved := by
  have hvacant := (vacated_exchange hsound hoccupied).sound
  obtain ⟨⟨hpower, hword, hpos⟩, block, hmem, heligible⟩ := (grants_iff hsound).mp hgrants
  have hroom := heligible.le_size (Nat.pos_of_isPowerOfTwo hpower)
  have htotal := FreeList.size_le_total hmem
  have hfree := hsound.freeSize_eq
  have hrun : (Call.realloc handle size).run heap = _ := realloc_run_of_occupied hsound hoccupied hpos
  rw [hrun, if_neg (by omega)]
  rcases Nat.lt_or_ge old.size size with hlt | hle
  · rw [resize_run_of_lt hsound hoccupied hlt]
    cases heap.blocks.takeTail? (handle.offset + old.size) (size - old.size) with
    | some taken => exact ⟨handle, rfl⟩
    | none =>
      have hsearch := ((grants_iff hvacant).mp (hgrants.vacated hsound hoccupied)).2
      cases hfit : (heap.vacated handle old).blocks.bestFit? size old.alignment with
      | some fit => exact ⟨_, rfl⟩
      | none =>
        rw [FreeList.bestFit?_eq_none_iff_not_eligible hvacant.canonical hpower hword
          hvacant.totalSize_lt] at hfit
        exact absurd hsearch hfit
  · obtain ⟨_, _, hresize, _⟩ := resize_run_of_le hsound hoccupied hle
    exact ⟨handle, by rw [hresize]⟩

end Grants

namespace Ledger

variable {σ : Type} {supply : Supply} {settings : HeapSettings} {state : σ} {start : Heap}
  {ledger : Ledger}

/-- What a heap can do for a client that could allocate `size` bytes at an alignment. -/
structure Affords (ledger : Ledger) (size alignment : Nat) : Prop where
  /-- It could ask for less. -/
  smaller : ∀ smaller less, 0 < smaller → smaller ≤ size → less.isPowerOfTwo → less ≤ alignment →
    ledger.heap.Grants smaller less
  /-- It can free what it has and ask then. -/
  freed : ∀ handle ∈ ledger.live.map Holding.handle,
    let outcome := (Call.free handle).run ledger.heap
    outcome.reply = .ok () ∧ outcome.state.Grants size alignment
  /-- It can resize what it has at that alignment. -/
  resized : ∀ handle ∈ ledger.live.map Holding.handle,
    ∃ old, ((Call.header handle).run ledger.heap).reply = .ok old ∧
      (old.alignment = alignment →
        ∃ moved, ((Call.realloc handle size).run ledger.heap).reply = .ok moved)

/-- After any well-behaved calls, a request that would be granted stands for every smaller one, for
itself after the release of any live allocation, and for resizing any of its alignment. -/
theorem affords_of_grants (hcreated : (create supply settings state).reply = .ok start)
    (hreachable : Reachable start ledger) {size alignment : Nat}
    (hgrants : ledger.heap.Grants size alignment) : ledger.Affords size alignment := by
  have hbalanced := hreachable.balanced_of_created hcreated
  have hsound := hbalanced.sound
  constructor
  case smaller =>
    intro smaller less hpos hle hpower hless
    exact hgrants.mono hsound hpos hle hpower hless
  case freed =>
    intro handle hlive outcome
    obtain ⟨holding, hmem, rfl⟩ := List.mem_map.mp hlive
    have hrun : outcome = _ := hbalanced.free_run hmem
    rw [hrun]
    exact ⟨rfl, hgrants.freed hsound (hbalanced.occupied hmem)⟩
  case resized =>
    intro handle hlive
    obtain ⟨holding, hmem, rfl⟩ := List.mem_map.mp hlive
    have hoccupied := hbalanced.occupied hmem
    refine ⟨holding.header, by rw [call_header_run hoccupied.decoded], ?_⟩
    rintro rfl
    exact hgrants.realloc hsound hoccupied

/-- The last 64 bytes of a buffer are free. A release before them makes a block of 112 bytes, of which
the request takes the first place; the oldest allocation grows by a move to the last. -/
theorem affords_of_grants_after_allocations :
    let first := next ⟨fresh ⟨"general", 256, true⟩, []⟩ (.alloc 16)
    let ledger := (first.next (.alignedAlloc 16 64)).next (.alloc 16)
    let freed := (Call.free ⟨0, 176⟩).run ledger.heap
    ledger.heap.blocks = [⟨192, 64⟩] ∧ freed.state.blocks = [⟨144, 112⟩] ∧
      ((Call.alignedAlloc 32 16).run freed.state).reply = .ok ⟨0, 176⟩ ∧
      ((Call.realloc ⟨0, 32⟩ 32).run ledger.heap).reply = .ok ⟨0, 224⟩ ∧ ledger.Affords 32 16 := by
  intro first ledger freed
  have hcreated : (create Supply.ample ⟨"general", 256, true⟩ ()).reply =
      .ok (fresh ⟨"general", 256, true⟩) :=
    reply_create_eq_ok_iff.mpr ⟨by decide, by decide, rfl⟩
  have hreachable : Reachable (fresh ⟨"general", 256, true⟩) ledger :=
    ((Reachable.start.step (.alloc 16) nofun).step (.alignedAlloc 16 64) nofun).step (.alloc 16) nofun
  have hgrants : ledger.heap.Grants 32 16 := ⟨⟨0, 224⟩, by decide +kernel⟩
  exact ⟨by decide +kernel, by decide +kernel, by decide +kernel, by decide +kernel,
    affords_of_grants hcreated hreachable hgrants⟩

end Ledger

end Heap

end HandleAlloc
