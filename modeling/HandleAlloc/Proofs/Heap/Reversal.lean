import HandleAlloc.Proofs.Heap.Resizing
/-!
# Resizing in place and back

An allocation that was resized where it stands can be given the size it had, and the heap is then the
one it was. Whichever way it was resized, there is one way back (`Resized.back`): bytes that were
given up lie free behind it, in a block from which just these are taken, and bytes that were taken are
given up to a block that is still there or that is long enough to be one. The free bytes are the same
then, and so is the free list, of which there is only one for a set of bytes
(`Adjusted.eq_of_back`).
-/

namespace HandleAlloc

namespace Heap

variable {heap after final : Heap} {handle : Handle} {old header : Header} {blocks : FreeList}
  {newSize gained i : Nat}

/-! ## Changes to one allocation that stays in its place -/

/-- An allocation got another header, and nothing but the free list and the count of used bytes
changed besides. -/
structure Adjusted (heap : Heap) (handle : Handle) (old header : Header) (after : Heap) : Prop where
  exchange : Exchange heap (old.bytes handle.offset) after (header.bytes handle.offset)
  decoded : after.header? handle = some header
  frame : ∀ i ∉ interval (handle.offset - headerSize) handle.offset,
    after.memory[i]? = heap.memory[i]?

theorem Resized.adjusted (hresized : heap.Resized handle old newSize handle header after)
    (hsound : heap.Sound) (hoccupied : heap.Occupied handle old) (hpos : 0 < newSize) :
    heap.Adjusted handle old header after where
  exchange := hresized.exchange hsound hoccupied
  decoded := hresized.decoded hsound hoccupied hpos
  frame := by
    intro i hi
    have hroom := hoccupied.within.range.1
    cases hresized with
    | kept => rfl
    | shrunk | grown => exact Header.getElem?_store_of_notMem hroom hi
    | moved hlt hstay hfit => exact absurd rfl (ne_of_moved hsound hoccupied hlt hstay hfit)

/-- Once the allocation has its header back, the free bytes are the same ones, and one list is
canonical for them. -/
theorem Adjusted.eq_of_back (hthere : heap.Adjusted handle old header after)
    (hback : after.Adjusted handle header old final) (hsound : heap.Sound)
    (hdecoded : heap.header? handle = some old) : final = heap := by
  have hvalidate := hback.exchange.validate_eq.trans hthere.exchange.validate_eq
  have htotal := hback.exchange.totalSize_eq.trans hthere.exchange.totalSize_eq
  have hperm : final.blocks.bytes.Perm heap.blocks.bytes :=
    (List.perm_append_left_iff _).mp (hback.exchange.bytes_perm.trans hthere.exchange.bytes_perm)
  have hblocks : final.blocks = heap.blocks := by
    have hcanonical := hback.exchange.sound.canonical
    rw [htotal] at hcanonical
    exact hcanonical.eq_of_bytes hsound.least_pos hsound.canonical fun i => hperm.mem_iff
  have hused : final.used = heap.used := by
    have hconserved := hback.exchange.sound.conserved
    rw [hblocks, htotal, ← hsound.conserved] at hconserved
    exact Nat.add_right_cancel hconserved
  have hmemory : final.memory = heap.memory := by
    have hread := (header?_eq_some_iff.mp hback.decoded).2
    rw [hvalidate] at hread
    apply Header.eq_of_read? hread (header?_eq_some_iff.mp hdecoded).2
    exact fun i hi => (hback.frame i hi).trans (hthere.frame i hi)
  have hname := hback.exchange.name_eq.trans hthere.exchange.name_eq
  cases heap
  cases final
  rw [Heap.mk.injEq]
  exact ⟨hname, hmemory, hused, hblocks, hvalidate⟩

/-! ## The way back -/

theorem mem_bytes_shrunk (hsound : heap.Sound) (hoccupied : heap.Occupied handle old)
    (hlt : newSize < old.size) (hlong : headerSize ≤ old.size - newSize ∨
      ∃ block ∈ heap.blocks, block.offset = handle.offset + old.size) :
    i ∈ (heap.shrunk handle old newSize).blocks.bytes ↔
      (handle.offset + newSize ≤ i ∧ i < handle.offset + old.size) ∨ i ∈ heap.blocks.bytes := by
  have hclear : heap.blocks.Clear (handle.offset + newSize) (handle.offset + old.size) := by
    have hstart := hoccupied.within.start_le
    exact fun block hmem => (hoccupied.clear block hmem).imp_left fun hstop => by omega
  have hperm := (released_exchange hsound (by omega) (hlong.imp_left fun h => by omega)
    hoccupied.within.stop_le hclear).bytes_perm
  rw [List.nil_append] at hperm
  rw [shrunk, withHeader, hperm.mem_iff, List.mem_append, mem_interval]

theorem exists_block_behind (hsound : heap.Sound) (hoccupied : heap.Occupied handle old) {stop : Nat}
    (hlt : handle.offset + old.size < stop)
    (hfree : ∀ i, handle.offset + old.size ≤ i → i < stop → i ∈ heap.blocks.bytes) :
    ∃ block ∈ heap.blocks, block.offset = handle.offset + old.size ∧ stop ≤ block.stop := by
  obtain ⟨block, hmem, hstart, hstop⟩ := hsound.canonical.exists_block hlt hfree
  have hapart := hoccupied.clear block hmem
  have hown := hoccupied.within.start_lt
  exact ⟨block, hmem, by omega, hstop⟩

section Shrunk

variable (hsound : heap.Sound) (hoccupied : heap.Occupied handle old) (hlt : newSize < old.size)
  (hlong : headerSize ≤ old.size - newSize ∨
    ∃ block ∈ heap.blocks, block.offset = handle.offset + old.size)
  (hafter : (heap.shrunk handle old newSize).Occupied handle { old with size := newSize })

include hsound hoccupied hlt hlong hafter

/-- The bytes that an allocation gave up begin a free block. What else is in it was a block before, and
is no shorter than a header. -/
theorem exists_block_given_up : ∃ block ∈ (heap.shrunk handle old newSize).blocks,
    block.offset = handle.offset + newSize ∧
      (block.stop = handle.offset + old.size ∨
        handle.offset + old.size + headerSize ≤ block.stop) := by
  have hvacant := (shrunk_exchange hsound hoccupied hlt hlong).sound
  have hbytes (i : Nat) := mem_bytes_shrunk (i := i) hsound hoccupied hlt hlong
  have hrange := hoccupied.within.range
  have hstop := Nat.add_lt_add_left hlt handle.offset
  by_cases hfollowed : handle.offset + old.size ∈ heap.blocks.bytes
  -- A block follows, and it is one with what was given up now.
  · obtain ⟨follower, hlisted, hplace, _⟩ := exists_block_behind hsound hoccupied
      (Nat.lt_succ_self _) fun i hle hi => by rwa [Nat.le_antisymm (Nat.le_of_lt_succ hi) hle]
    have hsize := hsound.canonical.long follower hlisted
    have hend : follower.stop = handle.offset + old.size + follower.size := by
      rw [Block.stop, hplace]
    obtain ⟨block, hmem, hoffset, hle⟩ := exists_block_behind hvacant hafter
      (Nat.lt_of_lt_of_le hstop (by omega : _ ≤ follower.stop)) fun i hle hi => by
        rw [hbytes]
        refine (Nat.lt_or_ge i (handle.offset + old.size)).imp (fun hown => ⟨hle, hown⟩) ?_
        exact fun hbehind => FreeList.mem_bytes.mpr ⟨follower, hlisted, by omega, hi⟩
    exact ⟨block, hmem, hoffset, Or.inr (by omega)⟩
  -- Nothing is free behind the allocation, so the block ends where the allocation did.
  · obtain ⟨block, hmem, hoffset, hle⟩ := exists_block_behind hvacant hafter hstop
      fun i hle hi => (hbytes i).mpr (Or.inl ⟨hle, hi⟩)
    refine ⟨block, hmem, hoffset, Or.inl (Nat.le_antisymm (Nat.le_of_not_lt fun hlong => ?_) hle)⟩
    have hfree : handle.offset + old.size ∈ (heap.shrunk handle old newSize).blocks.bytes :=
      FreeList.mem_bytes.mpr ⟨block, hmem, hoffset ▸ Nat.le_of_lt hstop, hlong⟩
    obtain ⟨_, hown⟩ | hfree := (hbytes _).mp hfree
    · exact absurd hown (Nat.lt_irrefl _)
    · exact hfollowed hfree

theorem takeTail?_shrunk : ∃ rest,
    (heap.shrunk handle old newSize).blocks.takeTail? (handle.offset + newSize)
        (old.size - newSize) = some (rest, old.size - newSize) ∧
      old.size ≤ newSize + (heap.shrunk handle old newSize).freeSize := by
  have hvacant := (shrunk_exchange hsound hoccupied hlt hlong).sound
  obtain ⟨block, hmem, hoffset, hend⟩ :=
    exists_block_given_up hsound hoccupied hlt hlong hafter
  rw [Block.stop, hoffset] at hend
  have htotal := FreeList.size_le_total hmem
  have hroom : old.size - newSize ≤ block.size := by omega
  obtain ⟨rest, htake⟩ := FreeList.takeTail?_of_mem hvacant.canonical hmem hroom
  rw [hoffset] at htake
  refine ⟨rest, htake.trans ?_, by rw [hvacant.freeSize_eq]; omega⟩
  split
  case isTrue hshort => rw [show block.size = old.size - newSize by omega]
  case isFalse => rfl

end Shrunk

theorem long_of_takeTail? (hsound : heap.Sound) (hoccupied : heap.Occupied handle old)
    (htake : heap.blocks.takeTail? (handle.offset + old.size) (newSize - old.size) =
      some (blocks, gained)) :
    headerSize ≤ gained ∨ ∃ block ∈ blocks, block.offset = handle.offset + (old.size + gained) := by
  have hrange := hoccupied.within.range
  obtain ⟨block, hoffset, hcut⟩ := FreeList.cut_of_takeTail? htake
  have hsize := hsound.canonical.long block hcut.mem
  rw [← Nat.add_assoc]
  generalize hstop : handle.offset + old.size + gained = stop at hcut
  cases hcut with
  | whole hsplit =>
    rw [Block.stop] at hstop
    exact Or.inl (by omega)
  | front hsplit => exact Or.inr ⟨_, List.mem_append_right _ List.mem_cons_self, rfl⟩

/-- There is a way back from each way of resizing an allocation in place. -/
theorem Resized.back (hresized : heap.Resized handle old newSize handle header after)
    (hsound : heap.Sound) (hoccupied : heap.Occupied handle old) (hpos : 0 < old.size)
    (hafter : after.Occupied handle header) : ∃ final,
      (Call.realloc handle old.size).run after = ⟨.ok handle, final, []⟩ ∧
        after.Resized handle header old.size handle old final := by
  have hvacant := (hresized.exchange hsound hoccupied).sound
  have hrun : (Call.realloc handle old.size).run after = _ :=
    realloc_run_of_occupied hvacant hafter hpos
  rw [hrun]
  cases hresized with
  | kept =>
    rw [if_neg (by omega), resize_run_self]
    exact ⟨heap, rfl, .kept (Nat.le_refl _) (Nat.lt_add_of_pos_right (by decide))⟩
  | shrunk hlt hlong =>
    -- What was given up is free, and asking for it back is not refused at once.
    obtain ⟨rest, htake, hroom⟩ := takeTail?_shrunk hsound hoccupied hlt hlong hafter
    rw [if_neg (Nat.not_lt_of_le hroom), resize_run_of_lt hvacant hafter hlt, htake]
    have hgrown : (heap.shrunk handle old newSize).Resized handle { old with size := newSize }
        old.size handle { old with size := newSize + (old.size - newSize) } _ := .grown hlt htake
    simp only [Nat.add_sub_cancel' (Nat.le_of_lt hlt)] at hgrown
    exact ⟨_, rfl, hgrown⟩
  | @grown blocks gained hlt htake =>
    obtain ⟨hle, _⟩ := FreeList.gained_bounds htake
    have hless : old.size < old.size + gained := by omega
    have hlong := long_of_takeTail? hsound hoccupied htake
    have hcount : headerSize ≤ old.size + gained - old.size ∨ _ :=
      hlong.imp_left fun hgained => by rwa [Nat.add_sub_cancel_left]
    rw [if_neg (by simp only; omega), resize_run_of_shrunk hvacant hafter hless hcount]
    exact ⟨_, rfl, .shrunk hless hcount⟩
  | moved hlt hstay hfit => exact absurd rfl (ne_of_moved hsound hoccupied hlt hstay hfit)

theorem realloc_run_back (hsound : heap.Sound) (hoccupied : heap.Occupied handle old)
    (hpos : 0 < old.size) (hstay : ((Call.realloc handle newSize).run heap).reply = .ok handle)
    (hafter : ((Call.realloc handle newSize).run heap).state.Occupied handle header) :
    (Call.realloc handle old.size).run ((Call.realloc handle newSize).run heap).state =
      ⟨.ok handle, heap, []⟩ := by
  have hsettles : ((Call.realloc handle newSize).run heap).Settles heap _ :=
    realloc_settles hsound handle newSize
  generalize (Call.realloc handle newSize).run heap = outcome at *
  obtain ⟨_, _, hold, hnewSize, hresized⟩ := hsettles.effect_of_reply hstay
  obtain rfl := Option.some.inj (hold.decoded.symm.trans hoccupied.decoded)
  have hthere := hresized.adjusted hsound hoccupied hnewSize
  obtain rfl := Option.some.inj (hthere.decoded.symm.trans hafter.decoded)
  obtain ⟨final, hrun, hresized'⟩ := hresized.back hsound hoccupied hpos hafter
  have hback := hresized'.adjusted hthere.exchange.sound hafter hpos
  rw [hrun, hthere.eq_of_back hback hsound hoccupied.decoded]

namespace Ledger

variable {σ : Type} {supply : Supply} {settings : HeapSettings} {state : σ} {start : Heap}
  {ledger : Ledger} {moved : Handle}

theorem mem_live_of_resized (hlive : handle ∈ ledger.live.map Holding.handle)
    (hreply : ((Call.realloc handle newSize).run ledger.heap).reply = .ok moved) :
    moved ∈ (ledger.next (.realloc handle newSize)).live.map Holding.handle := by
  obtain ⟨holding, hmem, rfl⟩ := List.mem_map.mp hlive
  rw [next_of_ok (Outcome.eq_of_reply hreply), settle, List.map_map]
  exact List.mem_map.mpr ⟨holding, hmem, by simp⟩

/-- Whatever well-behaved calls were made: if a live allocation keeps its handle when it is resized,
resizing it to the size in its header is possible again, and gives the whole heap back as it was. -/
theorem realloc_reversible (hcreated : (create supply settings state).reply = .ok start)
    (hreachable : Reachable start ledger) (hlive : handle ∈ ledger.live.map Holding.handle)
    (hstay : ((Call.realloc handle newSize).run ledger.heap).reply = .ok handle) :
    ∃ old, ((Call.header handle).run ledger.heap).reply = .ok old ∧
      (Call.realloc handle old.size).run ((Call.realloc handle newSize).run ledger.heap).state =
        ⟨.ok handle, ledger.heap, []⟩ := by
  have hbalanced := hreachable.balanced_of_created hcreated
  have hnext : (ledger.next (.realloc handle newSize)).Balanced := by
    apply (hreachable.step (.realloc handle newSize) _).balanced_of_created hcreated
    rintro _ ⟨⟩
    exact hlive
  obtain ⟨held, hheld, hsame⟩ := List.mem_map.mp (mem_live_of_resized hlive hstay)
  obtain ⟨holding, hmem, rfl⟩ := List.mem_map.mp hlive
  have hsound := hbalanced.sound
  have hoccupied := hbalanced.occupied hmem
  have hserves := hbalanced.serves holding hmem
  have hsize : 0 < holding.header.size := Nat.lt_of_lt_of_le hserves.pos hserves.le_size
  have hafter := hnext.occupied hheld
  rw [hsame] at hafter
  refine ⟨holding.header, by rw [call_header_run hoccupied.decoded], ?_⟩
  exact realloc_run_back hsound hoccupied hsize hstay hafter

/-- The allocation takes all of the 112 bytes behind it when it grows by 84: the rest would be too
short for a block. All of them are given up again. -/
theorem realloc_reversible_of_absorbed_rest :
    let start := fresh ⟨"general", 160, true⟩
    let first := next ⟨start, []⟩ (.alloc 16)
    let ledger := first.next (.overwrite ⟨0, 32⟩ 0 ⟨#[1, 2, 3]⟩)
    let grown := (Call.realloc ⟨0, 32⟩ 100).run ledger.heap
    grown.reply = .ok ⟨0, 32⟩ ∧ grown.state.blocks = [] ∧
      ((Call.header ⟨0, 32⟩).run grown.state).reply = .ok ⟨0, 128, 16, 32⟩ ∧
      ∃ old, ((Call.header ⟨0, 32⟩).run ledger.heap).reply = .ok old ∧
        (Call.realloc ⟨0, 32⟩ old.size).run grown.state = ⟨.ok ⟨0, 32⟩, ledger.heap, []⟩ := by
  intro start first ledger grown
  have hcreated : (create Supply.ample ⟨"general", 160, true⟩ ()).reply = .ok start :=
    reply_create_eq_ok_iff.mpr ⟨by decide, by decide, rfl⟩
  have hreachable : Reachable start ledger :=
    (Reachable.start.step (.alloc 16) nofun).step (.overwrite ⟨0, 32⟩ 0 ⟨#[1, 2, 3]⟩)
      (by rintro handle ⟨⟩; decide +kernel)
  exact ⟨by decide +kernel, by decide +kernel, by decide +kernel,
    realloc_reversible hcreated hreachable (by decide +kernel) (by decide +kernel)⟩

end Ledger

end Heap

end HandleAlloc
