import HandleAlloc.Proofs.Heap.History
/-!
# Resizing allocations

Whichever way an allocation is resized, its first bytes are those it had (`Resized.getElem?_eq`). It
keeps its handle if it does not grow or if the bytes it lacks are free right behind it, and gets
another one else (`Resized.moved_eq_iff`). An allocation that is to grow is refused if no place is
found for it (`reply_resize_eq_error_iff`), and without a search if it has too few bytes together
with the free ones. The padding before its header is not counted there, so that a place which needs
less padding is overlooked (`padding_lt_of_refused`).
-/

namespace HandleAlloc

namespace Heap

/-! ## The bytes of a resized allocation -/

def contents (heap : Heap) (handle : Handle) (header : Header) : ByteArray :=
  heap.memory.extract handle.offset (handle.offset + header.size)

section Contents

variable {heap after : Heap} {handle moved : Handle} {old header : Header} {newSize target i : Nat}

theorem size_contents (hdecoded : heap.header? handle = some header) :
    (heap.contents handle header).size = header.size := by
  have hstop : handle.offset + header.size ≤ heap.memory.size :=
    (within_of_header? hdecoded).stop_le
  rw [contents, ByteArray.size_extract]
  omega

theorem extract_contents {count : Nat} (hle : count ≤ header.size) :
    (heap.contents handle header).extract 0 count =
      heap.memory.extract handle.offset (handle.offset + count) := by
  rw [contents, ByteArray.extract_extract, Nat.add_zero,
    Nat.min_eq_left (Nat.add_le_add_left hle _)]

/-- A move copies the bytes as they were, also where the new place overlaps the old one. -/
theorem getElem?_transferred_target (hoccupied : heap.Occupied handle old) (hi : i < old.size)
    (hroom : target + old.size ≤ heap.totalSize) :
    (heap.transferred handle old target)[target + i]? = heap.memory[handle.offset + i]? := by
  have hstop := hoccupied.within.stop_le
  simp only [totalSize] at hstop hroom
  calc
    (heap.transferred handle old target)[target + i]? =
        (Header.clear heap.memory handle.offset)[handle.offset + i]? := by
      unfold transferred
      apply Memory.getElem?_write_extract _ _ hi <;> rwa [Header.size_clear]
    _ = heap.memory[handle.offset + i]? := by
      apply Header.getElem?_clear_of_notMem hoccupied.within.range.1
      rw [mem_interval]
      omega

theorem Resized.le_size (hresized : heap.Resized handle old newSize moved header after) :
    newSize ≤ header.size := by
  cases hresized with
  | kept hle => exact hle
  | shrunk => exact Nat.le_refl _
  | grown hlt htake =>
    obtain ⟨hle, _⟩ := FreeList.gained_bounds htake
    simp only
    omega
  | moved => exact FreeList.le_carve _ _ _

theorem Resized.getElem?_eq (hresized : heap.Resized handle old newSize moved header after)
    (hsound : heap.Sound) (hoccupied : heap.Occupied handle old) (hi : i < min old.size newSize) :
    after.memory[moved.offset + i]? = heap.memory[handle.offset + i]? := by
  rw [Nat.lt_min] at hi
  have hbehind (offset : Nat) : offset + i ∉ interval (offset - headerSize) offset := by
    rw [mem_interval]
    omega
  cases hresized with
  | kept => rfl
  | shrunk | grown =>
    exact Header.getElem?_store_of_notMem hoccupied.within.range.1 (hbehind _)
  | @moved fit hlt hstay hfit =>
    have hfitting := FreeList.fitting_of_bestFit? hoccupied.within.power hfit
    have hvacated := vacated_exchange hsound hoccupied
    have hwithin := grant_within hvacated.sound hfitting hoccupied.within.power
    have hle : newSize ≤ ((heap.vacated handle old).grant fit newSize old.alignment).size :=
      FreeList.le_carve _ _ _
    have hstop := hwithin.stop_le
    rw [hvacated.totalSize_eq] at hstop
    rw [memory_relocated, Header.getElem?_store_of_notMem hwithin.range.1 (hbehind _)]
    exact getElem?_transferred_target hoccupied hi.1 (by omega)

theorem Resized.extract_eq (hresized : heap.Resized handle old newSize moved header after)
    (hsound : heap.Sound) (hoccupied : heap.Occupied handle old) (hpos : 0 < newSize) :
    (after.contents moved header).extract 0 (min old.size newSize) =
      (heap.contents handle old).extract 0 (min old.size newSize) := by
  have hroom := hresized.le_size
  have hstop : handle.offset + old.size ≤ heap.memory.size := hoccupied.within.stop_le
  have hmoved : moved.offset + header.size ≤ after.memory.size :=
    (within_of_header? (hresized.decoded hsound hoccupied hpos)).stop_le
  rw [extract_contents (by omega), extract_contents (Nat.min_le_left _ _)]
  apply ByteArray.ext_getElem
  · rw [ByteArray.size_extract, ByteArray.size_extract]
    omega
  · intro i hi hi'
    rw [ByteArray.size_extract] at hi hi'
    have hsame := hresized.getElem?_eq hsound hoccupied (i := i) (by omega)
    rw [getElem?_pos _ _ (by omega), getElem?_pos _ _ (by omega), Option.some.injEq] at hsame
    rw [ByteArray.getElem_extract, ByteArray.getElem_extract, hsame]

end Contents

/-! ## Staying in place -/

/-- The bytes that an allocation lacks are free right behind it. -/
def Extensible (heap : Heap) (handle : Handle) (old : Header) (newSize : Nat) : Prop :=
  ∃ block ∈ heap.blocks, block.offset = handle.offset + old.size ∧ newSize - old.size ≤ block.size

section Place

variable {heap after : Heap} {handle moved : Handle} {old header : Header} {block : Block}
  {fit : Fit} {newSize offset i : Nat}

theorem takeTail?_eq_none_iff_not_extensible (hsound : heap.Sound) :
    heap.blocks.takeTail? (handle.offset + old.size) (newSize - old.size) = none ↔
      ¬ heap.Extensible handle old newSize := by
  rw [FreeList.takeTail?_eq_none_iff hsound.canonical, Extensible]
  simp only [not_exists, not_and, Nat.not_le]

theorem mem_bytes_vacated (hsound : heap.Sound) (hoccupied : heap.Occupied handle old) :
    i ∈ (heap.vacated handle old).blocks.bytes ↔
      (old.start ≤ i ∧ i < handle.offset + old.size) ∨ i ∈ heap.blocks.bytes := by
  have hperm := (vacated_exchange hsound hoccupied).bytes_perm
  rw [List.nil_append] at hperm
  rw [hperm.mem_iff, List.mem_append, Header.mem_bytes]

/-- A move never ends where it starts: the bytes that the allocation gets there are free behind it,
and it would have taken them without a move. -/
theorem offset_ne_of_placed (hsound : heap.Sound) (hoccupied : heap.Occupied handle old)
    (hlt : old.size < newSize) (hstay : ¬ heap.Extensible handle old newSize)
    (hmem : block ∈ (heap.vacated handle old).blocks)
    (hplaced : block.Placed newSize old.alignment offset) : offset ≠ handle.offset := by
  rintro rfl
  have hstart := hplaced.start_le hoccupied.within.power
  have hstop := hplaced.stop_le
  have hfree (i : Nat) (hle : handle.offset + old.size ≤ i) (hi : i < handle.offset + newSize) :
      i ∈ heap.blocks.bytes := by
    have hvacated : i ∈ (heap.vacated handle old).blocks.bytes :=
      FreeList.mem_bytes.mpr ⟨block, hmem, by omega, by omega⟩
    rw [mem_bytes_vacated hsound hoccupied] at hvacated
    exact hvacated.resolve_left (by omega)
  -- These bytes lie in one free block, which cannot start before the allocation ends.
  obtain ⟨next, hnext, hbefore, hbehind⟩ := hsound.canonical.exists_block (by omega) hfree
  have hapart := hoccupied.clear next hnext
  have hown := hoccupied.within.start_lt
  apply hstay
  rw [Block.stop] at hbehind hapart
  exact ⟨next, hnext, by omega, by omega⟩

/-- An allocation keeps its handle just if it does not grow, or grows where it stands. -/
theorem Resized.moved_eq_iff (hresized : heap.Resized handle old newSize moved header after)
    (hsound : heap.Sound) (hoccupied : heap.Occupied handle old) :
    moved = handle ↔ newSize ≤ old.size ∨ heap.Extensible handle old newSize := by
  cases hresized with
  | kept hle => simp [hle]
  | shrunk hlt => simp [Nat.le_of_lt hlt]
  | grown hlt htake =>
    have hextensible : heap.Extensible handle old newSize := by
      by_contra hstay
      rw [← takeTail?_eq_none_iff_not_extensible hsound, htake] at hstay
      cases hstay
    simp [hextensible]
  | @moved fit hlt hstay hfit =>
    have hfitting := FreeList.fitting_of_bestFit? hoccupied.within.power hfit
    rw [takeTail?_eq_none_iff_not_extensible hsound] at hstay
    have hne := offset_ne_of_placed hsound hoccupied hlt hstay
      (List.mem_of_getElem? hfitting.listed) hfitting.placed
    constructor
    · rintro rfl
      exact absurd rfl hne
    · rintro (hle | hextensible)
      · exact absurd hlt (Nat.not_lt_of_le hle)
      · exact absurd hextensible hstay

theorem ne_of_moved (hsound : heap.Sound) (hoccupied : heap.Occupied handle old)
    (hlt : old.size < newSize)
    (hstay : heap.blocks.takeTail? (handle.offset + old.size) (newSize - old.size) = none)
    (hfit : (heap.vacated handle old).blocks.bestFit? newSize old.alignment = some fit) :
    ⟨0, fit.offset⟩ ≠ handle := by
  rw [ne_eq, (Resized.moved hlt hstay hfit).moved_eq_iff hsound hoccupied, not_or,
    ← takeTail?_eq_none_iff_not_extensible hsound]
  exact ⟨Nat.not_le_of_lt hlt, hstay⟩

end Place

/-! ## Refusals -/

/-- An allocation can grow: the bytes it lacks are free right behind it, or there is a place for it
once the bytes that it owns are free as well. -/
def Satisfiable (heap : Heap) (handle : Handle) (old : Header) (newSize : Nat) : Prop :=
  heap.Extensible handle old newSize ∨
    ∃ block ∈ (heap.vacated handle old).blocks, ∃ offset, block.Placed newSize old.alignment offset

section Refusal

variable {heap : Heap} {handle : Handle} {old : Header} {block : Block}
  {size alignment newSize offset : Nat}

theorem Sound.freeSize_eq (hsound : heap.Sound) : heap.freeSize = heap.blocks.total := by
  have hconserved := hsound.conserved
  rw [freeSize]
  omega

theorem Sound.bestFit?_eq_none_iff (hsound : heap.Sound) (halignment : alignment.isPowerOfTwo)
    (hword : alignment < wordSize) : heap.blocks.bestFit? size alignment = none ↔
      ¬ ∃ block ∈ heap.blocks, ∃ offset, block.Placed size alignment offset := by
  rw [FreeList.bestFit?_eq_none_iff]
  simp only [not_exists, not_and]
  apply forall₂_congr
  intro block hmem
  exact Block.place?_eq_none_iff halignment hword (hsound.stop_lt block hmem)

theorem reply_resize_eq_error_iff (hsound : heap.Sound) (hoccupied : heap.Occupied handle old)
    (hlt : old.size < newSize) :
    (resize handle old newSize heap).reply = .error (.outOfMemory heap.name newSize) ↔
      ¬ heap.Satisfiable handle old newSize := by
  have hvacated := vacated_exchange hsound hoccupied
  rw [resize_run_of_lt hsound hoccupied hlt, Satisfiable, not_or,
    ← takeTail?_eq_none_iff_not_extensible hsound,
    ← hvacated.sound.bestFit?_eq_none_iff hoccupied.within.power hoccupied.within.alignment_lt]
  cases heap.blocks.takeTail? (handle.offset + old.size) (newSize - old.size) with
  | some taken => simp
  | none => cases (heap.vacated handle old).blocks.bestFit? newSize old.alignment <;>
      simp [Outcome.failed]

/-- What is refused without a search has no room behind it, and the only places that it would have
had need less padding than the one it has. -/
theorem padding_lt_of_refused (hsound : heap.Sound) (hoccupied : heap.Occupied handle old)
    (hrefused : old.size + heap.freeSize < newSize) :
    ¬ heap.Extensible handle old newSize ∧
      ∀ block ∈ (heap.vacated handle old).blocks, ∀ offset,
        block.Placed newSize old.alignment offset →
          offset - headerSize - block.offset < handle.offset - headerSize - old.start := by
  have hfree := hsound.freeSize_eq
  constructor
  · rintro ⟨block, hmem, _, hroom⟩
    have hsize := FreeList.size_le_total hmem
    omega
  · intro block hmem offset hplaced
    have hstart := hoccupied.within.start_le
    have hnew := hplaced.start_le hoccupied.within.power
    have hstop := hplaced.stop_le
    have hsize := FreeList.size_le_total hmem
    -- The block has no more bytes than are free and the allocation owns, padding and header included.
    have hlength := (vacated_exchange hsound hoccupied).bytes_perm.length_eq
    rw [List.nil_append, List.length_append, Header.bytes, length_interval,
      FreeList.length_bytes, FreeList.length_bytes] at hlength
    rw [Block.stop] at hstop
    omega

end Refusal

/-! ## What a client sees -/

/-- An allocation that was resized to `newSize`, with its header and its bytes then, against those it
had before. -/
structure Carried (old : Header) (contents : ByteArray) (newSize : Nat) (moved : Handle)
    (header : Header) (kept : ByteArray) : Prop where
  contents_eq : kept.extract 0 (min old.size newSize) = contents.extract 0 (min old.size newSize)
  size_eq : kept.size = header.size
  le_size : newSize ≤ header.size
  size_lt : header.size < newSize + headerSize
  alignment_eq : header.alignment = old.alignment
  aligned : moved.offset % old.alignment = 0
  selfOffset_eq : header.selfOffset = moved.offset

section Client

variable {heap after : Heap} {handle moved : Handle} {old header : Header} {newSize : Nat}

theorem call_header_run (hdecoded : heap.header? handle = some header) :
    (Call.header handle).run heap = ⟨.ok header, heap, []⟩ := by
  refine (header_run handle heap).trans ?_
  rw [hdecoded]

theorem call_bytes_run (hdecoded : heap.header? handle = some header) :
    (Call.bytes handle).run heap = ⟨.ok (heap.contents handle header), heap, []⟩ := by
  rw [Call.run, Allocator.bytes_run_of_region (region_run_eq _ _), region?, hdecoded]
  rfl

theorem Resized.carried {size alignment : Nat}
    (hresized : heap.Resized handle old newSize moved header after) (hsound : heap.Sound)
    (hoccupied : heap.Occupied handle old) (hserves : old.Serves handle.offset size alignment)
    (hpos : 0 < newSize) :
    Carried old (heap.contents handle old) newSize moved header (after.contents moved header) := by
  have hmoved := hresized.serves hserves hpos
  have halignment := hserves.alignment_eq
  refine ⟨hresized.extract_eq hsound hoccupied hpos,
    size_contents (hresized.decoded hsound hoccupied hpos), hmoved.le_size, hmoved.size_lt,
    hmoved.alignment_eq.trans halignment.symm, ?_, hmoved.selfOffset_eq⟩
  rw [halignment]
  exact hmoved.aligned

end Client

namespace Ledger

section Reachable

variable {σ : Type} {supply : Supply} {settings : HeapSettings} {state : σ} {start : Heap}
  {ledger : Ledger} {handle : Handle} {newSize : Nat}

/-- A live allocation can be resized to every size that it has already, and whenever it is resized,
it keeps its bytes and its alignment; its handle changes just if the bytes it lacks are not free
right behind it. -/
theorem reachable_realloc (hcreated : (create supply settings state).reply = .ok start)
    (hreachable : Reachable start ledger) (hlive : handle ∈ ledger.live.map Holding.handle)
    (hpos : 0 < newSize) :
    let outcome := (Call.realloc handle newSize).run ledger.heap
    ∃ old contents, ((Call.header handle).run ledger.heap).reply = .ok old ∧
      ((Call.bytes handle).run ledger.heap).reply = .ok contents ∧ contents.size = old.size ∧
      (newSize ≤ old.size → outcome.reply = .ok handle) ∧
      ∀ moved, outcome.reply = .ok moved →
        (moved = handle ↔ newSize ≤ old.size ∨ ∃ block ∈ ledger.heap.blocks,
          block.offset = handle.offset + old.size ∧ newSize - old.size ≤ block.size) ∧
        ∃ header kept, ((Call.header moved).run outcome.state).reply = .ok header ∧
          ((Call.bytes moved).run outcome.state).reply = .ok kept ∧
          Carried old contents newSize moved header kept := by
  intro outcome
  have hbalanced := hreachable.balanced_of_created hcreated
  obtain ⟨holding, hmem, rfl⟩ := List.mem_map.mp hlive
  have hsound := hbalanced.sound
  have hoccupied := hbalanced.occupied hmem
  have hrun : outcome = _ := realloc_run_of_occupied hsound hoccupied hpos
  refine ⟨holding.header, ledger.heap.contents holding.handle holding.header, ?_, ?_,
    size_contents hoccupied.decoded, ?_, ?_⟩
  · rw [call_header_run hoccupied.decoded]
  · rw [call_bytes_run hoccupied.decoded]
  · intro hle
    obtain ⟨_, _, hresize, _⟩ := resize_run_of_le hsound hoccupied hle
    rw [hrun, if_neg (by omega), hresize]
  · intro moved hreply
    have hsettles : outcome.Settles ledger.heap _ := realloc_settles hsound holding.handle newSize
    rw [Outcome.eq_of_reply hreply] at hsettles
    obtain ⟨old, header, hold, _, hresized⟩ := hsettles.effect_of_ok
    obtain rfl := Option.some.inj (hold.decoded.symm.trans hoccupied.decoded)
    have hdecoded := hresized.decoded hsound hoccupied hpos
    refine ⟨hresized.moved_eq_iff hsound hoccupied, header, outcome.state.contents moved header, ?_,
      ?_, hresized.carried hsound hoccupied (hbalanced.serves holding hmem) hpos⟩
    · rw [call_header_run hdecoded]
    · rw [call_bytes_run hdecoded]

/-- An allocation moves down over the bytes of one that was freed before it, into a place that
overlaps its own. -/
theorem reachable_realloc_of_overlap :
    let start := fresh ⟨"general", 105, true⟩
    let first := next ⟨start, []⟩ (.alignedAlloc 1 1)
    let second := first.next (.alignedAlloc 40 1)
    let freed := second.next (.free ⟨0, 32⟩)
    let written := freed.next (.overwrite ⟨0, 65⟩ 0 ⟨#[7, 8, 9]⟩)
    let outcome := (Call.realloc ⟨0, 65⟩ 45).run written.heap
    outcome.reply = .ok ⟨0, 32⟩ ∧
      ∃ old contents, ((Call.header ⟨0, 65⟩).run written.heap).reply = .ok old ∧
        ((Call.bytes ⟨0, 65⟩).run written.heap).reply = .ok contents ∧ contents.size = old.size ∧
        (45 ≤ old.size → outcome.reply = .ok ⟨0, 65⟩) ∧
        ∀ moved, outcome.reply = .ok moved →
          (moved = ⟨0, 65⟩ ↔ 45 ≤ old.size ∨ ∃ block ∈ written.heap.blocks,
            block.offset = 65 + old.size ∧ 45 - old.size ≤ block.size) ∧
          ∃ header kept, ((Call.header moved).run outcome.state).reply = .ok header ∧
            ((Call.bytes moved).run outcome.state).reply = .ok kept ∧
            Carried old contents 45 moved header kept := by
  have hcreated : (create Supply.ample ⟨"general", 105, true⟩ ()).reply =
      .ok (fresh ⟨"general", 105, true⟩) :=
    reply_create_eq_ok_iff.mpr ⟨by decide, by decide, rfl⟩
  exact ⟨by decide +kernel, reachable_realloc hcreated
    ((((Reachable.start.step (.alignedAlloc 1 1) nofun).step (.alignedAlloc 40 1) nofun).step
      (.free ⟨0, 32⟩) (by rintro handle ⟨⟩; decide +kernel)).step
      (.overwrite ⟨0, 65⟩ 0 ⟨#[7, 8, 9]⟩) (by rintro handle ⟨⟩; decide +kernel))
    (by decide +kernel) (by decide)⟩

/-- Growing a live allocation is refused just if it is impossible, or more bytes are asked for than it
has and are free. The latter is decided before any search. A place that it overlooks needs less
padding than the allocation has, so it is right about allocations without padding. -/
theorem realloc_refused_iff (hcreated : (create supply settings state).reply = .ok start)
    (hreachable : Reachable start ledger) (hlive : handle ∈ ledger.live.map Holding.handle) :
    ∃ old, ((Call.header handle).run ledger.heap).reply = .ok old ∧ ∀ newSize, old.size < newSize →
      (((Call.realloc handle newSize).run ledger.heap).reply =
          .error (.outOfMemory ledger.heap.name newSize) ↔
        old.size + ledger.heap.freeSize < newSize ∨
          ¬ ledger.heap.Satisfiable handle old newSize) ∧
      (old.size + ledger.heap.freeSize < newSize → ¬ ledger.heap.Extensible handle old newSize ∧
        ∀ block ∈ (ledger.heap.vacated handle old).blocks, ∀ offset,
          block.Placed newSize old.alignment offset →
            offset - headerSize - block.offset < handle.offset - headerSize - old.start) := by
  have hbalanced := hreachable.balanced_of_created hcreated
  obtain ⟨holding, hmem, rfl⟩ := List.mem_map.mp hlive
  have hsound := hbalanced.sound
  have hoccupied := hbalanced.occupied hmem
  refine ⟨holding.header, by rw [call_header_run hoccupied.decoded], ?_⟩
  intro newSize hlt
  refine ⟨?_, padding_lt_of_refused hsound hoccupied⟩
  have hrun : (Call.realloc holding.handle newSize).run ledger.heap = _ :=
    realloc_run_of_occupied hsound hoccupied (Nat.zero_lt_of_lt hlt)
  rw [hrun, ← reply_resize_eq_error_iff hsound hoccupied hlt]
  by_cases hrefused : holding.header.size + ledger.heap.freeSize < newSize
  · simp [hrefused, Outcome.failed]
  · simp [hrefused]

/-- Padding of 63 bytes is not counted: the allocation could move down into it. -/
theorem realloc_refused_iff_of_padding :
    let start := fresh ⟨"general", 144, true⟩
    let first := next ⟨start, []⟩ (.alignedAlloc 1 1)
    let ledger := (first.next (.alignedAlloc 16 64)).next (.free ⟨0, 32⟩)
    ∃ old, ((Call.header ⟨0, 128⟩).run ledger.heap).reply = .ok old ∧
      ∀ newSize, old.size < newSize →
        (((Call.realloc ⟨0, 128⟩ newSize).run ledger.heap).reply =
            .error (.outOfMemory ledger.heap.name newSize) ↔
          old.size + ledger.heap.freeSize < newSize ∨
            ¬ ledger.heap.Satisfiable ⟨0, 128⟩ old newSize) ∧
        (old.size + ledger.heap.freeSize < newSize →
          ¬ ledger.heap.Extensible ⟨0, 128⟩ old newSize ∧
            ∀ block ∈ (ledger.heap.vacated ⟨0, 128⟩ old).blocks, ∀ offset,
              block.Placed newSize old.alignment offset →
                offset - headerSize - block.offset < 128 - headerSize - old.start) := by
  have hcreated : (create Supply.ample ⟨"general", 144, true⟩ ()).reply =
      .ok (fresh ⟨"general", 144, true⟩) :=
    reply_create_eq_ok_iff.mpr ⟨by decide, by decide, rfl⟩
  exact realloc_refused_iff hcreated
    (((Reachable.start.step (.alignedAlloc 1 1) nofun).step (.alignedAlloc 16 64) nofun).step
      (.free ⟨0, 32⟩) (by rintro handle ⟨⟩; decide +kernel))
    (by decide +kernel)

/-- A request that a move would satisfy is refused: the allocation has 16 bytes and 33 are free, but
63 more lie before its header as padding, and there is room for 60 bytes in all of them. -/
theorem satisfiable_realloc_refused :
    let start := fresh ⟨"general", 144, true⟩
    let first := next ⟨start, []⟩ (.alignedAlloc 1 1)
    let ledger := (first.next (.alignedAlloc 16 64)).next (.free ⟨0, 32⟩)
    (create Supply.ample ⟨"general", 144, true⟩ ()).reply = .ok start ∧
      Reachable start ledger ∧ ⟨0, 128⟩ ∈ ledger.live.map Holding.handle ∧
      ((Call.header ⟨0, 128⟩).run ledger.heap).reply = .ok ⟨33, 16, 64, 128⟩ ∧
      ((Call.realloc ⟨0, 128⟩ 60).run ledger.heap).reply = .error (.outOfMemory "general" 60) ∧
      ledger.heap.Satisfiable ⟨0, 128⟩ ⟨33, 16, 64, 128⟩ 60 :=
  ⟨reply_create_eq_ok_iff.mpr ⟨by decide, by decide, rfl⟩,
    ((Reachable.start.step (.alignedAlloc 1 1) nofun).step (.alignedAlloc 16 64) nofun).step
      (.free ⟨0, 32⟩) (by rintro handle ⟨⟩; decide +kernel),
    by decide +kernel, by decide +kernel, by decide +kernel,
    Or.inr ⟨⟨0, 144⟩, by decide +kernel, 64, by decide, by decide, by decide⟩⟩

end Reachable

end Ledger

end Heap

end HandleAlloc
