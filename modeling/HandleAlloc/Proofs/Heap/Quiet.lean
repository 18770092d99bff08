import HandleAlloc.Proofs.Heap.Ownership
import HandleAlloc.Proofs.Words
/-!
# Heaps that nothing is written to

As long as no client writes to its allocations, the only bytes of the buffer that are not zero are
those of the live headers (`Clean`): a free or a move wipes the header it takes away, and a move
copies usable bytes, which are all zero.
-/

namespace HandleAlloc

/-- The positions of the header before an offset. -/
def Header.slot (offset : Nat) : List Nat := interval (offset - headerSize) offset

namespace Memory

/-- No byte outside of the positions holds anything. -/
def SupportedOn (memory : ByteArray) (positions : List Nat) : Prop :=
  ∀ i, byteAt memory i ≠ 0 → i ∈ positions

section SupportedOn

variable {memory data : ByteArray} {positions rest : List Nat} {header : Header}
  {offset start stop target length i : Nat}

theorem byteAt_congr {other : ByteArray} {j : Nat} (hsame : memory[i]? = other[j]?) :
    byteAt memory i = byteAt other j := by
  rw [byteAt, byteAt, hsame]

theorem byteAt_zeros (length i : Nat) : byteAt (zeros length) i = 0 := by
  rw [byteAt, getElem?_zeros]
  split <;> rfl

theorem supportedOn_zeros (length : Nat) : SupportedOn (zeros length) [] :=
  fun i hi => absurd (byteAt_zeros length i) hi

theorem SupportedOn.mono (hsupported : SupportedOn memory positions)
    (hsubset : ∀ i ∈ positions, i ∈ rest) : SupportedOn memory rest :=
  fun i hi => hsubset i (hsupported i hi)

theorem SupportedOn.store (hsupported : SupportedOn memory (Header.slot offset ++ rest))
    (hoffset : headerSize ≤ offset) :
    SupportedOn (Header.store memory offset header) (Header.slot offset ++ rest) := by
  intro i hi
  by_cases hslot : i ∈ Header.slot offset
  · exact List.mem_append_left _ hslot
  · rw [byteAt_congr (Header.getElem?_store_of_notMem hoffset hslot)] at hi
    exact hsupported i hi

theorem SupportedOn.clear (hsupported : SupportedOn memory (Header.slot offset ++ rest))
    (hrange : headerSize ≤ offset ∧ offset ≤ memory.size) :
    SupportedOn (Header.clear memory offset) rest := by
  intro i hi
  by_cases hslot : i ∈ Header.slot offset
  · -- A wiped byte is one of a run of zeros.
    have hplace := hslot
    rw [Header.slot, mem_interval] at hplace
    have hfits : offset - headerSize + (zeros headerSize).size ≤ memory.size := by
      rw [size_zeros]
      omega
    have hwiped := getElem?_write hfits i
    rw [size_zeros, if_pos (by omega)] at hwiped
    exact absurd (byteAt_zeros headerSize (i - (offset - headerSize)))
      (byteAt_congr hwiped ▸ hi)
  · rw [byteAt_congr (Header.getElem?_clear_of_notMem hrange.1 hslot)] at hi
    exact (List.mem_append.mp (hsupported i hi)).resolve_left hslot

theorem SupportedOn.copy (hsupported : SupportedOn memory positions)
    (houtside : ∀ i ∈ interval start stop, i ∉ positions) :
    SupportedOn (write memory target (memory.extract start stop)) positions := by
  intro i hi
  by_cases hplace : i ∈ interval target (target + (memory.extract start stop).size)
  · by_cases hfits : target + (memory.extract start stop).size ≤ memory.size
    · rw [mem_interval] at hplace
      have hwritten := getElem?_write hfits i
      rw [if_pos hplace] at hwritten
      have hsize : (memory.extract start stop).size = min stop memory.size - start :=
        ByteArray.size_extract
      have hcopied : (memory.extract start stop)[i - target]? = memory[start + (i - target)]? := by
        rw [getElem?_pos _ _ (by omega), getElem?_pos _ _ (by omega), ByteArray.getElem_extract]
      have hsource := hsupported (start + (i - target))
        (byteAt_congr (hwritten.trans hcopied) ▸ hi)
      exact absurd hsource (houtside _ (mem_interval.mpr (by omega)))
    · rw [write, if_neg hfits] at hi
      exact hsupported i hi
  · rw [byteAt_congr (getElem?_write_of_notMem hplace)] at hi
    exact hsupported i hi

end SupportedOn

end Memory

namespace Heap

open Memory

/-! ## What calls leave in the buffer -/

section Effects

variable {heap after : Heap} {handle moved : Handle} {old header : Header} {rest : List Nat}
  {newSize : Nat}

theorem alignedAlloc_stores (hsound : heap.Sound) (size alignment : Nat) :
    (alignedAlloc size alignment heap).Settles heap fun handle after =>
      headerSize ≤ handle.offset ∧
        ∃ header, after.memory = Header.store heap.memory handle.offset header := by
  obtain ⟨fault, hrun⟩ | ⟨fit, halignment, _, hfitting, hrun⟩ :=
    alignedAlloc_cases hsound size alignment
  · rw [hrun]
    exact .failed fault
  · rw [hrun]
    exact .done _ ⟨(grant_within hsound hfitting halignment).range.1,
      heap.grant fit size alignment, rfl⟩

theorem freed_supportedOn (hoccupied : heap.Occupied handle old)
    (hsupported : SupportedOn heap.memory (Header.slot handle.offset ++ rest)) :
    SupportedOn (heap.freed handle old).memory rest :=
  hsupported.clear hoccupied.within.range

/-- A resize writes its header, and wipes the one before if the allocation moves. -/
theorem Resized.supportedOn (hresized : heap.Resized handle old newSize moved header after)
    (hsound : heap.Sound) (hoccupied : heap.Occupied handle old)
    (hsupported : SupportedOn heap.memory (Header.slot handle.offset ++ rest))
    (husable : ∀ i ∈ interval handle.offset (handle.offset + old.size), i ∉ rest) :
    SupportedOn after.memory (Header.slot moved.offset ++ rest) := by
  have hrange := hoccupied.within.range
  cases hresized with
  | kept => exact hsupported
  | shrunk => exact hsupported.store hrange.1
  | grown => exact hsupported.store hrange.1
  | @moved fit hlt hstay hfit =>
    have hfitting := FreeList.fitting_of_bestFit? hoccupied.within.power hfit
    have hvacated := vacated_exchange hsound hoccupied
    have htarget := (grant_within hvacated.sound hfitting hoccupied.within.power).range.1
    have htransferred : SupportedOn (heap.transferred handle old fit.offset) rest :=
      (hsupported.clear hrange).copy husable
    rw [memory_relocated]
    exact (htransferred.mono fun i => List.mem_append_right _).store htarget

end Effects

/-! ## Runs without writes -/

namespace Ledger

def headerBytes (live : List Holding) : List Nat :=
  live.flatMap fun holding => Header.slot holding.handle.offset

/-- Every byte that is not zero stands in a live header. -/
def Clean (ledger : Ledger) : Prop := SupportedOn ledger.heap.memory (headerBytes ledger.live)

/-- The ledgers that well-behaved calls lead to by which clients write nothing. -/
inductive Quiet (start : Heap) : Ledger → Prop where
  | start : Quiet start ⟨start, []⟩
  | step {ledger : Ledger} {α : Type} (hquiet : Quiet start ledger) (call : Call α)
    (hallows : ledger.Allows call) (hsilent : call.isWrite = false) :
    Quiet start (ledger.next call)

theorem Quiet.reachable {start : Heap} {ledger : Ledger} (hquiet : Quiet start ledger) :
    Reachable start ledger := by
  induction hquiet with
  | start => exact .start
  | step _ call hallows _ ih => exact .step ih call hallows

section Clean

variable {α : Type} {ledger : Ledger} {start : Heap} {call : Call α} {handle : Handle}
  {left middle right : List Holding} {holding : Holding} {i size alignment : Nat}

theorem headerBytes_cons (holding : Holding) (live : List Holding) :
    headerBytes (holding :: live) = Header.slot holding.handle.offset ++ headerBytes live :=
  List.flatMap_cons

@[simp] theorem headerBytes_singleton (holding : Holding) :
    headerBytes [holding] = Header.slot holding.handle.offset :=
  List.flatMap_singleton ..

theorem mem_headerBytes_around : i ∈ headerBytes (left ++ middle ++ right) ↔
    i ∈ headerBytes middle ++ headerBytes (left ++ right) := by
  simp only [headerBytes, List.flatMap_append, List.mem_append]
  rw [or_right_comm, or_comm]

theorem Balanced.headerBytes_subset (hbalanced : Balanced ⟨ledger.heap, left ++ middle ++ right⟩)
    (hi : i ∈ headerBytes (left ++ right)) : i ∈ (left ++ right).flatMap Holding.bytes := by
  obtain ⟨other, hother, hslot⟩ := List.mem_flatMap.mp hi
  exact List.mem_flatMap.mpr
    ⟨other, hother, hbalanced.header_mem (mem_around.mpr (Or.inr hother)) hslot⟩

theorem Balanced.notMem_headerBytes (hbalanced : Balanced ⟨ledger.heap, left ++ [holding] ++ right⟩)
    (hi : i ∈ interval holding.handle.offset (holding.handle.offset + holding.header.size)) :
    i ∉ headerBytes (left ++ right) := by
  intro hheader
  have hstart := (hbalanced.serves holding (mem_around.mpr (Or.inl (by simp)))).start_le
  have hbytes : i ∈ holding.bytes := by
    rw [mem_interval] at hi
    rw [Holding.bytes, Header.mem_bytes]
    omega
  exact (hbalanced.notMem (hbalanced.headerBytes_subset hheader)).1 (by simpa using hbytes)

theorem clean_fresh (settings : HeapSettings) : Clean ⟨fresh settings, []⟩ :=
  supportedOn_zeros _

theorem next_of_isQuery (hsound : ledger.heap.Sound) (hquery : call.isQuery = true) :
    ledger.next call = ledger := by
  have hsettles := call_settles hsound call
  generalize hrun : call.run ledger.heap = outcome at hsettles
  cases hsettles with
  | failed fault => exact next_of_failed hrun
  | done events heffect =>
    cases heffect with
    | issued hrequest => cases call <;> simp_all [Call.isQuery, Call.request?]
    | resized | freed | overwritten => cases hquery
    | observed => rw [next_of_ok hrun, settle_of_isQuery hquery]

theorem Clean.next_alloc {call : Call Handle} (hclean : ledger.Clean)
    (hsound : ledger.heap.Sound)
    (hrun : call.run ledger.heap = alignedAlloc size alignment ledger.heap)
    (hrequest : call.request? = some (size, alignment))
    (hissued : ∀ handle, call.issued? handle = some handle) : (ledger.next call).Clean := by
  have hsettles := alignedAlloc_stores hsound size alignment
  rw [← hrun] at hsettles
  generalize houtcome : call.run ledger.heap = outcome at hsettles
  cases hsettles with
  | failed fault => rwa [next_of_failed houtcome]
  | @done handle after events heffect =>
    obtain ⟨hoffset, header, hmemory⟩ := heffect
    rw [next_of_ok houtcome, settle_of_request hrequest (hissued handle), Clean, hmemory,
      headerBytes_cons]
    exact (hclean.mono fun i => List.mem_append_right _).store hoffset

theorem Clean.next_realloc (hclean : ledger.Clean) (hbalanced : ledger.Balanced)
    (hmem : handle ∈ ledger.live.map Holding.handle) (newSize : Nat) :
    (ledger.next (.realloc handle newSize)).Clean := by
  have hsettles := realloc_settles hbalanced.sound handle newSize
  obtain ⟨left, holding, right, hlive, rfl, hheader, hothers⟩ := hbalanced.split hmem
  generalize houtcome : realloc holding.handle newSize ledger.heap = outcome at hsettles
  have hrun : (Call.realloc holding.handle newSize).run ledger.heap = outcome := houtcome
  cases hsettles with
  | failed fault => rwa [next_of_failed hrun]
  | done events heffect =>
    obtain ⟨old, header, hoccupied, _, hresized⟩ := heffect
    obtain rfl := Option.some.inj (hoccupied.decoded.symm.trans hheader)
    rw [Clean, hlive] at hclean
    have hsupported := hclean.mono fun i => mem_headerBytes_around.mp
    rw [headerBytes_singleton] at hsupported
    have hafter := hresized.supportedOn hbalanced.sound hoccupied hsupported fun i =>
      (hbalanced.of_live_eq hlive).notMem_headerBytes
    rw [next_of_ok hrun, hlive, settle_realloc hothers, Clean]
    apply hafter.mono
    intro i hi
    exact mem_headerBytes_around.mpr (by rwa [headerBytes_singleton])

theorem Clean.next_free (hclean : ledger.Clean) (hbalanced : ledger.Balanced)
    (hmem : handle ∈ ledger.live.map Holding.handle) : (ledger.next (.free handle)).Clean := by
  have hsettles := free_settles hbalanced.sound handle
  obtain ⟨left, holding, right, hlive, rfl, hheader, hothers⟩ := hbalanced.split hmem
  generalize houtcome : free holding.handle ledger.heap = outcome at hsettles
  have hrun : (Call.free holding.handle).run ledger.heap = outcome := houtcome
  cases hsettles with
  | failed fault => rwa [next_of_failed hrun]
  | done events heffect =>
    obtain ⟨old, hoccupied, rfl⟩ := heffect
    rw [Clean, hlive] at hclean
    have hsupported := hclean.mono fun i => mem_headerBytes_around.mp
    rw [next_of_ok hrun, hlive, settle_free hothers, Clean, List.append_nil]
    exact freed_supportedOn hoccupied (by rwa [headerBytes_singleton] at hsupported)

theorem Clean.next (hclean : ledger.Clean) (hbalanced : ledger.Balanced)
    (hallows : ledger.Allows call) (hsilent : call.isWrite = false) :
    (ledger.next call).Clean := by
  cases call with
  | alignedAlloc size alignment => exact hclean.next_alloc hbalanced.sound rfl rfl fun _ => rfl
  | alloc size => exact hclean.next_alloc hbalanced.sound rfl rfl fun _ => rfl
  | realloc handle newSize => exact hclean.next_realloc hbalanced (hallows handle rfl) newSize
  | free handle => exact hclean.next_free hbalanced (hallows handle rfl)
  | header | bytes | read =>
    rw [next_of_isQuery hbalanced.sound rfl]
    exact hclean
  | allocZero | construct | overwrite => cases hsilent

theorem Quiet.clean (hquiet : Quiet start ledger) (hstart : Balanced ⟨start, []⟩)
    (hclean : Clean ⟨start, []⟩) : ledger.Clean := by
  induction hquiet with
  | start => exact hclean
  | step hquiet call hallows hsilent ih =>
    exact ih.next (hquiet.reachable.balanced hstart).1 hallows hsilent

end Clean

end Ledger

end Heap

end HandleAlloc
