import HandleAlloc.Allocator
import HandleAlloc.FreeList
import HandleAlloc.Settings
import HandleAlloc.Supply
/-!
# Heaps

A heap hands out the bytes of one fixed buffer in any order. It keeps a list of the free
blocks and a count of the used bytes; what it knows of an allocation stands in the header
before it, in the buffer itself.
-/

namespace HandleAlloc

structure Heap where
  name : String
  memory : ByteArray
  /-- The number of bytes that allocations own, headers and padding included. -/
  used : Nat
  blocks : FreeList
  /-- Whether a header has to be genuine for its handle to count as live. -/
  validate : Bool

namespace Heap

/-- Reserves a buffer, all of it free. -/
def create {σ : Type} (supply : Supply) (settings : HeapSettings) : Action σ Heap := do
  let ⟨name, totalSize, validate⟩ := settings
  if totalSize = 0 then
    Action.fail (.zeroSize name)
  else if ¬ supply.grants totalSize then
    Action.fail (.reservationRefused name totalSize)
  else
    Action.emit (.heapInitialized name totalSize)
    let memory := Memory.zeros totalSize
    return { name, memory, used := 0, blocks := [⟨0, totalSize⟩], validate }

def totalSize (heap : Heap) : Nat := heap.memory.size

def freeSize (heap : Heap) : Nat := heap.totalSize - heap.used

/-- The header that stands before a handle, if it is acceptable. -/
def header? (heap : Heap) (handle : Handle) : Option Header :=
  if handle.page = 0 then Header.read? heap.memory handle.offset heap.validate else none

/-- Whether the bytes in which a handle's header would stand start in a free block. -/
def headerSlotIsFree (heap : Heap) (handle : Handle) : Bool :=
  handle.page = 0 && headerSize ≤ handle.offset &&
    heap.blocks.contains (handle.offset - headerSize)

/-- The header before a handle, which has to be live. -/
def header (handle : Handle) : Action Heap Header := do
  let heap ← get
  match heap.header? handle with
  | some header => return header
  | none => Action.fail (.invalidHandle heap.name handle)

private def putHeader (offset : Nat) (put : ByteArray → Nat → ByteArray) : Action Heap Unit := do
  Action.require (headerSize ≤ offset ∧ offset ≤ (← get).totalSize)
  modify fun heap => { heap with memory := put heap.memory offset }

def storeHeader (offset : Nat) (header : Header) : Action Heap Unit :=
  putHeader offset fun memory offset => Header.store memory offset header

def clearHeader (offset : Nat) : Action Heap Unit := putHeader offset Header.clear

private theorem putHeader_run {offset : Nat} {put : ByteArray → Nat → ByteArray} {heap : Heap}
    (hrange : headerSize ≤ offset ∧ offset ≤ heap.totalSize) :
    putHeader offset put heap =
      ⟨.ok (), { heap with memory := put heap.memory offset }, []⟩ := by
  simp only [putHeader, Action.bind_run, Action.get_run, Action.require_run_of hrange,
    Action.modify_run, List.append_nil]

theorem storeHeader_run {offset : Nat} {header : Header} {heap : Heap}
    (hrange : headerSize ≤ offset ∧ offset ≤ heap.totalSize) :
    storeHeader offset header heap =
      ⟨.ok (), { heap with memory := Header.store heap.memory offset header }, []⟩ :=
  putHeader_run hrange

theorem clearHeader_run {offset : Nat} {heap : Heap}
    (hrange : headerSize ≤ offset ∧ offset ≤ heap.totalSize) :
    clearHeader offset heap = ⟨.ok (), { heap with memory := Header.clear heap.memory offset }, []⟩ :=
  putHeader_run hrange

/-- Copies the bytes from `start` up to `stop` to `target`; the two places may overlap. -/
def move (start stop target : Nat) : Action Heap Unit := do
  let heap ← get
  Action.require (start ≤ stop ∧ stop ≤ heap.totalSize ∧ target + (stop - start) ≤ heap.totalSize)
  modify fun heap =>
    { heap with memory := Memory.write heap.memory target (heap.memory.extract start stop) }

/-- Takes a fitted request out of the free list. The header that describes the allocation is
not stored yet, so that the bytes it moves to may still be overwritten. -/
def claim (fit : Fit) (size alignment : Nat) : Action Heap Header := do
  let stop ← Action.word (fit.offset + size)
  Action.require ((← get).blocks[fit.index]? = some fit.block ∧ stop ≤ fit.block.stop)
  let (blocks, granted) := (← get).blocks.carve fit size
  let header : Header := ⟨fit.block.offset, granted, alignment, fit.offset⟩
  let span ← Action.demand header.span
  let used ← Action.word ((← get).used + span)
  modify fun heap => { heap with blocks, used }
  return header

def alignedAlloc (size alignment : Nat) : Action Heap Handle := do
  let name := (← get).name
  checkRequest name size alignment
  match (← get).blocks.bestFit? size alignment with
  | none => Action.fail (.outOfMemory name size)
  | some fit =>
    let header ← claim fit size alignment
    storeHeader header.selfOffset header
    Action.emit (.heapAllocated name header.selfOffset size)
    return ⟨0, header.selfOffset⟩

/-- Gives the end of an allocation back, so that `newSize` of its bytes remain. Too few bytes
for a free block stay with it. -/
def shrink (handle : Handle) (header : Header) (newSize : Nat) : Action Heap Unit := do
  let count := header.size - newSize
  match (← get).blocks.giveTail? (handle.offset + header.size) count with
  | none => return ()
  | some blocks =>
    let used ← Action.minus (← get).used count
    modify fun heap => { heap with blocks, used }
    storeHeader handle.offset { header with size := newSize }

/-- Extends an allocation to `newSize` bytes where it stands; replies whether the free block
behind it was there and large enough. -/
def grow (handle : Handle) (header : Header) (newSize : Nat) : Action Heap Bool := do
  let stop := handle.offset + header.size
  match (← get).blocks.takeTail? stop (newSize - header.size) with
  | none => return false
  | some (blocks, gained) =>
    let used ← Action.word ((← get).used + gained)
    modify fun heap => { heap with blocks, used }
    storeHeader handle.offset { header with size := header.size + gained }
    return true

/-- Moves an allocation to the best fit for `newSize` bytes. Its own bytes count as free in
the search, and are taken back if that finds nothing. The span is measured from the handle, as
the offset in the header may be forged. -/
def relocate (handle : Handle) (old : Header) (newSize : Nat) : Action Heap Handle := do
  let stop := handle.offset + old.size
  let name := (← get).name
  let used := (← get).used
  let span ← Action.minus stop old.start
  let rest ← Action.minus used span
  let (blocks, receipt) := (← get).blocks.release old.start stop
  modify fun heap => { heap with blocks, used := rest }
  match blocks.bestFit? newSize old.alignment with
  | none =>
    Action.require (receipt.index < blocks.length)
    modify fun heap => { heap with blocks := heap.blocks.undo receipt, used }
    Action.fail (.outOfMemory name newSize)
  | some fit =>
    let moved ← claim fit newSize old.alignment
    clearHeader handle.offset
    move handle.offset stop moved.selfOffset
    storeHeader moved.selfOffset moved
    Action.emit (.heapRelocated name handle.offset moved.selfOffset newSize)
    return ⟨0, moved.selfOffset⟩

/-- Resizes an allocation where it stands or, failing that, elsewhere. -/
def resize (handle : Handle) (old : Header) (newSize : Nat) : Action Heap Handle := do
  if newSize = old.size then
    return handle
  else if newSize < old.size then
    shrink handle old newSize
    return handle
  else if ← grow handle old newSize then
    return handle
  else
    relocate handle old newSize

def realloc (handle : Handle) (newSize : Nat) : Action Heap Handle := do
  let name := (← get).name
  let old ← header handle
  let stop ← Action.word (handle.offset + old.size)
  if (← get).blocks.overlaps old.start stop then
    Action.fail (.invalidHandle name handle)
  else if newSize = 0 then
    Action.fail (.zeroSize name)
  else
    let free ← Action.minus (← get).totalSize (← get).used
    if (addWord? old.size free).any (· < newSize) then
      Action.fail (.outOfMemory name newSize)
    else
      resize handle old newSize

def free (handle : Handle) : Action Heap Unit := do
  let heap ← get
  match heap.header? handle with
  | none =>
    if heap.headerSlotIsFree handle then
      Action.fail (.doubleFree heap.name handle)
    else
      Action.fail (.invalidHandle heap.name handle)
  | some header =>
    let stop ← Action.word (handle.offset + header.size)
    if heap.blocks.overlaps header.start stop then
      Action.fail (.doubleFree heap.name handle)
    else
      let span ← Action.minus stop header.start
      let used ← Action.minus heap.used span
      clearHeader handle.offset
      modify fun heap =>
        { heap with blocks := (heap.blocks.release header.start stop).1, used }
      Action.emit (.heapFreed heap.name handle.offset)

def region (handle : Handle) : Action Heap Region := do
  let header ← header handle
  Action.require (handle.offset + header.size ≤ (← get).totalSize)
  return ⟨0, handle.offset, header.size⟩

def load (place : Region) (heap : Heap) : ByteArray :=
  heap.memory.extract place.offset (place.offset + place.size)

def store (place : Region) (position : Nat) (data : ByteArray) (heap : Heap) : Heap :=
  if position + data.size ≤ place.size then
    { heap with memory := Memory.write heap.memory (place.offset + position) data }
  else heap

/-- Gives the buffer up, and reports the bytes that are still in use. -/
def destroy : Action Heap Unit := do
  let heap ← get
  Action.emit <|
    if heap.used > 0 then .heapLeaked heap.name heap.used else .heapDestroyed heap.name

instance : Allocator Heap where
  name := Heap.name
  alignedAlloc := alignedAlloc
  realloc := realloc
  free := free
  header := header
  region := region
  load := load
  store := store

end Heap

end HandleAlloc
