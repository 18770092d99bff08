import HandleAlloc.Allocator
import HandleAlloc.Settings
import HandleAlloc.Supply
/-!
# Arenas

An arena hands out the bytes of its pages one after the other, from a cursor that only moves
on: within the page while the request fits there, else to the start of the next one. Only the
allocation that ends at the cursor can be resized or freed. Pages are kept when the cursor is
set back, and used again.
-/

namespace HandleAlloc

structure Arena where
  name : String
  /-- Page 0, which an arena has from the start. -/
  firstPage : ByteArray
  /-- Pages 1, 2, … -/
  addedPages : List ByteArray
  cursor : Cursor
  /-- The least length of an added page. -/
  pageSize : Nat
  /-- The largest number of added pages, if there is one. -/
  maxPages : Option Nat
  /-- Whether a header has to be genuine for its handle to count as live. -/
  validate : Bool
  /-- What the system grants the next call. -/
  supply : Supply

namespace Arena

/-- The length of the first page of an arena that is given none. -/
def defaultInlinePage : Nat := 4096

def create {σ : Type} (supply : Supply) (inlinePage : Nat) (settings : ArenaSettings) :
    Action σ Arena := do
  let ⟨name, pageSize, maxPages, validate⟩ := settings
  if pageSize = 0 then
    Action.fail (.zeroSize name)
  else
    Action.emit (.arenaInitialized name inlinePage pageSize)
    let firstPage := Memory.zeros inlinePage
    return { name, firstPage, addedPages := [], cursor := .start, pageSize, maxPages, validate,
             supply }

def pages (arena : Arena) : List ByteArray := arena.firstPage :: arena.addedPages

def pageCount (arena : Arena) : Nat := arena.pages.length

def capacity (arena : Arena) : Nat := arena.pages.foldr (·.size + ·) 0

def updatePage (index : Nat) (change : ByteArray → ByteArray) (arena : Arena) : Arena :=
  match index with
  | 0 => { arena with firstPage := change arena.firstPage }
  | index + 1 => { arena with addedPages := arena.addedPages.modify index change }

theorem pages_updatePage (index : Nat) (change : ByteArray → ByteArray) (arena : Arena) :
    (arena.updatePage index change).pages = arena.pages.modify index change := by
  cases index <;> simp [updatePage, pages]

/-- The header that stands before a handle, if it is acceptable and the allocation ends at the
cursor or before it. -/
def header? (arena : Arena) (handle : Handle) : Option Header := do
  guard (handle.page ≤ arena.cursor.page)
  let page ← arena.pages[handle.page]?
  let header ← Header.read? page handle.offset arena.validate
  guard (handle.page = arena.cursor.page → handle.offset + header.size ≤ arena.cursor.top)
  return header

/-- The header before a handle, which has to be live. -/
def header (handle : Handle) : Action Arena Header := do
  let arena ← get
  match arena.header? handle with
  | some header => return header
  | none => Action.fail (.invalidHandle arena.name handle)

/-- The header before a handle, which has to be live and to end at the cursor. -/
def topHeader (handle : Handle) : Action Arena Header := do
  let header ← header handle
  let arena ← get
  if handle.page = arena.cursor.page ∧ handle.offset + header.size = arena.cursor.top then
    return header
  else
    Action.fail (.notTopOfStack arena.name handle)

private def putHeader (handle : Handle) (put : ByteArray → Nat → ByteArray) :
    Action Arena Unit := do
  let page ← Action.demand (← get).pages[handle.page]?
  Action.require (headerSize ≤ handle.offset ∧ handle.offset ≤ page.size)
  modify fun arena => arena.updatePage handle.page fun page => put page handle.offset

def storeHeader (handle : Handle) (header : Header) : Action Arena Unit :=
  putHeader handle fun page offset => Header.store page offset header

def clearHeader (handle : Handle) : Action Arena Unit := putHeader handle Header.clear

private theorem putHeader_run {handle : Handle} {put : ByteArray → Nat → ByteArray} {arena : Arena}
    {page : ByteArray} (hpage : arena.pages[handle.page]? = some page)
    (hrange : headerSize ≤ handle.offset ∧ handle.offset ≤ page.size) :
    putHeader handle put arena =
      ⟨.ok (), arena.updatePage handle.page fun page => put page handle.offset, []⟩ := by
  simp only [putHeader, Action.bind_run, Action.get_run, hpage, Action.demand, Action.pure_run,
    Action.require_run_of hrange, Action.modify_run, List.append_nil]

theorem storeHeader_run {handle : Handle} {header : Header} {arena : Arena} {page : ByteArray}
    (hpage : arena.pages[handle.page]? = some page)
    (hrange : headerSize ≤ handle.offset ∧ handle.offset ≤ page.size) :
    storeHeader handle header arena =
      ⟨.ok (), arena.updatePage handle.page fun page => Header.store page handle.offset header,
        []⟩ :=
  putHeader_run hpage hrange

theorem clearHeader_run {handle : Handle} {arena : Arena} {page : ByteArray}
    (hpage : arena.pages[handle.page]? = some page)
    (hrange : headerSize ≤ handle.offset ∧ handle.offset ≤ page.size) :
    clearHeader handle arena =
      ⟨.ok (), arena.updatePage handle.page fun page => Header.clear page handle.offset, []⟩ :=
  putHeader_run hpage hrange

def moveTo (cursor : Cursor) : Action Arena Unit := modify fun arena => { arena with cursor }

/-- Places a request at the cursor, if it fits the page. -/
def bump? (size alignment : Nat) : Action Arena (Option Handle) := do
  let ⟨index, top⟩ := (← get).cursor
  match Header.place? top size alignment with
  | none => return none
  | some offset =>
    let page ← Action.demand (← get).pages[index]?
    if page.size < offset + size then
      return none
    else
      storeHeader ⟨index, offset⟩ ⟨top, size, alignment, offset⟩
      moveTo ⟨index, offset + size⟩
      return some ⟨index, offset⟩

/-- Adds a zeroed page behind the current one, long enough for `required` bytes; `size` is what
the caller asked for. -/
def addPage (size required : Nat) : Action Arena Unit := do
  let arena ← get
  let length := max arena.pageSize required
  if arena.maxPages.any (· ≤ arena.addedPages.length) then
    Action.fail (.outOfMemory arena.name size)
  else if ¬ arena.supply.grants length then
    Action.fail (.reservationRefused arena.name length)
  else
    let index := arena.cursor.page
    Action.require (index ≤ arena.addedPages.length)
    modify fun arena =>
      { arena with addedPages := arena.addedPages.insertIdx index (Memory.zeros length) }
    Action.emit (.pageAdded arena.name (index + 1) length)

/-- Moves the cursor to the start of the next page, which is added unless there is one that
holds the request whatever its alignment costs. -/
def advance (size alignment : Nat) : Action Arena Unit := do
  let arena ← get
  let slack ← Action.word (headerSize + alignment - 1)
  match addWord? size slack with
  | none => Action.fail (.outOfMemory arena.name size)
  | some required =>
    let next := arena.cursor.page + 1
    unless arena.pages[next]?.any (required ≤ ·.size) do
      addPage size required
    moveTo ⟨next, 0⟩

/-- Places a request at the cursor, or else at the start of the next page. -/
def place (size alignment : Nat) : Action Arena Handle := do
  if let some handle ← bump? size alignment then
    return handle
  advance size alignment
  if let some handle ← bump? size alignment then
    return handle
  Action.fail (.outOfMemory (← get).name size)

def alignedAlloc (size alignment : Nat) : Action Arena Handle := do
  let name := (← get).name
  checkRequest name size alignment
  let handle ← place size alignment
  Action.emit (.arenaAllocated name handle size)
  return handle

/-- Copies `size` bytes at one handle to another one, on a later page. -/
def copyForward (source target : Handle) (size : Nat) : Action Arena Unit := do
  Action.require (source.page < target.page)
  let page ← Action.demand (← get).pages[source.page]?
  Action.require (source.offset + size ≤ page.size)
  let targetPage ← Action.demand (← get).pages[target.page]?
  Action.require (target.offset + size ≤ targetPage.size)
  let data := page.extract source.offset (source.offset + size)
  modify fun arena =>
    arena.updatePage target.page fun page => Memory.write page target.offset data

/-- Moves the topmost allocation to where `newSize` bytes fit. If that fails, the cursor goes
back to where it was. -/
def relocate (handle : Handle) (old : Header) (newSize : Nat) : Action Arena Handle := do
  let saved := (← get).cursor
  moveTo { saved with top := old.start }
  let moved ← (alignedAlloc newSize old.alignment).onFault (moveTo saved)
  copyForward handle moved old.size
  clearHeader handle
  return moved

def realloc (handle : Handle) (newSize : Nat) : Action Arena Handle := do
  let old ← topHeader handle
  if newSize = 0 then
    Action.fail (.zeroSize (← get).name)
  else if newSize = old.size then
    return handle
  else
    let page ← Action.demand (← get).pages[handle.page]?
    if (addWord? handle.offset newSize).any (· ≤ page.size) then
      storeHeader handle { old with size := newSize }
      moveTo ⟨handle.page, handle.offset + newSize⟩
      return handle
    else
      relocate handle old newSize

def free (handle : Handle) : Action Arena Unit := do
  let header ← topHeader handle
  clearHeader handle
  moveTo ⟨handle.page, header.start⟩
  Action.emit (.arenaFreed (← get).name handle)

def region (handle : Handle) : Action Arena Region := do
  let header ← header handle
  let page ← Action.demand (← get).pages[handle.page]?
  Action.require (handle.offset + header.size ≤ page.size)
  return ⟨handle.page, handle.offset, header.size⟩

def load (place : Region) (arena : Arena) : ByteArray :=
  match arena.pages[place.page]? with
  | some page => page.extract place.offset (place.offset + place.size)
  | none => ByteArray.empty

def store (place : Region) (position : Nat) (data : ByteArray) (arena : Arena) : Arena :=
  if position + data.size ≤ place.size then
    arena.updatePage place.page fun page => Memory.write page (place.offset + position) data
  else arena

/-- Sets the cursor back to an earlier one. -/
def rewind (cursor : Cursor) : Action Arena Unit := do
  Action.emit (.arenaRewound (← get).name cursor)
  moveTo cursor

/-- Takes every allocation back; the pages stay. -/
def reset : Action Arena Unit := rewind .start

def destroy : Action Arena Unit := do
  let arena ← get
  Action.emit (.arenaDestroyed arena.name arena.addedPages.length)

instance : Allocator Arena where
  name := Arena.name
  alignedAlloc := alignedAlloc
  realloc := realloc
  free := free
  header := header
  region := region
  load := load
  store := store

end Arena

end HandleAlloc
