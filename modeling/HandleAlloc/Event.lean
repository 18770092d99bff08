import HandleAlloc.Cursor
import HandleAlloc.Fault
/-!
# Events

What the allocators log. An event is a value; its level, its text and its fields are
functions of it, so that statements about the log can speak of events instead of texts.
-/

namespace HandleAlloc

inductive Level where
  | trace
  | debug
  | warn
  | error
  deriving DecidableEq, Repr

def Level.text : Level → String
  | .trace => "TRACE"
  | .debug => "DEBUG"
  | .warn => "WARN"
  | .error => "ERROR"

inductive FieldValue where
  | number (value : Nat)
  | text (value : String)
  deriving DecidableEq, Repr

/-- One log line. The first argument of most is the name of the allocator. -/
inductive Event where
  | failure (fault : Fault)
  | heapInitialized (allocator : String) (totalSize : Nat)
  /-- A heap was given up while allocations were live. -/
  | heapLeaked (allocator : String) (usedSize : Nat)
  | heapDestroyed (allocator : String)
  /-- The heap handed out the bytes at `offset`; `size` is what the caller asked for. -/
  | heapAllocated (allocator : String) (offset size : Nat)
  | heapFreed (allocator : String) (offset : Nat)
  | heapRelocated (allocator : String) (source target newSize : Nat)
  | arenaInitialized (allocator : String) (inlinePage pageSize : Nat)
  | arenaRewound (allocator : String) (cursor : Cursor)
  | pageAdded (allocator : String) (page pageSize : Nat)
  | arenaAllocated (allocator : String) (handle : Handle) (size : Nat)
  | arenaFreed (allocator : String) (handle : Handle)
  | arenaDestroyed (allocator : String) (addedPages : Nat)
  | scopeOpened (allocator : String) (snapshot : Cursor)
  | suiteInitialized (persistent general : String) (generalSize : Nat)
  | suiteShuttingDown (generalInUse persistentPages : Nat)
  deriving DecidableEq, Repr

namespace Event

def level : Event → Level
  | failure .. => .error
  | heapLeaked .. => .warn
  | heapInitialized .. | heapDestroyed .. | arenaInitialized .. | arenaRewound .. | pageAdded ..
  | arenaDestroyed .. | suiteInitialized .. | suiteShuttingDown .. => .debug
  | heapAllocated .. | heapFreed .. | heapRelocated .. | arenaAllocated .. | arenaFreed ..
  | scopeOpened .. => .trace

def message : Event → String
  | failure .. => "allocator failure"
  | heapInitialized .. => "free-list allocator initialized"
  | heapLeaked .. => "free-list allocator destroyed with live allocations"
  | heapDestroyed .. => "free-list allocator destroyed"
  | heapAllocated .. | arenaAllocated .. => "alloc"
  | heapFreed .. | arenaFreed .. => "free"
  | heapRelocated .. => "relocated allocation"
  | arenaInitialized .. => "linear allocator initialized"
  | arenaRewound .. => "linear allocator rewound"
  | pageAdded .. => "new page"
  | arenaDestroyed .. => "linear allocator destroyed"
  | scopeOpened .. => "scope opened"
  | suiteInitialized .. => "allocators initialized"
  | suiteShuttingDown .. => "allocators shutting down"

/-- The named values of a log line, in the order they are written. -/
def fields : Event → List (String × FieldValue)
  | failure fault => [("error", .text fault.message)]
  | heapInitialized allocator totalSize =>
    [("allocator", .text allocator), ("total_size", .number totalSize)]
  | heapLeaked allocator usedSize =>
    [("allocator", .text allocator), ("used_size", .number usedSize)]
  | heapDestroyed allocator => [("allocator", .text allocator)]
  | heapAllocated allocator offset size =>
    [("allocator", .text allocator), ("offset", .number offset), ("size", .number size)]
  | heapFreed allocator offset => [("allocator", .text allocator), ("offset", .number offset)]
  | heapRelocated allocator source target newSize =>
    [("allocator", .text allocator), ("from", .number source), ("to", .number target),
      ("new_size", .number newSize)]
  | arenaInitialized allocator inlinePage pageSize =>
    [("allocator", .text allocator), ("inline_page", .number inlinePage),
      ("page_size", .number pageSize)]
  | arenaRewound allocator cursor =>
    [("allocator", .text allocator), ("page", .number cursor.page), ("top", .number cursor.top)]
  | pageAdded allocator page pageSize =>
    [("allocator", .text allocator), ("page", .number page), ("page_size", .number pageSize)]
  | arenaAllocated allocator handle size =>
    [("allocator", .text allocator), ("handle", .text handle.text), ("size", .number size)]
  | arenaFreed allocator handle =>
    [("allocator", .text allocator), ("handle", .text handle.text)]
  | arenaDestroyed allocator addedPages =>
    [("allocator", .text allocator), ("heap_pages", .number addedPages)]
  | scopeOpened allocator snapshot =>
    [("allocator", .text allocator), ("snapshot", .text snapshot.text)]
  | suiteInitialized persistent general generalSize =>
    [("persistent", .text persistent), ("general", .text general),
      ("general_size", .number generalSize)]
  | suiteShuttingDown generalInUse persistentPages =>
    [("general_in_use", .number generalInUse), ("persistent_pages", .number persistentPages)]

end Event

end HandleAlloc
