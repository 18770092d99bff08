import HandleAlloc.Header
/-!
# Free lists

The free bytes of a buffer, as blocks in ascending order of which no two touch. A request
takes the smallest block it fits, lowest first among equals. A released span merges with the
blocks it touches, and the receipt of a release says how to take it back.
-/

namespace HandleAlloc

structure Block where
  offset : Nat
  size : Nat
  deriving DecidableEq, Repr

/-- One past the last byte of a block. -/
def Block.stop (block : Block) : Nat := block.offset + block.size

/-- Where the usable bytes of a request start if it is placed in a block, if it fits. -/
def Block.place? (block : Block) (size alignment : Nat) : Option Nat :=
  (Header.place? block.offset size alignment).filter (· + size ≤ block.stop)

/-- The free blocks of a buffer in ascending order. -/
abbrev FreeList := List Block

/-- A block chosen for a request: its position in the list, and where the usable bytes start. -/
structure Fit where
  index : Nat
  block : Block
  offset : Nat
  deriving DecidableEq, Repr

/-- How a span was released: the position of the block that holds it now, and the blocks that
were merged into that one. -/
structure Receipt where
  index : Nat
  before : Option Block
  after : Option Block
  deriving DecidableEq, Repr

namespace FreeList

def fits (blocks : FreeList) (size alignment : Nat) : List Fit :=
  blocks.zipIdx.filterMap fun (block, index) =>
    (block.place? size alignment).map (Fit.mk index block)

/-- The smallest block that a request fits, and the lowest of these. -/
def bestFit? (blocks : FreeList) (size alignment : Nat) : Option Fit :=
  (blocks.fits size alignment).minOn? (·.block.size)

/-- Takes a fitted request of `size` bytes out of the list, and gives the number of bytes it
receives: a tail too short for a header goes to the request. -/
def carve (blocks : FreeList) (fit : Fit) (size : Nat) : FreeList × Nat :=
  let stop := fit.offset + size
  let tail := fit.block.stop - stop
  if tail < headerSize then (blocks.eraseIdx fit.index, size + tail)
  else (blocks.set fit.index ⟨stop, tail⟩, size)

def startingBefore (blocks : FreeList) (position : Nat) : FreeList :=
  blocks.takeWhile (·.offset < position)

def startingFrom (blocks : FreeList) (position : Nat) : FreeList :=
  blocks.dropWhile (·.offset < position)

/-- Whether some byte from `start` up to `stop` is free, judged by the last block that starts
before `start` and the first one after. -/
def overlaps (blocks : FreeList) (start stop : Nat) : Bool :=
  (blocks.startingBefore start).getLast?.any (start < ·.stop) ||
    (blocks.startingFrom start).head?.any (·.offset < stop)

def contains (blocks : FreeList) (position : Nat) : Bool :=
  blocks.any fun block => block.offset ≤ position && position < block.stop

/-- Adds the bytes from `start` up to `stop`, merged with the blocks that touch them. -/
def release (blocks : FreeList) (start stop : Nat) : FreeList × Receipt :=
  let left := blocks.startingBefore start
  let right := blocks.startingFrom start
  let before := left.getLast?.filter (·.stop == start)
  let after := right.head?.filter (·.offset == stop)
  let left := if before.isSome then left.dropLast else left
  let right := if after.isSome then right.tail else right
  let first := (before.map Block.offset).getD start
  let last := (after.map Block.stop).getD stop
  (left ++ ⟨first, last - first⟩ :: right, ⟨left.length, before, after⟩)

/-- Takes a release back: the block that holds the span gives way to those merged into it. -/
def undo (blocks : FreeList) (receipt : Receipt) : FreeList :=
  blocks.take receipt.index ++ receipt.before.toList ++ receipt.after.toList ++
    blocks.drop (receipt.index + 1)

/-- Adds the last `count` bytes before `stop`, the end of an allocation. A block that starts
there grows downwards; else a new block is made, unless it could not hold a header. -/
def giveTail? (blocks : FreeList) (stop count : Nat) : Option FreeList :=
  let left := blocks.startingBefore stop
  match blocks.startingFrom stop with
  | next :: right =>
    if next.offset = stop then some (left ++ ⟨stop - count, next.size + count⟩ :: right)
    else if count < headerSize then none
    else some (left ++ ⟨stop - count, count⟩ :: next :: right)
  | [] => if count < headerSize then none else some (left ++ [⟨stop - count, count⟩])

/-- Takes `count` bytes from the block that starts at `stop`, the end of an allocation, and
gives the number of bytes taken: all of them when too few for a header would remain. -/
def takeTail? (blocks : FreeList) (stop count : Nat) : Option (FreeList × Nat) :=
  let left := blocks.startingBefore stop
  match blocks.startingFrom stop with
  | next :: right =>
    if next.offset = stop ∧ count ≤ next.size then
      if next.size - count < headerSize then some (left ++ right, next.size)
      else some (left ++ ⟨stop + count, next.size - count⟩ :: right, count)
    else none
  | [] => none

/-- The size of the largest block, or zero when nothing is free. -/
def largest (blocks : FreeList) : Nat := (blocks.map Block.size).max?.getD 0

def total (blocks : FreeList) : Nat := blocks.foldr (·.size + ·) 0

end FreeList

end HandleAlloc
