import HandleAlloc.Action
import HandleAlloc.Header
import HandleAlloc.PlainData
/-!
# Allocators

What every allocator offers, and what follows from it. Allocations are named by handles; the
bytes behind a handle are reached through the `Region` they occupy. Everything an allocator
itself has to supply is in the class; plain allocation, zeroed allocation and typed values are
defined from that once for all.
-/

namespace HandleAlloc

/-- The alignment of an allocation whose caller asks for none. -/
def defaultAlignment : Nat := 16

/-- The usable bytes of an allocation: `size` bytes of a page, from `offset` on. -/
structure Region where
  page : Nat
  offset : Nat
  size : Nat
  deriving DecidableEq, Repr

/-- The operations of an allocator whose state is a `σ`. -/
class Allocator (σ : Type) where
  /-- The name in log lines and faults. -/
  name : σ → String
  /-- Hands out `size` bytes at a multiple of `alignment`. -/
  alignedAlloc : (size alignment : Nat) → Action σ Handle
  /-- Resizes an allocation and keeps its leading bytes; it may move. -/
  realloc : Handle → (newSize : Nat) → Action σ Handle
  free : Handle → Action σ Unit
  header : Handle → Action σ Header
  /-- The bytes that belong to a live allocation. -/
  region : Handle → Action σ Region
  load : Region → σ → ByteArray
  /-- Puts bytes at a position of a region, if they fit there; else nothing changes. -/
  store : Region → (position : Nat) → ByteArray → σ → σ

namespace Allocator

variable {σ : Type} [Allocator σ]

def alloc (size : Nat) : Action σ Handle := alignedAlloc size defaultAlignment

def bytes (handle : Handle) : Action σ ByteArray := do
  let place ← region handle
  return load place (← get)

/-- Puts bytes at a position of a live allocation; replies whether they fitted. -/
def overwrite (handle : Handle) (position : Nat) (data : ByteArray) : Action σ Bool := do
  let place ← region handle
  modify (store place position data)
  return position + data.size ≤ place.size

def allocZero (size : Nat) : Action σ Handle := do
  let handle ← alloc size
  let place ← region handle
  modify (store place 0 (Memory.zeros place.size))
  return handle

/-- Stores a value in a new allocation of its size, or of one byte if it has none. -/
def construct {α : Type} [PlainData α] (value : α) : Action σ Handle := do
  let handle ← alloc (max (PlainData.size α) 1)
  let place ← region handle
  Action.require (PlainData.size α ≤ place.size)
  modify (store place 0 ⟨(PlainData.encode value).toArray⟩)
  return handle

/-- The value at the start of a live allocation, which has to be large enough to hold one. -/
def read {α : Type} [PlainData α] (handle : Handle) : Action σ α := do
  let contents ← bytes handle
  if PlainData.size α ≤ contents.size then
    return PlainData.decode (contents.extract 0 (PlainData.size α)).data.toList
  else
    Action.fail (.invalidHandle (name (← get)) handle)

end Allocator

/-- Refuses an alignment that is no power of two, and then a request for no bytes. -/
def checkRequest {σ : Type} (allocator : String) (size alignment : Nat) : Action σ Unit :=
  if ¬ alignment.isPowerOfTwo then Action.fail (.invalidAlignment allocator alignment)
  else if size = 0 then Action.fail (.zeroSize allocator)
  else pure ()

end HandleAlloc
