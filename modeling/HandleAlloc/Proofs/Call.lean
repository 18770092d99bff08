import HandleAlloc.Proofs.Action
/-!
# Calls on an allocator

Everything a client can ask of an allocator, as data, so that "whatever is called" can be said of
all allocators alike. A client writes to the bytes behind a handle by `overwrite` calls.
-/

namespace HandleAlloc

/-- A call on an allocator that replies with an `α`. -/
inductive Call : Type → Type 1 where
  | alignedAlloc (size alignment : Nat) : Call Handle
  | alloc (size : Nat) : Call Handle
  | allocZero (size : Nat) : Call Handle
  | construct {α : Type} [PlainData α] (value : α) : Call Handle
  | realloc (handle : Handle) (newSize : Nat) : Call Handle
  | free (handle : Handle) : Call Unit
  | header (handle : Handle) : Call Header
  | bytes (handle : Handle) : Call ByteArray
  | overwrite (handle : Handle) (position : Nat) (data : ByteArray) : Call Bool
  | read {α : Type} [PlainData α] (handle : Handle) : Call α

namespace Call

variable {σ α : Type} [Allocator σ]

def run : {α : Type} → Call α → Action σ α
  | _, alignedAlloc size alignment => Allocator.alignedAlloc size alignment
  | _, alloc size => Allocator.alloc size
  | _, allocZero size => Allocator.allocZero size
  | _, construct value => Allocator.construct value
  | _, realloc handle newSize => Allocator.realloc handle newSize
  | _, free handle => Allocator.free handle
  | _, header handle => Allocator.header handle
  | _, bytes handle => Allocator.bytes handle
  | _, overwrite handle position data => Allocator.overwrite handle position data
  | _, read handle => Allocator.read handle

def handle? : {α : Type} → Call α → Option Handle
  | _, realloc handle _ | _, free handle | _, header handle | _, bytes handle
  | _, overwrite handle _ _ | _, read handle => some handle
  | _, _ => none

/-- The handle of the allocation that a call resizes or takes back. -/
def taken? : {α : Type} → Call α → Option Handle
  | _, realloc handle _ | _, free handle => some handle
  | _, _ => none

def overwritten? : {α : Type} → Call α → Option Handle
  | _, overwrite handle _ _ => some handle
  | _, _ => none

/-- The size and the alignment that a new allocation is asked for with. -/
def request? : {α : Type} → Call α → Option (Nat × Nat)
  | _, alignedAlloc size alignment => some (size, alignment)
  | _, alloc size | _, allocZero size => some (size, defaultAlignment)
  | _, @construct α _ _ => some (max (PlainData.size α) 1, defaultAlignment)
  | _, _ => none

def issued? : {α : Type} → Call α → α → Option Handle
  | _, alignedAlloc _ _, handle | _, alloc _, handle | _, allocZero _, handle
  | _, construct _, handle | _, realloc _ _, handle => some handle
  | _, _, _ => none

def isQuery : {α : Type} → Call α → Bool
  | _, header _ | _, bytes _ | _, read _ => true
  | _, _ => false

/-- Whether the client puts bytes of its own into an allocation by a call. -/
def isWrite : {α : Type} → Call α → Bool
  | _, allocZero _ | _, construct _ | _, overwrite _ _ _ => true
  | _, _ => false

theorem taken?_eq_none {call : Call α} {request : Nat × Nat}
    (hrequest : call.request? = some request) : call.taken? = none := by
  cases call <;> first | rfl | cases hrequest

theorem query_settles {state : σ} {call : Call α} {place? : Handle → Option Region}
    {fault : Handle → Fault} (hquery : call.isQuery = true)
    (hheader : ∀ handle, ((Allocator.header handle : Action σ Header) state).Settles state
      fun _ after => after = state)
    (hregion : ∀ handle, (Allocator.region handle : Action σ Region) state =
      (place? handle).elim (.failed (fault handle) state) fun place => ⟨.ok place, state, []⟩) :
    (call.run state).Settles state fun _ after => after = state := by
  cases call with
  | header handle => exact hheader handle
  | bytes handle =>
    rw [run, Allocator.bytes_run_of_region (hregion handle)]
    cases place? handle with
    | none => exact .failed _
    | some place => exact .done _ rfl
  | read handle =>
    rw [run, Allocator.read_run_of_region (hregion handle)]
    cases place? handle with
    | none => exact .failed _
    | some place =>
      simp only [Option.elim_some]
      split
      · exact .done _ rfl
      · exact .failed _
  | alignedAlloc | alloc | allocZero | construct | realloc | free | overwrite => cases hquery

end Call

end HandleAlloc
