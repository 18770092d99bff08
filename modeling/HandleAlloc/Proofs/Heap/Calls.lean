import HandleAlloc.Proofs.Call
import HandleAlloc.Proofs.Heap.Execution
/-!
# What the calls on a heap do

On a sound heap every call fails and changes nothing, or has one of five effects (`call_settles`):
it issues an allocation, resizes one, takes one back, writes to the usable bytes of one, or only
looks.
-/

namespace HandleAlloc

namespace Heap

open HandleAlloc.Action

/-- An allocation was issued for a request: its bytes left the free list, and its header is
there. -/
structure Issued (heap : Heap) (size alignment : Nat) (handle : Handle) (header : Header)
    (after : Heap) : Prop where
  exchange : Exchange heap [] after (header.bytes handle.offset)
  decoded : after.header? handle = some header
  serves : header.Serves handle.offset size alignment

/-- What a call that succeeds does to a heap. -/
inductive Effect (heap : Heap) : {α : Type} → Call α → α → Heap → Prop where
  | issued {α : Type} {call : Call α} {value : α} {size alignment : Nat} {handle : Handle}
    {header : Header} {after : Heap} (hrequest : call.request? = some (size, alignment))
    (hvalue : call.issued? value = some handle)
    (hissued : heap.Issued size alignment handle header after) :
    Effect heap call value after
  | resized {handle moved : Handle} {old header : Header} {newSize : Nat} {after : Heap}
    (hoccupied : heap.Occupied handle old) (hpos : 0 < newSize)
    (hresized : heap.Resized handle old newSize moved header after) :
    Effect heap (.realloc handle newSize) moved after
  | freed {handle : Handle} {old : Header} (hoccupied : heap.Occupied handle old) :
    Effect heap (.free handle) () (heap.freed handle old)
  | overwritten {handle : Handle} {header : Header} {position : Nat} {data : ByteArray}
    {fits : Bool} (hdecoded : heap.header? handle = some header) :
    Effect heap (.overwrite handle position data) fits
      (store ⟨0, handle.offset, header.size⟩ position data heap)
  | observed {α : Type} {call : Call α} {value : α} (hquery : call.isQuery = true) :
    Effect heap call value heap

variable {heap after : Heap} {handle : Handle} {header : Header} {size alignment : Nat}

/-! ## Issuing allocations -/

theorem Issued.store (hissued : heap.Issued size alignment handle header after) (position : Nat)
    (data : ByteArray) :
    heap.Issued size alignment handle header
      (store ⟨0, handle.offset, header.size⟩ position data after) where
  exchange := by
    have hstart := hissued.serves.start_le
    have hstored : Exchange after (header.bytes handle.offset)
        (Heap.store ⟨0, handle.offset, header.size⟩ position data after)
        (header.bytes handle.offset) :=
      store_owned_exchange hissued.exchange.sound (by omega)
    exact hissued.exchange.trans hstored fun _ hi => Or.inr hi
  decoded := (header?_store hissued.exchange.sound).trans hissued.decoded
  serves := hissued.serves

theorem alignedAlloc_settles (hsound : heap.Sound) (size alignment : Nat) :
    (alignedAlloc size alignment heap).Settles heap fun handle after =>
      ∃ header, heap.Issued size alignment handle header after := by
  obtain ⟨fault, hrun⟩ | ⟨fit, halignment, hpos, hfitting, hrun⟩ :=
    alignedAlloc_cases hsound size alignment
  · rw [hrun]
    exact .failed fault
  · rw [hrun]
    exact .done _ ⟨heap.grant fit size alignment, granted_exchange hsound hfitting halignment,
      header?_granted hsound hfitting halignment hpos, grant_serves hfitting halignment hpos⟩

theorem region_run_of_decoded (hdecoded : heap.header? handle = some header) :
    region handle heap = ⟨.ok ⟨0, handle.offset, header.size⟩, heap, []⟩ := by
  rw [region_run, hdecoded]

theorem Issued.zeroed_run (hissued : heap.Issued size alignment handle header after) :
    ∃ final, (do
        let place ← (Allocator.region handle : Action Heap Region)
        modify (Allocator.store place 0 (Memory.zeros place.size))
        return handle) after = ⟨.ok handle, final, []⟩ ∧
      heap.Issued size alignment handle header final := by
  have hregion : (Allocator.region handle : Action Heap Region) after = _ :=
    region_run_of_decoded hissued.decoded
  simp only [bind_run, hregion, modify_run, pure_run]
  exact ⟨_, rfl, hissued.store _ _⟩

theorem Issued.constructed_run {α : Type} [PlainData α] (value : α)
    (hissued : heap.Issued (max (PlainData.size α) 1) alignment handle header after) :
    ∃ final, (do
        let place ← (Allocator.region handle : Action Heap Region)
        require (PlainData.size α ≤ place.size)
        modify (Allocator.store place 0 ⟨(PlainData.encode value).toArray⟩)
        return handle) after = ⟨.ok handle, final, []⟩ ∧
      heap.Issued (max (PlainData.size α) 1) alignment handle header final := by
  have hregion : (Allocator.region handle : Action Heap Region) after = _ :=
    region_run_of_decoded hissued.decoded
  have hsize : PlainData.size α ≤ header.size :=
    Nat.le_trans (Nat.le_max_left _ 1) hissued.serves.le_size
  simp only [bind_run, hregion, require_run_of hsize, modify_run, pure_run]
  exact ⟨_, rfl, hissued.store _ _⟩

theorem allocZero_settles (hsound : heap.Sound) (size : Nat) :
    ((Allocator.allocZero size : Action Heap Handle) heap).Settles heap fun handle after =>
      ∃ header, heap.Issued size defaultAlignment handle header after := by
  apply (alignedAlloc_settles hsound size defaultAlignment).bind
  rintro handle after ⟨header, hissued⟩
  obtain ⟨final, hrun, hfinal⟩ := hissued.zeroed_run
  exact ⟨handle, final, [], hrun, header, hfinal⟩

theorem construct_settles {α : Type} [PlainData α] (hsound : heap.Sound) (value : α) :
    ((Allocator.construct value : Action Heap Handle) heap).Settles heap fun handle after =>
      ∃ header, heap.Issued (max (PlainData.size α) 1) defaultAlignment handle header after := by
  apply (alignedAlloc_settles hsound _ defaultAlignment).bind
  rintro handle after ⟨header, hissued⟩
  obtain ⟨final, hrun, hfinal⟩ := hissued.constructed_run value
  exact ⟨handle, final, [], hrun, header, hfinal⟩

/-! ## All calls -/

theorem free_settles (hsound : heap.Sound) (handle : Handle) :
    (free handle heap).Settles heap fun _ after =>
      ∃ old, heap.Occupied handle old ∧ after = heap.freed handle old := by
  obtain ⟨fault, hrun⟩ | ⟨old, hoccupied, hrun⟩ := free_cases hsound handle
  · rw [hrun]
    exact .failed fault
  · rw [hrun]
    exact .done _ ⟨old, hoccupied, rfl⟩

theorem header_settles (handle : Handle) :
    (Heap.header handle heap).Settles heap fun _ after => after = heap := by
  rw [header_run]
  cases heap.header? handle with
  | none => exact .failed _
  | some header => exact .done _ rfl

def region? (heap : Heap) (handle : Handle) : Option Region :=
  (heap.header? handle).map fun header => ⟨0, handle.offset, header.size⟩

theorem region_run_eq (handle : Handle) (heap : Heap) :
    (Allocator.region handle : Action Heap Region) heap =
      (heap.region? handle).elim (.failed (.invalidHandle heap.name handle) heap) fun place =>
        ⟨.ok place, heap, []⟩ := by
  refine (region_run handle heap).trans ?_
  rw [region?]
  cases heap.header? handle <;> rfl

theorem overwrite_settles (handle : Handle) (position : Nat) (data : ByteArray) :
    ((Allocator.overwrite handle position data : Action Heap Bool) heap).Settles heap
      fun _ after => ∃ header, heap.header? handle = some header ∧
        after = store ⟨0, handle.offset, header.size⟩ position data heap := by
  rw [Allocator.overwrite_run_of_region (region_run_eq handle heap)]
  cases hplace : heap.region? handle with
  | none => exact .failed _
  | some place =>
    obtain ⟨header, hheader, rfl⟩ := Option.map_eq_some_iff.mp hplace
    exact .done _ ⟨header, hheader, rfl⟩

theorem call_settles {α : Type} (hsound : heap.Sound) (call : Call α) :
    (call.run heap).Settles heap (heap.Effect call) := by
  cases call with
  | alignedAlloc size alignment =>
    exact (alignedAlloc_settles hsound size alignment).imp fun _ _ ⟨_, hissued⟩ =>
      .issued rfl rfl hissued
  | alloc size =>
    exact (alignedAlloc_settles hsound size defaultAlignment).imp fun _ _ ⟨_, hissued⟩ =>
      .issued rfl rfl hissued
  | allocZero size =>
    exact (allocZero_settles hsound size).imp fun _ _ ⟨_, hissued⟩ => .issued rfl rfl hissued
  | construct value =>
    exact (construct_settles hsound value).imp fun _ _ ⟨_, hissued⟩ => .issued rfl rfl hissued
  | realloc handle newSize =>
    exact (realloc_settles hsound handle newSize).imp
      fun _ _ ⟨_, _, hoccupied, hpos, hresized⟩ => .resized hoccupied hpos hresized
  | free handle =>
    refine (free_settles hsound handle).imp ?_
    rintro ⟨⟩ after ⟨old, hoccupied, rfl⟩
    exact .freed hoccupied
  | overwrite handle position data =>
    refine (overwrite_settles handle position data).imp ?_
    rintro fits after ⟨header, hdecoded, rfl⟩
    exact .overwritten hdecoded
  | header | bytes | read =>
    refine (Call.query_settles rfl header_settles (region_run_eq · heap)).imp ?_
    rintro value after rfl
    exact .observed rfl

theorem run_of_header?_eq_none {α : Type} {call : Call α} (hsound : heap.Sound)
    (hhandle : call.handle? = some handle) (hnone : heap.header? handle = none) :
    call.run heap = .failed (.invalidHandle heap.name handle) heap ∨
      call.run heap = .failed (.doubleFree heap.name handle) heap := by
  have hregion := region_run_eq handle heap
  rw [region?, hnone, Option.map_none] at hregion
  cases call <;> cases hhandle
  case free =>
    have hrun := free_run hsound handle
    rw [hnone] at hrun
    simp only at hrun
    split at hrun
    · exact Or.inr hrun
    · exact Or.inl hrun
  case realloc newSize => exact Or.inl ((realloc_run hsound handle newSize).trans (by rw [hnone]))
  case header => exact Or.inl ((header_run handle heap).trans (by rw [hnone]))
  case bytes => exact Or.inl (Allocator.bytes_run_of_region hregion)
  case overwrite position data =>
    exact Or.inl (Allocator.overwrite_run_of_region hregion position data)
  case read => exact Or.inl (Allocator.read_run_of_region hregion)

theorem Effect.exchange {α : Type} {call : Call α} {value : α}
    (heffect : heap.Effect call value after) (hsound : heap.Sound) :
    ∃ lost gained, Exchange heap lost after gained := by
  cases heffect with
  | issued hrequest hvalue hissued => exact ⟨_, _, hissued.exchange⟩
  | resized hoccupied hpos hresized => exact ⟨_, _, hresized.exchange hsound hoccupied⟩
  | freed hoccupied => exact ⟨_, _, freed_exchange hsound hoccupied⟩
  | overwritten hdecoded => exact ⟨_, _, store_exchange hsound _ _ _ _⟩
  | observed => exact ⟨[], [], Exchange.refl hsound []⟩

end Heap

end HandleAlloc
