import HandleAlloc.Proofs.Heap.Calls
/-!
# Ledgers of live allocations

A heap keeps no list of its allocations. A `Ledger` is such a list beside the heap, brought forward
with every call of a client that passes live handles only. It is balanced (`Balanced`) if every live
header reads as it was written, and the live allocations and the free blocks tile the buffer. Every
call keeps it so: it exchanges the bytes of the allocation it operates on and no others
(`exists_turn`).
-/

namespace HandleAlloc

namespace Heap

/-- The header that the bytes before a handle spell, acceptable or not. -/
def written (heap : Heap) (handle : Handle) : Header :=
  Header.decode (heap.memory.extract (handle.offset - headerSize) handle.offset)

theorem written_eq {heap : Heap} {handle : Handle} {header : Header}
    (hdecoded : heap.header? handle = some header) : heap.written handle = header :=
  (Header.read?_eq_some_iff.mp (header?_eq_some_iff.mp hdecoded).2).2.1

/-- A live allocation. -/
structure Holding where
  handle : Handle
  /-- The number of bytes it was last made or resized for. -/
  asked : Nat
  alignment : Nat
  /-- Its header as it was last written. -/
  header : Header

def Holding.bytes (holding : Holding) : List Nat := holding.header.bytes holding.handle.offset

/-- A heap and the allocations that are live on it. -/
structure Ledger where
  heap : Heap
  live : List Holding

namespace Ledger

def settle (live : List Holding) (after : Heap) : {α : Type} → Call α → α → List Holding
  | _, .realloc handle newSize, moved => live.map fun holding =>
    if holding.handle = handle then ⟨moved, newSize, holding.alignment, after.written moved⟩
    else holding
  | _, .free handle, _ => live.filter (·.handle ≠ handle)
  | _, call, value => match call.request?, call.issued? value with
    | some (size, alignment), some handle =>
      ⟨handle, size, alignment, after.written handle⟩ :: live
    | _, _ => live

def next {α : Type} (ledger : Ledger) (call : Call α) : Ledger :=
  let outcome := call.run ledger.heap
  { heap := outcome.state
    live := match outcome.reply with
      | .ok value => settle ledger.live outcome.state call value
      | .error _ | .trap => ledger.live }

/-- A call is well-behaved if the handle it is made with is live. -/
def Allows {α : Type} (ledger : Ledger) (call : Call α) : Prop :=
  ∀ handle ∈ call.handle?, handle ∈ ledger.live.map Holding.handle

inductive Reachable (start : Heap) : Ledger → Prop where
  | start : Reachable start ⟨start, []⟩
  | step {ledger : Ledger} {α : Type} (hreachable : Reachable start ledger) (call : Call α)
    (hallows : ledger.Allows call) : Reachable start (ledger.next call)

/-- The live allocations read as they were written, serve what they were asked for, and tile the
buffer together with the free blocks. -/
structure Balanced (ledger : Ledger) : Prop where
  sound : ledger.heap.Sound
  decoded : ∀ holding ∈ ledger.live,
    ledger.heap.header? holding.handle = some holding.header
  serves : ∀ holding ∈ ledger.live,
    holding.header.Serves holding.handle.offset holding.asked holding.alignment
  tiled : (ledger.live.flatMap Holding.bytes ++ ledger.heap.blocks.bytes).Perm
    (List.range ledger.heap.totalSize)

section Balanced

theorem mem_around {α : Type} {left middle right : List α} {a : α} :
    a ∈ left ++ middle ++ right ↔ a ∈ middle ∨ a ∈ left ++ right := by
  rw [List.mem_append, List.mem_append, List.mem_append, or_right_comm, or_comm]

variable {heap after : Heap} {left lost gained right : List Holding} {holding other : Holding}
  {i : Nat}

theorem Balanced.notMem (hbalanced : Balanced ⟨heap, left ++ lost ++ right⟩)
    (hi : i ∈ (left ++ right).flatMap Holding.bytes) :
    i ∉ lost.flatMap Holding.bytes ∧ i ∉ heap.blocks.bytes := by
  -- A tiling has every position of the buffer once, so `i` is counted once in all its parts.
  have hcount : List.count i ((left ++ lost ++ right).flatMap Holding.bytes ++
      heap.blocks.bytes) ≤ 1 := by
    rw [hbalanced.tiled.count_eq]
    exact List.nodup_iff_count.mp List.nodup_range i
  have hpos := List.count_pos_iff.mpr hi
  simp only [List.flatMap_append, List.count_append] at hcount hpos
  constructor <;> rw [← List.count_eq_zero] <;> omega

theorem Balanced.notMem_exchange (hbalanced : Balanced ⟨heap, left ++ lost ++ right⟩)
    (hexchange : Exchange heap (lost.flatMap Holding.bytes) after
      (gained.flatMap Holding.bytes))
    (hi : i ∈ (left ++ right).flatMap Holding.bytes) :
    i ∉ lost.flatMap Holding.bytes ∧ i ∉ gained.flatMap Holding.bytes := by
  obtain ⟨hlost, hfree⟩ := hbalanced.notMem hi
  refine ⟨hlost, ?_⟩
  intro hgained
  have hmem := hexchange.bytes_perm.subset (List.mem_append_left _ hgained)
  exact (List.mem_append.mp hmem).elim hlost hfree

theorem Balanced.header_mem (hbalanced : Balanced ⟨heap, left⟩) (hmem : holding ∈ left)
    (hi : i ∈ interval (holding.handle.offset - headerSize) holding.handle.offset) :
    i ∈ holding.bytes := by
  have hstart := (hbalanced.serves holding hmem).start_le
  rw [mem_interval] at hi
  rw [Holding.bytes, Header.mem_bytes]
  omega

theorem Balanced.handle_ne (hbalanced : Balanced ⟨heap, left ++ [holding] ++ right⟩)
    (hother : other ∈ left ++ right) : other.handle ≠ holding.handle := by
  intro hsame
  -- The same handle reads the same header, so both would own the same bytes.
  have hlisted : holding ∈ left ++ [holding] ++ right :=
    mem_around.mpr (Or.inl (List.mem_singleton_self _))
  have hotherListed : other ∈ left ++ [holding] ++ right := mem_around.mpr (Or.inr hother)
  have hheader : other.header = holding.header := by
    have hread := hbalanced.decoded other hotherListed
    rw [hsame, hbalanced.decoded holding hlisted] at hread
    exact (Option.some.inj hread).symm
  have hbytes : other.bytes = holding.bytes := by
    rw [Holding.bytes, Holding.bytes, hsame, hheader]
  have hserves := hbalanced.serves holding hlisted
  have hstart := hserves.start_le
  have hpos := hserves.pos
  have hle := hserves.le_size
  have hfirst : holding.handle.offset ∈ holding.bytes := by
    rw [Holding.bytes, Header.mem_bytes]
    omega
  have hshared : holding.handle.offset ∈ (left ++ right).flatMap Holding.bytes :=
    List.mem_flatMap.mpr ⟨other, hother, hbytes ▸ hfirst⟩
  exact (hbalanced.notMem hshared).1 (by simpa using hfirst)

/-- An exchange of bytes between allocations that end and ones that begin keeps a ledger
balanced. -/
theorem Balanced.exchange (hbalanced : Balanced ⟨heap, left ++ lost ++ right⟩)
    (hexchange : Exchange heap (lost.flatMap Holding.bytes) after
      (gained.flatMap Holding.bytes))
    (hdecoded : ∀ holding ∈ gained, after.header? holding.handle = some holding.header)
    (hserves : ∀ holding ∈ gained,
      holding.header.Serves holding.handle.offset holding.asked holding.alignment) :
    Balanced ⟨after, left ++ gained ++ right⟩ := by
  have hkept {holding : Holding} (hmem : holding ∈ left ++ right) :
      holding ∈ left ++ lost ++ right :=
    mem_around.mpr (Or.inr hmem)
  refine ⟨hexchange.sound, ?_, ?_, ?_⟩
  · intro holding hmem
    obtain hgained | hother := mem_around.mp hmem
    · exact hdecoded holding hgained
    -- The header of another allocation stands in bytes of its own, outside of the exchange.
    · rw [hexchange.header?_eq]
      · exact hbalanced.decoded holding (hkept hother)
      · intro i hi
        have hbytes := hbalanced.header_mem (hkept hother) hi
        have hshared := List.mem_flatMap.mpr ⟨holding, hother, hbytes⟩
        exact hbalanced.notMem_exchange hexchange hshared
  · intro holding hmem
    obtain hgained | hother := mem_around.mp hmem
    · exact hserves holding hgained
    · exact hbalanced.serves holding (hkept hother)
  · have hexchanged := hexchange.bytes_perm
    have htiled := hbalanced.tiled
    rw [hexchange.totalSize_eq]
    simp only [List.perm_iff_count, List.flatMap_append, List.count_append] at hexchanged htiled ⊢
    intro i
    have hi := hexchanged i
    have hi' := htiled i
    omega

end Balanced

/-! ## Turns -/

/-- A turn of a ledger: the call ends the live allocations `lost` and begins `gained`. It was made
with the handle of the former, and issued that of the latter. -/
structure Turn {α : Type} (ledger : Ledger) (call : Call α) (left lost gained right : List Holding) :
    Prop where
  before : ledger.live = left ++ lost ++ right
  after : (ledger.next call).live = left ++ gained ++ right
  exchange : Exchange ledger.heap (lost.flatMap Holding.bytes) (ledger.next call).heap
    (gained.flatMap Holding.bytes)
  decoded : ∀ holding ∈ gained,
    (ledger.next call).heap.header? holding.handle = some holding.header
  serves : ∀ holding ∈ gained,
    holding.header.Serves holding.handle.offset holding.asked holding.alignment
  operand : ∀ holding ∈ lost, call.handle? = some holding.handle
  issued : ∀ holding ∈ gained, holding ∈ lost ∨
    ∃ value, (call.run ledger.heap).reply = .ok value ∧ call.issued? value = some holding.handle

section Turn

variable {α : Type} {ledger : Ledger} {call : Call α} {value : α} {after : Heap}
  {events : List Event} {left lost gained right live : List Holding} {holding : Holding}
  {handle moved : Handle} {header : Header} {size alignment newSize : Nat}

theorem Balanced.of_live_eq (hbalanced : ledger.Balanced) (hlive : ledger.live = live) :
    Balanced ⟨ledger.heap, live⟩ := by
  rw [← hlive]
  exact hbalanced

theorem Turn.balanced (hturn : ledger.Turn call left lost gained right)
    (hbalanced : ledger.Balanced) : (ledger.next call).Balanced := by
  have hbefore := hbalanced.of_live_eq hturn.before
  have hafter := hbefore.exchange hturn.exchange hturn.decoded hturn.serves
  rw [← hturn.after] at hafter
  exact hafter

theorem next_of_ok (hrun : call.run ledger.heap = ⟨.ok value, after, events⟩) :
    ledger.next call = ⟨after, settle ledger.live after call value⟩ := by
  simp only [next, hrun]

theorem next_of_failed {fault : Fault} (hrun : call.run ledger.heap = .failed fault ledger.heap) :
    ledger.next call = ledger := by
  simp only [next, hrun, Outcome.failed]

theorem turn_of_next_eq (hsound : ledger.heap.Sound) (hnext : ledger.next call = ledger) :
    ledger.Turn call ledger.live [] [] [] where
  before := by simp
  after := by simp [hnext]
  exchange := by
    rw [hnext]
    exact Exchange.refl hsound []
  decoded := nofun
  serves := nofun
  operand := nofun
  issued := nofun

theorem Balanced.split (hbalanced : ledger.Balanced)
    (hmem : handle ∈ ledger.live.map Holding.handle) :
    ∃ left holding right, ledger.live = left ++ [holding] ++ right ∧ holding.handle = handle ∧
      ledger.heap.header? handle = some holding.header ∧
      ∀ other ∈ left ++ right, other.handle ≠ handle := by
  obtain ⟨holding, hlisted, rfl⟩ := List.mem_map.mp hmem
  obtain ⟨left, right, hsplit⟩ := List.append_of_mem hlisted
  have hlive : ledger.live = left ++ [holding] ++ right := by rw [hsplit, List.append_cons]
  have hbefore := hbalanced.of_live_eq hlive
  exact ⟨left, holding, right, hlive, rfl, hbalanced.decoded holding hlisted,
    fun other hother => hbefore.handle_ne hother⟩

theorem Balanced.split_of_decoded (hbalanced : ledger.Balanced)
    (hmem : handle ∈ ledger.live.map Holding.handle)
    (hdecoded : ledger.heap.header? handle = some header) :
    ∃ left holding right, ledger.live = left ++ [holding] ++ right ∧ holding.handle = handle ∧
      holding.header = header ∧ ∀ other ∈ left ++ right, other.handle ≠ handle := by
  obtain ⟨left, holding, right, hlive, hhandle, hheader, hothers⟩ := hbalanced.split hmem
  exact ⟨left, holding, right, hlive, hhandle, Option.some.inj (hheader.symm.trans hdecoded),
    hothers⟩

theorem settle_of_request (hrequest : call.request? = some (size, alignment))
    (hvalue : call.issued? value = some handle) :
    settle live after call value = ⟨handle, size, alignment, after.written handle⟩ :: live := by
  cases call <;> simp_all [settle, Call.request?, Call.issued?]

theorem settle_of_isQuery (hquery : call.isQuery = true) :
    settle live after call value = live := by
  cases call <;> simp_all [settle, Call.isQuery, Call.request?]

theorem settle_realloc (hothers : ∀ other ∈ left ++ right, other.handle ≠ holding.handle) :
    settle (left ++ [holding] ++ right) after (.realloc holding.handle newSize) moved =
      left ++ [⟨moved, newSize, holding.alignment, after.written moved⟩] ++ right := by
  have hkept (live : List Holding) (hlive : ∀ other ∈ live, other.handle ≠ holding.handle) :
      settle live after (.realloc holding.handle newSize) moved = live := by
    rw [settle, List.map_congr_left fun other hother => if_neg (hlive other hother)]
    exact List.map_id' _
  rw [List.forall_mem_append] at hothers
  have hleft := hkept left hothers.1
  have hright := hkept right hothers.2
  rw [settle] at hleft hright ⊢
  rw [List.map_append, List.map_append, hleft, hright]
  simp

theorem settle_free (hothers : ∀ other ∈ left ++ right, other.handle ≠ holding.handle) :
    settle (left ++ [holding] ++ right) after (.free holding.handle) () = left ++ [] ++ right := by
  rw [List.forall_mem_append] at hothers
  have hkept (live : List Holding) (hlive : ∀ other ∈ live, other.handle ≠ holding.handle) :
      live.filter (·.handle ≠ holding.handle) = live :=
    List.filter_eq_self.mpr fun other hother => by simpa using hlive other hother
  rw [settle, List.filter_append, List.filter_append, hkept left hothers.1, hkept right hothers.2]
  simp

theorem turn_of_issued (hrun : call.run ledger.heap = ⟨.ok value, after, events⟩)
    (hrequest : call.request? = some (size, alignment))
    (hvalue : call.issued? value = some handle)
    (hissued : ledger.heap.Issued size alignment handle header after) :
    ledger.Turn call [] [] [⟨handle, size, alignment, header⟩] ledger.live := by
  have hnext := next_of_ok hrun
  rw [settle_of_request hrequest hvalue, written_eq hissued.decoded] at hnext
  refine ⟨rfl, by rw [hnext]; rfl, ?_, ?_, ?_, nofun, ?_⟩
  · rw [hnext, List.flatMap_singleton]
    exact hissued.exchange
  · rw [hnext, List.forall_mem_singleton]
    exact hissued.decoded
  · rw [List.forall_mem_singleton]
    exact hissued.serves
  · rw [List.forall_mem_singleton, hrun]
    exact Or.inr ⟨value, rfl, hvalue⟩

theorem turn_of_resized (hbalanced : ledger.Balanced)
    (hlive : ledger.live = left ++ [holding] ++ right)
    (hothers : ∀ other ∈ left ++ right, other.handle ≠ holding.handle)
    (hrun : (Call.realloc holding.handle newSize).run ledger.heap = ⟨.ok moved, after, events⟩)
    (hpos : 0 < newSize) (hoccupied : ledger.heap.Occupied holding.handle holding.header)
    (hresized : ledger.heap.Resized holding.handle holding.header newSize moved header after) :
    ledger.Turn (.realloc holding.handle newSize) left [holding]
      [⟨moved, newSize, holding.alignment, header⟩] right := by
  have hdecoded := hresized.decoded hbalanced.sound hoccupied hpos
  have hserves := hbalanced.serves holding (by rw [hlive]; simp)
  have hnext := next_of_ok hrun
  rw [hlive, settle_realloc hothers, written_eq hdecoded] at hnext
  refine ⟨hlive, by rw [hnext], ?_, ?_, ?_, ?_, ?_⟩
  · rw [hnext, List.flatMap_singleton, List.flatMap_singleton]
    exact hresized.exchange hbalanced.sound hoccupied
  · rw [hnext, List.forall_mem_singleton]
    exact hdecoded
  · rw [List.forall_mem_singleton]
    exact hresized.serves hserves hpos
  · rw [List.forall_mem_singleton]
    rfl
  · rw [List.forall_mem_singleton, hrun]
    exact Or.inr ⟨moved, rfl, rfl⟩

theorem turn_of_freed (hbalanced : ledger.Balanced)
    (hlive : ledger.live = left ++ [holding] ++ right)
    (hothers : ∀ other ∈ left ++ right, other.handle ≠ holding.handle)
    (hrun : (Call.free holding.handle).run ledger.heap =
      ⟨.ok (), ledger.heap.freed holding.handle holding.header, events⟩)
    (hoccupied : ledger.heap.Occupied holding.handle holding.header) :
    ledger.Turn (.free holding.handle) left [holding] [] right := by
  have hnext := next_of_ok hrun
  rw [hlive, settle_free hothers] at hnext
  refine ⟨hlive, by rw [hnext], ?_, nofun, nofun, ?_, nofun⟩
  · rw [hnext, List.flatMap_singleton]
    exact freed_exchange hbalanced.sound hoccupied
  · rw [List.forall_mem_singleton]
    rfl

theorem turn_of_overwritten {position : Nat} {data : ByteArray} {fits : Bool}
    (hbalanced : ledger.Balanced) (hlive : ledger.live = left ++ [holding] ++ right)
    (hrun : (Call.overwrite holding.handle position data).run ledger.heap =
      ⟨.ok fits, store ⟨0, holding.handle.offset, holding.header.size⟩ position data ledger.heap,
        events⟩) :
    ledger.Turn (.overwrite holding.handle position data) left [holding] [holding] right := by
  have hmem : holding ∈ ledger.live := by rw [hlive]; simp
  have hserves := hbalanced.serves holding hmem
  have hstart := hserves.start_le
  have hnext : ledger.next (.overwrite holding.handle position data) = _ := next_of_ok hrun
  refine ⟨hlive, by rw [hnext]; exact hlive, ?_, ?_, ?_, ?_, ?_⟩
  · rw [hnext, List.flatMap_singleton]
    exact store_owned_exchange hbalanced.sound (by omega)
  · rw [hnext, List.forall_mem_singleton]
    exact (header?_store hbalanced.sound).trans (hbalanced.decoded holding hmem)
  · rw [List.forall_mem_singleton]
    exact hserves
  · rw [List.forall_mem_singleton]
    rfl
  · exact fun _ hholding => Or.inl hholding

theorem exists_turn (hbalanced : ledger.Balanced) (hallows : ledger.Allows call) :
    ∃ left lost gained right, ledger.Turn call left lost gained right := by
  have hsettles := call_settles hbalanced.sound call
  generalize hrun : call.run ledger.heap = outcome at hsettles
  cases hsettles with
  | failed fault =>
    exact ⟨_, _, _, _, turn_of_next_eq hbalanced.sound (next_of_failed hrun)⟩
  | @done value after events heffect =>
    cases heffect with
    | issued hrequest hvalue hissued =>
      exact ⟨_, _, _, _, turn_of_issued hrun hrequest hvalue hissued⟩
    | resized hoccupied hpos hresized =>
      obtain ⟨left, holding, right, hlive, rfl, rfl, hothers⟩ :=
        hbalanced.split_of_decoded (hallows _ rfl) hoccupied.decoded
      exact ⟨_, _, _, _,
        turn_of_resized hbalanced hlive hothers hrun hpos hoccupied hresized⟩
    | freed hoccupied =>
      obtain ⟨left, holding, right, hlive, rfl, rfl, hothers⟩ :=
        hbalanced.split_of_decoded (hallows _ rfl) hoccupied.decoded
      exact ⟨_, _, _, _, turn_of_freed hbalanced hlive hothers hrun hoccupied⟩
    | overwritten hdecoded =>
      obtain ⟨left, holding, right, hlive, rfl, rfl, _⟩ :=
        hbalanced.split_of_decoded (hallows _ rfl) hdecoded
      exact ⟨_, _, _, _, turn_of_overwritten hbalanced hlive hrun⟩
    | observed hquery =>
      have hnext := next_of_ok hrun
      rw [settle_of_isQuery hquery] at hnext
      exact ⟨_, _, _, _, turn_of_next_eq hbalanced.sound hnext⟩

end Turn

end Ledger

end Heap

end HandleAlloc
