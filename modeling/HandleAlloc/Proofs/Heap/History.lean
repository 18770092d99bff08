import HandleAlloc.Proofs.Heap.Ownership
/-!
# Heaps forget their history

The free list is the canonical list of the bytes that no live allocation owns
(`Balanced.blocks_eq`), so it does not tell in which order these allocations and those before them
were made, resized and freed. A free wipes one header, which is the only other trace it leaves: live
allocations can be freed in every order, and the heap is the same afterwards (`Freed.eq_of_perm`).
-/

namespace HandleAlloc

namespace Heap

/-- The first byte that an allocation owns, and the one behind its last. -/
def Holding.span (holding : Holding) : Nat × Nat :=
  (holding.header.start, holding.handle.offset + holding.header.size)

namespace Ledger

def spans (ledger : Ledger) : List (Nat × Nat) := ledger.live.map Holding.span

section Spans

variable {ledger other : Ledger} {i : Nat}

theorem Balanced.mem_live_or_free (hbalanced : ledger.Balanced) :
    i ∈ ledger.live.flatMap Holding.bytes ∨ i ∈ ledger.heap.blocks.bytes ↔
      i < ledger.heap.totalSize := by
  rw [← List.mem_append, hbalanced.tiled.mem_iff, List.mem_range]

theorem Balanced.notMem_free (hbalanced : ledger.Balanced)
    (hi : i ∈ ledger.live.flatMap Holding.bytes) : i ∉ ledger.heap.blocks.bytes := by
  have hnodup := hbalanced.tiled.nodup_iff.mpr List.nodup_range
  exact fun hfree => (List.nodup_append.mp hnodup).2.2 i hi i hfree rfl

theorem mem_live_iff : i ∈ ledger.live.flatMap Holding.bytes ↔
    ∃ span ∈ ledger.spans, span.1 ≤ i ∧ i < span.2 := by
  simp only [spans, Holding.span, Holding.bytes, List.mem_flatMap, List.mem_map, Header.mem_bytes,
    exists_exists_and_eq_and]

theorem Balanced.mem_free_iff (hbalanced : ledger.Balanced) : i ∈ ledger.heap.blocks.bytes ↔
    i < ledger.heap.totalSize ∧ ¬ ∃ span ∈ ledger.spans, span.1 ≤ i ∧ i < span.2 := by
  rw [← hbalanced.mem_live_or_free, ← mem_live_iff]
  constructor
  · exact fun hfree => ⟨Or.inr hfree, fun hlive => hbalanced.notMem_free hlive hfree⟩
  · rintro ⟨hlive | hfree, hdead⟩
    · exact absurd hlive hdead
    · exact hfree

/-- The live spans determine what is free, and so the free list. -/
theorem Balanced.blocks_eq (hbalanced : ledger.Balanced) (hother : other.Balanced)
    (htotal : ledger.heap.totalSize = other.heap.totalSize)
    (hspans : ∀ span, span ∈ ledger.spans ↔ span ∈ other.spans) :
    ledger.heap.blocks = other.heap.blocks ∧ ledger.heap.used = other.heap.used := by
  have hblocks : ledger.heap.blocks = other.heap.blocks := by
    have hcanonical := hother.sound.canonical
    rw [← htotal] at hcanonical
    apply hbalanced.sound.canonical.eq_of_bytes hbalanced.sound.least_pos hcanonical
    intro i
    simp only [hbalanced.mem_free_iff, hother.mem_free_iff, htotal, hspans]
  have hconserved := hbalanced.sound.conserved
  have hotherConserved := hother.sound.conserved
  refine ⟨hblocks, ?_⟩
  rw [hblocks] at hconserved
  omega

end Spans

/-! ## Freeing allocations in some order -/

/-- Allocations are freed one after the other, each with success. -/
inductive Frees : Ledger → List Handle → Ledger → Prop where
  | nil (ledger : Ledger) : Frees ledger [] ledger
  | cons {ledger after : Ledger} {handle : Handle} {rest : List Handle}
    (hreply : ((Call.free handle).run ledger.heap).reply = .ok ())
    (hrest : Frees (ledger.next (.free handle)) rest after) : Frees ledger (handle :: rest) after

def wiped (memory : ByteArray) (handles : List Handle) : ByteArray :=
  handles.foldl (fun memory handle => Header.clear memory handle.offset) memory

/-- A ledger after some of its allocations were freed. -/
structure Freed (ledger : Ledger) (handles : List Handle) (after : Ledger) : Prop where
  frees : Frees ledger handles after
  balanced : after.Balanced
  live_eq : after.live = ledger.live.filter (·.handle ∉ handles)
  name_eq : after.heap.name = ledger.heap.name
  validate_eq : after.heap.validate = ledger.heap.validate
  totalSize_eq : after.heap.totalSize = ledger.heap.totalSize
  memory_eq : after.heap.memory = wiped ledger.heap.memory handles

section Frees

variable {ledger after other : Ledger} {holding : Holding} {handles order : List Handle}

theorem wiped_perm (hperm : handles.Perm order) (memory : ByteArray) :
    wiped memory handles = wiped memory order :=
  hperm.foldl_eq' (fun _ _ _ _ _ => Header.clear_comm _ _ _) memory

theorem Balanced.occupied (hbalanced : ledger.Balanced) (hmem : holding ∈ ledger.live) :
    ledger.heap.Occupied holding.handle holding.header where
  decoded := hbalanced.decoded holding hmem
  clear := by
    intro block hblock
    have hstart := (within_of_header? (hbalanced.decoded holding hmem)).start_lt
    have hbytes : block.offset < block.stop :=
      Nat.lt_add_of_pos_right (hbalanced.sound.block_pos block hblock)
    by_contra hapart
    obtain ⟨i, hlive, hfree⟩ := (exists_mem_interval_iff hstart hbytes).mpr (by omega)
    exact hbalanced.notMem_free (List.mem_flatMap.mpr ⟨holding, hmem, hlive⟩)
      (List.mem_flatMap.mpr ⟨block, hblock, hfree⟩)

theorem Balanced.free_run (hbalanced : ledger.Balanced) (hmem : holding ∈ ledger.live) :
    (Call.free holding.handle).run ledger.heap =
      ⟨.ok (), ledger.heap.freed holding.handle holding.header,
        [.heapFreed ledger.heap.name holding.handle.offset]⟩ :=
  free_run_of_occupied hbalanced.sound (hbalanced.occupied hmem)

theorem Balanced.exists_freed (hbalanced : ledger.Balanced) (hnodup : handles.Nodup)
    (hlive : ∀ handle ∈ handles, handle ∈ ledger.live.map Holding.handle) :
    ∃ after, Freed ledger handles after := by
  induction handles generalizing ledger with
  | nil =>
    have hlive : ledger.live = ledger.live.filter (·.handle ∉ []) :=
      (List.filter_eq_self.mpr (by simp)).symm
    exact ⟨ledger, .nil ledger, hbalanced, hlive, rfl, rfl, rfl, rfl⟩
  | cons handle rest ih =>
    rw [List.nodup_cons] at hnodup
    rw [List.forall_mem_cons] at hlive
    obtain ⟨holding, hmem, rfl⟩ := List.mem_map.mp hlive.1
    have hrun := hbalanced.free_run hmem
    have hnext := next_of_ok hrun
    rw [settle] at hnext
    have hallows : ledger.Allows (.free holding.handle) := by
      rintro _ ⟨⟩
      exact hlive.1
    obtain ⟨_, _, _, _, hturn⟩ := exists_turn hbalanced hallows
    -- The allocations that are still to be freed are other ones, and so still live.
    have hrest (handle : Handle) (hhandle : handle ∈ rest) :
        handle ∈ (ledger.next (.free holding.handle)).live.map Holding.handle := by
      obtain ⟨other, hother, rfl⟩ := List.mem_map.mp (hlive.2 handle hhandle)
      rw [hnext]
      refine List.mem_map_of_mem (List.mem_filter.mpr ⟨hother, ?_⟩)
      rw [decide_eq_true_iff]
      exact fun hsame => hnodup.1 (hsame ▸ hhandle)
    obtain ⟨after, hfreed⟩ := ih (hturn.balanced hbalanced) hnodup.2 hrest
    refine ⟨after, .cons (by rw [hrun]) hfreed.frees, hfreed.balanced, ?_, ?_, ?_, ?_, ?_⟩
    · rw [hfreed.live_eq, hnext, List.filter_filter]
      simp only [List.mem_cons, not_or, Bool.decide_and, Bool.and_comm]
    · exact hfreed.name_eq.trans hturn.exchange.name_eq
    · exact hfreed.validate_eq.trans hturn.exchange.validate_eq
    · exact hfreed.totalSize_eq.trans hturn.exchange.totalSize_eq
    · rw [hfreed.memory_eq, hnext]
      rfl

/-- In which order the allocations are freed is of no account. -/
theorem Freed.eq_of_perm (hfreed : Freed ledger handles after) (hother : Freed ledger order other)
    (hperm : order.Perm handles) : other = after := by
  have hlive : other.live = after.live := by
    simp only [hfreed.live_eq, hother.live_eq, hperm.mem_iff]
  have htotal := hother.totalSize_eq.trans hfreed.totalSize_eq.symm
  obtain ⟨hblocks, hused⟩ := hother.balanced.blocks_eq hfreed.balanced htotal
    fun span => by rw [spans, spans, hlive]
  have hname := hother.name_eq.trans hfreed.name_eq.symm
  have hvalidate := hother.validate_eq.trans hfreed.validate_eq.symm
  have hmemory : other.heap.memory = after.heap.memory := by
    rw [hother.memory_eq, hfreed.memory_eq, wiped_perm hperm]
  obtain ⟨⟨_, _, _, _, _⟩, _⟩ := after
  obtain ⟨⟨_, _, _, _, _⟩, _⟩ := other
  simp only at hlive hblocks hused hname hvalidate hmemory
  rw [hlive, hblocks, hused, hname, hvalidate, hmemory]

theorem Balanced.exists_frees (hbalanced : ledger.Balanced) (hnodup : handles.Nodup)
    (hlive : ∀ handle ∈ handles, handle ∈ ledger.live.map Holding.handle) :
    ∃ after, Freed ledger handles after ∧
      ∀ order : List Handle, order.Perm handles → Frees ledger order after := by
  obtain ⟨after, hfreed⟩ := hbalanced.exists_freed hnodup hlive
  refine ⟨after, hfreed, ?_⟩
  intro order hperm
  obtain ⟨other, hother⟩ := hbalanced.exists_freed (hperm.nodup_iff.mpr hnodup)
    fun handle hhandle => hlive handle (hperm.mem_iff.mp hhandle)
  rw [← hfreed.eq_of_perm hother hperm]
  exact hother.frees

theorem Balanced.nodup_handles (hbalanced : ledger.Balanced) :
    (ledger.live.map Holding.handle).Nodup := by
  have hsuffix (left right : List Holding) (hlive : ledger.live = left ++ right) :
      (right.map Holding.handle).Nodup := by
    induction right generalizing left with
    | nil => exact .nil
    | cons holding right ih =>
      rw [List.append_cons] at hlive
      rw [List.map_cons, List.nodup_cons, List.mem_map]
      refine ⟨?_, ih _ hlive⟩
      rintro ⟨other, hother, hsame⟩
      exact (hbalanced.of_live_eq hlive).handle_ne (List.mem_append_right _ hother) hsame
  exact hsuffix [] ledger.live rfl

theorem Freed.live_eq_nil (hfreed : Freed ledger (ledger.live.map Holding.handle) after) :
    after.live = [] := by
  rw [hfreed.live_eq, List.filter_eq_nil_iff]
  intro holding hmem
  simpa using ⟨holding, hmem, rfl⟩

theorem Balanced.exists_freed_newest {live : List Holding} (hbalanced : ledger.Balanced)
    (hlive : ledger.live = holding :: live) :
    ∃ after, Freed ledger [holding.handle] after ∧ after.live = live := by
  have hnodup := hbalanced.nodup_handles
  rw [hlive, List.map_cons, List.nodup_cons] at hnodup
  have hsingle : [holding.handle].Nodup := List.nodup_cons.mpr ⟨List.not_mem_nil, .nil⟩
  obtain ⟨after, hfreed⟩ := hbalanced.exists_freed hsingle (by simp [hlive])
  refine ⟨after, hfreed, ?_⟩
  rw [hfreed.live_eq, hlive, List.filter_cons_of_neg (by simp), List.filter_eq_self]
  intro other hother
  rw [decide_eq_true_iff, List.mem_singleton]
  exact fun hsame => hnodup.1 (List.mem_map.mpr ⟨other, hother, hsame⟩)

end Frees

/-! ## Resizing an allocation again and again -/

/-- An allocation is resized any number of times, each time with success; it is the first handle's,
and ends up with the last one. -/
inductive Resizes (first : Ledger) (handle : Handle) : Ledger → Handle → Prop where
  | refl : Resizes first handle first handle
  | step {ledger : Ledger} {moved target : Handle} (hresizes : Resizes first handle ledger moved)
    (newSize : Nat)
    (hreply : ((Call.realloc moved newSize).run ledger.heap).reply = .ok target) :
    Resizes first handle (ledger.next (.realloc moved newSize)) target

section Resizes

variable {α : Type} {start : Heap} {ledger last : Ledger} {call : Call α} {value : α}
  {live : List Holding} {holding : Holding} {handle moved : Handle} {newSize : Nat}

theorem live_next_of_ok (hreply : (call.run ledger.heap).reply = .ok value) :
    (ledger.next call).live = settle ledger.live (ledger.next call).heap call value := by
  simp only [next, hreply]

theorem Balanced.next_realloc (hbalanced : ledger.Balanced)
    (hlive : ledger.live = holding :: live)
    (hreply : ((Call.realloc holding.handle newSize).run ledger.heap).reply = .ok moved) :
    ∃ resized, (ledger.next (.realloc holding.handle newSize)).live = resized :: live ∧
      resized.handle = moved := by
  have hsplit : ledger.live = [] ++ [holding] ++ live := hlive
  have hnext := live_next_of_ok hreply
  rw [hsplit, settle_realloc fun _ => (hbalanced.of_live_eq hsplit).handle_ne] at hnext
  exact ⟨_, hnext, rfl⟩

theorem Resizes.reachable (hresizes : Resizes ledger handle last moved)
    (hstart : Balanced ⟨start, []⟩) (hreachable : Reachable start ledger)
    (hlive : ∃ holding, ledger.live = holding :: live ∧ holding.handle = handle) :
    Reachable start last ∧ ∃ holding, last.live = holding :: live ∧ holding.handle = moved := by
  induction hresizes with
  | refl => exact ⟨hreachable, hlive⟩
  | step _ newSize hreply ih =>
    obtain ⟨hreachable, holding, hlive, rfl⟩ := ih
    obtain ⟨hbalanced, _⟩ := hreachable.balanced hstart
    refine ⟨hreachable.step _ ?_, hbalanced.next_realloc hlive hreply⟩
    rintro _ ⟨⟩
    rw [hlive]
    exact List.mem_cons_self

/-- An allocation that was made, resized and freed leaves no trace in the free list. -/
theorem Resizes.exists_frees {size alignment : Nat} (hstart : Balanced ⟨start, []⟩)
    (hreachable : Reachable start ledger)
    (hreply : ((Call.alignedAlloc size alignment).run ledger.heap).reply = .ok handle)
    (hresizes : Resizes (ledger.next (.alignedAlloc size alignment)) handle last moved) :
    ∃ after, Frees last [moved] after ∧ after.heap.blocks = ledger.heap.blocks ∧
      after.heap.used = ledger.heap.used := by
  have hissued := hreachable.step (.alignedAlloc size alignment) nofun
  obtain ⟨hlast, holding, hlive, rfl⟩ :=
    hresizes.reachable hstart hissued ⟨_, live_next_of_ok hreply, rfl⟩
  obtain ⟨hbalanced, htotal⟩ := hreachable.balanced hstart
  obtain ⟨hlastBalanced, hlastTotal⟩ := hlast.balanced hstart
  obtain ⟨after, hfreed, hback⟩ := hlastBalanced.exists_freed_newest hlive
  have hsame := hfreed.totalSize_eq.trans (hlastTotal.trans htotal.symm)
  obtain ⟨hblocks, hused⟩ := hfreed.balanced.blocks_eq hbalanced hsame
    fun span => by rw [spans, spans, hback]
  exact ⟨after, hfreed.frees, hblocks, hused⟩

end Resizes

/-! ## Two histories -/

section History

variable {σ τ : Type} {supply otherSupply : Supply} {settings otherSettings : HeapSettings}
  {state : σ} {otherState : τ} {start otherStart : Heap} {ledger : Ledger}

/-- Two heaps of one size on which the same spans are live have the same free list. So it does not
matter in which order allocations are freed, nothing but one block remains of the free list when all
are, and an allocation that was resized and freed might as well never have been. -/
theorem reachable_history_independent
    (hcreated : (create supply settings state).reply = .ok start)
    (hother : (create otherSupply otherSettings otherState).reply = .ok otherStart)
    (htotal : settings.totalSize = otherSettings.totalSize) (hreachable : Reachable start ledger) :
    (∀ other, Reachable otherStart other → (∀ span, span ∈ ledger.spans ↔ span ∈ other.spans) →
      ledger.heap.blocks = other.heap.blocks ∧ ledger.heap.used = other.heap.used) ∧
    (∀ handles : List Handle, handles.Nodup →
      (∀ handle ∈ handles, handle ∈ ledger.live.map Holding.handle) →
      ∃ after, ∀ order : List Handle, order.Perm handles → Frees ledger order after) ∧
    (∃ after, (∀ order : List Handle, order.Perm (ledger.live.map Holding.handle) →
      Frees ledger order after) ∧
      after.heap.blocks = [⟨0, settings.totalSize⟩] ∧ after.heap.used = 0) ∧
    ∀ size alignment handle last moved,
      ((Call.alignedAlloc size alignment).run ledger.heap).reply = .ok handle →
      Resizes (ledger.next (.alignedAlloc size alignment)) handle last moved →
      ∃ after, Frees last [moved] after ∧ after.heap.blocks = ledger.heap.blocks ∧
        after.heap.used = ledger.heap.used := by
  obtain ⟨hpos, hgranted, rfl⟩ := reply_create_eq_ok_iff.mp hcreated
  obtain ⟨hotherPos, hotherGranted, rfl⟩ := reply_create_eq_ok_iff.mp hother
  have hfresh := balanced_fresh hpos hgranted
  obtain ⟨hbalanced, hsize⟩ := hreachable.balanced hfresh
  refine ⟨?_, ?_, ?_, fun size alignment handle last moved => Resizes.exists_frees hfresh hreachable⟩
  · intro other hotherReachable hspans
    obtain ⟨hotherBalanced, hotherSize⟩ :=
      hotherReachable.balanced (balanced_fresh hotherPos hotherGranted)
    rw [totalSize_fresh] at hsize hotherSize
    exact hbalanced.blocks_eq hotherBalanced (by rw [hsize, hotherSize, htotal]) hspans
  · intro handles hnodup hlive
    obtain ⟨after, _, hfrees⟩ := hbalanced.exists_frees hnodup hlive
    exact ⟨after, hfrees⟩
  · obtain ⟨after, hfreed, hfrees⟩ := hbalanced.exists_frees hbalanced.nodup_handles fun _ => id
    -- The spans are those of a heap that nothing was ever allocated on.
    obtain ⟨hblocks, hused⟩ := hfreed.balanced.blocks_eq hfresh (hfreed.totalSize_eq.trans hsize)
      fun span => by rw [spans, spans, hfreed.live_eq_nil]
    exact ⟨after, hfrees, hblocks, hused⟩

/-- Three allocations of which the first is freed, and two of which the first moves behind the other:
the same spans stay. -/
theorem reachable_history_independent_of_move :
    let start := fresh ⟨"general", 256, false⟩
    let second := next (next ⟨start, []⟩ (.alloc 16)) (.alloc 16)
    let moved := second.next (.realloc ⟨0, 32⟩ 40)
    let freed := (second.next (.alloc 40)).next (.free ⟨0, 32⟩)
    let last := (moved.next (.alignedAlloc 8 8)).next (.realloc ⟨0, 32⟩ 40)
    moved.spans.Perm freed.spans ∧
      moved.heap.blocks = freed.heap.blocks ∧ moved.heap.used = freed.heap.used ∧
      (∃ after, (∀ order : List Handle, order.Perm [⟨0, 80⟩, ⟨0, 128⟩] → Frees moved order after) ∧
        after.heap.blocks = [⟨0, 256⟩] ∧ after.heap.used = 0) ∧
      ∃ after, Frees last [⟨0, 200⟩] after ∧ after.heap.blocks = moved.heap.blocks ∧
        after.heap.used = moved.heap.used := by
  intro start second moved freed last
  have hcreated : (create Supply.ample ⟨"general", 256, false⟩ ()).reply = .ok start :=
    reply_create_eq_ok_iff.mpr ⟨by decide, by decide, rfl⟩
  have hsecond : Reachable start second :=
    (Reachable.start.step (.alloc 16) nofun).step (.alloc 16) nofun
  have hmoved : Reachable start moved := hsecond.step (.realloc ⟨0, 32⟩ 40) (by
    rintro handle ⟨⟩
    decide +kernel)
  have hfreed : Reachable start freed :=
    (hsecond.step (.alloc 40) nofun).step (.free ⟨0, 32⟩) (by
      rintro handle ⟨⟩
      decide +kernel)
  have hspans : moved.spans.Perm freed.spans := by decide +kernel
  have hhandles : moved.live.map Holding.handle = [⟨0, 80⟩, ⟨0, 128⟩] := by decide +kernel
  have hissued : ((Call.alignedAlloc 8 8).run moved.heap).reply = .ok ⟨0, 32⟩ := by decide +kernel
  have hresizes : Resizes (moved.next (.alignedAlloc 8 8)) ⟨0, 32⟩ last ⟨0, 200⟩ :=
    Resizes.refl.step 40 (by decide +kernel)
  obtain ⟨hsame, _, hall, hnone⟩ := reachable_history_independent hcreated hcreated rfl hmoved
  rw [hhandles] at hall
  obtain ⟨hblocks, hused⟩ := hsame freed hfreed fun _ => hspans.mem_iff
  exact ⟨hspans, hblocks, hused, hall, hnone 8 8 _ last _ hissued hresizes⟩

end History

end Ledger

end Heap

end HandleAlloc
