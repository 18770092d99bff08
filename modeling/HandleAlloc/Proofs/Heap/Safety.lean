import HandleAlloc.Proofs.Heap.Calls
/-!
# Safety of heaps

Whatever is called on a heap, with whatever handles, and whatever is written to the bytes behind
them: no call traps, the heap stays sound, and a call that fails leaves it as it was. A handle whose
header would lie in free bytes is rejected, so that nothing is freed twice while it is free.
-/

namespace HandleAlloc

namespace Heap

/-- The heap that `create` replies with: one free block. -/
def fresh (settings : HeapSettings) : Heap where
  name := settings.name
  memory := Memory.zeros settings.totalSize
  used := 0
  blocks := [⟨0, settings.totalSize⟩]
  validate := settings.validateHeaders

/-- The heaps that calls lead to. The handles need not have been issued. -/
inductive Reachable (start : Heap) : Heap → Prop where
  | start : Reachable start start
  | step {heap : Heap} {α : Type} (hreachable : Reachable start heap) (call : Call α) :
    Reachable start (call.run heap).state

section Safety

variable {σ α : Type} {supply : Supply} {settings : HeapSettings} {state : σ}
  {start heap : Heap}

theorem totalSize_fresh (settings : HeapSettings) :
    (fresh settings).totalSize = settings.totalSize :=
  Memory.size_zeros _

theorem reply_create_eq_ok_iff : (create supply settings state).reply = .ok start ↔
    0 < settings.totalSize ∧ supply.grants settings.totalSize = true ∧
      start = fresh settings := by
  unfold create
  simp only
  split
  case isTrue hzero => simp [Action.fail_run, hzero]
  case isFalse hpos =>
    split
    case isTrue hrefused =>
      simp only [Bool.not_eq_true] at hrefused
      simp [Action.fail_run, hrefused]
    case isFalse hgranted =>
      simp only [Action.bind_run, Action.emit_run, Action.pure_run, Reply.ok.injEq,
        Decidable.not_not.mp hgranted, Nat.pos_of_ne_zero hpos, true_and]
      exact eq_comm

theorem fresh_sound (hpos : 0 < settings.totalSize)
    (hgranted : supply.grants settings.totalSize = true) : (fresh settings).Sound := by
  have hle : settings.totalSize ≤ maxReservation := by
    apply Nat.le_of_not_lt
    intro hlarge
    rw [supply.refuses _ hlarge] at hgranted
    contradiction
  have htotal := totalSize_fresh settings
  refine ⟨?_, ?_, by rwa [htotal], by rwa [htotal]⟩
  · rw [htotal]
    exact FreeList.canonical_cons.mpr ⟨⟨Nat.min_le_right _ _, Nat.le_of_eq (Nat.zero_add _)⟩,
      nofun, FreeList.canonical_nil _ _⟩
  · rw [htotal]
    exact Nat.zero_add _

theorem call_exchange (hsound : heap.Sound) (call : Call α) :
    ∃ lost gained, Exchange heap lost (call.run heap).state gained := by
  have hsettles := call_settles hsound call
  generalize call.run heap = outcome at hsettles
  cases hsettles with
  | failed fault => exact ⟨[], [], Exchange.refl hsound []⟩
  | done events heffect => exact heffect.exchange hsound

theorem Reachable.sound (hreachable : Reachable start heap) (hstart : start.Sound) :
    heap.Sound ∧ heap.totalSize = start.totalSize := by
  induction hreachable with
  | start => exact ⟨hstart, rfl⟩
  | step hreachable call ih =>
    obtain ⟨hsound, htotal⟩ := ih
    obtain ⟨lost, gained, hexchange⟩ := call_exchange hsound call
    exact ⟨hexchange.sound, hexchange.totalSize_eq.trans htotal⟩

/-- No sequence of calls on a new heap makes it unsound or a call trap. -/
theorem reachable_safe (hcreated : (create supply settings state).reply = .ok start)
    (hreachable : Reachable start heap) :
    heap.Sound ∧ heap.totalSize = settings.totalSize ∧
      ∀ {α : Type} (call : Call α), (call.run heap).reply ≠ .trap := by
  obtain ⟨hpos, hgranted, rfl⟩ := reply_create_eq_ok_iff.mp hcreated
  obtain ⟨hsound, htotal⟩ := hreachable.sound (fresh_sound hpos hgranted)
  exact ⟨hsound, htotal.trans (totalSize_fresh settings), fun call =>
    (call_settles hsound call).reply_ne_trap⟩

/-- A header forged in the bytes of an allocation is believed, and the heap stays sound. -/
theorem reachable_safe_of_forged_header :
    let start := fresh ⟨"general", 160, false⟩
    let allocated := ((Call.alloc 96).run start).state
    let forged := ((Call.overwrite ⟨0, 32⟩ 0 (Header.encode ⟨0, 16, 1, 64⟩)).run allocated).state
    let freed := (Call.free ⟨0, 64⟩).run forged
    freed.reply = .ok () ∧ freed.state.Sound ∧ freed.state.totalSize = 160 ∧
      ∀ {α : Type} (call : Call α), (call.run freed.state).reply ≠ .trap := by
  have hcreated : (create Supply.ample ⟨"general", 160, false⟩ ()).reply =
      .ok (fresh ⟨"general", 160, false⟩) :=
    reply_create_eq_ok_iff.mpr ⟨by decide, by decide, rfl⟩
  refine ⟨by decide +kernel, ?_⟩
  exact reachable_safe hcreated (((Reachable.start.step _).step _).step _)

/-- A call that fails changes nothing, whatever the buffer holds. -/
theorem failed_call_state_eq (hsound : heap.Sound) (call : Call α) {fault : Fault}
    (hfailed : (call.run heap).reply = .error fault) : (call.run heap).state = heap :=
  (call_settles hsound call).state_eq_of_error hfailed

/-- A move that finds no place, though its release merged with free blocks on both sides. -/
theorem failed_move_state_eq :
    let heap : Heap := ⟨"general", Header.store (Memory.zeros 128) 64 ⟨32, 16, 64, 64⟩, 48,
      [⟨0, 32⟩, ⟨80, 48⟩], true⟩
    let moved := (Call.realloc ⟨0, 64⟩ 90).run heap
    heap.Sound ∧ moved.reply = .error (.outOfMemory "general" 90) ∧ moved.state = heap := by
  intro heap moved
  have htotal : heap.totalSize = 128 := by
    simp only [heap, totalSize, Header.size_store, Memory.size_zeros]
  have hsound : heap.Sound := by
    refine ⟨?_, ?_, ?_, ?_⟩ <;> rw [htotal]
    · refine ⟨?_, ?_, ?_⟩ <;> simp [heap, Block.stop, headerSize]
    · rfl
    · decide
    · decide
  have hfailed : moved.reply = .error (.outOfMemory "general" 90) := by decide +kernel
  exact ⟨hsound, hfailed, failed_call_state_eq hsound (.realloc ⟨0, 64⟩ 90) hfailed⟩

end Safety

/-! ## Freeing twice -/

/-- A handle that is taken for one whose allocation was freed: it can neither be freed nor resized,
whatever the new size, and a call that tries changes nothing. -/
structure Spent (heap : Heap) (handle : Handle) : Prop where
  free : (Call.free handle).run heap = .failed (.doubleFree heap.name handle) heap
  realloc : ∀ newSize, (Call.realloc handle newSize).run heap =
    .failed (.invalidHandle heap.name handle) heap

section DoubleFree

variable {heap : Heap} {handle : Handle} {old : Header}

theorem headerSlotIsFree_of_mem (hpage : handle.page = 0) (hoffset : headerSize ≤ handle.offset)
    (hslot : handle.offset - headerSize ∈ heap.blocks.bytes) :
    heap.headerSlotIsFree handle = true := by
  obtain ⟨block, hmem, hinside⟩ := FreeList.mem_bytes.mp hslot
  have hcontains : heap.blocks.contains (handle.offset - headerSize) = true :=
    List.any_eq_true.mpr ⟨block, hmem, by simpa using hinside⟩
  simp [headerSlotIsFree, hpage, hoffset, hcontains]

theorem overlaps_of_mem (hsound : heap.Sound) (hdecoded : heap.header? handle = some old)
    (hslot : handle.offset - headerSize ∈ heap.blocks.bytes) :
    heap.blocks.overlaps old.start (handle.offset + old.size) = true := by
  have hstart := (within_of_header? hdecoded).start_le
  rw [← Bool.not_eq_false]
  intro hoverlaps
  have hoccupied := occupied_of_overlaps hsound hdecoded hoverlaps
  obtain ⟨block, hmem, hinside⟩ := FreeList.mem_bytes.mp hslot
  have hapart := hoccupied.clear block hmem
  rw [headerSize] at hstart hinside
  omega

/-- Either the bytes before the handle are no header, and its slot is free, or they are one, and it
claims bytes that are free. -/
theorem spent_of_mem (hsound : heap.Sound) (hpage : handle.page = 0)
    (hoffset : headerSize ≤ handle.offset)
    (hslot : handle.offset - headerSize ∈ heap.blocks.bytes) : heap.Spent handle := by
  have hfree := free_run hsound handle
  have hrealloc := realloc_run hsound handle
  cases hheader : heap.header? handle with
  | none =>
    simp only [hheader, headerSlotIsFree_of_mem hpage hoffset hslot, ↓reduceIte] at hfree hrealloc
    exact ⟨hfree, hrealloc⟩
  | some old =>
    simp only [hheader, overlaps_of_mem hsound hheader hslot, ↓reduceIte] at hfree hrealloc
    exact ⟨hfree, hrealloc⟩

/-- A handle whose header would start at a free byte can neither be freed nor resized, whatever the
buffer holds there. So it is with a handle that was freed, whatever is called and written afterwards,
as long as or once more that byte is free. -/
theorem free_slot_spent (hsound : heap.Sound) :
    (∀ offset, headerSize ≤ offset → offset - headerSize ∈ heap.blocks.bytes →
      heap.Spent ⟨0, offset⟩) ∧
    ∀ handle, ((Call.free handle).run heap).reply = .ok () →
      ∀ later, Reachable ((Call.free handle).run heap).state later →
        handle.offset - headerSize ∈ later.blocks.bytes → later.Spent handle := by
  constructor
  · intro offset hoffset hslot
    exact spent_of_mem hsound rfl hoffset hslot
  · intro handle hreply later hreachable hslot
    have hsettles := free_settles hsound handle
    have hrun : free handle heap = _ := Outcome.eq_of_reply hreply
    rw [hrun] at hsettles
    obtain ⟨old, hoccupied, _⟩ := hsettles.effect_of_ok
    obtain ⟨_, _, hexchange⟩ := call_exchange hsound (.free handle)
    exact spent_of_mem (hreachable.sound hexchange.sound).1
      (header?_eq_some_iff.mp hoccupied.decoded).1 hoccupied.within.range.1 hslot

/-- The bytes behind a freed handle are handed out again, filled with what looks like its old header,
and freed as well. -/
theorem free_slot_spent_of_forged_header :
    let heap : Heap := ⟨"general", Header.store (Memory.zeros 66) 65 ⟨33, 1, 1, 65⟩, 33,
      [⟨0, 33⟩], true⟩
    let freed := (Call.free ⟨0, 65⟩).run heap
    let reused := ((Call.alignedAlloc 34 1).run freed.state).state
    let forged := ((Call.overwrite ⟨0, 32⟩ 1 (Header.encode ⟨33, 1, 1, 65⟩)).run reused).state
    let last := ((Call.free ⟨0, 32⟩).run forged).state
    heap.Sound ∧ freed.reply = .ok () ∧ last.header? ⟨0, 65⟩ = some ⟨33, 1, 1, 65⟩ ∧
      last.Spent ⟨0, 65⟩ := by
  have hsound : Sound ⟨"general", Header.store (Memory.zeros 66) 65 ⟨33, 1, 1, 65⟩, 33,
      [⟨0, 33⟩], true⟩ := by
    refine ⟨⟨?_, ?_, ?_⟩, ?_, ?_, ?_⟩ <;>
      simp [totalSize, Header.size_store, Memory.size_zeros, Block.stop, headerSize,
        FreeList.total, maxReservation]
  exact ⟨hsound, by decide +kernel, by decide +kernel,
    (free_slot_spent hsound).2 ⟨0, 65⟩ (by decide +kernel) _
      (((Reachable.start.step _).step _).step _) (by decide +kernel)⟩

end DoubleFree

end Heap

end HandleAlloc
