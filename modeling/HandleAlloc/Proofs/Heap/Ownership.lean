import HandleAlloc.Proofs.Heap.Ledger
import HandleAlloc.Proofs.Heap.Safety
/-!
# Who owns which bytes

On a heap that only well-behaved calls have been made on, every byte is free or belongs to one live
allocation, and a call changes no bytes but those of the allocation it operates on.
-/

namespace HandleAlloc

namespace Heap

namespace Ledger

/-! ## Tiling -/

section Tiling

variable {σ : Type} {supply : Supply} {settings : HeapSettings} {state : σ} {start : Heap}
  {ledger : Ledger}

theorem Balanced.word (hbalanced : ledger.Balanced) {holding : Holding}
    (hmem : holding ∈ ledger.live) :
    holding.handle.offset + holding.header.size < wordSize :=
  Nat.lt_of_le_of_lt (within_of_header? (hbalanced.decoded holding hmem)).stop_le
    hbalanced.sound.totalSize_lt

theorem Balanced.handle_eq (hbalanced : ledger.Balanced) {holding : Holding}
    (hmem : holding ∈ ledger.live) : holding.handle = ⟨0, holding.handle.offset⟩ := by
  rw [← (header?_eq_some_iff.mp (hbalanced.decoded holding hmem)).1]

theorem Balanced.used_eq (hbalanced : ledger.Balanced) :
    ledger.heap.used = (ledger.live.map fun holding => holding.bytes.length).sum := by
  have hlength := hbalanced.tiled.length_eq
  have hconserved := hbalanced.sound.conserved
  rw [List.length_append, List.length_flatMap, FreeList.length_bytes, List.length_range] at hlength
  omega

theorem Balanced.spans_eq (hbalanced : ledger.Balanced) :
    ledger.live.mapM (·.header.span) =
      some (ledger.live.map fun holding => holding.bytes.length) := by
  have hspan (holding : Holding) (hmem : holding ∈ ledger.live) :
      holding.header.span = some holding.bytes.length :=
    (hbalanced.serves holding hmem).span_eq (hbalanced.word hmem)
  generalize ledger.live = live at hspan
  induction live with
  | nil => rfl
  | cons holding live ih =>
    rw [List.forall_mem_cons] at hspan
    rw [List.mapM_cons, hspan.1, ih hspan.2]
    rfl

theorem balanced_fresh (hpos : 0 < settings.totalSize)
    (hgranted : supply.grants settings.totalSize = true) : Balanced ⟨fresh settings, []⟩ where
  sound := fresh_sound hpos hgranted
  decoded := nofun
  serves := nofun
  tiled := by
    rw [totalSize_fresh, range_eq_interval]
    simp [fresh, Block.stop]

theorem Reachable.balanced (hreachable : Reachable start ledger)
    (hstart : Balanced ⟨start, []⟩) :
    ledger.Balanced ∧ ledger.heap.totalSize = start.totalSize := by
  induction hreachable with
  | start => exact ⟨hstart, rfl⟩
  | step hreachable call hallows ih =>
    obtain ⟨hbalanced, htotal⟩ := ih
    obtain ⟨_, _, _, _, hturn⟩ := exists_turn hbalanced hallows
    exact ⟨hturn.balanced hbalanced, hturn.exchange.totalSize_eq.trans htotal⟩

theorem Reachable.balanced_of_created
    (hcreated : (create supply settings state).reply = .ok start)
    (hreachable : Reachable start ledger) : ledger.Balanced := by
  obtain ⟨hpos, hgranted, rfl⟩ := reply_create_eq_ok_iff.mp hcreated
  exact (hreachable.balanced (balanced_fresh hpos hgranted)).1

/-- Live allocations and free blocks tile the buffer of a heap after any well-behaved calls, and
the spans in the live headers add up to the used bytes. -/
theorem reachable_tiled (hcreated : (create supply settings state).reply = .ok start)
    (hreachable : Reachable start ledger) :
    ledger.Balanced ∧ ledger.heap.totalSize = settings.totalSize ∧
      ∃ spans, ledger.live.mapM (·.header.span) = some spans ∧ ledger.heap.used = spans.sum := by
  obtain ⟨hpos, hgranted, rfl⟩ := reply_create_eq_ok_iff.mp hcreated
  obtain ⟨hbalanced, htotal⟩ := hreachable.balanced (balanced_fresh hpos hgranted)
  exact ⟨hbalanced, htotal.trans (totalSize_fresh settings), _, hbalanced.spans_eq,
    hbalanced.used_eq⟩

/-- Two allocations, of which the first outgrows its place and moves behind the other. -/
theorem reachable_tiled_of_move :
    let start := fresh ⟨"general", 192, false⟩
    let second := next (next ⟨start, []⟩ (.alloc 16)) (.alloc 16)
    let moved := second.next (.realloc ⟨0, 32⟩ 40)
    moved.live.map Holding.handle = [⟨0, 80⟩, ⟨0, 128⟩] ∧ moved.Balanced ∧
      moved.heap.totalSize = 192 ∧
      ∃ spans, moved.live.mapM (·.header.span) = some spans ∧ moved.heap.used = spans.sum := by
  intro start second moved
  have hcreated : (create Supply.ample ⟨"general", 192, false⟩ ()).reply = .ok start :=
    reply_create_eq_ok_iff.mpr ⟨by decide, by decide, rfl⟩
  have hsecond : Reachable start second :=
    (Reachable.start.step (.alloc 16) nofun).step (.alloc 16) nofun
  have hmoved : Reachable start moved := hsecond.step (.realloc ⟨0, 32⟩ 40) (by
    rintro handle ⟨⟩
    decide +kernel)
  exact ⟨by decide +kernel, reachable_tiled hcreated hmoved⟩

end Tiling

/-! ## Non-interference -/

/-- The bytes of the live allocation that a call is made with. -/
def operandBytes {α : Type} (ledger : Ledger) (call : Call α) : List Nat :=
  (ledger.live.filter (call.handle? = some ·.handle)).flatMap Holding.bytes

/-- The bytes of the allocation that a call hands out, after it. -/
def resultBytes {α : Type} (ledger : Ledger) (call : Call α) : List Nat :=
  match (call.run ledger.heap).reply with
  | .ok value => ((ledger.next call).live.filter (call.issued? value = some ·.handle)).flatMap
    Holding.bytes
  | .error _ | .trap => []

section Interference

variable {σ α : Type} {supply : Supply} {settings : HeapSettings} {state : σ} {start : Heap}
  {ledger : Ledger} {call : Call α} {left lost gained right : List Holding} {i : Nat}

theorem Turn.lost_subset (hturn : ledger.Turn call left lost gained right)
    (hi : i ∈ lost.flatMap Holding.bytes) : i ∈ ledger.operandBytes call := by
  obtain ⟨holding, hmem, hi⟩ := List.mem_flatMap.mp hi
  have hlisted : holding ∈ ledger.live := by
    rw [hturn.before]
    simp [hmem]
  have hoperand := hturn.operand holding hmem
  exact List.mem_flatMap.mpr ⟨holding, List.mem_filter.mpr ⟨hlisted, by simpa using hoperand⟩, hi⟩

theorem Turn.gained_subset (hturn : ledger.Turn call left lost gained right)
    (hi : i ∈ gained.flatMap Holding.bytes) :
    i ∈ ledger.operandBytes call ∨ i ∈ ledger.resultBytes call := by
  obtain ⟨holding, hmem, hi⟩ := List.mem_flatMap.mp hi
  obtain hlost | ⟨value, hreply, hissued⟩ := hturn.issued holding hmem
  · exact Or.inl (hturn.lost_subset (List.mem_flatMap.mpr ⟨holding, hlost, hi⟩))
  · right
    have hlisted : holding ∈ (ledger.next call).live := by
      rw [hturn.after]
      simp [hmem]
    simp only [resultBytes, hreply]
    exact List.mem_flatMap.mpr ⟨holding, List.mem_filter.mpr ⟨hlisted, by simpa using hissued⟩, hi⟩

/-- A call writes to the bytes that its allocation owns before or after it. -/
theorem Turn.frame (hturn : ledger.Turn call left lost gained right)
    (hoperand : i ∉ ledger.operandBytes call) (hresult : i ∉ ledger.resultBytes call) :
    (ledger.next call).heap.memory[i]? = ledger.heap.memory[i]? :=
  hturn.exchange.frame i (fun hlost => hoperand (hturn.lost_subset hlost)) fun hgained =>
    (hturn.gained_subset hgained).elim hoperand hresult

theorem Turn.other (hturn : ledger.Turn call left lost gained right) (hbalanced : ledger.Balanced)
    {holding : Holding} (hmem : holding ∈ ledger.live)
    (hother : call.handle? ≠ some holding.handle) :
    holding ∈ (ledger.next call).live ∧ ∀ i ∈ holding.bytes,
      (ledger.next call).heap.memory[i]? = ledger.heap.memory[i]? := by
  have hbefore := hbalanced.of_live_eq hturn.before
  have hkept : holding ∈ left ++ right := by
    rw [hturn.before, mem_around] at hmem
    exact hmem.resolve_left fun hlost => hother (hturn.operand holding hlost)
  constructor
  · rw [hturn.after, mem_around]
    exact Or.inr hkept
  · intro i hi
    have hshared := List.mem_flatMap.mpr ⟨holding, hkept, hi⟩
    obtain ⟨hlost, hgained⟩ := hbefore.notMem_exchange hturn.exchange hshared
    exact hturn.exchange.frame i hlost hgained

/-- Whatever a well-behaved call does to its own allocation, no byte outside of it changes; every
other live allocation stays live with its header and its usable bytes. -/
theorem reachable_frame (hcreated : (create supply settings state).reply = .ok start)
    (hreachable : Reachable start ledger) (hallows : ledger.Allows call) :
    (∀ i, i ∉ ledger.operandBytes call → i ∉ ledger.resultBytes call →
      (ledger.next call).heap.memory[i]? = ledger.heap.memory[i]?) ∧
      ∀ holding ∈ ledger.live, call.handle? ≠ some holding.handle →
        holding ∈ (ledger.next call).live ∧
          (ledger.next call).heap.memory.extract (holding.handle.offset - headerSize)
              (holding.handle.offset + holding.header.size) =
            ledger.heap.memory.extract (holding.handle.offset - headerSize)
              (holding.handle.offset + holding.header.size) := by
  obtain ⟨hpos, hgranted, rfl⟩ := reply_create_eq_ok_iff.mp hcreated
  obtain ⟨hbalanced, _⟩ := hreachable.balanced (balanced_fresh hpos hgranted)
  obtain ⟨_, _, _, _, hturn⟩ := exists_turn hbalanced hallows
  constructor
  · intro i hoperand hresult
    exact hturn.frame hoperand hresult
  · intro holding hmem hother
    obtain ⟨hlive, hbytes⟩ := hturn.other hbalanced hmem hother
    refine ⟨hlive, ?_⟩
    apply Memory.extract_congr hturn.exchange.totalSize_eq
    intro i hi
    apply hbytes
    have hstart := (hbalanced.serves holding hmem).start_le
    rw [mem_interval] at hi
    rw [Holding.bytes, Header.mem_bytes]
    omega

/-- The move of one allocation past another, which stays. -/
theorem reachable_frame_of_move :
    let start := fresh ⟨"general", 192, false⟩
    let second := next (next ⟨start, []⟩ (.alloc 16)) (.alloc 16)
    let call := Call.realloc ⟨0, 32⟩ 40
    second.Allows call ∧ (call.run second.heap).reply = .ok ⟨0, 128⟩ ∧
      (∀ i, i ∉ second.operandBytes call → i ∉ second.resultBytes call →
        (second.next call).heap.memory[i]? = second.heap.memory[i]?) ∧
      ∀ holding ∈ second.live, call.handle? ≠ some holding.handle →
        holding ∈ (second.next call).live ∧
          (second.next call).heap.memory.extract (holding.handle.offset - headerSize)
              (holding.handle.offset + holding.header.size) =
            second.heap.memory.extract (holding.handle.offset - headerSize)
              (holding.handle.offset + holding.header.size) := by
  intro start second call
  have hcreated : (create Supply.ample ⟨"general", 192, false⟩ ()).reply = .ok start :=
    reply_create_eq_ok_iff.mpr ⟨by decide, by decide, rfl⟩
  have hsecond : Reachable start second :=
    (Reachable.start.step (.alloc 16) nofun).step (.alloc 16) nofun
  have hallows : second.Allows call := by
    rintro handle ⟨⟩
    decide +kernel
  exact ⟨hallows, by decide +kernel, reachable_frame hcreated hsecond hallows⟩

end Interference

end Ledger

end Heap

end HandleAlloc
