import HandleAlloc.Proofs.Arena.Revalidation
import HandleAlloc.Proofs.Heap.Revalidation
/-!
# Validation makes no difference to correct programs

Headers are validated in some builds and not in others. A client that only passes live handles to a
heap, or to an arena and the scopes on it, cannot tell which build it runs on.
-/

namespace HandleAlloc

section Agreement

variable {σ : Type} {supply : Supply} {inlinePage : Nat} {heapSettings : HeapSettings}
  {arenaSettings : ArenaSettings} {state : σ} {validate : Bool} {heap otherHeap : Heap}
  {arena otherArena : Arena} {heapLedger otherHeapLedger : Heap.Ledger}
  {arenaLedger otherArenaLedger : Arena.Ledger}

theorem Heap.Ledger.Paired.agree (hcreated : (create supply heapSettings state).reply = .ok heap)
    (hother : (create supply { heapSettings with validateHeaders := validate } state).reply =
      .ok otherHeap)
    (hpaired : Paired heap otherHeap heapLedger otherHeapLedger) :
    heapLedger.Agree otherHeapLedger := by
  obtain ⟨hpos, hgranted, rfl⟩ := reply_create_eq_ok_iff.mp hcreated
  obtain ⟨_, _, rfl⟩ := reply_create_eq_ok_iff.mp hother
  obtain ⟨hbalanced, rfl⟩ := hpaired.eq_revalidated (balanced_fresh hpos hgranted)
  exact hbalanced.agree validate

theorem Arena.Ledger.Paired.agree
    (hcreated : (create supply inlinePage arenaSettings state).reply = .ok arena)
    (hother : (create supply inlinePage { arenaSettings with validateHeaders := validate }
      state).reply = .ok otherArena)
    (hpaired : Paired arena otherArena arenaLedger otherArenaLedger) :
    arenaLedger.Agree otherArenaLedger := by
  obtain ⟨_, rfl⟩ := reply_create_eq_ok_iff.mp hcreated
  obtain ⟨_, rfl⟩ := reply_create_eq_ok_iff.mp hother
  obtain ⟨hstacked, rfl⟩ := hpaired.eq_revalidated (stacked_fresh supply inlinePage arenaSettings)
  exact hstacked.agree validate

/-- Two heaps and two arenas, made from settings that differ in nothing but whether headers are
validated, agree after the same well-behaved calls, and so at each of them: the next one has the same
reply and the same log. -/
theorem paired_runs_agree (hheap : (Heap.create supply heapSettings state).reply = .ok heap)
    (hotherHeap : (Heap.create supply { heapSettings with validateHeaders := validate }
      state).reply = .ok otherHeap)
    (hheaps : Heap.Ledger.Paired heap otherHeap heapLedger otherHeapLedger)
    (harena : (Arena.create supply inlinePage arenaSettings state).reply = .ok arena)
    (hotherArena : (Arena.create supply inlinePage
      { arenaSettings with validateHeaders := validate } state).reply = .ok otherArena)
    (harenas : Arena.Ledger.Paired arena otherArena arenaLedger otherArenaLedger) :
    heapLedger.Agree otherHeapLedger ∧ arenaLedger.Agree otherArenaLedger :=
  ⟨hheaps.agree hheap hotherHeap, harenas.agree harena hotherArena⟩

/-- On the heaps an allocation moves, on the arenas one moves to the next page in a scope, and another
one is written to afterwards. -/
theorem paired_runs_agree_of_moves :
    let heaps (validate : Bool) := Heap.Ledger.next (Heap.Ledger.next (Heap.Ledger.next
      ⟨Heap.fresh ⟨"general", 192, validate⟩, []⟩ (.alloc 16)) (.alloc 16)) (.realloc ⟨0, 32⟩ 40)
    let scopes (validate : Bool) := Arena.Ledger.next (Arena.Ledger.next
      ⟨Arena.fresh Supply.ample 128 ⟨"scratch", 64, none, validate⟩, [], []⟩ (.call (.alloc 16))) .enter
    let moves (validate : Bool) := Arena.Ledger.next (Arena.Ledger.next (scopes validate)
      (.call (.alloc 16))) (.call (.realloc ⟨0, 80⟩ 64))
    let arenas (validate : Bool) := Arena.Ledger.next (Arena.Ledger.next (moves validate) .leave)
      (.call (.overwrite ⟨0, 32⟩ 0 ⟨#[7]⟩))
    (heaps true).Agree (heaps false) ∧ (arenas true).Agree (arenas false) := by
  intro heaps scopes moves arenas
  have hheap : (Heap.create Supply.ample ⟨"general", 192, true⟩ ()).reply = .ok _ :=
    Heap.reply_create_eq_ok_iff.mpr ⟨by decide, by decide, rfl⟩
  have hotherHeap : (Heap.create Supply.ample ⟨"general", 192, false⟩ ()).reply = .ok _ :=
    Heap.reply_create_eq_ok_iff.mpr ⟨by decide, by decide, rfl⟩
  have harena : (Arena.create Supply.ample 128 ⟨"scratch", 64, none, true⟩ ()).reply = .ok _ :=
    Arena.reply_create_eq_ok_iff.mpr ⟨by decide, rfl⟩
  have hotherArena : (Arena.create Supply.ample 128 ⟨"scratch", 64, none, false⟩ ()).reply =
    .ok _ := Arena.reply_create_eq_ok_iff.mpr ⟨by decide, rfl⟩
  have hheaps : Heap.Ledger.Paired _ _ (heaps true) (heaps false) :=
    ((Heap.Ledger.Paired.start.step (.alloc 16) nofun).step (.alloc 16) nofun).step
      (.realloc ⟨0, 32⟩ 40) (by rintro _ ⟨⟩; decide +kernel)
  have hmoves : Arena.Ledger.Paired _ _ (moves true) (moves false) :=
    (((Arena.Ledger.Paired.start.step (.call (.alloc 16)) ⟨by decide, nofun, nofun⟩ nofun).step
      .enter trivial nofun).step (.call (.alloc 16)) ⟨by decide, nofun, nofun⟩ nofun).step
        (.call (.realloc ⟨0, 80⟩ 64)) ⟨nofun, by rintro _ ⟨⟩; decide +kernel, nofun⟩
          (by rintro _ ⟨⟩; decide +kernel)
  have harenas : Arena.Ledger.Paired _ _ (arenas true) (arenas false) :=
    (hmoves.step .leave (List.cons_ne_nil _ _) nofun).step
      (.call (.overwrite ⟨0, 32⟩ 0 ⟨#[7]⟩)) ⟨nofun, nofun, by rintro _ ⟨⟩; decide +kernel⟩
        (by rintro _ ⟨⟩; decide +kernel)
  exact paired_runs_agree hheap hotherHeap hheaps harena hotherArena harenas

end Agreement

end HandleAlloc
