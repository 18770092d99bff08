import HandleAlloc.Proofs.Arena.Values
import HandleAlloc.Proofs.Heap.Values
/-!
# Zeroed allocations and values on both allocators

A zeroed allocation or a place for a value is refused just if a plain request is, and then nothing
has changed. Otherwise all bytes are zero, or the value is read back; and it goes on to be read at
the handle that its allocation has by then, whatever is done with other allocations.
-/

namespace HandleAlloc

/-- On heaps and arenas whose invariants hold, whatever their bytes are and whether or not headers
are validated, requests for zeroed allocations and for places of values are answered as plain
requests are (`Provides`). After any well-behaved calls, a value that is stored then is read for as
long as its allocation is live, not written to, and never made shorter than the value. -/
theorem provides_and_retains {α : Type} [PlainData α] (value : α) :
    (∀ heap : Heap, heap.Sound → Provides heap) ∧
    (∀ arena : Arena, arena.Sound → Provides arena) ∧
    (∀ {σ : Type} (supply : Supply) (settings : HeapSettings) (state : σ) (start : Heap)
      (ledger last : Heap.Ledger) (handle current : Handle),
      (Heap.create supply settings state).reply = .ok start →
      Heap.Ledger.Reachable start ledger →
      ((Call.construct value).run ledger.heap).reply = .ok handle →
      Heap.Ledger.Untouched (ledger.next (.construct value)) handle (PlainData.size α) last
        current →
      ((Call.read current : Call α).run last.heap).reply = .ok value) ∧
    ∀ {σ : Type} (supply : Supply) (inlinePage : Nat) (settings : ArenaSettings) (state : σ)
      (start : Arena) (register last : Arena.Register) (handle current : Handle),
      inlinePage < wordSize →
      (Arena.create supply inlinePage settings state).reply = .ok start →
      Arena.Register.Reachable start register →
      (register.session.perform (.construct value)).reply = .ok handle →
      Arena.Register.Untouched (register.next (.call (.construct value))) handle
        (PlainData.size α) last current →
      (last.session.perform (.read current : Call α)).reply = .ok value := by
  refine ⟨fun _ hsound => hsound.provides, fun _ hsound => hsound.provides, ?_, ?_⟩
  · intro _ _ _ _ _ _ _ _ _ hcreated hreachable hreply huntouched
    exact huntouched.read hcreated hreachable hreply
  · intro _ _ _ _ _ _ _ _ _ _ hinline hcreated hreachable hreply huntouched
    exact huntouched.read hcreated hinline hreachable hreply

/-- On the heap the value outgrows its place, and another allocation, written to, takes that. In the
arena its allocation moves to an added page after a scope has come and gone. -/
theorem provides_and_retains_of_moves :
    let value : BitVec (8 * 4) := 3735928559
    let heap := Heap.fresh ⟨"general", 256, true⟩
    let stored := Heap.Ledger.next ⟨heap, []⟩ (.construct value)
    let moved := (stored.next (.alloc 16)).next (.realloc ⟨0, 32⟩ 40)
    let ledger := (moved.next (.alloc 4)).next (.overwrite ⟨0, 32⟩ 0 ⟨#[7, 8, 9]⟩)
    let arena := Arena.fresh Supply.ample 96 ⟨"scratch", 64, none, false⟩
    let held := Arena.Register.next ⟨⟨arena, []⟩, []⟩ (.call (.construct value))
    let inner := (held.next .enter).next (.call (.allocZero 1))
    let register := (inner.next .leave).next (.call (.realloc ⟨0, 32⟩ 70))
    heap.Sound ∧ Provides heap ∧ arena.Sound ∧ Provides arena ∧
      ledger.live.map Heap.Holding.handle = [⟨0, 32⟩, ⟨0, 80⟩, ⟨0, 128⟩] ∧
      ((Call.read ⟨0, 128⟩).run ledger.heap).reply = .ok value ∧
      register.live.map Arena.Holding.handle = [⟨1, 32⟩] ∧
      (register.session.perform (.read ⟨1, 32⟩)).reply = .ok value := by
  intro value heap stored moved ledger arena held inner register
  obtain ⟨hheaps, harenas, hheapRuns, harenaRuns⟩ := provides_and_retains value
  have hheap : (Heap.create Supply.ample ⟨"general", 256, true⟩ ()).reply = .ok heap :=
    Heap.reply_create_eq_ok_iff.mpr ⟨by decide, by decide, rfl⟩
  have harena : (Arena.create Supply.ample 96 ⟨"scratch", 64, none, false⟩ ()).reply = .ok arena :=
    Arena.reply_create_eq_ok_iff.mpr ⟨by decide, rfl⟩
  have hheapSound : heap.Sound :=
    Heap.fresh_sound (by decide) (show Supply.ample.grants 256 = true by decide)
  have harenaSound : arena.Sound := Arena.Ledger.covers_start _
  have hledger : Heap.Ledger.Untouched stored ⟨0, 32⟩ (PlainData.size (BitVec (8 * 4))) ledger
      ⟨0, 128⟩ :=
    (((Heap.Ledger.Untouched.refl.other (.alloc 16) nofun nofun nofun).resized 40 (by decide)
      (by decide +kernel)).other (.alloc 4) nofun nofun nofun).other
        (.overwrite ⟨0, 32⟩ 0 ⟨#[7, 8, 9]⟩) (by rintro _ ⟨⟩; decide +kernel) nofun (by decide)
  have hregister : Arena.Register.Untouched held ⟨0, 32⟩ (PlainData.size (BitVec (8 * 4))) register
      ⟨1, 32⟩ :=
    ((Arena.Register.Untouched.refl.entered.other (.allocZero 1) ⟨by decide, nofun, nofun⟩ nofun
      nofun).left (List.cons_ne_nil _ _) (by decide +kernel)).resized 70 (by decide)
        (by decide +kernel)
  exact ⟨hheapSound, hheaps heap hheapSound, harenaSound, harenas arena harenaSound,
    by decide +kernel, hheapRuns _ _ _ _ _ _ _ _ hheap .start (by decide +kernel) hledger,
    by decide +kernel,
    harenaRuns _ _ _ _ _ _ _ _ _ (by decide) harena .start (by decide +kernel) hregister⟩

end HandleAlloc
