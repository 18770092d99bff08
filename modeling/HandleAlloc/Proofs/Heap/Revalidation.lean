import HandleAlloc.Proofs.Heap.Ownership
import HandleAlloc.Proofs.Overlook
/-!
# Heaps that validate headers and heaps that do not

Whether a heap validates the headers it reads is a setting, and a heap can be asked to change it
(`revalidated`). No call sees the change that is made with the handle of a header that an allocation
has: such a header is acceptable either way. So in a well-behaved run the setting changes nothing.
-/

namespace HandleAlloc

namespace Heap

open HandleAlloc.Action

def revalidated (validate : Bool) (heap : Heap) : Heap := { heap with validate }

section Calls

variable {heap : Heap} {validate : Bool} {handle : Handle} {old : Header} {size alignment : Nat}

theorem Sound.revalidated (hsound : heap.Sound) (validate : Bool) :
    (heap.revalidated validate).Sound :=
  ⟨hsound.canonical, hsound.conserved, hsound.pos, hsound.addressable⟩

theorem header?_revalidated (validate : Bool) (hdecoded : heap.header? handle = some old)
    (hserves : old.Serves handle.offset size alignment) :
    (heap.revalidated validate).header? handle = some old := by
  obtain ⟨hpage, hread⟩ := header?_eq_some_iff.mp hdecoded
  exact header?_eq_some_iff.mpr ⟨hpage, Header.read?_of_serves hread hserves⟩

theorem vacated_revalidated : (heap.revalidated validate).vacated handle old =
    (heap.vacated handle old).revalidated validate := rfl

theorem relocated_revalidated {fit : Fit} {newSize : Nat} :
    (heap.revalidated validate).relocated handle old fit newSize =
      (heap.relocated handle old fit newSize).revalidated validate := by
  have hclaimed : ((heap.vacated handle old).revalidated validate).claimed fit newSize =
    ((heap.vacated handle old).claimed fit newSize).revalidated validate := rfl
  have hgrant : ((heap.vacated handle old).revalidated validate).grant fit newSize old.alignment =
    (heap.vacated handle old).grant fit newSize old.alignment := rfl
  have hmemory : (heap.revalidated validate).transferred handle old fit.offset =
    heap.transferred handle old fit.offset := rfl
  rw [relocated, vacated_revalidated, hclaimed, hgrant, hmemory]
  simp only [relocated, withHeader, revalidated]

theorem oblivious (validate : Bool) : Allocator.Oblivious (revalidated validate) where
  name_eq _ := rfl
  load_eq _ _ := rfl
  store_eq place position data heap := by
    change store place position data (heap.revalidated validate) =
      (store place position data heap).revalidated validate
    by_cases hfits : position + data.size ≤ place.size
    · rw [store, if_pos hfits, store, if_pos hfits]
      rfl
    · rw [store, if_neg hfits, store, if_neg hfits]

theorem alignedAlloc_overlooks (hsound : heap.Sound) (size alignment : Nat) :
    (alignedAlloc size alignment).Overlooks (revalidated validate) heap := by
  rw [Overlooks, alignedAlloc_run hsound, alignedAlloc_run (hsound.revalidated validate)]
  split
  · rfl
  · split
    · rfl
    · cases hfit : heap.blocks.bestFit? size alignment with
      | none => simp only [revalidated, hfit]; rfl
      | some fit => simp only [revalidated, hfit]; rfl

section Resize

variable {newSize : Nat} (hsound : heap.Sound) (hoccupied : heap.Occupied handle old)
  (hother : (heap.revalidated validate).Occupied handle old)

include hsound hoccupied hother

theorem shrink_overlooks (hlt : newSize < old.size) :
    (shrink handle old newSize).Overlooks (revalidated validate) heap := by
  have hrun := shrink_run hsound hoccupied hlt
  have hrun' := shrink_run (hsound.revalidated validate) hother hlt
  by_cases hlong : headerSize ≤ old.size - newSize ∨
      ∃ block ∈ heap.blocks, block.offset = handle.offset + old.size
  · exact .of_run (hrun.trans (if_pos hlong)) (hrun'.trans (if_pos hlong))
  · exact .of_run (hrun.trans (if_neg hlong)) (hrun'.trans (if_neg hlong))

theorem grow_overlooks (newSize : Nat) :
    (grow handle old newSize).Overlooks (revalidated validate) heap := by
  rw [Overlooks, grow_run hsound hoccupied, grow_run (hsound.revalidated validate) hother]
  cases htake : heap.blocks.takeTail? (handle.offset + old.size) (newSize - old.size) with
  | none => simp only [revalidated, htake]
  | some taken => simp only [revalidated, htake]; rfl

theorem relocate_overlooks (hlt : old.size < newSize) :
    (relocate handle old newSize).Overlooks (revalidated validate) heap := by
  have hrun := relocate_run hsound hoccupied hlt
  have hrun' := relocate_run (hsound.revalidated validate) hother hlt
  have hblocks : ((heap.revalidated validate).vacated handle old).blocks =
    (heap.vacated handle old).blocks := rfl
  rw [hblocks] at hrun'
  cases hfit : (heap.vacated handle old).blocks.bestFit? newSize old.alignment with
  | none =>
    rw [hfit] at hrun hrun'
    exact .of_run hrun hrun'
  | some fit =>
    simp only [hfit, relocated_revalidated] at hrun hrun'
    exact .of_run hrun hrun'

theorem resize_overlooks (newSize : Nat) :
    (resize handle old newSize).Overlooks (revalidated validate) heap := by
  unfold resize
  by_cases heq : newSize = old.size
  case pos =>
    rw [if_pos heq]
    exact overlooks_pure _ _ _
  rw [if_neg heq]
  by_cases hlt : newSize < old.size
  case pos =>
    rw [if_pos hlt]
    exact (shrink_overlooks hsound hoccupied hother hlt).bind fun _ _ _ _ => overlooks_pure _ _ _
  rw [if_neg hlt]
  refine (grow_overlooks hsound hoccupied hother newSize).bind ?_
  intro grown after events hrun
  cases grown with
  | true => exact overlooks_pure _ _ _
  | false =>
    -- An allocation that is not grown where it stands is left as it is.
    rw [grow_run hsound hoccupied] at hrun
    split at hrun <;> cases hrun
    exact relocate_overlooks hsound hoccupied hother (by omega)

end Resize

theorem header_overlooks (hdecoded : heap.header? handle = some old)
    (hother : (heap.revalidated validate).header? handle = some old) :
    (header handle).Overlooks (revalidated validate) heap := by
  rw [Overlooks, header_run, header_run, hdecoded, hother]

theorem region_overlooks (hdecoded : heap.header? handle = some old)
    (hother : (heap.revalidated validate).header? handle = some old) :
    (region handle).Overlooks (revalidated validate) heap := by
  rw [Overlooks, region_run, region_run, hdecoded, hother]

theorem realloc_overlooks (hsound : heap.Sound) (hdecoded : heap.header? handle = some old)
    (hother : (heap.revalidated validate).header? handle = some old) (newSize : Nat) :
    (realloc handle newSize).Overlooks (revalidated validate) heap := by
  have hrun := realloc_run hsound handle newSize
  have hrun' := realloc_run (hsound.revalidated validate) handle newSize
  rw [hdecoded] at hrun
  rw [hother] at hrun'
  by_cases hoverlaps : heap.blocks.overlaps old.start (handle.offset + old.size) = true
  case pos => exact .of_run (hrun.trans (if_pos hoverlaps)) (hrun'.trans (if_pos hoverlaps))
  have hoccupied := occupied_of_overlaps hsound hdecoded (Bool.not_eq_true _ ▸ hoverlaps)
  replace hrun := hrun.trans (if_neg hoverlaps)
  replace hrun' := hrun'.trans (if_neg hoverlaps)
  by_cases hzero : newSize = 0
  case pos => exact .of_run (hrun.trans (if_pos hzero)) (hrun'.trans (if_pos hzero))
  replace hrun := hrun.trans (if_neg hzero)
  replace hrun' := hrun'.trans (if_neg hzero)
  by_cases hroom : old.size + heap.freeSize < newSize
  case pos => exact .of_run (hrun.trans (if_pos hroom)) (hrun'.trans (if_pos hroom))
  rw [Overlooks, hrun.trans (if_neg hroom), hrun'.trans (if_neg hroom)]
  exact resize_overlooks hsound hoccupied ⟨hother, hoccupied.clear⟩ newSize

theorem free_overlooks (hsound : heap.Sound) (hdecoded : heap.header? handle = some old)
    (hother : (heap.revalidated validate).header? handle = some old) :
    (free handle).Overlooks (revalidated validate) heap := by
  have hrun := free_run hsound handle
  have hrun' := free_run (hsound.revalidated validate) handle
  rw [hdecoded] at hrun
  rw [hother] at hrun'
  by_cases hoverlaps : heap.blocks.overlaps old.start (handle.offset + old.size) = true
  · exact .of_run (hrun.trans (if_pos hoverlaps)) (hrun'.trans (if_pos hoverlaps))
  · exact .of_run (hrun.trans (if_neg hoverlaps)) (hrun'.trans (if_neg hoverlaps))

theorem overlooked (hsound : heap.Sound) (hdecoded : heap.header? handle = some old)
    (hserves : old.Serves handle.offset size alignment) :
    Allocator.Overlooked (revalidated validate) heap handle where
  header := header_overlooks hdecoded (header?_revalidated validate hdecoded hserves)
  region := region_overlooks hdecoded (header?_revalidated validate hdecoded hserves)
  realloc := realloc_overlooks hsound hdecoded (header?_revalidated validate hdecoded hserves)
  free := free_overlooks hsound hdecoded (header?_revalidated validate hdecoded hserves)

end Calls

namespace Ledger

section Paired

variable {α : Type} {first : Heap} {ledger other : Ledger} {validate : Bool} {call : Call α}

def revalidated (validate : Bool) (ledger : Ledger) : Ledger :=
  { ledger with heap := ledger.heap.revalidated validate }

/-- No well-behaved call sees which headers are acceptable. -/
theorem Balanced.overlooks (hbalanced : ledger.Balanced) (hallows : ledger.Allows call) :
    (call.run).Overlooks (Heap.revalidated validate) ledger.heap := by
  refine (oblivious validate).call call ?_ ?_ ?_
  · intro request _
    exact alignedAlloc_overlooks hbalanced.sound _ _
  · intro request _ handle after events hrun
    have hsettles := alignedAlloc_settles hbalanced.sound request.1 request.2
    rw [show alignedAlloc request.1 request.2 ledger.heap = _ from hrun] at hsettles
    obtain ⟨header, hissued⟩ := hsettles.effect_of_ok
    exact region_overlooks hissued.decoded (header?_revalidated validate hissued.decoded
      hissued.serves)
  · intro handle hhandle
    obtain ⟨holding, hmem, rfl⟩ := List.mem_map.mp (hallows handle hhandle)
    exact overlooked hbalanced.sound (hbalanced.decoded holding hmem) (hbalanced.serves holding hmem)

theorem Balanced.next_revalidated (hbalanced : ledger.Balanced) (hallows : ledger.Allows call) :
    (ledger.revalidated validate).next call = (ledger.next call).revalidated validate := by
  have hrun : call.run (ledger.heap.revalidated validate) = _ := hbalanced.overlooks hallows
  simp only [next, revalidated, hrun]
  cases (call.run ledger.heap).reply with
  | ok value => cases call <;> rfl
  | error fault => rfl
  | trap => rfl

/-- The same well-behaved calls on two heaps. -/
inductive Paired (first second : Heap) : Ledger → Ledger → Prop where
  | start : Paired first second ⟨first, []⟩ ⟨second, []⟩
  | step {ledger other : Ledger} {α : Type} (hpaired : Paired first second ledger other)
    (call : Call α) (hallows : ledger.Allows call) :
    Paired first second (ledger.next call) (other.next call)

theorem Paired.eq_revalidated (hpaired : Paired first (first.revalidated validate) ledger other)
    (hfirst : Balanced ⟨first, []⟩) : ledger.Balanced ∧ other = ledger.revalidated validate := by
  induction hpaired with
  | start => exact ⟨hfirst, rfl⟩
  | step _ call hallows ih =>
    obtain ⟨hbalanced, rfl⟩ := ih
    obtain ⟨_, _, _, _, hturn⟩ := exists_turn hbalanced hallows
    exact ⟨hturn.balanced hbalanced, hbalanced.next_revalidated hallows⟩

/-- Two heaps have the same buffer, free list and count, and the same allocations are live on them.
They reply the same to the next call, and log the same. -/
structure Agree (ledger other : Ledger) : Prop where
  memory_eq : other.heap.memory = ledger.heap.memory
  blocks_eq : other.heap.blocks = ledger.heap.blocks
  used_eq : other.heap.used = ledger.heap.used
  live_eq : other.live = ledger.live
  reply_eq : ∀ {α : Type} (call : Call α), ledger.Allows call →
    (call.run other.heap).reply = (call.run ledger.heap).reply
  events_eq : ∀ {α : Type} (call : Call α), ledger.Allows call →
    (call.run other.heap).events = (call.run ledger.heap).events

theorem Balanced.agree (hbalanced : ledger.Balanced) (validate : Bool) :
    ledger.Agree (ledger.revalidated validate) := by
  have hrun {α : Type} (call : Call α) (hallows : ledger.Allows call) :
      call.run (ledger.heap.revalidated validate) = _ := hbalanced.overlooks hallows
  refine ⟨rfl, rfl, rfl, rfl, ?_, ?_⟩
  · intro α call hallows
    rw [revalidated, hrun call hallows]
  · intro α call hallows
    rw [revalidated, hrun call hallows]

end Paired

end Ledger

end Heap

end HandleAlloc
