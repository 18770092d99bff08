import HandleAlloc.Proofs.Action
import HandleAlloc.Proofs.Heap.Transition
/-!
# How the calls on a heap run

One equation for each call on a sound heap: what it replies, the heap it leaves and what it logs.
No call traps, and one that fails leaves the heap as it found it. What else follows from the outcome
is proved from `alignedAlloc_cases`, `free_cases` and `realloc_cases`, the ways in which a call ends.
-/

namespace HandleAlloc

namespace Heap

open HandleAlloc.Action

variable {heap : Heap} {handle : Handle} {old : Header} {fit : Fit} {size alignment newSize : Nat}

theorem header_run (handle : Handle) (heap : Heap) :
    header handle heap = match heap.header? handle with
      | some header => ⟨.ok header, heap, []⟩
      | none => .failed (.invalidHandle heap.name handle) heap := by
  simp only [header, bind_run, get_run]
  cases heap.header? handle <;> rfl

theorem region_run (handle : Handle) (heap : Heap) :
    region handle heap = match heap.header? handle with
      | some header => ⟨.ok ⟨0, handle.offset, header.size⟩, heap, []⟩
      | none => .failed (.invalidHandle heap.name handle) heap := by
  simp only [region, bind_run, header_run]
  cases hheader : heap.header? handle with
  | none => rfl
  | some header =>
    simp only [get_run, require_run_of (within_of_header? hheader).stop_le, pure_run,
      List.append_nil]

/-! ## Allocation -/

theorem grant_span (hstart : (heap.grant fit size alignment).Within fit.offset heap.totalSize)
    (htotal : heap.totalSize < wordSize) :
    (heap.grant fit size alignment).span =
      some (fit.offset + (heap.blocks.carve fit size).2 - fit.block.offset) := by
  have hstop := hstart.stop_le
  have hle := hstart.start_le
  simp only [grant] at hstop hle
  have hword : fit.offset + (heap.blocks.carve fit size).2 < wordSize := by omega
  have hblock : fit.block.offset ≤ fit.offset + (heap.blocks.carve fit size).2 := by omega
  simp [Header.span, grant, addWord?, hword, hblock]

theorem claim_run (hsound : heap.Sound) (hfitting : heap.blocks.Fitting fit size alignment)
    (halignment : alignment.isPowerOfTwo) :
    claim fit size alignment heap =
      ⟨.ok (heap.grant fit size alignment), heap.claimed fit size, []⟩ := by
  have hcut := hfitting.cut halignment
  have htotal := hsound.totalSize_lt
  have hstop := hfitting.placed.stop_le
  have hword := Nat.lt_of_le_of_lt hstop (hsound.stop_lt fit.block hcut.mem)
  have hspan := grant_span (grant_within hsound hfitting halignment) htotal
  have hused := (claimed_exchange hsound hfitting halignment).sound.used_lt
  simp only [claimed] at hused
  simp only [grant] at hspan
  simp only [claim, bind_run, get_run, word_run_of_lt hword,
    require_run_of (And.intro hfitting.listed hstop), hspan, demand, pure_run,
    word_run_of_lt hused, modify_run, List.append_nil, claimed, grant]

theorem alignedAlloc_run (hsound : heap.Sound) (size alignment : Nat) :
    alignedAlloc size alignment heap =
      if ¬ alignment.isPowerOfTwo then .failed (.invalidAlignment heap.name alignment) heap
      else if size = 0 then .failed (.zeroSize heap.name) heap
      else match heap.blocks.bestFit? size alignment with
        | none => .failed (.outOfMemory heap.name size) heap
        | some fit => ⟨.ok ⟨0, fit.offset⟩, heap.granted fit size alignment,
            [.heapAllocated heap.name fit.offset size]⟩ := by
  simp only [alignedAlloc, bind_run, get_run, checkRequest_run]
  by_cases halignment : alignment.isPowerOfTwo
  case neg =>
    rw [if_pos halignment, if_pos halignment]
    rfl
  by_cases hsize : size = 0
  case pos =>
    rw [if_neg (not_not_intro halignment), if_neg (not_not_intro halignment), if_pos hsize,
      if_pos hsize]
    rfl
  rw [if_neg (not_not_intro halignment), if_neg (not_not_intro halignment), if_neg hsize,
    if_neg hsize]
  cases hfit : heap.blocks.bestFit? size alignment with
  | none => simp only [hfit, fail_run, Outcome.failed, List.nil_append]
  | some fit =>
    have hfitting := FreeList.fitting_of_bestFit? halignment hfit
    have hrange := (grant_within hsound hfitting halignment).range
    rw [← (claimed_exchange hsound hfitting halignment).totalSize_eq] at hrange
    simp only [hfit, bind_run, claim_run hsound hfitting halignment, grant,
      storeHeader_run hrange, emit_run, pure_run, List.nil_append, List.append_nil, granted,
      withHeader]

theorem alignedAlloc_cases (hsound : heap.Sound) (size alignment : Nat) :
    (∃ fault, alignedAlloc size alignment heap = .failed fault heap) ∨
      ∃ fit, alignment.isPowerOfTwo ∧ 0 < size ∧ heap.blocks.Fitting fit size alignment ∧
        alignedAlloc size alignment heap = ⟨.ok ⟨0, fit.offset⟩, heap.granted fit size alignment,
          [.heapAllocated heap.name fit.offset size]⟩ := by
  have hrun := alignedAlloc_run hsound size alignment
  split at hrun
  case isTrue => exact Or.inl ⟨_, hrun⟩
  case isFalse hpower =>
    have halignment := Decidable.not_not.mp hpower
    split at hrun
    case isTrue => exact Or.inl ⟨_, hrun⟩
    case isFalse hsize =>
      cases hfit : heap.blocks.bestFit? size alignment with
      | none => exact Or.inl ⟨_, hrun.trans (by rw [hfit])⟩
      | some fit =>
        exact Or.inr ⟨fit, halignment, Nat.pos_of_ne_zero hsize,
          FreeList.fitting_of_bestFit? halignment hfit, hrun.trans (by rw [hfit])⟩

/-! ## Release -/

def freed (heap : Heap) (handle : Handle) (old : Header) : Heap :=
  { heap.vacated handle old with memory := Header.clear heap.memory handle.offset }

theorem freed_exchange (hsound : heap.Sound) (hoccupied : heap.Occupied handle old) :
    Exchange heap (old.bytes handle.offset) (heap.freed handle old) [] := by
  have hstart := hoccupied.within.start_le
  apply (vacated_exchange hsound hoccupied).write Header.size_clear
  intro i hlost _
  rw [Header.mem_bytes] at hlost
  apply Header.getElem?_clear_of_notMem (by omega)
  rw [mem_interval]
  omega

theorem occupied_of_overlaps (hsound : heap.Sound) (hdecoded : heap.header? handle = some old)
    (hoverlaps : heap.blocks.overlaps old.start (handle.offset + old.size) = false) :
    heap.Occupied handle old :=
  ⟨hdecoded, (FreeList.overlaps_eq_false_iff hsound.canonical.ascending hsound.block_pos
    (within_of_header? hdecoded).start_lt).mp hoverlaps⟩

theorem Occupied.overlaps_eq_false (hsound : heap.Sound) (hoccupied : heap.Occupied handle old) :
    heap.blocks.overlaps old.start (handle.offset + old.size) = false :=
  (FreeList.overlaps_eq_false_iff hsound.canonical.ascending hsound.block_pos
    hoccupied.within.start_lt).mpr hoccupied.clear

/-- The bytes of an allocation are used, so that taking them off the count does not underflow. -/
theorem span_le_used (hsound : heap.Sound) (hoccupied : heap.Occupied handle old) :
    handle.offset + old.size - old.start ≤ heap.used := by
  have hstart := hoccupied.within.start_le
  exact hsound.length_le_used hoccupied.within.start_lt (Or.inl (by omega))
    hoccupied.within.stop_le hoccupied.clear

theorem free_run (hsound : heap.Sound) (handle : Handle) :
    free handle heap = match heap.header? handle with
      | none =>
        if heap.headerSlotIsFree handle then .failed (.doubleFree heap.name handle) heap
        else .failed (.invalidHandle heap.name handle) heap
      | some old =>
        if heap.blocks.overlaps old.start (handle.offset + old.size) then
          .failed (.doubleFree heap.name handle) heap
        else ⟨.ok (), heap.freed handle old, [.heapFreed heap.name handle.offset]⟩ := by
  simp only [free, bind_run, get_run]
  cases hheader : heap.header? handle with
  | none =>
    simp only
    split <;> rfl
  | some old =>
    have hwithin := within_of_header? hheader
    have hword : handle.offset + old.size < wordSize :=
      Nat.lt_of_le_of_lt hwithin.stop_le hsound.totalSize_lt
    simp only [bind_run, word_run_of_lt hword]
    split
    case isTrue => rfl
    case isFalse hoverlaps =>
      have hoccupied := occupied_of_overlaps hsound hheader (Bool.not_eq_true _ ▸ hoverlaps)
      simp only [bind_run, minus_run_of_le (Nat.le_of_lt hwithin.start_lt),
        minus_run_of_le (span_le_used hsound hoccupied), clearHeader_run hwithin.range, modify_run,
        emit_run, List.nil_append, freed, vacated, released]

theorem free_cases (hsound : heap.Sound) (handle : Handle) :
    (∃ fault, free handle heap = .failed fault heap) ∨
      ∃ old, heap.Occupied handle old ∧
        free handle heap =
          ⟨.ok (), heap.freed handle old, [.heapFreed heap.name handle.offset]⟩ := by
  have hrun := free_run hsound handle
  cases hheader : heap.header? handle with
  | none =>
    rw [hheader] at hrun
    simp only at hrun
    split at hrun <;> exact Or.inl ⟨_, hrun⟩
  | some old =>
    rw [hheader] at hrun
    simp only at hrun
    split at hrun
    case isTrue => exact Or.inl ⟨_, hrun⟩
    case isFalse hoverlaps =>
      exact Or.inr ⟨old, occupied_of_overlaps hsound hheader (Bool.not_eq_true _ ▸ hoverlaps), hrun⟩

theorem free_run_of_occupied (hsound : heap.Sound) (hoccupied : heap.Occupied handle old) :
    free handle heap =
      ⟨.ok (), heap.freed handle old, [.heapFreed heap.name handle.offset]⟩ := by
  rw [free_run hsound, hoccupied.decoded]
  simp only [hoccupied.overlaps_eq_false hsound, Bool.false_eq_true, ↓reduceIte]

/-! ## Resizing -/

theorem transfer_run {α : Type} {middle : Heap} {source stop target : Nat} (header : Header)
    (next : Action Heap α) (hsource : headerSize ≤ source) (hle : source ≤ stop)
    (hstop : stop ≤ middle.totalSize) (htarget : headerSize ≤ target)
    (hend : target + (stop - source) ≤ middle.totalSize) :
    (do clearHeader source; move source stop target; storeHeader target header; next)
        middle =
      next ({ middle with
        memory := Memory.write (Header.clear middle.memory source) target
          ((Header.clear middle.memory source).extract source stop) }.withHeader target header) := by
  have hclear : headerSize ≤ source ∧ source ≤ middle.totalSize := by omega
  have hmove : source ≤ stop ∧
      stop ≤ Heap.totalSize { middle with memory := Header.clear middle.memory source } ∧
      target + (stop - source) ≤
        Heap.totalSize { middle with memory := Header.clear middle.memory source } := by
    simp only [totalSize, Header.size_clear] at hstop hend ⊢
    exact ⟨hle, hstop, hend⟩
  have hstore (data : ByteArray) : headerSize ≤ target ∧ target ≤ Heap.totalSize { middle with
      memory := Memory.write (Header.clear middle.memory source) target data } := by
    simp only [totalSize, Memory.size_write, Header.size_clear] at hend ⊢
    omega
  simp only [bind_run, clearHeader_run hclear, move, get_run, require_run_of hmove, modify_run,
    storeHeader_run (hstore _), List.nil_append, withHeader]

theorem shrink_run (hsound : heap.Sound) (hoccupied : heap.Occupied handle old)
    (hlt : newSize < old.size) :
    shrink handle old newSize heap =
      if headerSize ≤ old.size - newSize ∨
          ∃ block ∈ heap.blocks, block.offset = handle.offset + old.size then
        ⟨.ok (), heap.shrunk handle old newSize, []⟩
      else ⟨.ok (), heap, []⟩ := by
  have hstart := hoccupied.within.start_le
  rw [headerSize] at hstart
  have hgive := FreeList.giveTail?_eq hsound.canonical hoccupied.clear
    (show old.start + (old.size - newSize) < handle.offset + old.size by omega)
  simp only [shrink, bind_run, get_run, hgive]
  split
  case isFalse => rfl
  case isTrue hlong =>
    have hused : old.size - newSize ≤ heap.used := by
      have hspan := span_le_used hsound hoccupied
      omega
    have hrange (blocks : FreeList) (used : Nat) : headerSize ≤ handle.offset ∧
        handle.offset ≤ Heap.totalSize { heap with blocks, used } :=
      hoccupied.within.range
    have hplace : handle.offset + old.size - (old.size - newSize) = handle.offset + newSize := by
      omega
    have hcount : handle.offset + old.size - (handle.offset + newSize) = old.size - newSize := by
      omega
    simp only [bind_run, get_run, minus_run_of_le hused, modify_run, storeHeader_run (hrange _ _),
      List.append_nil, shrunk, released, withHeader, hplace, hcount]

theorem grow_run (hsound : heap.Sound) (hoccupied : heap.Occupied handle old)
    (newSize : Nat) :
    grow handle old newSize heap =
      match heap.blocks.takeTail? (handle.offset + old.size) (newSize - old.size) with
      | none => ⟨.ok false, heap, []⟩
      | some (blocks, gained) => ⟨.ok true, heap.grown handle old blocks gained, []⟩ := by
  simp only [grow, bind_run, get_run]
  cases htake : heap.blocks.takeTail? (handle.offset + old.size) (newSize - old.size) with
  | none => rfl
  | some taken =>
    obtain ⟨blocks, gained⟩ := taken
    have hused : heap.used + gained < wordSize :=
      (grown_exchange hsound hoccupied htake).sound.used_lt
    have hrange (blocks : FreeList) (used : Nat) : headerSize ≤ handle.offset ∧
        handle.offset ≤ Heap.totalSize { heap with blocks, used } :=
      hoccupied.within.range
    simp only [bind_run, get_run, word_run_of_lt hused, modify_run, storeHeader_run (hrange _ _),
      pure_run, List.append_nil, grown, withHeader]

/-- A move that finds no place takes its release back. -/
theorem relocate_run (hsound : heap.Sound) (hoccupied : heap.Occupied handle old)
    (hlt : old.size < newSize) :
    relocate handle old newSize heap =
      match (heap.vacated handle old).blocks.bestFit? newSize old.alignment with
      | none => .failed (.outOfMemory heap.name newSize) heap
      | some fit => ⟨.ok ⟨0, fit.offset⟩, heap.relocated handle old fit newSize,
          [.heapRelocated heap.name handle.offset fit.offset newSize]⟩ := by
  have hstop := hoccupied.within.stop_le
  have hspan := hoccupied.within.start_lt
  have hvacate : { heap with
      blocks := (heap.blocks.release old.start (handle.offset + old.size)).1
      used := heap.used - (handle.offset + old.size - old.start) } =
    heap.vacated handle old := rfl
  simp only [relocate, bind_run, get_run, minus_run_of_le (Nat.le_of_lt hspan),
    minus_run_of_le (span_le_used hsound hoccupied), modify_run, hvacate]
  cases hfit : (heap.vacated handle old).blocks.bestFit? newSize old.alignment with
  | none =>
    have hreceipt := FreeList.receipt_index_lt hsound.canonical hsound.least_pos hspan
      hoccupied.clear
    have hundo := FreeList.undo_release hsound.canonical hsound.least_pos hspan hoccupied.clear
    simp only [vacated, released] at hfit
    simp only [hfit, bind_run, require_run_of hreceipt, modify_run, fail_run, hundo,
      Outcome.failed, List.nil_append, vacated, released]
  | some fit =>
    have hvacated := vacated_exchange hsound hoccupied
    have hfitting := FreeList.fitting_of_bestFit? hoccupied.within.power hfit
    have hclaim := claim_run hvacated.sound hfitting hoccupied.within.power
    have hclaimed := claimed_exchange hvacated.sound hfitting hoccupied.within.power
    have htotal := hclaimed.totalSize_eq.trans hvacated.totalSize_eq
    have hwithin := grant_within hvacated.sound hfitting hoccupied.within.power
    rw [hvacated.totalSize_eq, ← htotal] at hwithin
    have hgranted : newSize ≤ ((heap.vacated handle old).grant fit newSize old.alignment).size :=
      FreeList.le_carve _ _ _
    have hroom : fit.offset + (handle.offset + old.size - handle.offset) ≤
        ((heap.vacated handle old).claimed fit newSize).totalSize := by
      have hend := hwithin.stop_le
      omega
    have htransfer (header : Header) (next : Action Heap Handle) :=
      transfer_run header next hoccupied.within.range.1 (Nat.le_add_right handle.offset old.size)
        (Nat.le_trans hstop (Nat.le_of_eq htotal.symm)) hwithin.range.1 hroom
    simp only [vacated, released] at hfit
    simp only [hfit]
    rw [bind_run, hclaim]
    simp only [grant] at htransfer ⊢
    rw [htransfer]
    rfl

theorem resize_run_self (heap : Heap) (handle : Handle) (old : Header) :
    resize handle old old.size heap = ⟨.ok handle, heap, []⟩ := by
  unfold resize
  rw [if_pos rfl]
  rfl

theorem resize_run_of_shrunk (hsound : heap.Sound) (hoccupied : heap.Occupied handle old)
    (hlt : newSize < old.size) (hlong : headerSize ≤ old.size - newSize ∨
      ∃ block ∈ heap.blocks, block.offset = handle.offset + old.size) :
    resize handle old newSize heap = ⟨.ok handle, heap.shrunk handle old newSize, []⟩ := by
  unfold resize
  simp only [if_neg (Nat.ne_of_lt hlt), if_pos hlt, bind_run,
    shrink_run hsound hoccupied hlt, if_pos hlong]
  rfl

theorem resize_run_of_le (hsound : heap.Sound) (hoccupied : heap.Occupied handle old)
    (hle : newSize ≤ old.size) : ∃ header after,
      resize handle old newSize heap = ⟨.ok handle, after, []⟩ ∧
        heap.Resized handle old newSize handle header after := by
  by_cases heq : newSize = old.size
  case pos =>
    subst heq
    exact ⟨old, heap, resize_run_self heap handle old, .kept hle (by rw [headerSize]; omega)⟩
  have hlt : newSize < old.size := by omega
  by_cases hlong : headerSize ≤ old.size - newSize ∨
      ∃ block ∈ heap.blocks, block.offset = handle.offset + old.size
  case pos => exact ⟨_, _, resize_run_of_shrunk hsound hoccupied hlt hlong, .shrunk hlt hlong⟩
  case neg =>
    unfold resize
    simp only [if_neg heq, if_pos hlt, bind_run, shrink_run hsound hoccupied hlt, if_neg hlong]
    exact ⟨old, heap, rfl, .kept hle (by rw [not_or] at hlong; omega)⟩

/-- An allocation that is to grow takes the bytes behind it, or else moves. -/
theorem resize_run_of_lt (hsound : heap.Sound) (hoccupied : heap.Occupied handle old)
    (hlt : old.size < newSize) :
    resize handle old newSize heap =
      match heap.blocks.takeTail? (handle.offset + old.size) (newSize - old.size) with
      | some (blocks, gained) => ⟨.ok handle, heap.grown handle old blocks gained, []⟩
      | none => match (heap.vacated handle old).blocks.bestFit? newSize old.alignment with
        | none => .failed (.outOfMemory heap.name newSize) heap
        | some fit => ⟨.ok ⟨0, fit.offset⟩, heap.relocated handle old fit newSize,
            [.heapRelocated heap.name handle.offset fit.offset newSize]⟩ := by
  unfold resize
  simp only [if_neg (Nat.ne_of_gt hlt), if_neg (Nat.not_lt_of_gt hlt), bind_run,
    grow_run hsound hoccupied]
  cases htake : heap.blocks.takeTail? (handle.offset + old.size) (newSize - old.size) with
  | some taken => rfl
  | none =>
    simp only [Bool.false_eq_true, ↓reduceIte, relocate_run hsound hoccupied hlt]
    cases (heap.vacated handle old).blocks.bestFit? newSize old.alignment <;> rfl

theorem resize_settles (hsound : heap.Sound) (hoccupied : heap.Occupied handle old)
    (newSize : Nat) :
    (resize handle old newSize heap).Settles heap fun moved after =>
      ∃ header, heap.Resized handle old newSize moved header after := by
  by_cases hlt : old.size < newSize
  case pos =>
    rw [resize_run_of_lt hsound hoccupied hlt]
    cases htake : heap.blocks.takeTail? (handle.offset + old.size) (newSize - old.size) with
    | some taken => exact .done _ ⟨_, .grown hlt htake⟩
    | none =>
      simp only
      cases hfit : (heap.vacated handle old).blocks.bestFit? newSize old.alignment with
      | none => exact .failed _
      | some fit => exact .done _ ⟨_, .moved hlt htake hfit⟩
  case neg =>
    obtain ⟨header, after, hrun, hresized⟩ :=
      resize_run_of_le hsound hoccupied (Nat.le_of_not_lt hlt)
    rw [hrun]
    exact .done [] ⟨header, hresized⟩

theorem realloc_run (hsound : heap.Sound) (handle : Handle) (newSize : Nat) :
    realloc handle newSize heap = match heap.header? handle with
      | none => .failed (.invalidHandle heap.name handle) heap
      | some old =>
        if heap.blocks.overlaps old.start (handle.offset + old.size) then
          .failed (.invalidHandle heap.name handle) heap
        else if newSize = 0 then .failed (.zeroSize heap.name) heap
        else if old.size + heap.freeSize < newSize then
          .failed (.outOfMemory heap.name newSize) heap
        else resize handle old newSize heap := by
  simp only [realloc, bind_run, get_run, header_run]
  cases hheader : heap.header? handle with
  | none => rfl
  | some old =>
    have hstop := (within_of_header? hheader).stop_le
    have htotal := hsound.addressable
    have hword : handle.offset + old.size < wordSize := Nat.lt_of_le_of_lt hstop hsound.totalSize_lt
    have hroom : addWord? old.size (heap.totalSize - heap.used) =
        some (old.size + heap.freeSize) := by
      rw [addWord?_eq_some_iff]
      rw [maxReservation] at htotal
      rw [wordSize]
      exact ⟨rfl, by rw [freeSize]; omega⟩
    simp only [word_run_of_lt hword]
    split
    case isTrue => rfl
    split
    case isTrue => rfl
    simp only [bind_run, get_run, minus_run_of_le hsound.used_le, hroom, Option.any_some,
      decide_eq_true_eq]
    split <;> rfl

theorem realloc_cases (hsound : heap.Sound) (handle : Handle) (newSize : Nat) :
    (∃ fault, realloc handle newSize heap = .failed fault heap) ∨
      ∃ old, heap.Occupied handle old ∧ 0 < newSize ∧
        realloc handle newSize heap = resize handle old newSize heap := by
  have hrun := realloc_run hsound handle newSize
  cases hheader : heap.header? handle with
  | none => exact Or.inl ⟨_, hrun.trans (by rw [hheader])⟩
  | some old =>
    rw [hheader] at hrun
    simp only at hrun
    split at hrun
    case isTrue => exact Or.inl ⟨_, hrun⟩
    case isFalse hoverlaps =>
      split at hrun
      case isTrue => exact Or.inl ⟨_, hrun⟩
      case isFalse hsize =>
        split at hrun
        case isTrue => exact Or.inl ⟨_, hrun⟩
        case isFalse =>
          exact Or.inr ⟨old,
            occupied_of_overlaps hsound hheader (Bool.not_eq_true _ ▸ hoverlaps),
            Nat.pos_of_ne_zero hsize, hrun⟩

theorem realloc_settles (hsound : heap.Sound) (handle : Handle) (newSize : Nat) :
    (realloc handle newSize heap).Settles heap fun moved after =>
      ∃ old header, heap.Occupied handle old ∧ 0 < newSize ∧
        heap.Resized handle old newSize moved header after := by
  obtain ⟨fault, hrun⟩ | ⟨old, hoccupied, hpos, hrun⟩ := realloc_cases hsound handle newSize
  · rw [hrun]
    exact .failed fault
  · rw [hrun]
    refine (resize_settles hsound hoccupied newSize).imp ?_
    rintro moved after ⟨header, hresized⟩
    exact ⟨old, header, hoccupied, hpos, hresized⟩

theorem realloc_run_of_occupied (hsound : heap.Sound) (hoccupied : heap.Occupied handle old)
    (hpos : 0 < newSize) :
    realloc handle newSize heap =
      if old.size + heap.freeSize < newSize then .failed (.outOfMemory heap.name newSize) heap
      else resize handle old newSize heap := by
  rw [realloc_run hsound, hoccupied.decoded]
  simp only [hoccupied.overlaps_eq_false hsound, Bool.false_eq_true, ↓reduceIte,
    if_neg (Nat.ne_of_gt hpos)]

end Heap

end HandleAlloc
