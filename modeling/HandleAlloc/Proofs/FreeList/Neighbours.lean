import HandleAlloc.Proofs.FreeList.Release
import Mathlib.Data.List.Chain
import Mathlib.Data.List.TakeWhile
/-!
# Neighbouring blocks

Two operations look only at the blocks around a span. The test whether a span overlaps free bytes
answers for all blocks, if they ascend and share no byte (`overlaps_iff_exists_meets`). A release
gives the one list of separate blocks that has the bytes of the span besides the old ones, and can
be taken back exactly (`eq_release_iff_and_undo_eq`). Of a block before the span that has been
merged, nothing but the size is needed for that (`undoInPlace`).
-/

namespace HandleAlloc

def Block.Meets (block : Block) (start stop : Nat) : Prop :=
  ∃ i ∈ interval start stop, i ∈ interval block.offset block.stop

instance (block : Block) (start stop : Nat) : Decidable (block.Meets start stop) :=
  inferInstanceAs (Decidable (∃ i ∈ interval start stop, i ∈ interval block.offset block.stop))

namespace FreeList

/-- Blocks with bytes of their own, each of which ends before the next one starts. -/
structure Separate (blocks : FreeList) : Prop where
  pos : ∀ block ∈ blocks, 0 < block.size
  apart : blocks.IsChain fun a b => a.stop < b.offset

/-- Takes a release back at the place where it was made: a block that has grown over the span gets
its size back, one that starts with the span goes, and the block behind the span returns. -/
def undoInPlace (blocks : FreeList) (receipt : Receipt) : FreeList :=
  match receipt.before.map Block.size, receipt.after with
  | none, none => blocks.eraseIdx receipt.index
  | some size, none => blocks.modify receipt.index fun merged => ⟨merged.offset, size⟩
  | none, some next => blocks.set receipt.index next
  | some size, some next =>
    (blocks.modify receipt.index fun merged => ⟨merged.offset, size⟩).insertIdx
      (receipt.index + 1) next

/-! ## Overlapping a span -/

section Overlap

variable {blocks : FreeList} {block : Block} {start stop position : Nat}

theorem meets_iff (hpos : 0 < block.size) (hlt : start < stop) :
    block.Meets start stop ↔ ¬ (block.stop ≤ start ∨ stop ≤ block.offset) := by
  have hbytes : block.offset < block.stop := Nat.lt_add_of_pos_right hpos
  rw [Block.Meets, exists_mem_interval_iff hlt hbytes, not_or, Nat.not_le, Nat.not_le, and_comm]

theorem clear_iff_not_meets (hpos : ∀ block ∈ blocks, 0 < block.size) (hlt : start < stop) :
    blocks.Clear start stop ↔ ∀ block ∈ blocks, ¬ block.Meets start stop := by
  refine forall₂_congr fun block hmem => ?_
  rw [meets_iff (hpos block hmem) hlt, not_not]

theorem ascending_of_not_meets (hsorted : blocks.Pairwise fun a b => a.offset ≤ b.offset)
    (hdisjoint : blocks.Pairwise fun a b => ¬ a.Meets b.offset b.stop)
    (hpos : ∀ block ∈ blocks, 0 < block.size) :
    blocks.Pairwise fun a b => a.stop ≤ b.offset := by
  refine (hsorted.and hdisjoint).imp_of_mem ?_
  rintro a b ha hb ⟨hle, hshare⟩
  have hbytes : b.offset < b.stop := Nat.lt_add_of_pos_right (hpos b hb)
  rw [meets_iff (hpos a ha) hbytes] at hshare
  omega

theorem startingBefore_eq_filter (hsorted : blocks.Pairwise fun a b => a.offset ≤ b.offset) :
    blocks.startingBefore position = blocks.filter (·.offset < position) := by
  induction blocks with
  | nil => rfl
  | cons first rest ih =>
    rw [List.pairwise_cons] at hsorted
    rw [startingBefore, List.takeWhile_cons, List.filter_cons]
    split
    case isTrue => exact congrArg (first :: ·) (ih hsorted.2)
    case isFalse hfirst =>
      have hnone : rest.filter (·.offset < position) = [] := by
        rw [List.filter_eq_nil_iff]
        intro block hmem
        have hle := hsorted.1 block hmem
        simp only [decide_eq_true_eq] at hfirst ⊢
        omega
      exact hnone.symm

theorem head?_startingFrom (blocks : FreeList) (position : Nat) :
    (blocks.startingFrom position).head? = blocks.find? (position ≤ ·.offset) := by
  have hfind := List.find?_not_eq_head?_dropWhile (p := (·.offset < position)) (l := blocks)
  simp only [← decide_not, Nat.not_lt] at hfind
  exact hfind.symm

/-- If the blocks ascend and share no byte, the test for free bytes in a span is complete: it
succeeds just if a block has a byte of the span. Yet it looks at two blocks only, the last of those
that start before the span and the first of the others. -/
theorem overlaps_iff_exists_meets (hsorted : blocks.Pairwise fun a b => a.offset ≤ b.offset)
    (hdisjoint : blocks.Pairwise fun a b => ¬ a.Meets b.offset b.stop)
    (hpos : ∀ block ∈ blocks, 0 < block.size) (hlt : start < stop) :
    (blocks.overlaps start stop = true ↔ ∃ block ∈ blocks, block.Meets start stop) ∧
    blocks.overlaps start stop =
      ((blocks.filter (·.offset < start)).getLast?.any (start < ·.stop) ||
        (blocks.find? (start ≤ ·.offset)).any (·.offset < stop)) := by
  constructor
  · have hascending := ascending_of_not_meets hsorted hdisjoint hpos
    rw [← Bool.not_eq_false, overlaps_eq_false_iff hascending hpos hlt,
      clear_iff_not_meets hpos hlt]
    simp only [not_forall, not_not, exists_prop]
  · rw [overlaps, startingBefore_eq_filter hsorted, head?_startingFrom]

/-- The span between two blocks, which touches both and overlaps neither, and the spans that reach
one byte further. -/
theorem overlaps_iff_exists_meets_of_touching :
    let blocks : FreeList := [⟨0, 32⟩, ⟨64, 16⟩, ⟨80, 8⟩]
    blocks.Pairwise (fun a b => a.offset ≤ b.offset) ∧
      blocks.Pairwise (fun a b => ¬ a.Meets b.offset b.stop) ∧
      (∀ block ∈ blocks, 0 < block.size) ∧
      (blocks.overlaps 32 64 = true ↔ ∃ block ∈ blocks, block.Meets 32 64) ∧
      blocks.overlaps 32 64 = false ∧ blocks.overlaps 31 64 = true ∧
      blocks.overlaps 32 65 = true := by
  intro blocks
  have hsorted : blocks.Pairwise fun a b => a.offset ≤ b.offset := by decide
  have hdisjoint : blocks.Pairwise fun a b => ¬ a.Meets b.offset b.stop := by decide +kernel
  have hpos : ∀ block ∈ blocks, 0 < block.size := by decide
  exact ⟨hsorted, hdisjoint, hpos,
    (overlaps_iff_exists_meets hsorted hdisjoint hpos (by decide)).1, by decide, by decide,
    by decide⟩

end Overlap

/-! ## Releasing a span -/

section Release

variable {blocks left right : FreeList} {before after : Option Block} {start stop limit : Nat}

theorem Separate.pairwise (hseparate : blocks.Separate) :
    blocks.Pairwise fun a b => a.stop < b.offset := by
  have : Trans (fun a b : Block => a.stop < b.offset) (fun a b : Block => a.stop < b.offset)
      (fun a b : Block => a.stop < b.offset) := by
    refine ⟨fun {a b c} hab hbc => ?_⟩
    rw [Block.stop] at hbc
    omega
  exact List.isChain_iff_pairwise.mp hseparate.apart

theorem Separate.canonical (hseparate : blocks.Separate)
    (hwithin : ∀ i ∈ blocks.bytes, i < limit) : blocks.Canonical 1 limit := by
  refine ⟨hseparate.pairwise, hseparate.pos, fun block hmem => ?_⟩
  have hpos := hseparate.pos block hmem
  have hlast := hwithin (block.stop - 1)
    (mem_bytes.mpr ⟨block, hmem, by rw [Block.stop]; omega⟩)
  omega

theorem Canonical.separate {least : Nat} (hcanonical : blocks.Canonical least limit)
    (hleast : 0 < least) : blocks.Separate :=
  ⟨fun block hmem => Nat.lt_of_lt_of_le hleast (hcanonical.long block hmem),
    hcanonical.apart.isChain⟩

private theorem modify_append_cons {α : Type} (left right : List α) (x : α) (f : α → α) :
    (left ++ x :: right).modify left.length f = left ++ f x :: right := by
  induction left with
  | nil => rfl
  | cons first left ih =>
    rw [List.cons_append, List.length_cons, List.modify_succ_cons, ih, List.cons_append]

private theorem insertIdx_append_cons {α : Type} (left right : List α) (x y : α) :
    (left ++ x :: right).insertIdx (left.length + 1) y = left ++ x :: y :: right := by
  induction left with
  | nil => rfl
  | cons first left ih =>
    rw [List.cons_append, List.length_cons, List.insertIdx_succ_cons, ih, List.cons_append]

/-- A block that grows over a span keeps its start, so that its size gives it back. -/
theorem Merge.undoInPlace_release (hmerge : Merge blocks start stop left before after right) :
    (blocks.release start stop).1.undoInPlace (blocks.release start stop).2 = blocks := by
  rw [hmerge.released]
  conv =>
    rhs
    rw [hmerge.split]
  cases before with
  | none =>
    cases after with
    | none => simp [undoInPlace, List.eraseIdx_append_of_length_le]
    | some next => simp [undoInPlace]
  | some previous =>
    cases after with
    | none => simp [undoInPlace, modify_append_cons]
    | some next => simp [undoInPlace, modify_append_cons, insertIdx_append_cons]

/-- The release of a span that shares no byte with separate blocks gives the only list of separate
blocks whose bytes are the old ones and those of the span, and its receipt gives the old list back,
block for block. -/
theorem eq_release_iff_and_undo_eq (hseparate : blocks.Separate) (hlt : start < stop)
    (hdisjoint : ∀ block ∈ blocks, ¬ block.Meets start stop) :
    let (released, receipt) := blocks.release start stop
    (∀ other : FreeList, other = released ↔ other.Separate ∧
      ∀ i, i ∈ other.bytes ↔ i ∈ blocks.bytes ∨ i ∈ interval start stop) ∧
    released.undo receipt = blocks ∧ released.undoInPlace receipt = blocks := by
  have hclear := (clear_iff_not_meets hseparate.pos hlt).mpr hdisjoint
  let limit := max stop (blocks.bytes.max?.getD 0 + 1)
  have hwithin (i : Nat) (hmem : i ∈ blocks.bytes ∨ i ∈ interval start stop) : i < limit := by
    obtain hmem | hmem := hmem
    · exact Nat.lt_of_lt_of_le (Nat.lt_succ_of_le (List.le_max?_getD_of_mem hmem))
        (Nat.le_max_right ..)
    · exact Nat.lt_of_lt_of_le (mem_interval.mp hmem).2 (Nat.le_max_left ..)
  have hcanonical := hseparate.canonical fun i hmem => hwithin i (Or.inl hmem)
  have hreleased := release_canonical hcanonical Nat.one_pos hlt (Or.inl hlt)
    (Nat.le_max_left ..) hclear
  have hbytes (i : Nat) :
      i ∈ (blocks.release start stop).1.bytes ↔ i ∈ blocks.bytes ∨ i ∈ interval start stop := by
    rw [(release_bytes_perm hcanonical Nat.one_pos hlt hclear).mem_iff, List.mem_append, or_comm]
  refine ⟨fun other => ⟨?_, ?_⟩, undo_release hcanonical Nat.one_pos hlt hclear, ?_⟩
  · rintro rfl
    exact ⟨hreleased.separate Nat.one_pos, hbytes⟩
  · rintro ⟨hother, hsame⟩
    have hlisted := hother.canonical fun i hmem => hwithin i ((hsame i).mp hmem)
    exact hlisted.eq_of_bytes Nat.one_pos hreleased fun i => (hsame i).trans (hbytes i).symm
  · obtain ⟨_, _, _, _, hmerge⟩ := exists_merge hcanonical Nat.one_pos hlt hclear
    exact hmerge.undoInPlace_release

/-- A span that fills the gap between two blocks makes one block of the three, which is split
again. -/
theorem eq_release_iff_and_undo_eq_of_gap :
    let blocks : FreeList := [⟨0, 8⟩, ⟨16, 16⟩, ⟨64, 16⟩, ⟨96, 8⟩]
    let (released, receipt) := blocks.release 32 64
    blocks.Separate ∧ (∀ block ∈ blocks, ¬ block.Meets 32 64) ∧
      released = [⟨0, 8⟩, ⟨16, 64⟩, ⟨96, 8⟩] ∧
      released.undo receipt = blocks ∧ released.undoInPlace receipt = blocks := by
  intro blocks
  have hseparate : blocks.Separate := ⟨by decide, by decide⟩
  have hdisjoint : ∀ block ∈ blocks, ¬ block.Meets 32 64 := by decide +kernel
  have hrelease := eq_release_iff_and_undo_eq hseparate (by decide) hdisjoint
  exact ⟨hseparate, hdisjoint, by decide, hrelease.2⟩

end Release

end FreeList

end HandleAlloc
