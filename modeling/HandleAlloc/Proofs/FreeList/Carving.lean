import HandleAlloc.Proofs.Alignment
import HandleAlloc.Proofs.FreeList.Canonical
/-!
# Carving blocks

Bytes leave a free list at the front of a block: a request that fits there is carved out of it, and
an allocation that ends where a block starts takes its first bytes. Both are a `Cut`, which takes a
block whole or leaves at least a header's length of it.
-/

namespace HandleAlloc

namespace FreeList

/-- `Cut blocks block stop rest`: the free list `rest` is `blocks` without the bytes of `block`
before `stop`. -/
inductive Cut (blocks : FreeList) (block : Block) : Nat → FreeList → Prop where
  | whole {left right : FreeList} (hsplit : blocks = left ++ block :: right) :
    Cut blocks block block.stop (left ++ right)
  | front {left right : FreeList} {stop : Nat} (hsplit : blocks = left ++ block :: right)
    (hstart : block.offset ≤ stop) (hstop : stop + headerSize ≤ block.stop) :
    Cut blocks block stop (left ++ ⟨stop, block.stop - stop⟩ :: right)

namespace Cut

variable {blocks rest : FreeList} {block : Block} {stop least limit : Nat}

theorem mem (hcut : Cut blocks block stop rest) : block ∈ blocks := by
  cases hcut with
  | whole hsplit => simp [hsplit]
  | front hsplit => simp [hsplit]

theorem stop_le (hcut : Cut blocks block stop rest) : stop ≤ block.stop := by
  cases hcut with
  | whole => exact Nat.le_refl _
  | front _ _ hstop => omega

theorem bytes_perm (hcut : Cut blocks block stop rest) :
    (interval block.offset stop ++ rest.bytes).Perm blocks.bytes := by
  cases hcut with
  | whole hsplit =>
    simp only [hsplit, bytes_append, bytes_cons, List.perm_iff_count, List.count_append]
    intro i
    omega
  | front hsplit hstart hstop =>
    have hle : stop ≤ block.stop := by omega
    have hrest : Block.stop ⟨stop, block.stop - stop⟩ = block.stop := Nat.add_sub_cancel' hle
    rw [hsplit, bytes_append, bytes_append, bytes_cons, bytes_cons, hrest,
      ← interval_append hstart hle]
    simp only [List.perm_iff_count, List.count_append]
    intro i
    omega

theorem canonical (hcut : Cut blocks block stop rest) (hcanonical : blocks.Canonical least limit)
    (hleast : least ≤ headerSize) : rest.Canonical least limit := by
  cases hcut with
  | whole hsplit =>
    rw [hsplit, canonical_append, canonical_cons] at hcanonical
    obtain ⟨hleft, ⟨_, _, hright⟩, hacross⟩ := hcanonical
    rw [canonical_append]
    exact ⟨hleft, hright, fun a ha b hb => hacross a ha b (List.mem_cons_of_mem _ hb)⟩
  | front hsplit hstart hstop =>
    rw [hsplit, canonical_append, canonical_cons] at hcanonical
    obtain ⟨hleft, ⟨⟨_, hwithin⟩, hafter, hright⟩, hacross⟩ := hcanonical
    have hle : stop ≤ block.stop := by omega
    have hrest : Block.stop ⟨stop, block.stop - stop⟩ = block.stop := Nat.add_sub_cancel' hle
    rw [canonical_append, canonical_cons, hrest]
    have hlong : least ≤ block.stop - stop := by omega
    refine ⟨hleft, ⟨⟨hlong, hwithin⟩, hafter, hright⟩, ?_⟩
    · intro a ha b hb
      obtain rfl | hb := List.mem_cons.mp hb
      · exact Nat.lt_of_lt_of_le (hacross a ha block List.mem_cons_self) hstart
      · exact hacross a ha b (List.mem_cons_of_mem _ hb)

end Cut

/-- A block of the list and the place that a request finds in it. -/
structure Fitting (blocks : FreeList) (fit : Fit) (size alignment : Nat) : Prop where
  listed : blocks[fit.index]? = some fit.block
  placed : fit.block.Placed size alignment fit.offset

theorem fitting_of_bestFit? {blocks : FreeList} {fit : Fit} {size alignment : Nat}
    (halignment : alignment.isPowerOfTwo) (hfit : blocks.bestFit? size alignment = some fit) :
    blocks.Fitting fit size alignment := by
  have hmem := List.minOn?_mem hfit
  rw [fits, List.mem_filterMap] at hmem
  obtain ⟨⟨block, index⟩, hlisted, hplace⟩ := hmem
  obtain ⟨offset, hoffset, rfl⟩ := Option.map_eq_some_iff.mp hplace
  exact ⟨List.mem_zipIdx_iff_getElem?.mp hlisted, Block.placed_of_place? halignment hoffset⟩

theorem bestFit?_eq_none_iff {blocks : FreeList} {size alignment : Nat} :
    blocks.bestFit? size alignment = none ↔
      ∀ block ∈ blocks, block.place? size alignment = none := by
  rw [bestFit?, ← Option.not_isSome_iff_eq_none, List.isSome_minOn?_iff, ne_eq, not_not, fits,
    List.filterMap_eq_nil_iff]
  simp only [Option.map_eq_none_iff, Prod.forall]
  constructor
  · intro hnone block hmem
    obtain ⟨i, hi⟩ := List.getElem?_of_mem hmem
    exact hnone block i (List.mem_zipIdx_iff_getElem?.mpr hi)
  · intro hnone block i hmem
    exact hnone block (List.fst_mem_of_mem_zipIdx hmem)

section Carve

variable {blocks rest : FreeList} {fit : Fit} {size alignment stop count gained least limit : Nat}

theorem le_carve (blocks : FreeList) (fit : Fit) (size : Nat) :
    size ≤ (blocks.carve fit size).2 := by
  simp only [carve]
  split
  · exact Nat.le_add_right _ _
  · exact Nat.le_refl _

theorem carve_lt (blocks : FreeList) (fit : Fit) (size : Nat) :
    (blocks.carve fit size).2 < size + headerSize := by
  simp only [carve]
  split
  · simp only
    omega
  · exact Nat.lt_add_of_pos_right (by decide)

theorem Fitting.cut (hfitting : blocks.Fitting fit size alignment)
    (halignment : alignment.isPowerOfTwo) :
    Cut blocks fit.block (fit.offset + (blocks.carve fit size).2) (blocks.carve fit size).1 := by
  obtain ⟨hlt, hblock⟩ := List.getElem?_eq_some_iff.mp hfitting.listed
  have hsplit : blocks = blocks.take fit.index ++ fit.block :: blocks.drop (fit.index + 1) := by
    rw [← hblock, List.getElem_cons_drop, List.take_append_drop]
  have hstart := hfitting.placed.start_le halignment
  have hstop := hfitting.placed.stop_le
  simp only [carve]
  split
  case isTrue =>
    have hwhole : fit.offset + (size + (fit.block.stop - (fit.offset + size))) =
        fit.block.stop := by omega
    rw [List.eraseIdx_eq_take_drop_succ, hwhole]
    exact Cut.whole hsplit
  case isFalse =>
    rw [List.set_eq_take_append_cons_drop, if_pos hlt]
    exact Cut.front hsplit (by omega) (by omega)

theorem cut_of_takeTail? (htake : blocks.takeTail? stop count = some (rest, gained)) :
    ∃ block, block.offset = stop ∧ Cut blocks block (stop + gained) rest := by
  have hsplit := startingBefore_append_startingFrom blocks stop
  simp only [takeTail?] at htake
  split at htake
  case h_2 => contradiction
  case h_1 next right hfrom =>
    rw [hfrom] at hsplit
    split at htake
    case isFalse => contradiction
    case isTrue hnext =>
      obtain ⟨rfl, hcount⟩ := hnext
      refine ⟨next, rfl, ?_⟩
      split at htake <;> obtain ⟨rfl, rfl⟩ := Prod.mk.inj (Option.some.inj htake)
      case isTrue => exact Cut.whole hsplit.symm
      case isFalse hlong =>
        have hsize : next.size - count = next.stop - (next.offset + count) := by
          rw [Block.stop]
          omega
        rw [hsize]
        refine Cut.front hsplit.symm (Nat.le_add_right _ _) ?_
        rw [Block.stop]
        omega

theorem gained_bounds (htake : blocks.takeTail? stop count = some (rest, gained)) :
    count ≤ gained ∧ gained < count + headerSize := by
  simp only [takeTail?] at htake
  split at htake
  case h_2 => contradiction
  case h_1 next right hfrom =>
    split at htake
    case isFalse => contradiction
    case isTrue hnext =>
      have hheader : 0 < headerSize := by decide
      split at htake <;> obtain ⟨rfl, rfl⟩ := Prod.mk.inj (Option.some.inj htake) <;> omega

theorem takeTail?_of_mem {block : Block} (hcanonical : blocks.Canonical least limit)
    (hmem : block ∈ blocks) (hcount : count ≤ block.size) :
    ∃ rest, blocks.takeTail? block.offset count =
      some (rest, if block.size - count < headerSize then block.size else count) := by
  obtain ⟨hhead, _⟩ := (head?_startingFrom_iff hcanonical).mpr ⟨hmem, rfl⟩
  obtain ⟨right, hfrom⟩ := List.head?_eq_some_iff.mp hhead
  simp only [takeTail?, hfrom, hcount, and_self, ↓reduceIte]
  split
  · exact ⟨_, rfl⟩
  · exact ⟨_, rfl⟩

/-- An allocation takes bytes behind it unless the block there is too small or there is none. -/
theorem takeTail?_eq_none_iff (hcanonical : blocks.Canonical least limit) :
    blocks.takeTail? stop count = none ↔
      ∀ block ∈ blocks, block.offset = stop → block.size < count := by
  have hbehind (block : Block) : block ∈ blocks ∧ block.offset = stop ↔
      (blocks.startingFrom stop).head? = some block ∧ block.offset = stop :=
    (head?_startingFrom_iff hcanonical).symm
  simp only [← and_imp, hbehind, takeTail?]
  cases blocks.startingFrom stop with
  | nil => simp
  | cons next right =>
    by_cases htouch : next.offset = stop
    · by_cases hroom : count ≤ next.size
      · simp only [htouch, hroom, and_self, ↓reduceIte, List.head?_cons]
        split <;> simp [htouch, hroom]
      · simp [htouch, hroom, Nat.lt_of_not_le hroom]
    · simp [htouch]

end Carve

end FreeList

end HandleAlloc
