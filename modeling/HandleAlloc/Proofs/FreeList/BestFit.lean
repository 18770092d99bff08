import HandleAlloc.Proofs.FreeList.Carving
/-!
# The best fit

Of the blocks that a request is eligible for, the search takes the smallest and of these the lowest
(`Best`). That it computes in machine words makes no difference to a list whose blocks end at
machine words (`best_of_bestFit?`, `bestFit?_eq_none_iff_not_eligible`). Carving the request out of
the block that was found leaves the blocks around it as they are (`carve_append`).
-/

namespace HandleAlloc

def Block.beyond (block : Block) (position : Nat) : Block := ⟨position, block.stop - position⟩

namespace FreeList

theorem exists_append_of_minOn? {α : Type} {value : α → Nat} {xs : List α} {least : α}
    (hleast : xs.minOn? value = some least) :
    ∃ left right, xs = left ++ least :: right ∧ (∀ x ∈ left, value least < value x) ∧
      ∀ x ∈ right, value least ≤ value x := by
  induction xs generalizing least with
  | nil => simp at hleast
  | cons first rest ih =>
    rw [List.minOn?_cons, Option.some.injEq] at hleast
    cases hrest : rest.minOn? value with
    | none =>
      obtain rfl : rest = [] := by simpa [← Option.not_isSome_iff_eq_none] using hrest
      rw [hrest, Option.elim_none] at hleast
      exact ⟨[], [], by rw [hleast]; rfl, nofun, nofun⟩
    | some best =>
      obtain ⟨left, right, rfl, hleft, hright⟩ := ih hrest
      rw [hrest, Option.elim_some, minOn] at hleast
      split at hleast
      case isTrue hle =>
        subst hleast
        refine ⟨[], left ++ best :: right, rfl, nofun, ?_⟩
        intro x hx
        simp only [List.mem_append, List.mem_cons] at hx
        obtain hx | rfl | hx := hx
        · exact Nat.le_trans hle (Nat.le_of_lt (hleft x hx))
        · exact hle
        · exact Nat.le_trans hle (hright x hx)
      case isFalse hlt =>
        subst hleast
        refine ⟨first :: left, right, rfl, ?_, hright⟩
        rw [List.forall_mem_cons]
        exact ⟨Nat.lt_of_not_le hlt, hleft⟩

/-- The block that a request goes to: the smallest one that it fits in, and of these the lowest. -/
structure Best (blocks : FreeList) (size alignment : Nat) (block : Block) : Prop where
  eligible : block.Eligible size alignment
  least : ∀ other ∈ blocks, other.Eligible size alignment →
    block.size < other.size ∨ block.size = other.size ∧ block.offset ≤ other.offset

section Search

variable {blocks left right : FreeList} {block : Block} {fit : Fit}
  {size alignment least limit : Nat}

theorem exists_append_of_bestFit? (hfit : blocks.bestFit? size alignment = some fit) :
    ∃ left right, blocks = left ++ fit.block :: right ∧ fit.index = left.length ∧
      fit.block.place? size alignment = some fit.offset ∧
      (∀ other ∈ left, ∀ offset, other.place? size alignment = some offset →
        fit.block.size < other.size) ∧
      ∀ other ∈ right, ∀ offset, other.place? size alignment = some offset →
        fit.block.size ≤ other.size := by
  obtain ⟨before, after, hsplit, hbefore, hafter⟩ := exists_append_of_minOn? hfit
  rw [fits, List.filterMap_eq_append_iff] at hsplit
  obtain ⟨early, late, hzip, rfl, hlate⟩ := hsplit
  rw [List.filterMap_eq_cons_iff] at hlate
  obtain ⟨skipped, _, later, rfl, hskipped, hplace, rfl⟩ := hlate
  rw [← List.append_assoc, List.zipIdx_eq_append_iff] at hzip
  obtain ⟨left, rest, rfl, hleft, hrest⟩ := hzip
  rw [eq_comm, List.zipIdx_eq_cons_iff] at hrest
  obtain ⟨block, right, rfl, rfl, rfl⟩ := hrest
  obtain ⟨offset, hoffset, rfl⟩ := Option.map_eq_some_iff.mp hplace
  refine ⟨left, right, rfl, Nat.zero_add _, hoffset, ?_, ?_⟩
  · intro other hmem place hother
    obtain ⟨i, hi⟩ := List.getElem?_of_mem hmem
    have hlisted : (other, i) ∈ early ++ skipped := by
      rw [hleft]
      exact List.mem_zipIdx_iff_getElem?.mpr hi
    obtain hearly | hnone := List.mem_append.mp hlisted
    · exact hbefore ⟨i, other, place⟩ (List.mem_filterMap.mpr ⟨_, hearly, by simp [hother]⟩)
    · simpa [hother] using hskipped _ hnone
  · intro other hmem place hother
    obtain ⟨i, hi⟩ := List.getElem?_of_mem hmem
    have hlisted : (other, 0 + left.length + 1 + i) ∈ right.zipIdx (0 + left.length + 1) :=
      List.mk_add_mem_zipIdx_iff_getElem?.mpr hi
    exact hafter ⟨0 + left.length + 1 + i, other, place⟩
      (List.mem_filterMap.mpr ⟨_, hlisted, by simp [hother]⟩)

theorem carve_append (hindex : fit.index = left.length) (block : Block) (size : Nat) :
    let tail := fit.block.beyond (fit.offset + size)
    carve (left ++ block :: right) fit size =
      if headerSize ≤ tail.size then (left ++ tail :: right, size)
      else (left ++ right, size + tail.size) := by
  intro tail
  by_cases hlong : headerSize ≤ tail.size
  · have hcount : ¬ fit.block.stop - (fit.offset + size) < headerSize := Nat.not_lt_of_le hlong
    simp only [carve, hindex, if_pos hlong, if_neg hcount]
    rw [List.set_append_right _ _ (Nat.le_refl _), Nat.sub_self, List.set_cons_zero]
    rfl
  · have hcount : fit.block.stop - (fit.offset + size) < headerSize := Nat.lt_of_not_le hlong
    simp only [carve, hindex, if_neg hlong, if_pos hcount]
    rw [List.eraseIdx_append_of_length_le (Nat.le_refl _), Nat.sub_self, List.eraseIdx_zero,
      List.tail_cons]
    rfl

section Exact

variable (hcanonical : blocks.Canonical least limit) (halignment : alignment.isPowerOfTwo)
  (hword : alignment < wordSize) (hlimit : limit < wordSize)

include hcanonical halignment hword hlimit

theorem place?_eq_some_iff_of_mem {offset : Nat} (hmem : block ∈ blocks) :
    block.place? size alignment = some offset ↔
      offset = leastMultiple (block.offset + headerSize) alignment ∧
        block.Eligible size alignment := by
  have hstop := Nat.lt_of_le_of_lt (hcanonical.within block hmem) hlimit
  exact Block.place?_eq_some_iff halignment hword hstop

theorem bestFit?_eq_none_iff_not_eligible : blocks.bestFit? size alignment = none ↔
    ¬ ∃ block ∈ blocks, block.Eligible size alignment := by
  rw [bestFit?_eq_none_iff]
  simp only [not_exists, not_and, Option.eq_none_iff_forall_ne_some]
  refine forall₂_congr fun block hmem => ?_
  simp [place?_eq_some_iff_of_mem hcanonical halignment hword hlimit hmem]

/-- What is found is the best block, and the first place in it. -/
theorem best_of_bestFit? (hfit : blocks.bestFit? size alignment = some fit) :
    blocks.Best size alignment fit.block ∧
      fit.offset = leastMultiple (fit.block.offset + headerSize) alignment := by
  obtain ⟨left, right, rfl, _, hplace, hleft, hright⟩ := exists_append_of_bestFit? hfit
  have hexact (block : Block) (offset : Nat) (hmem : block ∈ left ++ fit.block :: right) :
      block.place? size alignment = some offset ↔
        offset = leastMultiple (block.offset + headerSize) alignment ∧
          block.Eligible size alignment :=
    place?_eq_some_iff_of_mem hcanonical halignment hword hlimit hmem
  have hascending := hcanonical.ascending
  rw [List.pairwise_append, List.pairwise_cons] at hascending
  rw [hexact _ _ (by simp)] at hplace
  refine ⟨⟨hplace.2, ?_⟩, hplace.1⟩
  intro other hmem heligible
  have hother := (hexact other _ hmem).mpr ⟨rfl, heligible⟩
  obtain hbefore | rfl | hafter := by simpa only [List.mem_append, List.mem_cons] using hmem
  · exact Or.inl (hleft other hbefore _ hother)
  · exact Or.inr ⟨rfl, Nat.le_refl _⟩
  · have hle := hright other hafter _ hother
    have hbehind := hascending.2.1.1 other hafter
    rw [Block.stop] at hbehind
    omega

end Exact

end Search

end FreeList

end HandleAlloc
