import HandleAlloc.Proofs.FreeList.Canonical
/-!
# Releasing bytes

A released span merges with the block that ends where it starts and the block that starts where it
ends, if there are such. `Merge` describes all four shapes at once, and `exists_merge` shows that a
release has one of them. From it follow the free bytes after a release (`release_bytes_perm`), that
it keeps a list canonical, and that its receipt takes it back (`undo_release`).
-/

namespace HandleAlloc

namespace FreeList

/-- How a span joins a free list: it is merged with `before` and `after`, and touches no block of
`left` and `right`. -/
structure Merge (blocks : FreeList) (start stop : Nat) (left : FreeList)
    (before after : Option Block) (right : FreeList) : Prop where
  split : blocks = left ++ before.toList ++ (after.toList ++ right)
  before_stop : ∀ block ∈ before, block.stop = start
  after_offset : ∀ block ∈ after, block.offset = stop
  left_stop : ∀ block ∈ left, block.stop < start
  right_offset : ∀ block ∈ right, stop < block.offset
  released : blocks.release start stop =
    (left ++ ⟨(before.map Block.offset).getD start,
        (after.map Block.stop).getD stop - (before.map Block.offset).getD start⟩ :: right,
      ⟨left.length, before, after⟩)

section Merge

variable {blocks left right : FreeList} {before after : Option Block}
  {start stop least limit : Nat}

private theorem split_last (hapart : left.Pairwise fun a b => a.stop < b.offset)
    (hstop : ∀ block ∈ left, block.stop ≤ start)
    (hbefore : before = left.getLast?.filter (·.stop == start)) :
    left = (if before.isSome then left.dropLast else left) ++ before.toList ∧
      (∀ block ∈ before, block.stop = start) ∧
      ∀ block ∈ if before.isSome then left.dropLast else left, block.stop < start := by
  subst hbefore
  cases hlast : left.getLast? with
  | none =>
    rw [List.getLast?_eq_none_iff.mp hlast]
    simp
  | some last =>
    obtain ⟨initial, rfl⟩ := List.getLast?_eq_some_iff.mp hlast
    rw [List.pairwise_append] at hapart
    have hinitial (block : Block) (hmem : block ∈ initial) : block.stop < last.offset :=
      hapart.2.2 block hmem last List.mem_cons_self
    have hle := hstop last (by simp)
    by_cases htouch : last.stop = start
    · rw [Option.filter_some_pos (by simpa using htouch)]
      simp only [Option.isSome_some, ↓reduceIte, List.dropLast_concat, Option.toList_some,
        Option.mem_some, forall_eq', true_and]
      refine ⟨htouch, fun block hmem => ?_⟩
      have hbelow := hinitial block hmem
      rw [Block.stop] at htouch
      omega
    · rw [Option.filter_some_neg (by simpa using htouch)]
      simp only [Option.isSome_none, Bool.false_eq_true, ↓reduceIte, Option.toList_none,
        List.append_nil, true_and, Option.not_mem_none, false_imp_iff, implies_true]
      intro block hmem
      obtain hmem | hmem := List.mem_append.mp hmem
      · have hbelow := hinitial block hmem
        rw [Block.stop] at hle
        omega
      · rw [List.mem_singleton.mp hmem]
        omega

private theorem split_first (hapart : right.Pairwise fun a b => a.stop < b.offset)
    (hoffset : ∀ block ∈ right, stop ≤ block.offset)
    (hafter : after = right.head?.filter (·.offset == stop)) :
    right = after.toList ++ (if after.isSome then right.tail else right) ∧
      (∀ block ∈ after, block.offset = stop) ∧
      ∀ block ∈ if after.isSome then right.tail else right, stop < block.offset := by
  subst hafter
  cases right with
  | nil => simp
  | cons first rest =>
    rw [List.pairwise_cons] at hapart
    have hle := hoffset first List.mem_cons_self
    have hrest (block : Block) (hmem : block ∈ rest) : first.offset < block.offset := by
      have hbelow := hapart.1 block hmem
      rw [Block.stop] at hbelow
      omega
    rw [List.head?_cons]
    by_cases htouch : first.offset = stop
    · rw [Option.filter_some_pos (by simpa using htouch)]
      simp only [Option.isSome_some, ↓reduceIte, List.tail_cons, Option.toList_some,
        List.singleton_append, Option.mem_some, forall_eq', true_and]
      exact ⟨htouch, fun block hmem => htouch ▸ hrest block hmem⟩
    · rw [Option.filter_some_neg (by simpa using htouch)]
      simp only [Option.isSome_none, Bool.false_eq_true, ↓reduceIte, Option.toList_none,
        List.nil_append, true_and, Option.not_mem_none, false_imp_iff, implies_true]
      intro block hmem
      obtain rfl | hmem := List.mem_cons.mp hmem
      · omega
      · have hbelow := hrest block hmem
        omega

theorem exists_merge (hcanonical : blocks.Canonical least limit) (hleast : 0 < least)
    (hlt : start < stop) (hclear : blocks.Clear start stop) :
    ∃ left before after right, Merge blocks start stop left before after right := by
  have hsplit := startingBefore_append_startingFrom blocks start
  have hparts := hcanonical.apart
  rw [← hsplit, List.pairwise_append] at hparts
  have hleft (block : Block) (hmem : block ∈ blocks.startingBefore start) :
      block.stop ≤ start := by
    have hoffset := offset_lt_of_mem_startingBefore hmem
    have hcases := hclear block (by rw [← hsplit]; exact List.mem_append_left _ hmem)
    omega
  have hright (block : Block) (hmem : block ∈ blocks.startingFrom start) :
      stop ≤ block.offset := by
    have hlisted : block ∈ blocks := by rw [← hsplit]; exact List.mem_append_right _ hmem
    have hoffset := le_offset_of_mem_startingFrom hcanonical.ascending hmem
    have hsize := hcanonical.long block hlisted
    have hcases := hclear block hlisted
    rw [Block.stop] at hcases
    omega
  obtain ⟨hleftSplit, hbefore, hleftStop⟩ := split_last hparts.1 hleft rfl
  obtain ⟨hrightSplit, hafter, hrightOffset⟩ := split_first hparts.2.1 hright rfl
  refine ⟨_, _, _, _, ⟨?_, hbefore, hafter, hleftStop, hrightOffset, rfl⟩⟩
  rw [← hleftSplit, ← hrightSplit, hsplit]

namespace Merge

private theorem first_le (hmerge : Merge blocks start stop left before after right) :
    (before.map Block.offset).getD start ≤ start := by
  cases before with
  | none => exact Nat.le_refl _
  | some block =>
    have hstop := hmerge.before_stop block rfl
    rw [Block.stop] at hstop
    simp only [Option.map_some, Option.getD_some]
    omega

private theorem le_last (hmerge : Merge blocks start stop left before after right) :
    stop ≤ (after.map Block.stop).getD stop := by
  cases after with
  | none => exact Nat.le_refl _
  | some block =>
    have hoffset := hmerge.after_offset block rfl
    simp only [Option.map_some, Option.getD_some, Block.stop]
    omega

private theorem bytes_before (hmerge : Merge blocks start stop left before after right) :
    bytes before.toList = interval ((before.map Block.offset).getD start) start := by
  cases before with
  | none => simp
  | some block => simp [hmerge.before_stop block rfl]

private theorem bytes_after (hmerge : Merge blocks start stop left before after right) :
    bytes after.toList = interval stop ((after.map Block.stop).getD stop) := by
  cases after with
  | none => simp
  | some block => simp [hmerge.after_offset block rfl]

private theorem after_isSome (hmerge : Merge blocks start stop left before after right)
    (hlt : start < stop) {block : Block} (hmem : block ∈ blocks) (hoffset : block.offset = stop) :
    after.isSome := by
  rw [hmerge.split, List.mem_append, List.mem_append, List.mem_append] at hmem
  rcases hmem with (hmem | hmem) | hmem | hmem
  · have hstop := hmerge.left_stop block hmem
    rw [Block.stop] at hstop
    omega
  · have hstop := hmerge.before_stop block (Option.mem_toList.mp hmem)
    rw [Block.stop] at hstop
    omega
  · exact Option.isSome_of_mem (Option.mem_toList.mp hmem)
  · have hright := hmerge.right_offset block hmem
    omega

theorem bytes_perm (hmerge : Merge blocks start stop left before after right)
    (hle : start ≤ stop) :
    (blocks.release start stop).1.bytes.Perm (interval start stop ++ blocks.bytes) := by
  have hfirst := hmerge.first_le
  have hlast := hmerge.le_last
  rw [hmerge.released]
  conv =>
    rhs
    rw [hmerge.split]
  simp only [bytes_append, bytes_cons, hmerge.bytes_before, hmerge.bytes_after, Block.stop]
  rw [Nat.add_sub_cancel' (Nat.le_trans hfirst (Nat.le_trans hle hlast)),
    ← interval_append hfirst (Nat.le_trans hle hlast), ← interval_append hle hlast]
  simp only [List.perm_iff_count, List.count_append]
  intro i
  omega

theorem canonical (hmerge : Merge blocks start stop left before after right)
    (hcanonical : blocks.Canonical least limit) (hlt : start < stop)
    (hlong : start + least ≤ stop ∨ after.isSome) (hwithin : stop ≤ limit) :
    (blocks.release start stop).1.Canonical least limit := by
  have hfirst := hmerge.first_le
  have hlast := hmerge.le_last
  rw [hmerge.released, canonical_append, canonical_cons]
  rw [hmerge.split, canonical_append, canonical_append, canonical_append] at hcanonical
  obtain ⟨⟨hleft, _, hleftBefore⟩, ⟨hafter, hright, hafterRight⟩, hacross⟩ := hcanonical
  have hlimit : (after.map Block.stop).getD stop ≤ limit := by
    cases after with
    | none => exact hwithin
    | some block => exact hafter.within block (by simp)
  have hbelow : ∀ a ∈ left, a.stop < (before.map Block.offset).getD start := by
    cases before with
    | none => exact hmerge.left_stop
    | some block => exact fun a ha => hleftBefore a ha block (by simp)
  have habove : ∀ b ∈ right, (after.map Block.stop).getD stop < b.offset := by
    cases after with
    | none => exact hmerge.right_offset
    | some block => exact fun b hb => hafterRight block (by simp) b hb
  have hlength : start + least ≤ (after.map Block.stop).getD stop := by
    cases after with
    | none => simpa using hlong
    | some block =>
      have hsize := hafter.long block (by simp)
      have hoffset := hmerge.after_offset block rfl
      simp only [Option.map_some, Option.getD_some, Block.stop]
      omega
  refine ⟨hleft, ⟨⟨?_, ?_⟩, fun b hb => ?_, hright⟩, ?_⟩
  · simp only
    omega
  · simp only [Block.stop]
    omega
  · have hb' := habove b hb
    simp only [Block.stop]
    omega
  · intro a ha b hb
    obtain rfl | hb := List.mem_cons.mp hb
    · exact hbelow a ha
    · have ha' := hbelow a ha
      have hb' := habove b hb
      omega

end Merge

end Merge

section Release

variable {blocks : FreeList} {start stop least limit : Nat}

theorem release_bytes_perm (hcanonical : blocks.Canonical least limit) (hleast : 0 < least)
    (hlt : start < stop) (hclear : blocks.Clear start stop) :
    (blocks.release start stop).1.bytes.Perm (interval start stop ++ blocks.bytes) := by
  obtain ⟨_, _, _, _, hmerge⟩ := exists_merge hcanonical hleast hlt hclear
  exact hmerge.bytes_perm (Nat.le_of_lt hlt)

/-- A release keeps a list canonical. The span has to be as long as a block, unless there is one
behind it to merge with. -/
theorem release_canonical (hcanonical : blocks.Canonical least limit) (hleast : 0 < least)
    (hlt : start < stop) (hlong : start + least ≤ stop ∨ ∃ block ∈ blocks, block.offset = stop)
    (hwithin : stop ≤ limit) (hclear : blocks.Clear start stop) :
    (blocks.release start stop).1.Canonical least limit := by
  obtain ⟨_, _, after, _, hmerge⟩ := exists_merge hcanonical hleast hlt hclear
  refine hmerge.canonical hcanonical hlt (hlong.imp_right ?_) hwithin
  rintro ⟨block, hmem, hoffset⟩
  exact hmerge.after_isSome hlt hmem hoffset

theorem receipt_index_lt (hcanonical : blocks.Canonical least limit) (hleast : 0 < least)
    (hlt : start < stop) (hclear : blocks.Clear start stop) :
    (blocks.release start stop).2.index < (blocks.release start stop).1.length := by
  obtain ⟨left, _, _, right, hmerge⟩ := exists_merge hcanonical hleast hlt hclear
  simp only [hmerge.released, List.length_append, List.length_cons]
  omega

/-- Whatever the release merged, its receipt gives the list back that it started from. -/
theorem undo_release (hcanonical : blocks.Canonical least limit) (hleast : 0 < least)
    (hlt : start < stop) (hclear : blocks.Clear start stop) :
    (blocks.release start stop).1.undo (blocks.release start stop).2 = blocks := by
  obtain ⟨left, before, after, right, hmerge⟩ := exists_merge hcanonical hleast hlt hclear
  rw [hmerge.released]
  conv =>
    rhs
    rw [hmerge.split]
  simp [undo]

/-! ## Giving the end of an allocation back -/

private theorem startingBefore_eq {position : Nat} (hclear : blocks.Clear start stop)
    (hstart : start < position) (hstop : position ≤ stop) :
    blocks.startingBefore position = blocks.startingBefore stop ∧
      blocks.startingFrom position = blocks.startingFrom stop := by
  have hsame (block : Block) (hmem : block ∈ blocks) :
      (block.offset < position) = (block.offset < stop) := by
    have hcases := hclear block hmem
    rw [Block.stop] at hcases
    apply propext
    omega
  clear hclear
  induction blocks with
  | nil => exact ⟨rfl, rfl⟩
  | cons block blocks ih =>
    rw [List.forall_mem_cons] at hsame
    obtain ⟨hbefore, hfrom⟩ := ih hsame.2
    unfold startingBefore startingFrom at *
    simp only [List.takeWhile_cons, List.dropWhile_cons, hsame.1, hbefore, hfrom, and_self]

/-- An allocation that gives its end back releases it, unless too few bytes for a block would lie
free between allocations. -/
theorem giveTail?_eq {count : Nat} (hcanonical : blocks.Canonical least limit)
    (hclear : blocks.Clear start stop) (hcount : start + count < stop) :
    blocks.giveTail? stop count =
      if headerSize ≤ count ∨ ∃ block ∈ blocks, block.offset = stop then
        some (blocks.release (stop - count) stop).1
      else none := by
  have hsplit := startingBefore_append_startingFrom blocks stop
  have hstart : start < stop - count := by omega
  obtain ⟨hbefore, hfrom⟩ := startingBefore_eq hclear hstart (Nat.sub_le ..)
  -- The allocation keeps bytes before its tail, so no block ends where the tail starts.
  have huntouched :
      (blocks.startingBefore stop).getLast?.filter (·.stop == stop - count) = none := by
    rw [Option.filter_eq_none_iff]
    intro last hlast
    have hmem := List.mem_of_getLast? hlast
    have hoffset := offset_lt_of_mem_startingBefore hmem
    have hcases := hclear last (by rw [← hsplit]; exact List.mem_append_left _ hmem)
    rw [beq_iff_eq]
    omega
  have hbehind : (∃ block ∈ blocks, block.offset = stop) ↔
      ∃ next ∈ (blocks.startingFrom stop).head?, next.offset = stop :=
    exists_congr fun _ => (head?_startingFrom_iff hcanonical).symm
  simp only [giveTail?, release, hbefore, hfrom, huntouched, hbehind]
  clear hbehind
  have hsize : stop - (stop - count) = count := by omega
  cases blocks.startingFrom stop with
  | nil =>
    by_cases hlong : headerSize ≤ count
    · simp [hlong, hsize, Nat.not_lt.mpr hlong]
    · simp [hlong, Nat.not_le.mp hlong]
  | cons next right =>
    by_cases htouch : next.offset = stop
    · have hmerged : next.stop - (stop - count) = next.size + count := by
        rw [Block.stop]
        omega
      simp [htouch, Option.filter_some_pos, hmerged]
    · by_cases hlong : headerSize ≤ count
      · have hafter : (some next).filter (·.offset == stop) = none :=
          Option.filter_some_neg (by simpa using htouch)
        simp [htouch, hlong, hsize, hafter, Nat.not_lt.mpr hlong]
      · simp [htouch, hlong, Nat.not_le.mp hlong]

end Release

end FreeList

end HandleAlloc
