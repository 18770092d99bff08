import HandleAlloc.FreeList
/-!
# Canonical free lists

A free list stands for the bytes of its blocks, `FreeList.bytes`. It is canonical when the blocks
ascend and no two touch. This module holds both notions, what the split of a list at a position
says about the blocks on either side, that the two blocks `FreeList.overlaps` looks at decide for
all of them (`overlaps_eq_false_iff`), and that a canonical list is determined by its bytes
(`Canonical.eq_of_bytes`).
-/

namespace HandleAlloc

def interval (start stop : Nat) : List Nat := List.range' start (stop - start)

@[simp] theorem mem_interval {start stop i : Nat} :
    i ∈ interval start stop ↔ start ≤ i ∧ i < stop := by
  rw [interval, List.mem_range'_1]
  omega

@[simp] theorem length_interval (start stop : Nat) :
    (interval start stop).length = stop - start :=
  List.length_range'

@[simp] theorem interval_self (start : Nat) : interval start start = [] := by
  rw [interval, Nat.sub_self, List.range'_zero]

theorem interval_append {start middle stop : Nat} (hleft : start ≤ middle)
    (hright : middle ≤ stop) :
    interval start middle ++ interval middle stop = interval start stop := by
  have happend := List.range'_append_1 (s := start) (m := middle - start) (n := stop - middle)
  rw [Nat.add_sub_cancel' hleft, show middle - start + (stop - middle) = stop - start by omega]
    at happend
  exact happend

theorem exists_mem_interval_iff {start stop first last : Nat} (hleft : start < stop)
    (hright : first < last) :
    (∃ i ∈ interval start stop, i ∈ interval first last) ↔ first < stop ∧ start < last := by
  simp only [mem_interval]
  constructor
  · rintro ⟨i, hi, hshared⟩
    omega
  · intro hmeet
    -- The later of the two starts lies in both.
    exact ⟨max start first, by omega, by omega⟩

theorem range_eq_interval (n : Nat) : List.range n = interval 0 n := by
  rw [interval, List.range_eq_range', Nat.sub_zero]

namespace FreeList

def bytes (blocks : FreeList) : List Nat :=
  blocks.flatMap fun block => interval block.offset block.stop

section Bytes

variable {blocks left right : FreeList} {block : Block}

@[simp] theorem bytes_nil : bytes [] = [] := rfl

@[simp] theorem bytes_cons : bytes (block :: blocks) =
    interval block.offset block.stop ++ bytes blocks := List.flatMap_cons

@[simp] theorem bytes_append : bytes (left ++ right) = bytes left ++ bytes right :=
  List.flatMap_append

theorem total_cons : total (block :: blocks) = block.size + total blocks := rfl

theorem length_bytes (blocks : FreeList) : blocks.bytes.length = blocks.total := by
  induction blocks with
  | nil => rfl
  | cons block blocks ih =>
    rw [bytes_cons, List.length_append, length_interval, ih, total_cons, Block.stop,
      Nat.add_sub_cancel_left]

theorem size_le_total (hmem : block ∈ blocks) :
    block.size ≤ blocks.total := by
  induction blocks with
  | nil => cases hmem
  | cons first rest ih =>
    rw [total_cons]
    obtain rfl | hrest := List.mem_cons.mp hmem
    · exact Nat.le_add_right _ _
    · exact Nat.le_add_left_of_le (ih hrest)

end Bytes

/-- Blocks in ascending order of which no two touch, each of at least `least` bytes and all of
them below `limit`. -/
structure Canonical (blocks : FreeList) (least limit : Nat) : Prop where
  apart : blocks.Pairwise fun a b => a.stop < b.offset
  long : ∀ block ∈ blocks, least ≤ block.size
  within : ∀ block ∈ blocks, block.stop ≤ limit

section Canonical

variable {blocks left right : FreeList} {block : Block} {least limit : Nat}

theorem canonical_nil (least limit : Nat) : Canonical [] least limit :=
  ⟨List.Pairwise.nil, by simp, by simp⟩

theorem canonical_cons : Canonical (block :: blocks) least limit ↔
    (least ≤ block.size ∧ block.stop ≤ limit) ∧ (∀ b ∈ blocks, block.stop < b.offset) ∧
      blocks.Canonical least limit := by
  constructor
  · rintro ⟨hapart, hlong, hwithin⟩
    rw [List.pairwise_cons] at hapart
    rw [List.forall_mem_cons] at hlong hwithin
    exact ⟨⟨hlong.1, hwithin.1⟩, hapart.1, hapart.2, hlong.2, hwithin.2⟩
  · rintro ⟨⟨hlong, hwithin⟩, hbefore, hblocks⟩
    exact ⟨List.pairwise_cons.mpr ⟨hbefore, hblocks.apart⟩,
      List.forall_mem_cons.mpr ⟨hlong, hblocks.long⟩,
      List.forall_mem_cons.mpr ⟨hwithin, hblocks.within⟩⟩

theorem canonical_append : Canonical (left ++ right) least limit ↔
    left.Canonical least limit ∧ right.Canonical least limit ∧
      ∀ a ∈ left, ∀ b ∈ right, a.stop < b.offset := by
  constructor
  · rintro ⟨hapart, hlong, hwithin⟩
    rw [List.pairwise_append] at hapart
    rw [List.forall_mem_append] at hlong hwithin
    exact ⟨⟨hapart.1, hlong.1, hwithin.1⟩, ⟨hapart.2.1, hlong.2, hwithin.2⟩, hapart.2.2⟩
  · rintro ⟨hleft, hright, hbetween⟩
    exact ⟨List.pairwise_append.mpr ⟨hleft.apart, hright.apart, hbetween⟩,
      List.forall_mem_append.mpr ⟨hleft.long, hright.long⟩,
      List.forall_mem_append.mpr ⟨hleft.within, hright.within⟩⟩

theorem Canonical.ascending (hcanonical : blocks.Canonical least limit) :
    blocks.Pairwise fun a b => a.stop ≤ b.offset :=
  hcanonical.apart.imp Nat.le_of_lt

private theorem add_total_le (hcanonical : blocks.Canonical least limit) {start : Nat}
    (hstart : start ≤ limit) (hfrom : ∀ block ∈ blocks, start ≤ block.offset) :
    start + blocks.total ≤ limit := by
  induction blocks generalizing start with
  | nil => exact hstart
  | cons block blocks ih =>
    obtain ⟨⟨_, hwithin⟩, hafter, hblocks⟩ := canonical_cons.mp hcanonical
    have hrest := ih hblocks hwithin fun b hb => Nat.le_of_lt (hafter b hb)
    have hfirst := hfrom block List.mem_cons_self
    rw [Block.stop] at hrest
    rw [total_cons]
    omega

theorem Canonical.total_le (hcanonical : blocks.Canonical least limit) :
    blocks.total ≤ limit := by
  have hle := add_total_le hcanonical (Nat.zero_le limit) fun _ _ => Nat.zero_le _
  rwa [Nat.zero_add] at hle

end Canonical

def Clear (blocks : FreeList) (start stop : Nat) : Prop :=
  ∀ block ∈ blocks, block.stop ≤ start ∨ stop ≤ block.offset

/-! ## Splitting a list at a position -/

section Split

variable {blocks : FreeList} {start stop position : Nat}

theorem startingBefore_append_startingFrom (blocks : FreeList) (position : Nat) :
    blocks.startingBefore position ++ blocks.startingFrom position = blocks :=
  List.takeWhile_append_dropWhile

theorem offset_lt_of_mem_startingBefore {block : Block}
    (hmem : block ∈ blocks.startingBefore position) : block.offset < position := by
  simpa using List.all_eq_true.mp List.all_takeWhile block hmem

theorem le_offset_of_mem_startingFrom {block : Block}
    (hascending : blocks.Pairwise fun a b => a.stop ≤ b.offset)
    (hmem : block ∈ blocks.startingFrom position) : position ≤ block.offset := by
  induction blocks with
  | nil => simp [startingFrom] at hmem
  | cons first rest ih =>
    rw [List.pairwise_cons] at hascending
    rw [startingFrom, List.dropWhile_cons] at hmem
    split at hmem
    case isTrue => exact ih hascending.2 hmem
    case isFalse hfirst =>
      have hposition : position ≤ first.offset := by simpa using hfirst
      obtain rfl | hrest := List.mem_cons.mp hmem
      · exact hposition
      · have hafter := hascending.1 block hrest
        rw [Block.stop] at hafter
        omega

theorem stop_le_of_getLast? {block last : Block}
    (hascending : blocks.Pairwise fun a b => a.stop ≤ b.offset)
    (hlast : blocks.getLast? = some last) (hmem : block ∈ blocks) : block.stop ≤ last.stop := by
  obtain ⟨initial, rfl⟩ := List.getLast?_eq_some_iff.mp hlast
  rw [List.pairwise_append] at hascending
  obtain hinitial | hsingle := List.mem_append.mp hmem
  · have hbefore := hascending.2.2 block hinitial last List.mem_cons_self
    rw [Block.stop] at hbefore ⊢
    rw [Block.stop]
    omega
  · exact Nat.le_of_eq (congrArg Block.stop (List.mem_singleton.mp hsingle))

theorem offset_le_of_head? {block first : Block}
    (hascending : blocks.Pairwise fun a b => a.stop ≤ b.offset)
    (hfirst : blocks.head? = some first) (hmem : block ∈ blocks) :
    first.offset ≤ block.offset := by
  obtain ⟨rest, rfl⟩ := List.head?_eq_some_iff.mp hfirst
  rw [List.pairwise_cons] at hascending
  obtain rfl | hrest := List.mem_cons.mp hmem
  · exact Nat.le_refl _
  · have hafter := hascending.1 block hrest
    rw [Block.stop] at hafter
    omega

/-- The last block before a span and the first one after it decide whether it is clear. -/
theorem overlaps_eq_false_iff (hascending : blocks.Pairwise fun a b => a.stop ≤ b.offset)
    (hpos : ∀ block ∈ blocks, 0 < block.size) (hlt : start < stop) :
    blocks.overlaps start stop = false ↔ blocks.Clear start stop := by
  have hsplit := startingBefore_append_startingFrom blocks start
  have hparts := hascending
  rw [← hsplit, List.pairwise_append] at hparts
  simp only [overlaps, Bool.or_eq_false_iff, Option.any_eq_false, decide_eq_false_iff_not,
    Nat.not_lt]
  constructor
  · rintro ⟨hbefore, hfrom⟩ block hmem
    rw [← hsplit, List.mem_append] at hmem
    obtain hleft | hright := hmem
    · left
      obtain ⟨last, hlast⟩ := Option.isSome_iff_exists.mp
        (List.getLast?_isSome.mpr (List.ne_nil_of_mem hleft))
      exact Nat.le_trans (stop_le_of_getLast? hparts.1 hlast hleft) (hbefore last hlast)
    · right
      obtain ⟨first, hfirst⟩ := Option.isSome_iff_exists.mp
        (List.isSome_head?.mpr (List.ne_nil_of_mem hright))
      exact Nat.le_trans (hfrom first hfirst) (offset_le_of_head? hparts.2.1 hfirst hright)
  · intro hclear
    constructor
    · intro last hlast
      have hmem := List.mem_of_getLast? hlast
      have hoffset := offset_lt_of_mem_startingBefore hmem
      have hcases := hclear last (by rw [← hsplit]; exact List.mem_append_left _ hmem)
      omega
    · intro first hfirst
      have hmem := List.mem_of_head? hfirst
      have hoffset := le_offset_of_mem_startingFrom hascending hmem
      have hlisted : first ∈ blocks := by rw [← hsplit]; exact List.mem_append_right _ hmem
      have hsize := hpos first hlisted
      have hcases := hclear first hlisted
      rw [Block.stop] at hcases
      omega

end Split

/-! ## The list of a set of bytes -/

section Unique

variable {blocks other : FreeList} {block first : Block} {least limit i : Nat}

theorem mem_bytes : i ∈ blocks.bytes ↔ ∃ block ∈ blocks, block.offset ≤ i ∧ i < block.stop := by
  simp only [bytes, List.mem_flatMap, mem_interval]

theorem Canonical.mem_bytes_tail (hcanonical : Canonical (block :: blocks) least limit) :
    i ∈ blocks.bytes ↔ i ∈ bytes (block :: blocks) ∧ block.stop ≤ i := by
  obtain ⟨_, hafter, _⟩ := canonical_cons.mp hcanonical
  rw [bytes_cons, List.mem_append, mem_interval]
  constructor
  · intro hmem
    obtain ⟨later, hlater, hle, _⟩ := mem_bytes.mp hmem
    exact ⟨Or.inr hmem, Nat.le_trans (Nat.le_of_lt (hafter later hlater)) hle⟩
  · rintro ⟨hfirst | hmem, hle⟩
    · omega
    · exact hmem

theorem Canonical.stop_notMem (hcanonical : Canonical (block :: blocks) least limit) :
    block.stop ∉ bytes (block :: blocks) := by
  intro hmem
  obtain ⟨_, hafter, _⟩ := canonical_cons.mp hcanonical
  obtain ⟨later, hlater, hle, _⟩ :=
    mem_bytes.mp (hcanonical.mem_bytes_tail.mpr ⟨hmem, Nat.le_refl _⟩)
  exact Nat.not_le_of_lt (hafter later hlater) hle

theorem Canonical.offset_mem_bytes (hleast : 0 < least)
    (hcanonical : Canonical (block :: blocks) least limit) :
    block.offset ∈ bytes (block :: blocks) := by
  obtain ⟨⟨hlong, _⟩, _, _⟩ := canonical_cons.mp hcanonical
  refine mem_bytes.mpr ⟨block, List.mem_cons_self, Nat.le_refl _, ?_⟩
  rw [Block.stop]
  omega

/-- Where the first block starts, and that it ends first of those that start there, if the blocks
have no bytes but those of another list. -/
theorem Canonical.first_of_subset (hleast : 0 < least)
    (hblocks : Canonical (block :: blocks) least limit)
    (hother : Canonical (first :: other) least limit)
    (hsubset : ∀ i ∈ bytes (block :: blocks), i ∈ bytes (first :: other)) :
    first.offset ≤ block.offset ∧ (block.offset = first.offset → block.stop ≤ first.stop) := by
  obtain ⟨_, hafter, _⟩ := canonical_cons.mp hother
  have hinside (i : Nat) (hi : block.offset ≤ i ∧ i < block.stop) : i ∈ bytes (first :: other) :=
    hsubset i (mem_bytes.mpr ⟨block, List.mem_cons_self, hi⟩)
  constructor
  · obtain ⟨holder, hmem, hle, _⟩ :=
      mem_bytes.mp (hsubset block.offset (hblocks.offset_mem_bytes hleast))
    obtain rfl | hmem := List.mem_cons.mp hmem
    · exact hle
    · have hlt := hafter holder hmem
      rw [Block.stop] at hlt
      omega
  · intro hoffset
    apply Nat.le_of_not_lt
    intro hlt
    apply hother.stop_notMem (hinside first.stop ⟨?_, hlt⟩)
    rw [Block.stop]
    omega

/-- There is one canonical list of a set of bytes. -/
theorem Canonical.eq_of_bytes (hleast : 0 < least) (hblocks : blocks.Canonical least limit)
    (hother : other.Canonical least limit) (hsame : ∀ i, i ∈ blocks.bytes ↔ i ∈ other.bytes) :
    blocks = other := by
  induction blocks generalizing other with
  | nil =>
    cases other with
    | nil => rfl
    | cons first other =>
      exact absurd ((hsame _).mpr (hother.offset_mem_bytes hleast)) List.not_mem_nil
  | cons block blocks ih =>
    cases other with
    | nil => exact absurd ((hsame _).mp (hblocks.offset_mem_bytes hleast)) List.not_mem_nil
    | cons first other =>
      obtain ⟨hoffset, hstop⟩ := hblocks.first_of_subset hleast hother fun i => (hsame i).mp
      obtain ⟨hoffset', hstop'⟩ := hother.first_of_subset hleast hblocks fun i => (hsame i).mpr
      have hstart : block.offset = first.offset := Nat.le_antisymm hoffset' hoffset
      have hends : block.stop = first.stop :=
        Nat.le_antisymm (hstop hstart) (hstop' hstart.symm)
      have hsize : block.size = first.size := by
        rwa [Block.stop, Block.stop, hstart, Nat.add_left_cancel_iff] at hends
      have hblock : block = first := by
        cases block
        cases first
        rw [Block.mk.injEq]
        exact ⟨hstart, hsize⟩
      have hrest (i : Nat) : i ∈ bytes blocks ↔ i ∈ bytes other := by
        rw [hblocks.mem_bytes_tail, hother.mem_bytes_tail, hsame, hends]
      rw [hblock, ih (canonical_cons.mp hblocks).2.2 (canonical_cons.mp hother).2.2 hrest]

end Unique

/-! ## Runs of free bytes -/

section Run

variable {blocks : FreeList} {block : Block} {start stop position least limit : Nat}

theorem Canonical.stop_notMem_of_mem (hcanonical : blocks.Canonical least limit)
    (hmem : block ∈ blocks) : block.stop ∉ blocks.bytes := by
  obtain ⟨left, right, rfl⟩ := List.append_of_mem hmem
  obtain ⟨_, hright, hacross⟩ := canonical_append.mp hcanonical
  rw [bytes_append, List.mem_append, not_or]
  refine ⟨?_, hright.stop_notMem⟩
  intro hleft
  obtain ⟨earlier, hearlier, _, hlt⟩ := mem_bytes.mp hleft
  have hbefore := hacross earlier hearlier block List.mem_cons_self
  rw [Block.stop] at hlt
  omega

/-- Free bytes that follow each other lie in one block. -/
theorem Canonical.exists_block (hcanonical : blocks.Canonical least limit) (hlt : start < stop)
    (hfree : ∀ i, start ≤ i → i < stop → i ∈ blocks.bytes) :
    ∃ block ∈ blocks, block.offset ≤ start ∧ stop ≤ block.stop := by
  obtain ⟨block, hmem, hstart, hinside⟩ := mem_bytes.mp (hfree start (Nat.le_refl _) hlt)
  refine ⟨block, hmem, hstart, ?_⟩
  apply Nat.le_of_not_lt
  intro hshort
  exact hcanonical.stop_notMem_of_mem hmem (hfree block.stop (Nat.le_of_lt hinside) hshort)

theorem head?_startingFrom_iff (hcanonical : blocks.Canonical least limit) :
    (blocks.startingFrom position).head? = some block ∧ block.offset = position ↔
      block ∈ blocks ∧ block.offset = position := by
  have hsplit := startingBefore_append_startingFrom blocks position
  constructor
  · rintro ⟨hhead, hoffset⟩
    refine ⟨?_, hoffset⟩
    rw [← hsplit]
    exact List.mem_append_right _ (List.mem_of_head? hhead)
  · rintro ⟨hmem, rfl⟩
    refine ⟨?_, rfl⟩
    rw [← hsplit, List.mem_append] at hmem
    obtain hbefore | hfrom := hmem
    · exact absurd (offset_lt_of_mem_startingBefore hbefore) (Nat.lt_irrefl _)
    · obtain ⟨first, rest, hlist⟩ := List.exists_cons_of_ne_nil (List.ne_nil_of_mem hfrom)
      have hle := le_offset_of_mem_startingFrom hcanonical.ascending
        (show first ∈ blocks.startingFrom block.offset by simp [hlist])
      rw [← hsplit, hlist] at hcanonical
      obtain ⟨_, hright, _⟩ := canonical_append.mp hcanonical
      rw [hlist, List.mem_cons] at hfrom
      obtain rfl | hrest := hfrom
      · rw [hlist, List.head?_cons]
      · have hafter := (canonical_cons.mp hright).2.1 block hrest
        rw [Block.stop] at hafter
        omega

end Run

end FreeList

end HandleAlloc
