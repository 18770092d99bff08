import HandleAlloc.Proofs.Alignment
import HandleAlloc.Proofs.Arena.Pages
/-!
# Transitions of arenas

The changes that the calls on an arena are made of, as functions of the arena: a request is placed
at the cursor, or spills over to the next page, which may have to be opened; an allocation is resized
where it stands, moves to the next page, is taken back, or is written to. All that hand out bytes
are an instance of `Issued`: the allocation starts at a position `base` or at the page after it, it
ends at the new cursor, and nothing before `base` changes.
-/

namespace HandleAlloc

namespace Arena

variable {arena after : Arena} {c d : Cursor} {handle : Handle} {header old : Header}
  {size alignment newSize offset length : Nat}

theorem pageLength?_eq_some_iff : arena.pageLength? c.page = some length ↔
    ∃ page, arena.pages[c.page]? = some page ∧ page.size = length :=
  Option.map_eq_some_iff

/-- The position lies within a page, or at the end of one. -/
def Covers (arena : Arena) (c : Cursor) : Prop :=
  ∃ length, arena.pageLength? c.page = some length ∧ c.top ≤ length

/-- The cursor stands within a page. -/
def Sound (arena : Arena) : Prop := arena.Covers arena.cursor

theorem Kept.covers (hkept : Kept c arena after) (hcovers : arena.Covers d)
    (hle : d.page ≤ c.page) : after.Covers d := by
  obtain ⟨length, hlength, htop⟩ := hcovers
  exact ⟨length, (hkept.pageLength?_eq _ hle).trans hlength, htop⟩

theorem decoded?_within (hdecoded : arena.decoded? handle = some header) :
    ∃ length, arena.pageLength? handle.page = some length ∧ header.Within handle.offset length := by
  obtain ⟨page, hpage, hread⟩ := decoded?_eq_some_iff.mp hdecoded
  exact ⟨page.size, by rw [pageLength?, hpage, Option.map_some], Header.within_of_read? hread⟩

theorem covers_stop (hdecoded : arena.decoded? handle = some header) :
    arena.Covers (handle.stop header) := by
  obtain ⟨length, hlength, hwithin⟩ := decoded?_within hdecoded
  exact ⟨length, hlength, hwithin.stop_le⟩

theorem Sound.page_lt (hsound : arena.Sound) : arena.cursor.page < arena.pages.length := by
  obtain ⟨length, hlength, _⟩ := hsound
  obtain ⟨page, hpage, _⟩ := pageLength?_eq_some_iff.mp hlength
  exact (List.getElem?_eq_some_iff.mp hpage).1

/-! ## Headers -/

def withHeader (arena : Arena) (handle : Handle) (header : Header) : Arena :=
  arena.updatePage handle.page fun page => Header.store page handle.offset header

def wiped (arena : Arena) (handle : Handle) : Arena :=
  arena.updatePage handle.page fun page => Header.clear page handle.offset

private theorem notMem_of_lt {page i : Nat} (hc : c ≤ ⟨page, offset - headerSize⟩)
    (hi : ⟨page, i⟩ < c) : i ∉ interval (offset - headerSize) offset := by
  obtain hpage | ⟨_, hlt⟩ := Cursor.lt_iff.mp (lt_of_lt_of_le hi hc)
  · exact absurd hpage (Nat.lt_irrefl page)
  · rw [mem_interval]
    exact fun hmem => Nat.not_le_of_lt hlt hmem.1

theorem withHeader_kept (hoffset : headerSize ≤ handle.offset)
    (hc : c ≤ ⟨handle.page, handle.offset - headerSize⟩) :
    Kept c arena (arena.withHeader handle header) :=
  .updatePage (fun _ => Header.size_store) fun _ _ hi =>
    Header.getElem?_store_of_notMem hoffset (notMem_of_lt hc hi)

theorem wiped_kept (hoffset : headerSize ≤ handle.offset)
    (hc : c ≤ ⟨handle.page, handle.offset - headerSize⟩) : Kept c arena (arena.wiped handle) :=
  .updatePage (fun _ => Header.size_clear) fun _ _ hi =>
    Header.getElem?_clear_of_notMem hoffset (notMem_of_lt hc hi)

theorem pageLength?_wiped (i : Nat) : (arena.wiped handle).pageLength? i = arena.pageLength? i :=
  pageLength?_updatePage (fun _ => Header.size_clear) i

theorem decoded?_withHeader (hlength : arena.pageLength? handle.page = some length)
    (hwithin : header.Within handle.offset length) (hword : handle.offset + header.size < wordSize)
    (hgenuine : arena.validate = true → header.isGenuine handle.offset = true) :
    (arena.withHeader handle header).decoded? handle = some header := by
  obtain ⟨page, hpage, rfl⟩ := Option.map_eq_some_iff.mp hlength
  rw [decoded?_eq_some_iff]
  refine ⟨Header.store page handle.offset header, ?_, ?_⟩
  · rw [withHeader, getElem?_pages_updatePage, if_pos rfl, hpage, Option.map_some]
  · rw [withHeader, validate_updatePage]
    exact Header.read?_store hwithin hword hgenuine

/-! ## Issuing allocations -/

/-- An allocation was handed out that starts at `base`, or at the page after it if it did not fit
there. It ends at the cursor. -/
structure Issued (arena : Arena) (base : Cursor) (size alignment : Nat) (handle : Handle)
    (header : Header) (after : Arena) : Prop where
  start_eq : handle.start header = base ∨ handle.start header = ⟨base.page + 1, 0⟩
  cursor_eq : after.cursor = handle.stop header
  kept : Kept base arena after
  decoded : after.decoded? handle = some header
  serves : header.Serves handle.offset size alignment
  size_eq : header.size = size

theorem Issued.sound {base : Cursor}
    (hissued : arena.Issued base size alignment handle header after) : after.Sound := by
  rw [Sound, hissued.cursor_eq]
  exact covers_stop hissued.decoded

/-- The unused end of the current page. -/
def rest (arena : Arena) : Block :=
  ⟨arena.cursor.top, (arena.pageLength? arena.cursor.page).getD 0 - arena.cursor.top⟩

theorem stop_rest (hlength : arena.pageLength? arena.cursor.page = some length)
    (hle : arena.cursor.top ≤ length) : arena.rest.stop = length := by
  rw [Block.stop, rest, hlength]
  exact Nat.add_sub_cancel' hle

theorem offset_eq_of_serves (hserves : header.Serves offset size alignment) :
    offset = leastMultiple (header.start + headerSize) alignment := by
  have hstart := hserves.start_le
  have hpadding := hserves.padding_lt
  exact eq_leastMultiple hserves.aligned hstart (by omega)

/-- The header of a request that is placed at the cursor. -/
def grant (arena : Arena) (size alignment offset : Nat) : Header :=
  ⟨arena.cursor.top, size, alignment, offset⟩

def bumped (arena : Arena) (size alignment offset : Nat) : Arena :=
  { arena.withHeader ⟨arena.cursor.page, offset⟩ (arena.grant size alignment offset) with
    cursor := ⟨arena.cursor.page, offset + size⟩ }

theorem bumped_issued (hsound : arena.Sound) (hpower : alignment.isPowerOfTwo) (hpos : 0 < size)
    (hfit : arena.rest.place? size alignment = some offset) :
    arena.Issued arena.cursor size alignment ⟨arena.cursor.page, offset⟩
      (arena.grant size alignment offset) (arena.bumped size alignment offset) := by
  obtain ⟨length, hlength, htop⟩ := hsound
  have hplaced := Block.placed_of_place? hpower hfit
  have hstart : arena.cursor.top + headerSize ≤ offset := hplaced.start_le hpower
  have hstop : offset + size ≤ length := stop_rest hlength htop ▸ hplaced.stop_le
  have hword : offset + size < wordSize :=
    ((Header.place?_eq_some_iff hpower).mp (Option.filter_eq_some_iff.mp hfit).1).2.2
  have hserves : (arena.grant size alignment offset).Serves offset size alignment := {
    selfOffset_eq := rfl
    alignment_eq := rfl
    power := hpower
    aligned := hplaced.aligned
    start_le := hstart
    padding_lt := hplaced.padding_lt hpower
    pos := hpos
    le_size := Nat.le_refl _
    size_lt := Nat.lt_add_of_pos_right (by decide) }
  have hwithin : (arena.grant size alignment offset).Within offset length := by
    have halignment := hplaced.alignment_lt
    refine ⟨?_, hstart, hstop, hpower⟩
    simp only [Header.InWords, Header.words, grant, List.forall_mem_cons, List.not_mem_nil,
      false_imp_iff, implies_true, and_true]
    omega
  refine ⟨Or.inl rfl, rfl, ?_, ?_, hserves, rfl⟩
  · apply (withHeader_kept (by simp only; omega) ?_).withCursor
    exact Or.inr ⟨rfl, Nat.le_sub_of_add_le hstart⟩
  · exact decoded?_withHeader hlength hwithin hword fun _ =>
      Header.isGenuine_iff.mpr ⟨rfl, Nat.ne_of_gt hpos, hplaced.aligned⟩

/-! ## Opening the next page -/

/-- The length of a page that holds a request whatever its alignment costs. -/
def required (size alignment : Nat) : Nat := size + (headerSize + alignment - 1)

def spare (arena : Arena) (required : Nat) : Bool :=
  arena.pages[arena.cursor.page + 1]?.any (required ≤ ·.size)

/-- The arena with the cursor at the start of the next page, which is added unless it is there. -/
def opened (arena : Arena) (required : Nat) : Arena :=
  { arena with
    addedPages := if arena.spare required then arena.addedPages else
      arena.addedPages.insertIdx arena.cursor.page (Memory.zeros (max arena.pageSize required))
    cursor := ⟨arena.cursor.page + 1, 0⟩ }

theorem pages_opened (required : Nat) : (arena.opened required).pages =
    if arena.spare required then arena.pages else
      arena.pages.insertIdx (arena.cursor.page + 1)
        (Memory.zeros (max arena.pageSize required)) := by
  simp only [opened, pages]
  split
  · rfl
  · rw [List.insertIdx_succ_cons]

theorem opened_kept (required : Nat) (hle : c.page ≤ arena.cursor.page) :
    Kept c arena (arena.opened required) := by
  have hpages (i : Nat) (hi : i ≤ arena.cursor.page) :
      (arena.opened required).pages[i]? = arena.pages[i]? := by
    rw [pages_opened]
    split
    · rfl
    · exact List.getElem?_insertIdx_of_lt (by omega)
  refine ⟨rfl, rfl, ?_, ?_, ?_⟩
  · rw [pageCount, pageCount, pages_opened]
    split
    · exact Nat.le_refl _
    · rw [List.length_insertIdx]
      split <;> omega
  · intro i hi
    rw [pageLength?, pageLength?, hpages i (Nat.le_trans hi hle)]
  · intro position hlt
    rw [byte?, byte?, hpages _ (Nat.le_trans (Cursor.page_le (le_of_lt hlt)) hle)]

theorem pageLength?_opened (hsound : arena.Sound) (required : Nat) :
    ∃ length, (arena.opened required).pageLength? (arena.cursor.page + 1) = some length ∧
      required ≤ length := by
  rw [pageLength?, pages_opened]
  split
  case isTrue hspare =>
    obtain ⟨page, hpage, hlong⟩ := (Option.any_eq_true _ _).mp hspare
    exact ⟨page.size, by rw [hpage, Option.map_some], of_decide_eq_true hlong⟩
  case isFalse =>
    refine ⟨max arena.pageSize required, ?_, Nat.le_max_right _ _⟩
    rw [List.getElem?_insertIdx_self, if_pos (Nat.succ_le_of_lt hsound.page_lt), Option.map_some,
      Memory.size_zeros]

theorem opened_sound (hsound : arena.Sound) (required : Nat) : (arena.opened required).Sound := by
  obtain ⟨length, hlength, _⟩ := pageLength?_opened hsound required
  exact ⟨length, hlength, Nat.zero_le _⟩

def spilled (arena : Arena) (size alignment : Nat) : Arena :=
  (arena.opened (required size alignment)).bumped size alignment (leastMultiple headerSize alignment)

/-- The next page holds the request: there is no second page to try. -/
theorem place?_opened (hsound : arena.Sound) (hpower : alignment.isPowerOfTwo)
    (hword : required size alignment < wordSize) :
    (arena.opened (required size alignment)).rest.place? size alignment =
      some (leastMultiple headerSize alignment) := by
  obtain ⟨length, hlength, hlong⟩ := pageLength?_opened hsound (required size alignment)
  have hstop : (arena.opened (required size alignment)).rest.stop = length :=
    stop_rest hlength (Nat.zero_le _)
  have hpos := Nat.pos_of_isPowerOfTwo hpower
  have hlt : leastMultiple headerSize alignment < headerSize + alignment := leastMultiple_lt hpos
  rw [required] at hlong hword
  rw [Block.place?, Option.filter_eq_some_iff, Header.place?_eq_some_iff hpower, hstop]
  have htop : (arena.opened (required size alignment)).rest.offset = 0 := rfl
  rw [htop, Nat.zero_add, decide_eq_true_iff]
  exact ⟨⟨rfl, by omega, by omega⟩, by omega⟩

theorem spilled_issued (hsound : arena.Sound) (hpower : alignment.isPowerOfTwo) (hpos : 0 < size)
    (hword : required size alignment < wordSize) :
    arena.Issued arena.cursor size alignment
      ⟨arena.cursor.page + 1, leastMultiple headerSize alignment⟩
      ⟨0, size, alignment, leastMultiple headerSize alignment⟩ (arena.spilled size alignment) := by
  have hissued := bumped_issued (opened_sound hsound (required size alignment)) hpower hpos
    (place?_opened hsound hpower hword)
  have hle : arena.cursor ≤ ⟨arena.cursor.page + 1, 0⟩ := Or.inl (Nat.lt_succ_self _)
  exact { hissued with
    start_eq := Or.inr rfl
    kept := (opened_kept _ (Nat.le_refl _)).trans (hissued.kept.mono hle) }

/-! ## Resizing -/

def resized (arena : Arena) (handle : Handle) (old : Header) (newSize : Nat) : Arena :=
  { arena.withHeader handle { old with size := newSize } with
    cursor := ⟨handle.page, handle.offset + newSize⟩ }

theorem resized_issued (hdecoded : arena.decoded? handle = some old)
    (hserves : old.Serves handle.offset old.size old.alignment)
    (hlength : arena.pageLength? handle.page = some length) (hpos : 0 < newSize)
    (hword : handle.offset + newSize < wordSize) (hstop : handle.offset + newSize ≤ length) :
    arena.Issued (handle.start old) newSize old.alignment handle { old with size := newSize }
      (arena.resized handle old newSize) := by
  have hstart := hserves.start_le
  obtain ⟨_, hlength', hold⟩ := decoded?_within hdecoded
  obtain rfl := Option.some.inj (hlength.symm.trans hlength')
  refine ⟨Or.inl rfl, rfl, ?_, ?_, ?_, rfl⟩
  · apply (withHeader_kept (by omega) ?_).withCursor
    exact Or.inr ⟨rfl, Nat.le_sub_of_add_le hstart⟩
  · exact decoded?_withHeader hlength (hold.resize hstop (by omega)) hword fun _ =>
      Header.isGenuine_iff.mpr ⟨hserves.selfOffset_eq, Nat.ne_of_gt hpos, hserves.aligned⟩
  · exact hserves.resize hpos (Nat.le_refl _) (Nat.lt_add_of_pos_right (by decide))

def copied (arena : Arena) (source target : Handle) (size : Nat) : Arena :=
  let page := arena.pages[source.page]?.getD ByteArray.empty
  let data := page.extract source.offset (source.offset + size)
  arena.updatePage target.page fun page => Memory.write page target.offset data

def relocated (arena : Arena) (handle : Handle) (old : Header) (newSize : Nat) : Arena :=
  let target : Handle := ⟨arena.cursor.page + 1, leastMultiple headerSize old.alignment⟩
  ((arena.spilled newSize old.alignment).copied handle target old.size).wiped handle

theorem relocated_issued (hsound : arena.Sound) (htop : handle.stop old = arena.cursor)
    (hserves : old.Serves handle.offset old.size old.alignment) (hpos : 0 < newSize)
    (hword : required newSize old.alignment < wordSize) :
    arena.Issued (handle.start old) newSize old.alignment
      ⟨arena.cursor.page + 1, leastMultiple headerSize old.alignment⟩
      ⟨0, newSize, old.alignment, leastMultiple headerSize old.alignment⟩
      (arena.relocated handle old newSize) := by
  have hstart := hserves.start_le
  have hissued := spilled_issued hsound hserves.power hpos hword
  have hpage : handle.page = arena.cursor.page := congrArg Cursor.page htop
  have hbase : handle.start old ≤ arena.cursor := htop ▸ le_of_lt (Handle.start_lt_stop hserves)
  refine ⟨Or.inr (by rw [Handle.start, Handle.start, hpage]), ?_, ?_, ?_, hissued.serves, rfl⟩
  · simp only [relocated, wiped, copied, cursor_updatePage]
    exact hissued.cursor_eq
  · refine (hissued.kept.mono hbase).trans ((Kept.updatePage (fun _ => Memory.size_write ..) ?_).trans
      (wiped_kept (by omega) (Or.inr ⟨rfl, Nat.le_sub_of_add_le hstart⟩)))
    intro page j hj
    have hle := Cursor.page_le (le_of_lt (lt_of_lt_of_le hj hbase))
    exact absurd hle (Nat.not_succ_le_self _)
  · rw [← hissued.decoded]
    -- The copy starts behind the new header, and the wiped header stands on another page.
    apply decoded?_congr
    · simp only [relocated, wiped, copied, validate_updatePage]
    · rw [relocated, pageLength?_wiped, copied, pageLength?_updatePage fun _ => Memory.size_write ..]
    · intro i hi
      rw [mem_interval] at hi
      rw [relocated, wiped, byte?_updatePage, copied, byte?_updatePage]
      · intro page _
        apply Memory.getElem?_write_of_notMem
        rw [mem_interval]
        exact fun hmem => Nat.not_le_of_lt hi.2 hmem.1
      · intro page hsame
        exact absurd (hsame.trans hpage) (Nat.succ_ne_self _)

/-! ## Taking back -/

def freed (arena : Arena) (handle : Handle) (old : Header) : Arena :=
  { arena.wiped handle with cursor := handle.start old }

theorem freed_kept (hserves : old.Serves handle.offset old.size old.alignment) :
    Kept (handle.start old) arena (arena.freed handle old) := by
  have hstart := hserves.start_le
  apply (wiped_kept (by omega) ?_).withCursor
  exact Or.inr ⟨rfl, Nat.le_sub_of_add_le hstart⟩

theorem freed_sound (hdecoded : arena.decoded? handle = some old) :
    (arena.freed handle old).Sound := by
  obtain ⟨length, hlength, hwithin⟩ := decoded?_within hdecoded
  exact ⟨length, (pageLength?_wiped _).trans hlength,
    Nat.le_trans (Nat.le_of_lt hwithin.start_lt) hwithin.stop_le⟩

/-! ## Writing -/

section Store

variable {place : Region} {position : Nat} {data : ByteArray}

@[simp] theorem cursor_store : (store place position data arena).cursor = arena.cursor := by
  unfold store
  split
  · exact cursor_updatePage
  · rfl

theorem validate_store : (store place position data arena).validate = arena.validate := by
  unfold store
  split
  · exact validate_updatePage
  · rfl

theorem pageLength?_store (i : Nat) :
    (store place position data arena).pageLength? i = arena.pageLength? i := by
  unfold store
  split
  · exact pageLength?_updatePage (fun _ => Memory.size_write ..) i
  · rfl

theorem byte?_store (houtside : c.page = place.page →
    c.top ∉ interval place.offset (place.offset + place.size)) :
    (store place position data arena).byte? c = arena.byte? c := by
  unfold store
  split
  case isFalse => rfl
  case isTrue hfits =>
    apply byte?_updatePage
    intro page hpage
    have houtside := houtside hpage
    apply Memory.getElem?_write_of_notMem
    rw [mem_interval] at houtside ⊢
    omega

theorem store_kept (hc : c ≤ ⟨place.page, place.offset⟩) :
    Kept c arena (store place position data arena) where
  name_eq := by
    unfold store
    split
    · exact name_updatePage
    · rfl
  validate_eq := validate_store
  pageCount_le := by
    unfold store
    split
    · exact Nat.le_of_eq length_pages_updatePage.symm
    · exact Nat.le_refl _
  pageLength?_eq i _ := pageLength?_store i
  byte?_eq d hd := by
    apply byte?_store
    intro hpage
    have hlt := Cursor.lt_iff.mp (lt_of_lt_of_le hd hc)
    rw [mem_interval]
    simp only at hlt
    omega

theorem decoded?_store (houtside : handle.page = place.page →
    ∀ i ∈ interval (handle.offset - headerSize) handle.offset,
      i ∉ interval place.offset (place.offset + place.size)) :
    (store place position data arena).decoded? handle = arena.decoded? handle :=
  decoded?_congr validate_store (pageLength?_store _) fun i hi =>
    byte?_store fun hpage => houtside hpage i hi

end Store

end Arena

end HandleAlloc
