import HandleAlloc.Proofs.Action
import HandleAlloc.Proofs.Arena.Transition
/-!
# How the calls on an arena run

One equation for each call on an arena whose cursor stands within a page: what it replies, the arena
it leaves and what it logs. A call that fails leaves the arena as it found it; in particular the
second attempt of an allocation, on the next page, never does.
-/

namespace HandleAlloc

namespace Arena

open HandleAlloc.Action

variable {arena : Arena} {handle : Handle} {old : Header} {size alignment newSize length : Nat}

theorem header_run (handle : Handle) (arena : Arena) :
    header handle arena = match arena.header? handle with
      | some header => ⟨.ok header, arena, []⟩
      | none => .failed (.invalidHandle arena.name handle) arena := by
  simp only [header, bind_run, get_run]
  cases arena.header? handle <;> rfl

theorem region_run (handle : Handle) (arena : Arena) :
    region handle arena = match arena.header? handle with
      | some header => ⟨.ok ⟨handle.page, handle.offset, header.size⟩, arena, []⟩
      | none => .failed (.invalidHandle arena.name handle) arena := by
  simp only [region, bind_run, header_run]
  cases hheader : arena.header? handle with
  | none => rfl
  | some header =>
    obtain ⟨page, hpage, hread⟩ := decoded?_eq_some_iff.mp (header?_eq_some_iff.mp hheader).1
    have hstop := (Header.within_of_read? hread).stop_le
    simp only [get_run, hpage, demand, pure_run, require_run_of hstop, List.append_nil]

theorem topHeader_run (handle : Handle) (arena : Arena) :
    topHeader handle arena = match arena.header? handle with
      | some header =>
        if handle.stop header = arena.cursor then ⟨.ok header, arena, []⟩
        else .failed (.notTopOfStack arena.name handle) arena
      | none => .failed (.invalidHandle arena.name handle) arena := by
  simp only [topHeader, bind_run, header_run]
  cases arena.header? handle with
  | none => rfl
  | some header =>
    simp only [get_run, Handle.stop_eq_iff]
    split <;> rfl

/-! ## Allocation -/

private theorem bump?_eq (size alignment : Nat) (arena : Arena) : bump? size alignment arena =
    (match Header.place? arena.cursor.top size alignment with
      | none => pure none
      | some offset => do
        let page ← demand (← get).pages[arena.cursor.page]?
        if page.size < offset + size then
          return none
        else
          storeHeader ⟨arena.cursor.page, offset⟩ (arena.grant size alignment offset)
          moveTo ⟨arena.cursor.page, offset + size⟩
          return some ⟨arena.cursor.page, offset⟩ : Action Arena (Option Handle)) arena := rfl

theorem bump?_run (hsound : arena.Sound) (hpower : alignment.isPowerOfTwo) (size : Nat) :
    bump? size alignment arena = match arena.rest.place? size alignment with
      | some offset =>
        ⟨.ok (some ⟨arena.cursor.page, offset⟩), arena.bumped size alignment offset, []⟩
      | none => ⟨.ok none, arena, []⟩ := by
  obtain ⟨length, hlength, htop⟩ := hsound
  obtain ⟨page, hpage, rfl⟩ := pageLength?_eq_some_iff.mp hlength
  rw [bump?_eq, Block.place?, stop_rest hlength htop, rest]
  cases hplace : Header.place? arena.cursor.top size alignment with
  | none => rfl
  | some offset =>
    obtain ⟨hoffset, _, _⟩ := (Header.place?_eq_some_iff hpower).mp hplace
    have hstart : arena.cursor.top + headerSize ≤ offset :=
      hoffset ▸ le_leastMultiple (Nat.pos_of_isPowerOfTwo hpower)
    simp only [bind_run, get_run, hpage, demand, pure_run, Option.filter_some]
    by_cases hfits : page.size < offset + size
    case pos =>
      rw [if_pos hfits, if_neg (by simpa using hfits)]
      rfl
    case neg =>
      have hstore : storeHeader ⟨arena.cursor.page, offset⟩ (arena.grant size alignment offset)
          arena = _ := storeHeader_run hpage (by simp only; omega)
      rw [if_neg hfits, if_pos (by simpa using hfits)]
      simp only [bind_run, hstore, moveTo, modify_run, pure_run, List.append_nil, bumped, withHeader]

/-- Why the next page cannot be opened for a request. -/
def refusal? (arena : Arena) (size alignment : Nat) : Option Fault :=
  let length := max arena.pageSize (required size alignment)
  if wordSize ≤ required size alignment then some (.outOfMemory arena.name size)
  else if arena.spare (required size alignment) then none
  else if arena.maxPages.any (· ≤ arena.addedPages.length) then some (.outOfMemory arena.name size)
  else if ¬ arena.supply.grants length then some (.reservationRefused arena.name length)
  else none

theorem required_lt_of_refusal? (hrefusal : arena.refusal? size alignment = none) :
    required size alignment < wordSize := by
  apply Nat.lt_of_not_le
  intro hlong
  simp only [refusal?, if_pos hlong] at hrefusal
  contradiction

def opening (arena : Arena) (required : Nat) : List Event :=
  if arena.spare required then []
  else [.pageAdded arena.name (arena.cursor.page + 1) (max arena.pageSize required)]

private theorem slack_lt (hpower : alignment.isPowerOfTwo) (hword : alignment < wordSize) :
    headerSize + alignment - 1 < wordSize := by
  obtain ⟨k, rfl⟩ := hpower
  rw [wordSize_eq] at hword
  have hk : k ≤ 63 := Nat.le_of_lt_succ ((Nat.pow_lt_pow_iff_right (by decide)).mp hword)
  have hpow : 2 ^ k ≤ 2 ^ 63 := Nat.pow_le_pow_right (by decide) hk
  rw [wordSize, headerSize]
  omega

theorem addPage_run (hsound : arena.Sound) (size required : Nat) :
    addPage size required arena =
      if arena.maxPages.any (· ≤ arena.addedPages.length) then
        .failed (.outOfMemory arena.name size) arena
      else if ¬ arena.supply.grants (max arena.pageSize required) then
        .failed (.reservationRefused arena.name (max arena.pageSize required)) arena
      else
        ⟨.ok (), { arena with
            addedPages := arena.addedPages.insertIdx arena.cursor.page
              (Memory.zeros (max arena.pageSize required)) },
          [.pageAdded arena.name (arena.cursor.page + 1) (max arena.pageSize required)]⟩ := by
  have hpage : arena.cursor.page ≤ arena.addedPages.length := Nat.le_of_lt_succ hsound.page_lt
  simp only [addPage, bind_run, get_run]
  split
  · rfl
  · split
    · rfl
    · simp only [bind_run, require_run_of hpage, modify_run, emit_run, List.nil_append]

theorem advance_run (hsound : arena.Sound) (hpower : alignment.isPowerOfTwo)
    (hword : alignment < wordSize) (size : Nat) :
    advance size alignment arena = match arena.refusal? size alignment with
      | some fault => .failed fault arena
      | none => ⟨.ok (), arena.opened (required size alignment),
          arena.opening (required size alignment)⟩ := by
  have hadd : addWord? size (headerSize + alignment - 1) =
      if required size alignment < wordSize then some (required size alignment) else none := rfl
  simp only [advance, bind_run, get_run, word_run_of_lt (slack_lt hpower hword), hadd, refusal?]
  by_cases hlong : required size alignment < wordSize
  case neg =>
    simp only [if_neg hlong, if_pos (Nat.le_of_not_lt hlong)]
    rfl
  case pos =>
    simp only [if_pos hlong, if_neg (Nat.not_le_of_lt hlong), opened, opening]
    by_cases hspare : arena.spare (required size alignment)
    case pos =>
      have hany : arena.pages[arena.cursor.page + 1]?.any (required size alignment ≤ ·.size) = true :=
        hspare
      simp only [hany, if_pos hspare, ↓reduceIte, moveTo, modify_run, List.append_nil]
    case neg =>
      have hany : ¬ arena.pages[arena.cursor.page + 1]?.any
          (required size alignment ≤ ·.size) = true := hspare
      simp only [if_neg hany, if_neg hspare, bind_run, addPage_run hsound]
      by_cases hfull : arena.maxPages.any (· ≤ arena.addedPages.length) = true
      case pos =>
        simp only [if_pos hfull]
        rfl
      case neg =>
        by_cases hrefused : ¬ arena.supply.grants (max arena.pageSize (required size alignment))
        case pos =>
          simp only [if_neg hfull, if_pos hrefused]
          rfl
        case neg =>
          simp only [if_neg hfull, if_neg hrefused, moveTo, modify_run, List.append_nil,
            List.nil_append]

theorem place_run (hsound : arena.Sound) (hpower : alignment.isPowerOfTwo)
    (hword : alignment < wordSize) (size : Nat) :
    place size alignment arena = match arena.rest.place? size alignment with
      | some offset => ⟨.ok ⟨arena.cursor.page, offset⟩, arena.bumped size alignment offset, []⟩
      | none => match arena.refusal? size alignment with
        | some fault => .failed fault arena
        | none =>
          ⟨.ok ⟨arena.cursor.page + 1, leastMultiple headerSize alignment⟩,
            arena.spilled size alignment, arena.opening (required size alignment)⟩ := by
  simp only [place, bind_run, bump?_run hsound hpower]
  cases arena.rest.place? size alignment with
  | some offset => rfl
  | none =>
    simp only [bind_run, advance_run hsound hpower hword]
    cases hrefusal : arena.refusal? size alignment with
    | some fault => rfl
    | none =>
      have hfits := required_lt_of_refusal? hrefusal
      simp only [bump?_run (opened_sound hsound _) hpower, place?_opened hsound hpower hfits,
        pure_run, List.append_nil, List.nil_append, spilled]
      rfl

theorem alignedAlloc_run (hsound : arena.Sound) (hword : alignment < wordSize) (size : Nat) :
    alignedAlloc size alignment arena =
      if ¬ alignment.isPowerOfTwo then .failed (.invalidAlignment arena.name alignment) arena
      else if size = 0 then .failed (.zeroSize arena.name) arena
      else match arena.rest.place? size alignment with
        | some offset => ⟨.ok ⟨arena.cursor.page, offset⟩, arena.bumped size alignment offset,
            [.arenaAllocated arena.name ⟨arena.cursor.page, offset⟩ size]⟩
        | none => match arena.refusal? size alignment with
          | some fault => .failed fault arena
          | none =>
            let handle : Handle := ⟨arena.cursor.page + 1, leastMultiple headerSize alignment⟩
            ⟨.ok handle, arena.spilled size alignment,
              arena.opening (required size alignment) ++
                [.arenaAllocated arena.name handle size]⟩ := by
  simp only [alignedAlloc, bind_run, get_run, checkRequest_run]
  by_cases hpower : alignment.isPowerOfTwo
  case neg =>
    rw [if_pos hpower, if_pos hpower]
    rfl
  by_cases hsize : size = 0
  case pos =>
    rw [if_neg (not_not_intro hpower), if_neg (not_not_intro hpower), if_pos hsize, if_pos hsize]
    rfl
  rw [if_neg (not_not_intro hpower), if_neg (not_not_intro hpower), if_neg hsize, if_neg hsize]
  simp only [place_run hsound hpower hword]
  cases arena.rest.place? size alignment with
  | some offset => rfl
  | none =>
    cases arena.refusal? size alignment with
    | some fault => rfl
    | none => simp only [emit_run, pure_run, List.append_nil, List.nil_append]

/-! ## Taking back -/

theorem free_run (handle : Handle) (arena : Arena) :
    free handle arena = match arena.header? handle with
      | some old =>
        if handle.stop old = arena.cursor then
          ⟨.ok (), arena.freed handle old, [.arenaFreed arena.name handle]⟩
        else .failed (.notTopOfStack arena.name handle) arena
      | none => .failed (.invalidHandle arena.name handle) arena := by
  simp only [free, bind_run, topHeader_run]
  cases hheader : arena.header? handle with
  | none => rfl
  | some old =>
    obtain ⟨page, hpage, hread⟩ := decoded?_eq_some_iff.mp (header?_eq_some_iff.mp hheader).1
    have hrange := (Header.within_of_read? hread).range
    by_cases htop : handle.stop old = arena.cursor
    case neg =>
      simp only [if_neg htop]
      rfl
    case pos =>
      simp only [if_pos htop, clearHeader_run hpage hrange, moveTo, modify_run, get_run, emit_run,
        List.nil_append, freed, wiped, Handle.start, name_updatePage]

/-! ## Resizing -/

/-- Whether an allocation can be resized where it stands. -/
def fits (arena : Arena) (handle : Handle) (newSize : Nat) : Bool :=
  (addWord? handle.offset newSize).any fun stop => (arena.pageLength? handle.page).any (stop ≤ ·)

theorem fits_iff {length : Nat} (hlength : arena.pageLength? handle.page = some length) :
    arena.fits handle newSize = true ↔
      handle.offset + newSize < wordSize ∧ handle.offset + newSize ≤ length := by
  rw [fits, hlength, addWord?]
  split <;> simp_all

theorem copyForward_run {source target : Handle} {page : ByteArray} {length : Nat}
    (hlt : source.page < target.page) (hpage : arena.pages[source.page]? = some page)
    (hstop : source.offset + size ≤ page.size)
    (hlength : arena.pageLength? target.page = some length) (hend : target.offset + size ≤ length) :
    copyForward source target size arena = ⟨.ok (), arena.copied source target size, []⟩ := by
  obtain ⟨targetPage, htarget, rfl⟩ := Option.map_eq_some_iff.mp hlength
  simp only [copyForward, bind_run, get_run, hpage, htarget, demand, pure_run,
    require_run_of hlt, require_run_of hstop, require_run_of hend, modify_run, List.append_nil,
    copied, Option.getD_some]

/-- The arena with the cursor at the start of its topmost allocation, which stays live. -/
def rewound (arena : Arena) (old : Header) : Arena :=
  { arena with cursor := { arena.cursor with top := old.start } }

theorem rewound_sound (hdecoded : arena.decoded? handle = some old)
    (htop : handle.stop old = arena.cursor) : (arena.rewound old).Sound := by
  obtain ⟨hpage, _⟩ := Handle.stop_eq_iff.mp htop
  obtain ⟨length, hlength, hwithin⟩ := decoded?_within hdecoded
  exact ⟨length, hpage ▸ hlength, Nat.le_trans (Nat.le_of_lt hwithin.start_lt) hwithin.stop_le⟩

/-- An allocation that does not fit its page any more is placed on the next one: the place it has
is the first one that the retry on its page looks at. -/
theorem place?_rewound (hdecoded : arena.decoded? handle = some old)
    (hserves : old.Serves handle.offset old.size old.alignment)
    (htop : handle.stop old = arena.cursor) (hfits : arena.fits handle newSize = false) :
    (arena.rewound old).rest.place? newSize old.alignment = none := by
  obtain ⟨hpage, _⟩ := Handle.stop_eq_iff.mp htop
  obtain ⟨length, hlength, hwithin⟩ := decoded?_within hdecoded
  have hstop : (arena.rewound old).rest.stop = length :=
    stop_rest (hpage ▸ hlength) (Nat.le_trans (Nat.le_of_lt hwithin.start_lt) hwithin.stop_le)
  rw [Block.place?, hstop, Option.filter_eq_none_iff]
  intro offset hplace hle
  obtain ⟨hoffset, _, hword⟩ := (Header.place?_eq_some_iff hserves.power).mp hplace
  have hsame : offset = handle.offset := hoffset.trans (offset_eq_of_serves hserves).symm
  rw [hsame] at hword hle
  rw [(fits_iff hlength).mpr ⟨hword, of_decide_eq_true hle⟩] at hfits
  contradiction

theorem size_le_of_not_fits (hdecoded : arena.decoded? handle = some old)
    (hfits : arena.fits handle newSize = false) : old.size ≤ newSize := by
  obtain ⟨page, hpage, hread⟩ := decoded?_eq_some_iff.mp hdecoded
  have hlength : arena.pageLength? handle.page = some page.size := by
    rw [pageLength?, hpage, Option.map_some]
  have hregion := (Header.read?_eq_some_iff.mp hread).2.2.1
  obtain ⟨_, _, hword, hstop⟩ := Header.describesRegion_iff.mp hregion
  apply Nat.le_of_not_lt
  intro hlt
  rw [(fits_iff hlength).mpr ⟨by omega, by omega⟩] at hfits
  contradiction

/-- The second half of a move: the bytes go to the new allocation, and the old header goes. -/
def carry (handle : Handle) (size : Nat) (target : Handle) : Action Arena Handle := do
  copyForward handle target size
  clearHeader handle
  return target

theorem carry_run {target : Handle} (hlt : handle.page < target.page)
    (hlength : arena.pageLength? handle.page = some length) (hwithin : old.Within handle.offset length)
    {targetLength : Nat} (htarget : arena.pageLength? target.page = some targetLength)
    (hstop : target.offset + old.size ≤ targetLength) :
    carry handle old.size target arena =
      ⟨.ok target, (arena.copied handle target old.size).wiped handle, []⟩ := by
  obtain ⟨page, hpage, rfl⟩ := Option.map_eq_some_iff.mp hlength
  have hcopied : (arena.copied handle target old.size).pages[handle.page]? = some page := by
    rw [copied, getElem?_pages_updatePage, if_neg (Nat.ne_of_gt hlt), hpage]
  simp only [carry, bind_run, copyForward_run hlt hpage hwithin.stop_le htarget hstop,
    clearHeader_run hcopied hwithin.range, pure_run, List.append_nil, wiped]

theorem relocate_eq (handle : Handle) (old : Header) (newSize : Nat) (arena : Arena) :
    relocate handle old newSize arena =
      ((alignedAlloc newSize old.alignment).onFault (moveTo arena.cursor) >>= carry handle old.size)
        (arena.rewound old) := rfl

/-- The allocation that a move is made of, if the retry on its page finds no place. Where in its page
the cursor stands is of no account to opening the next one. -/
theorem alignedAlloc_rewound_run (hdecoded : arena.decoded? handle = some old)
    (htop : handle.stop old = arena.cursor) (hpos : 0 < newSize)
    (hplace : (arena.rewound old).rest.place? newSize old.alignment = none) :
    alignedAlloc newSize old.alignment (arena.rewound old) =
      match arena.refusal? newSize old.alignment with
      | some fault => .failed fault (arena.rewound old)
      | none =>
        let target : Handle := ⟨arena.cursor.page + 1, leastMultiple headerSize old.alignment⟩
        ⟨.ok target, arena.spilled newSize old.alignment,
          arena.opening (required newSize old.alignment) ++
            [.arenaAllocated arena.name target newSize]⟩ := by
  obtain ⟨_, _, hwithin⟩ := decoded?_within hdecoded
  rw [alignedAlloc_run (rewound_sound hdecoded htop) hwithin.alignment_lt,
    if_neg (not_not_intro hwithin.power), if_neg (Nat.ne_of_gt hpos), hplace]
  rfl

theorem relocate_run_of_place? (hsound : arena.Sound) (hdecoded : arena.decoded? handle = some old)
    (htop : handle.stop old = arena.cursor) (hpos : 0 < newSize)
    (hfits : arena.fits handle newSize = false)
    (hplace : (arena.rewound old).rest.place? newSize old.alignment = none) :
    relocate handle old newSize arena = match arena.refusal? newSize old.alignment with
      | some fault => .failed fault arena
      | none =>
        let target : Handle := ⟨arena.cursor.page + 1, leastMultiple headerSize old.alignment⟩
        ⟨.ok target, arena.relocated handle old newSize,
          arena.opening (required newSize old.alignment) ++
            [.arenaAllocated arena.name target newSize]⟩ := by
  obtain ⟨hpage, _⟩ := Handle.stop_eq_iff.mp htop
  obtain ⟨length, hlength, hwithin⟩ := decoded?_within hdecoded
  simp only [relocate_eq, bind_run, onFault, alignedAlloc_rewound_run hdecoded htop hpos hplace]
  cases hrefusal : arena.refusal? newSize old.alignment with
  | some fault => rfl
  | none =>
    have hspilled := spilled_issued hsound hwithin.power hpos (required_lt_of_refusal? hrefusal)
    have hkept := (hspilled.kept.pageLength?_eq handle.page (Nat.le_of_eq hpage)).trans hlength
    obtain ⟨targetLength, htarget, htargetWithin⟩ := decoded?_within hspilled.decoded
    have hstop : leastMultiple headerSize old.alignment + old.size ≤ targetLength :=
      Nat.le_trans (Nat.add_le_add_left (size_le_of_not_fits hdecoded hfits) _)
        htargetWithin.stop_le
    have hcarry := carry_run (Nat.lt_succ_of_le (Nat.le_of_eq hpage)) hkept hwithin htarget hstop
    simp only [hcarry, List.append_nil, relocated]

theorem relocate_run (hsound : arena.Sound) (hdecoded : arena.decoded? handle = some old)
    (hserves : old.Serves handle.offset old.size old.alignment)
    (htop : handle.stop old = arena.cursor) (hpos : 0 < newSize)
    (hfits : arena.fits handle newSize = false) :
    relocate handle old newSize arena = match arena.refusal? newSize old.alignment with
      | some fault => .failed fault arena
      | none =>
        let target : Handle := ⟨arena.cursor.page + 1, leastMultiple headerSize old.alignment⟩
        ⟨.ok target, arena.relocated handle old newSize,
          arena.opening (required newSize old.alignment) ++
            [.arenaAllocated arena.name target newSize]⟩ :=
  relocate_run_of_place? hsound hdecoded htop hpos hfits
    (place?_rewound hdecoded hserves htop hfits)

/-- A move that finds a place on the page it leaves traps: pages are copied to later ones only. -/
theorem relocate_reply_of_place? (hdecoded : arena.decoded? handle = some old)
    (htop : handle.stop old = arena.cursor) (hpos : 0 < newSize) {offset : Nat}
    (hplace : (arena.rewound old).rest.place? newSize old.alignment = some offset) :
    (relocate handle old newSize arena).reply = .trap := by
  obtain ⟨hpage, _⟩ := Handle.stop_eq_iff.mp htop
  obtain ⟨_, _, hwithin⟩ := decoded?_within hdecoded
  have hback : ¬ handle.page < (arena.rewound old).cursor.page :=
    Nat.not_lt_of_le (Nat.le_of_eq hpage.symm)
  simp only [relocate_eq, bind_run, onFault,
    alignedAlloc_run (rewound_sound hdecoded htop) hwithin.alignment_lt,
    if_neg (not_not_intro hwithin.power), if_neg (Nat.ne_of_gt hpos), hplace, carry, copyForward,
    require_run_of_not hback]

theorem realloc_run (handle : Handle) (newSize : Nat) (arena : Arena) :
    realloc handle newSize arena = match arena.header? handle with
      | none => .failed (.invalidHandle arena.name handle) arena
      | some old =>
        if ¬ handle.stop old = arena.cursor then .failed (.notTopOfStack arena.name handle) arena
        else if newSize = 0 then .failed (.zeroSize arena.name) arena
        else if newSize = old.size then ⟨.ok handle, arena, []⟩
        else if arena.fits handle newSize then ⟨.ok handle, arena.resized handle old newSize, []⟩
        else relocate handle old newSize arena := by
  simp only [realloc, bind_run, topHeader_run]
  cases hheader : arena.header? handle with
  | none => rfl
  | some old =>
    obtain ⟨page, hpage, hread⟩ := decoded?_eq_some_iff.mp (header?_eq_some_iff.mp hheader).1
    have hrange := (Header.within_of_read? hread).range
    by_cases htop : handle.stop old = arena.cursor
    case neg =>
      simp only [if_neg htop, if_pos htop]
      rfl
    case pos =>
      simp only [if_pos htop, if_neg (not_not_intro htop)]
      by_cases hzero : newSize = 0
      case pos =>
        simp only [if_pos hzero]
        rfl
      by_cases hsame : newSize = old.size
      case pos =>
        simp only [if_neg hzero, if_pos hsame]
        rfl
      simp only [if_neg hzero, if_neg hsame, bind_run, get_run, hpage, demand, pure_run]
      have hfits :
          (addWord? handle.offset newSize).any (· ≤ page.size) = arena.fits handle newSize := by
        rw [fits, pageLength?, hpage, Option.map_some]
        rfl
      simp only [hfits]
      by_cases hfit : arena.fits handle newSize = true
      case pos =>
        simp only [if_pos hfit, bind_run, storeHeader_run hpage hrange, moveTo, modify_run, pure_run,
          List.append_nil, resized, withHeader]
      case neg =>
        simp only [if_neg hfit]
        rfl

end Arena

end HandleAlloc
