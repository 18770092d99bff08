import HandleAlloc.Proofs.Arena.Calls
/-!
# Using pages again

No call sets the cursor back to an earlier page, or changes the length of a page up to its own
(`Effect.climbs`). So a call finds the pages it left: on an arena that stands at the same cursor and
has, up to the page where the cursor ends, the pages that a call left on another one (`Backs`), the
same call replies the same and adds no page (`call_reuses`).
-/

namespace HandleAlloc

/-- Whether a call is one that places an allocation, moves one or takes one back, and does no more. -/
def Call.moves : {α : Type} → Call α → Bool
  | _, alignedAlloc _ _ | _, alloc _ | _, realloc _ _ | _, free _ => true
  | _, _ => false

namespace Arena

variable {arena after again : Arena} {base : Cursor} {handle : Handle} {header old : Header}
  {size alignment newSize : Nat}

/-! ## The lengths of the pages -/

theorem pageLength?_bumped (offset i : Nat) :
    (arena.bumped size alignment offset).pageLength? i = arena.pageLength? i :=
  pageLength?_updatePage (fun _ => Header.size_store) i

theorem pageLength?_resized (i : Nat) :
    (arena.resized handle old newSize).pageLength? i = arena.pageLength? i :=
  pageLength?_updatePage (fun _ => Header.size_store) i

theorem pageLength?_freed (i : Nat) : (arena.freed handle old).pageLength? i = arena.pageLength? i :=
  pageLength?_wiped i

theorem pageLength?_relocated (i : Nat) : (arena.relocated handle old newSize).pageLength? i =
    (arena.opened (required newSize old.alignment)).pageLength? i := by
  calc (arena.relocated handle old newSize).pageLength? i
    _ = ((arena.spilled newSize old.alignment).copied handle _ old.size).pageLength? i :=
        pageLength?_wiped i
    _ = (arena.spilled newSize old.alignment).pageLength? i :=
        pageLength?_updatePage (fun _ => Memory.size_write ..) i
    _ = (arena.opened (required newSize old.alignment)).pageLength? i := pageLength?_bumped _ i

theorem sizes_congr (hlengths : ∀ i, after.pageLength? i = arena.pageLength? i) :
    after.pages.map ByteArray.size = arena.pages.map ByteArray.size := by
  apply List.ext_getElem?
  intro i
  rw [List.getElem?_map, List.getElem?_map]
  exact hlengths i

theorem pageCount_congr (hlengths : ∀ i, after.pageLength? i = arena.pageLength? i) :
    after.pageCount = arena.pageCount := by
  have hcount := congrArg List.length (sizes_congr hlengths)
  rwa [List.length_map, List.length_map] at hcount

theorem capacity_congr (hlengths : ∀ i, after.pageLength? i = arena.pageLength? i) :
    after.capacity = arena.capacity := by
  have hsum := congrArg (List.foldr (· + ·) 0) (sizes_congr hlengths)
  rwa [List.foldr_map, List.foldr_map] at hsum

theorem spare_iff (required : Nat) : arena.spare required = true ↔
    ∃ length, arena.pageLength? (arena.cursor.page + 1) = some length ∧ required ≤ length := by
  simp [spare, pageLength?, Option.any_eq_true]

theorem pageLength?_opened_of_spare {required : Nat} (hspare : arena.spare required = true) (i : Nat) :
    (arena.opened required).pageLength? i = arena.pageLength? i := by
  rw [pageLength?, pageLength?, pages_opened, if_pos hspare]

theorem refusal?_of_spare (hword : required size alignment < wordSize)
    (hspare : arena.spare (required size alignment) = true) :
    arena.refusal? size alignment = none := by
  simp only [refusal?, if_neg (Nat.not_le_of_lt hword), if_pos hspare]

/-! ## Where the cursor goes -/

/-- The cursor is not set back to an earlier page, and up to its page the pages stay. -/
structure Climbs (arena after : Arena) : Prop where
  page_le : arena.cursor.page ≤ after.cursor.page
  pageLength?_eq : ∀ i ≤ arena.cursor.page, after.pageLength? i = arena.pageLength? i

theorem Climbs.trans {last : Arena} (hfirst : arena.Climbs after) (hsecond : after.Climbs last) :
    arena.Climbs last where
  page_le := Nat.le_trans hfirst.page_le hsecond.page_le
  pageLength?_eq i hi :=
    (hsecond.pageLength?_eq i (Nat.le_trans hi hfirst.page_le)).trans (hfirst.pageLength?_eq i hi)

theorem climbs_of_eq (hcursor : after.cursor = arena.cursor)
    (hlengths : ∀ i, after.pageLength? i = arena.pageLength? i) : arena.Climbs after :=
  ⟨Nat.le_of_eq (congrArg Cursor.page hcursor.symm), fun i _ => hlengths i⟩

theorem Issued.climbs (hissued : arena.Issued base size alignment handle header after)
    (hbase : base.page = arena.cursor.page) : arena.Climbs after where
  page_le := by
    have hcursor : after.cursor.page = handle.page := congrArg Cursor.page hissued.cursor_eq
    rw [hcursor, ← hbase]
    obtain hhere | hnext := hissued.start_eq
    · exact Nat.le_of_eq (congrArg Cursor.page hhere.symm)
    · have hpage : handle.page = base.page + 1 := congrArg Cursor.page hnext
      exact Nat.le_of_succ_le (Nat.le_of_eq hpage.symm)
  pageLength?_eq := hbase ▸ hissued.kept.pageLength?_eq

theorem Topmost.page_eq (htop : arena.Topmost handle old) : handle.page = arena.cursor.page :=
  congrArg Cursor.page htop.stop_eq

theorem Effect.climbs {α : Type} {call : Call α} {value : α}
    (heffect : arena.Effect call value after) : arena.Climbs after := by
  cases heffect with
  | issued _ _ hissued => exact hissued.climbs rfl
  | resized htop hissued => exact hissued.climbs htop.page_eq
  | freed htop => exact ⟨Nat.le_of_eq htop.page_eq.symm, fun i _ => pageLength?_freed i⟩
  | overwritten => exact climbs_of_eq cursor_store pageLength?_store
  | observed => exact climbs_of_eq rfl fun _ => rfl

/-! ## The same call again -/

def Reuses {α : Type} (again : Arena) (value : α) (outcome : Outcome Arena α) : Prop :=
  outcome.reply = .ok value ∧ ∀ i, outcome.state.pageLength? i = again.pageLength? i

/-- An arena stands where another one does, and has the pages that a call leaves on that one. -/
structure Backs (again arena after : Arena) : Prop where
  cursor_eq : again.cursor = arena.cursor
  climbs : arena.Climbs after
  pageLength?_eq : ∀ i ≤ after.cursor.page, again.pageLength? i = after.pageLength? i

namespace Backs

theorem pageLength?_here (hbacks : again.Backs arena after) :
    again.pageLength? arena.cursor.page = arena.pageLength? arena.cursor.page :=
  (hbacks.pageLength?_eq _ hbacks.climbs.page_le).trans
    (hbacks.climbs.pageLength?_eq _ (Nat.le_refl _))

theorem sound (hbacks : again.Backs arena after) (hsound : arena.Sound) : again.Sound := by
  obtain ⟨length, hlength, htop⟩ := hsound
  rw [Sound, hbacks.cursor_eq]
  exact ⟨length, hbacks.pageLength?_here.trans hlength, htop⟩

theorem rest_eq (hbacks : again.Backs arena after) : again.rest = arena.rest := by
  rw [rest, rest, hbacks.cursor_eq, hbacks.pageLength?_here]

theorem spare {required : Nat} (hbacks : again.Backs arena after) (hsound : arena.Sound)
    (hpage : after.cursor.page = arena.cursor.page + 1)
    (hlengths : ∀ i, after.pageLength? i = (arena.opened required).pageLength? i) :
    again.spare required = true := by
  obtain ⟨length, hlength, hlong⟩ := pageLength?_opened hsound required
  rw [spare_iff, hbacks.cursor_eq]
  refine ⟨length, ?_, hlong⟩
  calc again.pageLength? (arena.cursor.page + 1)
    _ = after.pageLength? (arena.cursor.page + 1) := hbacks.pageLength?_eq _ (Nat.le_of_eq hpage.symm)
    _ = (arena.opened required).pageLength? (arena.cursor.page + 1) := hlengths _
    _ = some length := hlength

end Backs

theorem failed_ne_ok {σ α : Type} {fault : Fault} {state final : σ} {value : α}
    {events : List Event} : Outcome.failed fault state ≠ ⟨.ok value, final, events⟩ :=
  fun hsame => nomatch congrArg Outcome.reply hsame

theorem alignedAlloc_reuses {events : List Event} (hbacks : again.Backs arena after)
    (hsound : arena.Sound) (hword : alignment < wordSize)
    (hrun : alignedAlloc size alignment arena = ⟨.ok handle, after, events⟩) :
    again.Reuses handle (alignedAlloc size alignment again) := by
  rw [alignedAlloc_run hsound hword] at hrun
  rw [alignedAlloc_run (hbacks.sound hsound) hword, hbacks.rest_eq, hbacks.cursor_eq]
  by_cases hpower : alignment.isPowerOfTwo
  case neg =>
    rw [if_pos hpower] at hrun
    exact absurd hrun failed_ne_ok
  by_cases hsize : size = 0
  case pos =>
    rw [if_neg (not_not_intro hpower), if_pos hsize] at hrun
    exact absurd hrun failed_ne_ok
  rw [if_neg (not_not_intro hpower), if_neg hsize] at hrun ⊢
  cases hplace : arena.rest.place? size alignment with
  | some offset =>
    rw [hplace] at hrun
    cases hrun
    exact ⟨rfl, pageLength?_bumped offset⟩
  | none =>
    cases hrefusal : arena.refusal? size alignment with
    | some fault =>
      simp only [hplace, hrefusal] at hrun
      exact absurd hrun failed_ne_ok
    | none =>
      simp only [hplace, hrefusal] at hrun
      cases hrun
      have hspare := hbacks.spare hsound rfl (pageLength?_bumped _)
      rw [refusal?_of_spare (required_lt_of_refusal? hrefusal) hspare]
      refine ⟨rfl, fun i => ?_⟩
      exact (pageLength?_bumped _ i).trans (pageLength?_opened_of_spare hspare i)

theorem relocate_reuses {moved : Handle} {events : List Event} (hbacks : again.Backs arena after)
    (hsound : arena.Sound) (hdecoded : arena.decoded? handle = some old)
    (hagain : again.decoded? handle = some old)
    (hserves : old.Serves handle.offset old.size old.alignment)
    (htop : handle.stop old = arena.cursor) (hpos : 0 < newSize)
    (hfits : arena.fits handle newSize = false) (hrefits : again.fits handle newSize = false)
    (hrun : relocate handle old newSize arena = ⟨.ok moved, after, events⟩) :
    again.Reuses moved (relocate handle old newSize again) := by
  rw [relocate_run hsound hdecoded hserves htop hpos hfits] at hrun
  rw [relocate_run (hbacks.sound hsound) hagain hserves (htop.trans hbacks.cursor_eq.symm) hpos
    hrefits, hbacks.cursor_eq]
  cases hrefusal : arena.refusal? newSize old.alignment with
  | some fault =>
    rw [hrefusal] at hrun
    exact absurd hrun failed_ne_ok
  | none =>
    rw [hrefusal] at hrun
    cases hrun
    have hcursor : (arena.relocated handle old newSize).cursor.page = arena.cursor.page + 1 := by
      simp only [relocated, wiped, copied, cursor_updatePage]
      rfl
    have hspare := hbacks.spare hsound hcursor pageLength?_relocated
    rw [refusal?_of_spare (required_lt_of_refusal? hrefusal) hspare]
    refine ⟨rfl, fun i => ?_⟩
    exact (pageLength?_relocated i).trans (pageLength?_opened_of_spare hspare i)

theorem realloc_reuses {moved : Handle} {events : List Event} (hbacks : again.Backs arena after)
    (hsound : arena.Sound) (hheader : again.header? handle = arena.header? handle)
    (hserves : ∀ old, arena.header? handle = some old →
      old.Serves handle.offset old.size old.alignment)
    (hrun : realloc handle newSize arena = ⟨.ok moved, after, events⟩) :
    again.Reuses moved (realloc handle newSize again) := by
  rw [realloc_run] at hrun ⊢
  rw [hheader, hbacks.cursor_eq]
  cases hold : arena.header? handle with
  | none =>
    rw [hold] at hrun
    exact absurd hrun failed_ne_ok
  | some old =>
    obtain ⟨hdecoded, _⟩ := header?_eq_some_iff.mp hold
    obtain ⟨hagain, _⟩ := header?_eq_some_iff.mp (hheader.trans hold)
    simp only [hold] at hrun ⊢
    by_cases htop : handle.stop old = arena.cursor
    case neg =>
      rw [if_pos htop] at hrun
      exact absurd hrun failed_ne_ok
    rw [if_neg (not_not_intro htop)] at hrun ⊢
    by_cases hzero : newSize = 0
    case pos =>
      rw [if_pos hzero] at hrun
      exact absurd hrun failed_ne_ok
    rw [if_neg hzero] at hrun ⊢
    by_cases hsame : newSize = old.size
    case pos =>
      rw [if_pos hsame] at hrun ⊢
      cases hrun
      exact ⟨rfl, fun _ => rfl⟩
    rw [if_neg hsame] at hrun ⊢
    have hpage : handle.page = arena.cursor.page := congrArg Cursor.page htop
    have hfit : again.fits handle newSize = arena.fits handle newSize := by
      rw [fits, fits, hpage, hbacks.pageLength?_here]
    rw [hfit]
    cases hfits : arena.fits handle newSize with
    | true =>
      rw [hfits, if_pos rfl] at hrun
      rw [if_pos rfl]
      cases hrun
      exact ⟨rfl, pageLength?_resized⟩
    | false =>
      rw [hfits, if_neg Bool.false_ne_true] at hrun
      rw [if_neg Bool.false_ne_true]
      exact relocate_reuses hbacks hsound hdecoded hagain (hserves old hold) htop
        (Nat.pos_of_ne_zero hzero) hfits (hfit.trans hfits) hrun

theorem free_reuses {events : List Event} (hbacks : again.Backs arena after)
    (hheader : again.header? handle = arena.header? handle)
    (hrun : free handle arena = ⟨.ok (), after, events⟩) : again.Reuses () (free handle again) := by
  rw [free_run] at hrun ⊢
  rw [hheader, hbacks.cursor_eq]
  cases hold : arena.header? handle with
  | none =>
    rw [hold] at hrun
    exact absurd hrun failed_ne_ok
  | some old =>
    simp only [hold] at hrun ⊢
    by_cases htop : handle.stop old = arena.cursor
    case neg =>
      rw [if_neg htop] at hrun
      exact absurd hrun failed_ne_ok
    rw [if_pos htop]
    exact ⟨rfl, pageLength?_freed⟩

/-! ## What the calls leave -/

theorem Issued.header_eq {other : Header} {final : Arena}
    (hissued : arena.Issued base size alignment handle header after)
    (hagain : again.Issued base size alignment handle other final) : other = header := by
  have hstart : other.start = header.start := by
    have hhere := hissued.start_eq
    have hthere := hagain.start_eq
    cases base
    simp only [Handle.start, Cursor.mk.injEq] at hhere hthere
    omega
  have hsize := hagain.size_eq.trans hissued.size_eq.symm
  have halignment := hagain.serves.alignment_eq.trans hissued.serves.alignment_eq.symm
  have hself := hagain.serves.selfOffset_eq.trans hissued.serves.selfOffset_eq.symm
  cases other
  cases header
  rw [Header.mk.injEq]
  exact ⟨hstart, hsize, halignment, hself⟩

def Agrees (after final : Arena) (handle? : Option Handle) : Prop :=
  final.cursor = after.cursor ∧ ∀ handle ∈ handle?, ∃ header,
    after.decoded? handle = some header ∧ final.decoded? handle = some header

theorem Issued.agrees {other : Header} {final : Arena}
    (hissued : arena.Issued base size alignment handle header after)
    (hagain : again.Issued base size alignment handle other final) :
    after.Agrees final (some handle) := by
  have hheader := hissued.header_eq hagain
  subst hheader
  refine ⟨by rw [hagain.cursor_eq, hissued.cursor_eq], ?_⟩
  rintro _ ⟨⟩
  exact ⟨other, hissued.decoded, hagain.decoded⟩

theorem Topmost.header_eq {other : Header} (htop : arena.Topmost handle old)
    (hagain : again.Topmost handle other)
    (hdecoded : again.decoded? handle = arena.decoded? handle) : other = old :=
  Option.some.inj (hagain.decoded.symm.trans (hdecoded.trans htop.decoded))

theorem header?_congr (hcursor : again.cursor = arena.cursor)
    (hdecoded : again.decoded? handle = arena.decoded? handle) :
    again.header? handle = arena.header? handle := by
  apply Option.ext
  intro header
  rw [header?_eq_some_iff, header?_eq_some_iff, hdecoded, hcursor]

section Call

variable {α : Type} {call : Call α} {value : α} {events later : List Event} {final : Arena}

theorem alignedAlloc_agrees (hsound : arena.Sound) (hagain : again.Sound)
    (hcursor : again.cursor = arena.cursor) (hword : alignment < wordSize)
    (hrun : alignedAlloc size alignment arena = ⟨.ok handle, after, events⟩)
    (hrerun : alignedAlloc size alignment again = ⟨.ok handle, final, later⟩) :
    after.Agrees final (some handle) := by
  obtain ⟨_, hissued⟩ := (hrun ▸ alignedAlloc_settles hsound hword size).effect_of_ok
  obtain ⟨_, hreissued⟩ := (hrerun ▸ alignedAlloc_settles hagain hword size).effect_of_ok
  exact hissued.agrees (hcursor ▸ hreissued)

theorem realloc_agrees {moved : Handle} (hsound : arena.Sound) (hagain : again.Sound)
    (hcursor : again.cursor = arena.cursor)
    (hdecoded : again.decoded? handle = arena.decoded? handle)
    (hserves : ∀ old, arena.header? handle = some old →
      old.Serves handle.offset old.size old.alignment)
    (hrun : realloc handle newSize arena = ⟨.ok moved, after, events⟩)
    (hrerun : realloc handle newSize again = ⟨.ok moved, final, later⟩) :
    after.Agrees final (some moved) := by
  have hreserves := header?_congr hcursor hdecoded ▸ hserves
  obtain ⟨old, _, htop, hissued⟩ :=
    (hrun ▸ realloc_settles hsound handle newSize hserves).effect_of_ok
  obtain ⟨other, _, hretop, hreissued⟩ :=
    (hrerun ▸ realloc_settles hagain handle newSize hreserves).effect_of_ok
  obtain rfl := htop.header_eq hretop hdecoded
  exact hissued.agrees hreissued

theorem free_agrees (hdecoded : again.decoded? handle = arena.decoded? handle)
    (hrun : free handle arena = ⟨.ok (), after, events⟩)
    (hrerun : free handle again = ⟨.ok (), final, later⟩) : after.Agrees final none := by
  obtain ⟨old, htop, rfl⟩ := (hrun ▸ free_settles handle arena).effect_of_ok
  obtain ⟨other, hretop, rfl⟩ := (hrerun ▸ free_settles handle again).effect_of_ok
  obtain rfl := htop.header_eq hretop hdecoded
  exact ⟨rfl, nofun⟩

/-- A call that succeeded on an arena succeeds on one that has the pages it left there, if what it
takes has the same header. It leaves the cursor at the same place, and the same header. -/
theorem Backs.run (hbacks : again.Backs arena after) (hsound : arena.Sound)
    (hmoves : call.moves = true) (hword : ∀ request ∈ call.request?, request.2 < wordSize)
    (hdecoded : ∀ handle ∈ call.taken?, again.decoded? handle = arena.decoded? handle)
    (hserves : ∀ handle ∈ call.taken?, ∀ old, arena.header? handle = some old →
      old.Serves handle.offset old.size old.alignment)
    (hrun : call.run arena = ⟨.ok value, after, events⟩) :
    again.Reuses value (call.run again) ∧
      after.Agrees (call.run again).state (call.issued? value) := by
  have hagain := hbacks.sound hsound
  have hheader (handle : Handle) (hhandle : handle ∈ call.taken?) :
      again.header? handle = arena.header? handle :=
    header?_congr hbacks.cursor_eq (hdecoded handle hhandle)
  cases call with
  | alignedAlloc size alignment =>
    have hreuses := alignedAlloc_reuses hbacks hsound (hword _ rfl) hrun
    exact ⟨hreuses, alignedAlloc_agrees hsound hagain hbacks.cursor_eq (hword _ rfl) hrun
      (Outcome.eq_of_reply hreuses.1)⟩
  | alloc size =>
    have hreuses := alignedAlloc_reuses hbacks hsound defaultAlignment_lt hrun
    exact ⟨hreuses, alignedAlloc_agrees hsound hagain hbacks.cursor_eq defaultAlignment_lt hrun
      (Outcome.eq_of_reply hreuses.1)⟩
  | realloc handle newSize =>
    have hreuses := realloc_reuses hbacks hsound (hheader handle rfl) (hserves handle rfl) hrun
    exact ⟨hreuses, realloc_agrees hsound hagain hbacks.cursor_eq (hdecoded handle rfl)
      (hserves handle rfl) hrun (Outcome.eq_of_reply hreuses.1)⟩
  | free handle =>
    have hreuses := free_reuses hbacks (hheader handle rfl) hrun
    exact ⟨hreuses, free_agrees (hdecoded handle rfl) hrun (Outcome.eq_of_reply hreuses.1)⟩
  | allocZero | construct | header | bytes | overwrite | read => cases hmoves

end Call

end Arena

end HandleAlloc
