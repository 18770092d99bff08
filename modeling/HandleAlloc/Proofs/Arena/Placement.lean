import HandleAlloc.Proofs.Arena.Session
/-!
# Where the allocations of an arena are placed

The place of a request is a question of arithmetic, `Arena.destination`: the current page, the next
one, or a new one between them, and in each the first place behind what is used. Every position in
the pages of an arena is a machine word (`Arena.Addressable`), so that the range of words decides
nothing but whether a request can have a page of its own. A new page has to be granted by the system,
whose answer is that of the time of the call. A request that moves on to the next page fits there.
-/

namespace HandleAlloc

namespace Arena

open HandleAlloc.Action

variable {arena after : Arena} {handle : Handle} {header old : Header}
  {size alignment newSize length : Nat}

/-! ## Pages in the range of words -/

def Addressable (arena : Arena) : Prop := ∀ length ∈ arena.layout.lengths, length < wordSize

theorem Addressable.lt (haddressable : arena.Addressable) {index : Nat}
    (hlength : arena.pageLength? index = some length) : length < wordSize := by
  rw [pageLength?_eq] at hlength
  exact haddressable length (List.mem_of_getElem? hlength)

theorem Addressable.congr (haddressable : arena.Addressable)
    (hlayout : after.layout = arena.layout) : after.Addressable := by
  rwa [Addressable, hlayout]

theorem grants_of_refusal? (hrefusal : arena.refusal? size alignment = none)
    (hspare : ¬ arena.spare (required size alignment) = true) :
    arena.supply.grants (max arena.pageSize (required size alignment)) = true := by
  by_contra hrefused
  have hword := Nat.not_le_of_lt (required_lt_of_refusal? hrefusal)
  simp only [refusal?, if_neg hword, if_neg hspare, if_pos hrefused] at hrefusal
  split at hrefusal <;> contradiction

/-- No page that is added is longer than the largest reservation. -/
theorem Addressable.opened (haddressable : arena.Addressable)
    (hrefusal : arena.refusal? size alignment = none) :
    (arena.opened (required size alignment)).Addressable := by
  intro length hmem
  rw [layout, pages_opened] at hmem
  split at hmem
  case isTrue => exact haddressable length hmem
  case isFalse hspare =>
    simp only [List.map_insertIdx, Memory.size_zeros] at hmem
    obtain rfl | hold := List.eq_or_mem_of_mem_insertIdx hmem
    · apply Nat.lt_of_not_le
      intro hlong
      have hgranted := grants_of_refusal? hrefusal hspare
      have hlarge : maxReservation < wordSize := by decide
      rw [arena.supply.refuses _ (Nat.lt_of_lt_of_le hlarge hlong)] at hgranted
      contradiction
    · exact haddressable length hold

theorem Addressable.call {α : Type} (haddressable : arena.Addressable) (hsound : arena.Sound)
    (call : Call α) (hreturns : (call.run arena).reply ≠ .trap) :
    (call.run arena).state.Addressable := by
  apply call_state hsound call hreturns haddressable
  · rintro size alignment handle after (⟨_, _, _⟩ | ⟨_, _, hrefusal⟩)
    · exact haddressable.congr (layout_bumped _)
    · exact (haddressable.opened hrefusal).congr (layout_bumped _)
  · rintro handle newSize moved after (_ | _ | ⟨_, _, hrefusal⟩)
    · exact haddressable
    · exact haddressable.congr layout_withHeader
    · exact (haddressable.opened hrefusal).congr layout_relocated
  · exact fun _ _ _ => haddressable.congr layout_wiped
  · exact fun _ _ _ _ hafter => hafter.congr layout_store

/-! ## The place of a request -/

/-- Where a request goes, and among which pages; or why it goes nowhere. -/
def destination (arena : Arena) (size alignment : Nat) :
    Except Fault (List ByteArray × Cursor) :=
  let next := arena.cursor.page + 1
  let required := size + 31 + alignment
  let length := max arena.pageSize required
  if (arena.pageLength? arena.cursor.page).any
      (leastMultiple (arena.cursor.top + headerSize) alignment + size ≤ ·) then
    .ok (arena.pages, arena.cursor)
  else if wordSize ≤ required then .error (.outOfMemory arena.name size)
  else if (arena.pageLength? next).any (required ≤ ·) then .ok (arena.pages, ⟨next, 0⟩)
  else if arena.maxPages.any (· ≤ arena.addedPages.length) then
    .error (.outOfMemory arena.name size)
  else if ¬ arena.supply.grants length then .error (.reservationRefused arena.name length)
  else .ok (arena.pages.insertIdx next (Memory.zeros length), ⟨next, 0⟩)

theorem destination_eq (hlength : arena.pageLength? arena.cursor.page = some length)
    (hpos : 0 < alignment) : arena.destination size alignment =
      if leastMultiple (arena.cursor.top + headerSize) alignment + size ≤ length then
        .ok (arena.pages, arena.cursor)
      else match arena.refusal? size alignment with
        | some fault => .error fault
        | none =>
          .ok ((arena.opened (required size alignment)).pages, ⟨arena.cursor.page + 1, 0⟩) := by
  have hrequired : size + 31 + alignment = required size alignment := by
    rw [required, headerSize]
    omega
  have hspare : (arena.pageLength? (arena.cursor.page + 1)).any (required size alignment ≤ ·) =
      arena.spare (required size alignment) := by
    rw [spare, pageLength?, Option.any_map]
  simp only [destination, refusal?, hlength, hrequired, hspare, pages_opened, Option.any_some,
    decide_eq_true_eq]
  split
  · rfl
  split
  · rfl
  split
  · rfl
  split
  · rfl
  split <;> rfl

theorem place?_rest (haddressable : arena.Addressable)
    (hlength : arena.pageLength? arena.cursor.page = some length) (htop : arena.cursor.top ≤ length)
    (hpower : alignment.isPowerOfTwo) (hword : alignment < wordSize) (size : Nat) :
    arena.rest.place? size alignment =
      if leastMultiple (arena.cursor.top + headerSize) alignment + size ≤ length then
        some (leastMultiple (arena.cursor.top + headerSize) alignment)
      else none := by
  have hstop := stop_rest hlength htop
  have hexact (offset : Nat) : arena.rest.place? size alignment = some offset ↔ _ :=
    Block.place?_eq_some_iff hpower hword (hstop ▸ haddressable.lt hlength)
  rw [Block.Eligible, hstop] at hexact
  split
  case isTrue hfits => exact (hexact _).mpr ⟨rfl, hfits⟩
  case isFalse hfits =>
    rw [Option.eq_none_iff_forall_ne_some]
    exact fun offset hplace => hfits ((hexact offset).mp hplace).2

theorem pages_bumped (offset : Nat) : (arena.bumped size alignment offset).pages =
    arena.pages.modify arena.cursor.page
      (Header.store · offset (arena.grant size alignment offset)) :=
  pages_updatePage ..

theorem pages_spilled : (arena.spilled size alignment).pages =
    (arena.opened (required size alignment)).pages.modify (arena.cursor.page + 1)
      (Header.store · (leastMultiple headerSize alignment)
        ⟨0, size, alignment, leastMultiple headerSize alignment⟩) :=
  pages_bumped ..

/-- A request was placed at a position of some pages: what is replied, and the arena afterwards. -/
structure Placed (pages : List ByteArray) (start : Cursor) (size alignment : Nat) (handle : Handle)
    (after : Arena) : Prop where
  handle_eq : handle = ⟨start.page, leastMultiple (start.top + headerSize) alignment⟩
  header_eq : ((Call.header handle).run after).reply =
    .ok ⟨start.top, size, alignment, handle.offset⟩
  pages_eq : after.pages = pages.modify start.page
    (Header.store · handle.offset ⟨start.top, size, alignment, handle.offset⟩)
  cursor_eq : after.cursor = ⟨start.page, handle.offset + size⟩

/-- How a request ends whose destination is known. -/
inductive Arrives (arena : Arena) (size alignment : Nat) :
    Except Fault (List ByteArray × Cursor) → Outcome Arena Handle → Prop where
  | refused (fault : Fault) : Arrives arena size alignment (.error fault) (.failed fault arena)
  | placed {pages : List ByteArray} {start : Cursor} {handle : Handle} {after : Arena}
    (events : List Event) (hplaced : Placed pages start size alignment handle after) :
    Arrives arena size alignment (.ok (pages, start)) ⟨.ok handle, after, events⟩

theorem alignedAlloc_arrives (hsound : arena.Sound) (haddressable : arena.Addressable)
    (hpos : 0 < size) (hpower : alignment.isPowerOfTwo) (hword : alignment < wordSize) :
    arena.Arrives size alignment (arena.destination size alignment)
      (alignedAlloc size alignment arena) := by
  obtain ⟨length, hlength, htop⟩ := hsound
  have hsound : arena.Sound := ⟨length, hlength, htop⟩
  have hplace := place?_rest haddressable hlength htop hpower hword size
  rw [destination_eq hlength (Nat.pos_of_isPowerOfTwo hpower), alignedAlloc_run hsound hword,
    if_neg (not_not_intro hpower), if_neg (Nat.ne_of_gt hpos), hplace]
  by_cases hfits : leastMultiple (arena.cursor.top + headerSize) alignment + size ≤ length
  case pos =>
    rw [if_pos hfits] at hplace
    rw [if_pos hfits, if_pos hfits]
    have hissued := bumped_issued hsound hpower hpos hplace
    refine .placed _ ⟨rfl, ?_, pages_bumped _, rfl⟩
    rw [call_header_run hissued.header?_eq]
    rfl
  case neg =>
    rw [if_neg hfits, if_neg hfits]
    cases hrefusal : arena.refusal? size alignment with
    | some fault => exact .refused fault
    | none =>
      have hissued := spilled_issued hsound hpower hpos (required_lt_of_refusal? hrefusal)
      refine .placed _ ⟨by rw [Nat.zero_add], ?_, pages_spilled, rfl⟩
      rw [call_header_run hissued.header?_eq]

theorem bump?_of_advance (hsound : arena.Sound) (hpower : alignment.isPowerOfTwo)
    (hword : alignment < wordSize) {events : List Event}
    (hadvance : advance size alignment arena = ⟨.ok (), after, events⟩) :
    ∃ handle, (bump? size alignment after).reply = .ok (some handle) := by
  rw [advance_run hsound hpower hword] at hadvance
  cases hrefusal : arena.refusal? size alignment with
  | some fault =>
    rw [hrefusal] at hadvance
    exact absurd (congrArg Outcome.reply hadvance) nofun
  | none =>
    rw [hrefusal] at hadvance
    obtain rfl := congrArg Outcome.state hadvance
    have hplace := place?_opened hsound hpower (required_lt_of_refusal? hrefusal)
    exact ⟨_, by rw [bump?_run (opened_sound hsound _) hpower, hplace]⟩

/-! ## Sessions -/

namespace Session

variable {σ : Type} {supply : Supply} {inlinePage : Nat} {settings : ArenaSettings} {state : σ}
  {start : Arena} {session : Session}

theorem Reachable.addressable (hreachable : Reachable start session)
    (hstart : Moored settings ⟨start, []⟩) (haddressable : start.Addressable) :
    session.arena.Addressable := by
  induction hreachable with
  | start => exact haddressable
  | step hreachable step hpermits ih =>
    cases step with
    | call call =>
      simp only [next, Permits, perform_eq] at hpermits ⊢
      exact ih.call (hreachable.moored hstart).valid.covers call hpermits
    | enter => exact ih
    | leave =>
      obtain ⟨snapshot, snapshots, hsnapshots⟩ := List.exists_cons_of_ne_nil hpermits
      rw [next_leave hsnapshots]
      exact ih
    | reset | supply => exact ih

theorem addressable_fresh (supply : Supply) (hinline : inlinePage < wordSize)
    (settings : ArenaSettings) : (fresh supply inlinePage settings).Addressable := by
  intro length hmem
  obtain rfl : length = inlinePage := by simpa [layout, pages, fresh] using hmem
  exact hinline

/-- Whatever was done with an arena whose first page has a machine word for its length, and whatever
the system granted to each call: a request is refused for the reasons of `destination` only, where the
supply is that of this call, and otherwise placed where that says. The attempt on the next page never
fails. -/
theorem alignedAlloc_exact_of_reachable
    (hcreated : (create supply inlinePage settings state).reply = .ok start)
    (hinline : inlinePage < wordSize) (hreachable : Reachable start session) (hpos : 0 < size)
    (hpower : alignment.isPowerOfTwo) (hle : alignment ≤ 2 ^ 63) :
    let outcome := session.perform (.alignedAlloc size alignment)
    session.arena.Arrives size alignment (session.arena.destination size alignment) outcome ∧
      ∀ opened events, advance size alignment session.arena = ⟨.ok (), opened, events⟩ →
        ∃ handle, (bump? size alignment opened).reply = .ok (some handle) := by
  intro outcome
  obtain ⟨_, rfl⟩ := reply_create_eq_ok_iff.mp hcreated
  have hmoored := moored_fresh supply inlinePage settings
  have hsound : session.arena.Sound := (hreachable.moored hmoored).valid.covers
  have haddressable := hreachable.addressable hmoored (addressable_fresh supply hinline settings)
  have hword := lt_wordSize_of_le_half hle
  have houtcome : outcome = alignedAlloc size alignment session.arena := perform_eq _ _
  rw [houtcome]
  exact ⟨alignedAlloc_arrives hsound haddressable hpos hpower hword,
    fun _ _ => bump?_of_advance hsound hpower hword⟩

/-- The next page is there but too short, and a new one is put before it, though not before the system
has refused to reserve it once. -/
theorem alignedAlloc_exact_of_short_page :
    let settings : ArenaSettings := ⟨"scratch", 64, some 2, true⟩
    let start := fresh Supply.ample 64 settings
    let entered := (next ⟨start, []⟩ (.call (.alignedAlloc 16 16))).next .enter
    let left := (entered.next (.call (.alignedAlloc 100 16))).next .leave
    let starved := left.next (.supply .exhausted)
    let session := (starved.next (.call (.alignedAlloc 200 64))).next (.supply .ample)
    let outcome := session.perform (.alignedAlloc 200 64)
    (starved.perform (.alignedAlloc 200 64)).reply = .error (.reservationRefused "scratch" 295) ∧
    outcome.reply = .ok ⟨1, 64⟩ ∧ outcome.state.pages.map ByteArray.size = [64, 295, 147] ∧
      Reachable start session ∧
      session.arena.Arrives 200 64 (session.arena.destination 200 64) outcome ∧
        ∀ opened events, advance 200 64 session.arena = ⟨.ok (), opened, events⟩ →
          ∃ handle, (bump? 200 64 opened).reply = .ok (some handle) := by
  intro settings start entered left starved session outcome
  have hcreated : (create Supply.ample 64 settings ()).reply = .ok start :=
    reply_create_eq_ok_iff.mpr ⟨by decide, rfl⟩
  have hfirst : (perform ⟨start, []⟩ (.alignedAlloc 16 16)).reply ≠ .trap := by decide +kernel
  have hsecond : (entered.perform (.alignedAlloc 100 16)).reply ≠ .trap := by decide +kernel
  have hrefused : (starved.perform (.alignedAlloc 200 64)).reply =
      .error (.reservationRefused "scratch" 295) := by
    decide +kernel
  have hreturned : (starved.perform (.alignedAlloc 200 64)).reply ≠ .trap := by simp [hrefused]
  have hstarved : Reachable start starved :=
    ((((Reachable.start.step (.call (.alignedAlloc 16 16)) hfirst).step .enter trivial).step
      (.call (.alignedAlloc 100 16)) hsecond).step .leave (List.cons_ne_nil _ _)).step
        (.supply .exhausted) trivial
  have hreachable : Reachable start session :=
    (hstarved.step (.call (.alignedAlloc 200 64)) hreturned).step (.supply .ample) trivial
  exact ⟨hrefused, by decide +kernel, by decide +kernel, hreachable,
    alignedAlloc_exact_of_reachable hcreated (by decide) hreachable (by decide) (by decide)
      (by decide)⟩

end Session

end Arena

end HandleAlloc
