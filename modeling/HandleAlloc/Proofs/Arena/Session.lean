import Mathlib.Data.List.InsertIdx
import HandleAlloc.Proofs.Arena.Discipline
import HandleAlloc.Proofs.Arena.Failure
import HandleAlloc.Proofs.Arena.Reuse
/-!
# Sessions of any kind

What holds of an arena whatever is done with it: any calls with any handles, on pages that hold any
bytes, in scopes and outside of them, as long as the calls return. A call adds at most one page, and
that behind the current one (`Extends`). So the cursor stands within a page, and so does every cursor
that an open scope returns to (`Session.Valid`).
-/

namespace HandleAlloc

namespace Arena

open HandleAlloc.Action

/-- The lengths of the pages of an arena, and the two settings that bound them. -/
structure Layout where
  pageSize : Nat
  maxPages : Option Nat
  lengths : List Nat

def layout (arena : Arena) : Layout :=
  ⟨arena.pageSize, arena.maxPages, arena.pages.map ByteArray.size⟩

def Layout.insert (layout : Layout) (index length : Nat) : Layout :=
  { layout with lengths := layout.lengths.insertIdx index length }

/-- What a call does to the shape of an arena: the cursor goes to no earlier page, and at most one page
is added, behind the current one, if the number of pages allows it; it has the least length or more. -/
structure Extends (arena after : Arena) : Prop where
  sound : after.Sound
  page_le : arena.cursor.page ≤ after.cursor.page
  layout_eq : after.layout = arena.layout ∨ ∃ length, arena.pageSize ≤ length ∧
    (∀ cap ∈ arena.maxPages, arena.addedPages.length < cap) ∧
      after.layout = arena.layout.insert (arena.cursor.page + 1) length

section Layout

variable {arena after last : Arena} {handle target : Handle} {header old : Header}
  {size alignment newSize : Nat}

theorem pageLength?_eq (arena : Arena) (i : Nat) : arena.pageLength? i = arena.layout.lengths[i]? := by
  rw [pageLength?, layout, List.getElem?_map]

theorem layout_congr (hpageSize : after.pageSize = arena.pageSize)
    (hmaxPages : after.maxPages = arena.maxPages)
    (hlengths : ∀ i, after.pageLength? i = arena.pageLength? i) : after.layout = arena.layout := by
  rw [layout, layout, hpageSize, hmaxPages, sizes_congr hlengths]

theorem layout_updatePage {index : Nat} {change : ByteArray → ByteArray}
    (hsize : ∀ page, (change page).size = page.size) :
    (arena.updatePage index change).layout = arena.layout := by
  apply layout_congr
  · cases index <;> rfl
  · cases index <;> rfl
  · exact pageLength?_updatePage hsize

theorem layout_store {place : Region} {position : Nat} {data : ByteArray} :
    (store place position data arena).layout = arena.layout := by
  unfold store
  split
  · exact layout_updatePage fun _ => Memory.size_write ..
  · rfl

theorem layout_withHeader : (arena.withHeader handle header).layout = arena.layout :=
  layout_updatePage fun _ => Header.size_store

theorem layout_wiped : (arena.wiped handle).layout = arena.layout :=
  layout_updatePage fun _ => Header.size_clear

theorem layout_bumped (offset : Nat) :
    (arena.bumped size alignment offset).layout = arena.layout :=
  layout_withHeader

theorem layout_relocated : (arena.relocated handle old newSize).layout =
    (arena.opened (required newSize old.alignment)).layout := by
  calc (arena.relocated handle old newSize).layout
    _ = ((arena.spilled newSize old.alignment).copied handle _ old.size).layout := layout_wiped
    _ = (arena.spilled newSize old.alignment).layout :=
        layout_updatePage fun _ => Memory.size_write ..
    _ = (arena.opened (required newSize old.alignment)).layout := layout_bumped _

theorem layout_opened (hrefusal : arena.refusal? size alignment = none) :
    (arena.opened (required size alignment)).layout = arena.layout ∨
      ∃ length, arena.pageSize ≤ length ∧
        (∀ cap ∈ arena.maxPages, arena.addedPages.length < cap) ∧
          (arena.opened (required size alignment)).layout =
            arena.layout.insert (arena.cursor.page + 1) length := by
  by_cases hspare : arena.spare (required size alignment) = true
  case pos =>
    left
    rw [layout, pages_opened, if_pos hspare]
    rfl
  case neg =>
    right
    refine ⟨max arena.pageSize (required size alignment), Nat.le_max_left _ _, ?_, ?_⟩
    · intro cap hcap
      apply Nat.lt_of_not_le
      intro hfull
      have hany : arena.maxPages.any (· ≤ arena.addedPages.length) = true :=
        (Option.any_eq_true _ _).mpr ⟨cap, hcap, decide_eq_true hfull⟩
      have hword := Nat.not_le_of_lt (required_lt_of_refusal? hrefusal)
      simp only [refusal?, if_neg hword, if_neg hspare, if_pos hany] at hrefusal
      contradiction
    · rw [layout, pages_opened, if_neg hspare, List.map_insertIdx, Memory.size_zeros]
      rfl

end Layout

/-! ## Calls -/

section Extends

variable {α : Type} {arena after last : Arena} {handle : Handle} {header old : Header}
  {size alignment newSize : Nat}

theorem sound_congr (hsound : after.Sound) (hcursor : last.cursor = after.cursor)
    (hlayout : last.layout = after.layout) : last.Sound := by
  obtain ⟨length, hlength, htop⟩ := hsound
  rw [Sound, hcursor]
  refine ⟨length, ?_, htop⟩
  rwa [pageLength?_eq, hlayout, ← pageLength?_eq]

theorem Extends.refl (hsound : arena.Sound) : arena.Extends arena :=
  ⟨hsound, Nat.le_refl _, Or.inl rfl⟩

theorem Extends.congr (hextends : arena.Extends after) (hcursor : last.cursor = after.cursor)
    (hlayout : last.layout = after.layout) : arena.Extends last where
  sound := sound_congr hextends.sound hcursor hlayout
  page_le := hcursor ▸ hextends.page_le
  layout_eq := by
    rw [hlayout]
    exact hextends.layout_eq

theorem Extends.store (hextends : arena.Extends after) (place : Region) (position : Nat)
    (data : ByteArray) : arena.Extends (Arena.store place position data after) :=
  hextends.congr cursor_store layout_store

theorem bumped_extends (hsound : arena.Sound) (hpower : alignment.isPowerOfTwo) (hpos : 0 < size)
    {offset : Nat} (hfit : arena.rest.place? size alignment = some offset) :
    arena.Extends (arena.bumped size alignment offset) where
  sound := (bumped_issued hsound hpower hpos hfit).sound
  page_le := Nat.le_refl _
  layout_eq := Or.inl (layout_bumped offset)

theorem spilled_extends (hsound : arena.Sound) (hpower : alignment.isPowerOfTwo) (hpos : 0 < size)
    (hrefusal : arena.refusal? size alignment = none) :
    arena.Extends (arena.spilled size alignment) where
  sound := (spilled_issued hsound hpower hpos (required_lt_of_refusal? hrefusal)).sound
  page_le := Nat.le_succ _
  layout_eq := by
    rw [spilled, layout_bumped]
    exact layout_opened hrefusal

theorem Extends.of_allocates (hsound : arena.Sound)
    (hallocates : arena.Allocates size alignment handle after) : arena.Extends after := by
  cases hallocates with
  | bumped hpower hpos hfit => exact bumped_extends hsound hpower hpos hfit
  | spilled hpower hpos hrefusal => exact spilled_extends hsound hpower hpos hrefusal

theorem resized_extends (hdecoded : arena.decoded? handle = some old)
    (htop : handle.stop old = arena.cursor) (hfits : arena.fits handle newSize = true) :
    arena.Extends (arena.resized handle old newSize) where
  sound := by
    obtain ⟨length, hlength, _⟩ := decoded?_within hdecoded
    exact ⟨length, (pageLength?_resized _).trans hlength, ((fits_iff hlength).mp hfits).2⟩
  page_le := Nat.le_of_eq (Handle.stop_eq_iff.mp htop).1.symm
  layout_eq := Or.inl layout_withHeader

theorem relocated_extends (hsound : arena.Sound) (hdecoded : arena.decoded? handle = some old)
    (hpos : 0 < newSize) (hrefusal : arena.refusal? newSize old.alignment = none) :
    arena.Extends (arena.relocated handle old newSize) := by
  obtain ⟨_, _, hwithin⟩ := decoded?_within hdecoded
  apply (spilled_extends hsound hwithin.power hpos hrefusal).congr
  · simp only [relocated, wiped, copied, cursor_updatePage]
  · rw [layout_relocated, spilled, layout_bumped]

theorem Extends.of_reallocates (hsound : arena.Sound)
    (hreallocates : arena.Reallocates handle newSize target after) : arena.Extends after := by
  cases hreallocates with
  | same => exact .refl hsound
  | resized htop _ hfits => exact resized_extends htop.decoded htop.stop_eq hfits
  | relocated htop hpos hrefusal => exact relocated_extends hsound htop.decoded hpos hrefusal

/-- Whatever header the handle reads, the cases of a `realloc` that does not trap are the same: a move
that finds a place on the page it leaves traps. -/
theorem realloc_cases_of_returns (hsound : arena.Sound) (handle : Handle) (newSize : Nat)
    (hreturns : (realloc handle newSize arena).reply ≠ .trap) :
    (realloc handle newSize arena).Settles arena (arena.Reallocates handle newSize) := by
  apply realloc_cases hsound handle newSize
  intro old htop hpos hne hfits
  cases hplace : (arena.rewound old).rest.place? newSize old.alignment with
  | none => rfl
  | some offset =>
    have htrap := relocate_reply_of_place? htop.decoded htop.stop_eq hpos hplace
    rw [realloc_run, htop.header?_eq] at hreturns
    simp only [if_neg (not_not_intro htop.stop_eq), if_neg (Nat.ne_of_gt hpos), if_neg hne, hfits,
      Bool.false_eq_true, if_false] at hreturns
    exact absurd htrap hreturns

theorem freed_extends (hdecoded : arena.decoded? handle = some old)
    (htop : handle.stop old = arena.cursor) : arena.Extends (arena.freed handle old) where
  sound := freed_sound hdecoded
  page_le := Nat.le_of_eq (Handle.stop_eq_iff.mp htop).1.symm
  layout_eq := Or.inl layout_wiped

/-- What holds of the arena that any call leaves, if the call returns: it holds of the arena before,
of every one that an allocation, a resize or a free can leave, and goes on to hold when bytes are
written. -/
theorem call_state {holds : Arena → Prop} (hsound : arena.Sound) (call : Call α)
    (hreturns : (call.run arena).reply ≠ .trap) (hsame : holds arena)
    (hallocates : ∀ size alignment handle after,
      arena.Allocates size alignment handle after → holds after)
    (hreallocates : ∀ handle newSize moved after,
      arena.Reallocates handle newSize moved after → holds after)
    (hfreed : ∀ handle old, arena.Topmost handle old → holds (arena.freed handle old))
    (hstore : ∀ after place position data, holds after → holds (store place position data after)) :
    holds (call.run arena).state := by
  have halloc (size alignment : Nat) : holds (alignedAlloc size alignment arena).state := by
    by_cases hword : alignment < wordSize
    case pos => exact (alignedAlloc_cases hsound hword size).state hsame (hallocates _ _)
    case neg =>
      rw [alignedAlloc_run_of_le hsound (Nat.le_of_not_lt hword)]
      split
      · exact hsame
      · split <;> exact hsame
  cases call with
  | alignedAlloc size alignment => exact halloc size alignment
  | alloc size => exact halloc size defaultAlignment
  | allocZero size =>
    apply (allocZero_cases hsound size).state hsame
    rintro _ _ ⟨issued, _, _, hissued, _, rfl⟩
    exact hstore _ _ _ _ (hallocates _ _ _ _ hissued)
  | construct value =>
    apply (construct_cases hsound value).state hsame
    rintro _ _ ⟨issued, _, _, hissued, _, rfl⟩
    exact hstore _ _ _ _ (hallocates _ _ _ _ hissued)
  | realloc handle newSize =>
    exact (realloc_cases_of_returns hsound handle newSize hreturns).state hsame
      (hreallocates handle newSize)
  | free handle =>
    apply (free_settles handle arena).state hsame
    rintro _ _ ⟨old, htop, rfl⟩
    exact hfreed handle old htop
  | overwrite handle position data =>
    apply (overwrite_settles handle position data arena).state hsame
    rintro _ _ ⟨header, _, rfl⟩
    exact hstore _ _ _ _ hsame
  | header | bytes | read =>
    refine (Call.query_settles rfl (header_settles · arena) (region_run_eq · arena)).state hsame ?_
    rintro _ _ rfl
    exact hsame

/-- Whatever is called with whatever handle, and whatever the pages hold, the arena is extended, if the
call returns. -/
theorem call_extends (hsound : arena.Sound) (call : Call α)
    (hreturns : (call.run arena).reply ≠ .trap) : arena.Extends (call.run arena).state :=
  call_state hsound call hreturns (.refl hsound) (fun _ _ _ _ => .of_allocates hsound)
    (fun _ _ _ _ => .of_reallocates hsound)
    (fun _ _ htop => freed_extends htop.decoded htop.stop_eq)
    fun _ place position data hextends => hextends.store place position data

theorem length_lengths (arena : Arena) :
    arena.layout.lengths.length = arena.addedPages.length + 1 := by
  rw [layout, List.length_map, pages, List.length_cons]

theorem Extends.pageLength?_eq (hextends : arena.Extends after) {i : Nat}
    (hi : i ≤ arena.cursor.page) : after.pageLength? i = arena.pageLength? i := by
  rw [Arena.pageLength?_eq, Arena.pageLength?_eq]
  obtain hsame | ⟨length, _, _, hinserted⟩ := hextends.layout_eq
  · rw [hsame]
  · rw [hinserted]
    exact List.getElem?_insertIdx_of_lt (Nat.lt_succ_of_le hi)

theorem Extends.length_le (hextends : arena.Extends after) :
    arena.addedPages.length ≤ after.addedPages.length := by
  have hbefore := length_lengths arena
  have hafter := length_lengths after
  obtain hsame | ⟨length, _, _, hinserted⟩ := hextends.layout_eq
  · rw [hsame] at hafter
    omega
  · rw [hinserted, Layout.insert, List.length_insertIdx] at hafter
    split at hafter <;> omega

theorem Extends.pageSize_eq (hextends : arena.Extends after) : after.pageSize = arena.pageSize := by
  obtain hsame | ⟨_, _, _, hinserted⟩ := hextends.layout_eq
  · exact congrArg Layout.pageSize hsame
  · exact congrArg Layout.pageSize hinserted

theorem Extends.maxPages_eq (hextends : arena.Extends after) : after.maxPages = arena.maxPages := by
  obtain hsame | ⟨_, _, _, hinserted⟩ := hextends.layout_eq
  · exact congrArg Layout.maxPages hsame
  · exact congrArg Layout.maxPages hinserted

theorem Extends.mem_added (hextends : arena.Extends after) {page : ByteArray}
    (hmem : page ∈ after.addedPages) :
    (∃ other ∈ arena.addedPages, other.size = page.size) ∨ arena.pageSize ≤ page.size := by
  have hmem := List.mem_map_of_mem (f := ByteArray.size) hmem
  obtain hsame | ⟨length, hlong, _, hinserted⟩ := hextends.layout_eq
  · have hlengths := congrArg (List.tail ∘ Layout.lengths) hsame
    simp only [Function.comp_apply, layout, pages, List.map_cons, List.tail_cons] at hlengths
    rw [hlengths] at hmem
    exact Or.inl (List.mem_map.mp hmem)
  · have hlengths := congrArg (List.tail ∘ Layout.lengths) hinserted
    simp only [Function.comp_apply, Layout.insert, layout, pages, List.map_cons,
      List.insertIdx_succ_cons, List.tail_cons] at hlengths
    rw [hlengths] at hmem
    obtain hnew | hold := List.eq_or_mem_of_mem_insertIdx hmem
    · exact Or.inr (hnew ▸ hlong)
    · exact Or.inl (List.mem_map.mp hold)

theorem Extends.length_le_cap (hextends : arena.Extends after) {cap : Nat}
    (hcap : cap ∈ arena.maxPages) (hle : arena.addedPages.length ≤ cap) :
    after.addedPages.length ≤ cap := by
  have hbefore := length_lengths arena
  have hafter := length_lengths after
  obtain hsame | ⟨length, _, hroom, hinserted⟩ := hextends.layout_eq
  · rw [hsame] at hafter
    omega
  · have hlt := hroom cap hcap
    rw [hinserted, Layout.insert, List.length_insertIdx] at hafter
    split at hafter <;> omega

theorem Extends.covers (hextends : arena.Extends after) {position : Cursor}
    (hcovers : arena.Covers position) (hle : position.page ≤ arena.cursor.page) :
    after.Covers position := by
  obtain ⟨length, hlength, htop⟩ := hcovers
  exact ⟨length, (hextends.pageLength?_eq hle).trans hlength, htop⟩

end Extends

/-! ## Sessions -/

/-- An arena and the cursors that its open scopes return to, the innermost first. -/
structure Session where
  arena : Arena
  snapshots : List Cursor

namespace Session

def perform {α : Type} (session : Session) (call : Call α) : Outcome Arena α :=
  match session.snapshots with
  | [] => call.run session.arena
  | snapshot :: _ =>
    let outcome := call.run (Scope.mk session.arena snapshot)
    ⟨outcome.reply, outcome.state.arena, outcome.events⟩

def next (session : Session) : Step → Session
  | .call call => { session with arena := (session.perform call).state }
  | .enter => match (Scope.enter session.arena).reply with
    | .ok scope => ⟨scope.arena, scope.snapshot :: session.snapshots⟩
    | .error _ | .trap => session
  | .leave => match session.snapshots with
    | snapshot :: snapshots =>
      ⟨(Scope.leave ⟨session.arena, snapshot⟩ session.arena).state, snapshots⟩
    | [] => session
  | .reset => { session with arena := (reset session.arena).state }
  | .supply supply => { session with arena := { session.arena with supply } }

/-- Any call can be made that returns. A scope is ended only if one is open, and the arena is reset
only if none is. -/
def Permits (session : Session) : Step → Prop
  | .call call => (session.perform call).reply ≠ .trap
  | .enter => True
  | .leave => session.snapshots ≠ []
  | .reset => session.snapshots = []
  | .supply _ => True

inductive Reachable (start : Arena) : Session → Prop where
  | start : Reachable start ⟨start, []⟩
  | step {session : Session} (hreachable : Reachable start session) (step : Step)
    (hpermits : session.Permits step) : Reachable start (session.next step)

/-- The cursor and the snapshots stand within pages, and the pages are as the settings want them. -/
structure Valid (settings : ArenaSettings) (session : Session) : Prop where
  page_le : session.arena.cursor.page ≤ session.arena.addedPages.length
  covers : session.arena.Covers session.arena.cursor
  pageSize_le : ∀ page ∈ session.arena.addedPages, settings.pageSize ≤ page.size
  length_le : ∀ cap ∈ settings.maxPages, session.arena.addedPages.length ≤ cap
  /-- No scope returns to a later page than the current one, nor behind the end of a page. -/
  snapshots : ∀ snapshot ∈ session.snapshots,
    snapshot.page ≤ session.arena.cursor.page ∧ session.arena.Covers snapshot

/-- What a step leaves of the pages: their number does not go down, and up to the current one each
stays where it is and as long as it is. -/
structure Preserves (session after : Session) : Prop where
  length_le : session.arena.addedPages.length ≤ after.arena.addedPages.length
  pageLength?_eq : ∀ index ≤ session.arena.cursor.page,
    after.arena.pageLength? index = session.arena.pageLength? index
  /-- A page is only ever added behind the current one. -/
  layout_eq : after.arena.layout = session.arena.layout ∨ ∃ length,
    after.arena.layout = session.arena.layout.insert (session.arena.cursor.page + 1) length

/-- A valid session, as the steps keep it. -/
structure Moored (settings : ArenaSettings) (session : Session) : Prop where
  valid : session.Valid settings
  pageSize_eq : session.arena.pageSize = settings.pageSize
  maxPages_eq : session.arena.maxPages = settings.maxPages
  /-- An inner scope returns to no earlier page than an outer one. -/
  ascending : session.snapshots.Pairwise fun inner outer => outer.page ≤ inner.page

section Session

variable {α : Type} {settings : ArenaSettings} {start : Arena} {session : Session}
  {snapshot : Cursor} {snapshots : List Cursor} {step : Step}

theorem perform_eq (session : Session) (call : Call α) :
    session.perform call = call.run session.arena := by
  unfold perform
  split
  · rfl
  · rw [Scope.run_eq, Scope.onArena_run]

theorem next_enter (session : Session) :
    session.next .enter = ⟨session.arena, session.arena.cursor :: session.snapshots⟩ := rfl

theorem next_leave (hsnapshots : session.snapshots = snapshot :: snapshots) :
    session.next .leave = ⟨{ session.arena with cursor := snapshot }, snapshots⟩ := by
  rw [next, hsnapshots]
  rfl

theorem next_reset (session : Session) :
    session.next .reset = { session with arena := { session.arena with cursor := .start } } := rfl

theorem next_supply (session : Session) (supply : Supply) : session.next (.supply supply) =
    { session with arena := { session.arena with supply } } := rfl

theorem Moored.call (hmoored : session.Moored settings) {call : Call α}
    (hextends : session.arena.Extends (session.next (.call call)).arena) :
    (session.next (.call call)).Moored settings := by
  obtain ⟨hvalid, hpageSize, hmaxPages, hascending⟩ := hmoored
  refine ⟨⟨Nat.le_of_lt_succ hextends.sound.page_lt, hextends.sound, ?_, ?_, ?_⟩,
    hextends.pageSize_eq.trans hpageSize, hextends.maxPages_eq.trans hmaxPages, hascending⟩
  · intro page hmem
    obtain ⟨other, hother, hsize⟩ | hlong := hextends.mem_added hmem
    · exact hsize ▸ hvalid.pageSize_le other hother
    · exact hpageSize ▸ hlong
  · intro cap hcap
    rw [← hmaxPages] at hcap
    exact hextends.length_le_cap hcap (hvalid.length_le cap (hmaxPages ▸ hcap))
  · intro snapshot hmem
    obtain ⟨hle, hcovers⟩ := hvalid.snapshots snapshot hmem
    exact ⟨Nat.le_trans hle hextends.page_le, hextends.covers hcovers hle⟩

theorem Moored.next (hmoored : session.Moored settings) (hpermits : session.Permits step) :
    (session.next step).Moored settings := by
  cases step with
  | call call =>
    apply hmoored.call
    simp only [Session.next, Permits, perform_eq] at hpermits ⊢
    exact call_extends hmoored.valid.covers call hpermits
  | enter =>
    rw [next_enter]
    obtain ⟨hvalid, hpageSize, hmaxPages, hascending⟩ := hmoored
    exact ⟨{ hvalid with
      snapshots := List.forall_mem_cons.mpr ⟨⟨Nat.le_refl _, hvalid.covers⟩, hvalid.snapshots⟩ },
      hpageSize, hmaxPages, .cons (fun outer hmem => (hvalid.snapshots outer hmem).1) hascending⟩
  | leave =>
    obtain ⟨snapshot, snapshots, hsnapshots⟩ := List.exists_cons_of_ne_nil hpermits
    rw [next_leave hsnapshots]
    obtain ⟨hvalid, hpageSize, hmaxPages, hascending⟩ := hmoored
    have hscopes := hvalid.snapshots
    rw [hsnapshots, List.forall_mem_cons] at hscopes
    rw [hsnapshots, List.pairwise_cons] at hascending
    obtain ⟨⟨hle, hcovers⟩, houter⟩ := hscopes
    exact ⟨⟨Nat.le_trans hle hvalid.page_le, hcovers, hvalid.pageSize_le, hvalid.length_le,
      fun outer hmem => ⟨hascending.1 outer hmem, (houter outer hmem).2⟩⟩,
      hpageSize, hmaxPages, hascending.2⟩
  | reset =>
    have hnone : session.snapshots = [] := hpermits
    rw [next_reset, hnone]
    obtain ⟨hvalid, hpageSize, hmaxPages, _⟩ := hmoored
    exact ⟨⟨Nat.zero_le _, Ledger.covers_start _, hvalid.pageSize_le, hvalid.length_le, nofun⟩,
      hpageSize, hmaxPages, .nil⟩
  | supply supply =>
    rw [next_supply]
    obtain ⟨hvalid, hpageSize, hmaxPages, hascending⟩ := hmoored
    exact ⟨⟨hvalid.page_le, hvalid.covers, hvalid.pageSize_le, hvalid.length_le, hvalid.snapshots⟩,
      hpageSize, hmaxPages, hascending⟩

theorem moored_fresh (supply : Supply) (inlinePage : Nat) (settings : ArenaSettings) :
    Moored settings ⟨fresh supply inlinePage settings, []⟩ :=
  ⟨⟨Nat.le_refl _, Ledger.covers_start _, nofun, fun _ _ => Nat.zero_le _, nofun⟩, rfl, rfl, .nil⟩

theorem Reachable.moored (hreachable : Reachable start session)
    (hstart : Moored settings ⟨start, []⟩) : session.Moored settings := by
  induction hreachable with
  | start => exact hstart
  | step _ step hpermits ih => exact ih.next hpermits

theorem Valid.preserves (hvalid : session.Valid settings) (hpermits : session.Permits step) :
    session.Preserves (session.next step) := by
  cases step with
  | call call =>
    simp only [Session.next, Permits, perform_eq] at hpermits ⊢
    have hextends := call_extends hvalid.covers call hpermits
    refine ⟨hextends.length_le, fun _ => hextends.pageLength?_eq, ?_⟩
    exact hextends.layout_eq.imp_right fun ⟨length, _, _, hinserted⟩ => ⟨length, hinserted⟩
  | enter =>
    rw [next_enter]
    exact ⟨Nat.le_refl _, fun _ _ => rfl, Or.inl rfl⟩
  | leave =>
    obtain ⟨snapshot, snapshots, hsnapshots⟩ := List.exists_cons_of_ne_nil hpermits
    rw [next_leave hsnapshots]
    exact ⟨Nat.le_refl _, fun _ _ => rfl, Or.inl rfl⟩
  | reset | supply => exact ⟨Nat.le_refl _, fun _ _ => rfl, Or.inl rfl⟩

end Session

section Reachable

variable {σ : Type} {supply : Supply} {inlinePage : Nat} {settings : ArenaSettings} {state : σ}
  {start : Arena} {session : Session}

/-- Whatever is done with an arena, as long as its calls return: the cursor and the snapshots of the
open scopes stand within pages, the added pages are as long and as few as the settings want, and each
step leaves the pages up to the current one where they are. -/
theorem reachable_valid (hcreated : (create supply inlinePage settings state).reply = .ok start)
    (hreachable : Reachable start session) :
    session.Valid settings ∧ ∀ step, session.Permits step →
      (session.next step).Valid settings ∧ session.Preserves (session.next step) := by
  obtain ⟨_, rfl⟩ := reply_create_eq_ok_iff.mp hcreated
  have hmoored := hreachable.moored (moored_fresh supply inlinePage settings)
  exact ⟨hmoored.valid, fun step hpermits =>
    ⟨(hmoored.next hpermits).valid, hmoored.valid.preserves hpermits⟩⟩

/-- Through a scope, a header forged in the bytes of an allocation is moved to an added page, and the
scope ends. -/
theorem reachable_valid_of_forged_header :
    let settings : ArenaSettings := ⟨"scratch", 64, some 1, false⟩
    let start := fresh Supply.ample 128 settings
    let allocated := next ⟨start, []⟩ (.call (.alloc 64))
    let forged := allocated.next (.call (.overwrite ⟨0, 32⟩ 0 (Header.encode ⟨0, 32, 1, 7⟩)))
    let moved := (forged.next .enter).next (.call (.realloc ⟨0, 64⟩ 100))
    moved.arena.cursor = ⟨1, 132⟩ ∧ moved.snapshots = [⟨0, 96⟩] ∧ moved.Valid settings ∧
      (moved.next .leave).Valid settings ∧ moved.Preserves (moved.next .leave) := by
  intro settings start allocated forged moved
  have hcreated : (create Supply.ample 128 settings ()).reply = .ok start :=
    reply_create_eq_ok_iff.mpr ⟨by decide, rfl⟩
  have halloc : (perform ⟨start, []⟩ (.alloc 64)).reply ≠ .trap := by decide +kernel
  have hforge : (allocated.perform (.overwrite ⟨0, 32⟩ 0 (Header.encode ⟨0, 32, 1, 7⟩))).reply ≠
    .trap := by decide +kernel
  have hmove : ((forged.next .enter).perform (.realloc ⟨0, 64⟩ 100)).reply ≠ .trap := by
    decide +kernel
  have hmoved : Reachable start moved :=
    (((Reachable.start.step (.call (.alloc 64)) halloc).step (.call _) hforge).step
      .enter trivial).step (.call (.realloc ⟨0, 64⟩ 100)) hmove
  obtain ⟨hvalid, hsteps⟩ := reachable_valid hcreated hmoved
  exact ⟨by decide +kernel, by decide +kernel, hvalid, hsteps .leave (List.cons_ne_nil _ _)⟩

end Reachable

end Session

end Arena

end HandleAlloc
