import HandleAlloc.Proofs.Arena.Ledger
/-!
# The stack discipline of arenas

On an arena that was only used in a well-behaved way, the cursor alone says where the live allocations
are: page by page they follow each other from the first byte on, up to the cursor, and the one that
ends there is the only one that can be resized or freed.
-/

namespace HandleAlloc

namespace Arena

/-- The arena that `create` replies with: its first page, and nothing allocated. -/
def fresh (supply : Supply) (inlinePage : Nat) (settings : ArenaSettings) : Arena where
  name := settings.name
  firstPage := Memory.zeros inlinePage
  addedPages := []
  cursor := .start
  pageSize := settings.pageSize
  maxPages := settings.maxPages
  validate := settings.validateHeaders
  supply := supply

theorem reply_create_eq_ok_iff {σ : Type} {supply : Supply} {inlinePage : Nat}
    {settings : ArenaSettings} {state : σ} {start : Arena} :
    (create supply inlinePage settings state).reply = .ok start ↔
      0 < settings.pageSize ∧ start = fresh supply inlinePage settings := by
  unfold create
  simp only
  split
  case isTrue hzero => simp [Action.fail_run, hzero]
  case isFalse hpos =>
    simp only [Action.bind_run, Action.emit_run, Action.pure_run, Reply.ok.injEq,
      Nat.pos_of_ne_zero hpos, true_and]
    exact eq_comm

namespace Ledger

/-- What the cursor says about the live allocations. -/
structure Disciplined (ledger : Ledger) : Prop where
  /-- Every live handle reads the header that was last written for it. -/
  decoded : ∀ holding ∈ ledger.held,
    ledger.arena.header? holding.handle = some holding.header
  /-- On each page up to the current one, the allocations follow each other from its first byte on
  and end within the page; on the current one the last of them ends at the cursor. -/
  contiguous : ∀ index ≤ ledger.arena.cursor.page, ∃ last length,
    Contiguous 0 (onPage index ledger.held) last ∧
      ledger.arena.pageLength? index = some length ∧ last ≤ length ∧
      (index = ledger.arena.cursor.page → last = ledger.arena.cursor.top)
  /-- No live allocation is on a later page. -/
  page_le : ∀ holding ∈ ledger.held, holding.handle.page ≤ ledger.arena.cursor.page
  /-- The order of handles is that in which they were issued. -/
  ascending : ledger.held.Pairwise fun newer older =>
    older.handle.le newer.handle = true ∧ older.handle ≠ newer.handle
  /-- Only the last allocation of the current page can be freed, -/
  free_iff : ∀ holding ∈ ledger.held,
    (ledger.perform (.free holding.handle)).reply =
        .error (.notTopOfStack ledger.arena.name holding.handle) ↔
      (onPage ledger.arena.cursor.page ledger.held).getLast? ≠ some holding
  /-- and resized. -/
  realloc_iff : ∀ holding ∈ ledger.held, ∀ newSize,
    (ledger.perform (.realloc holding.handle newSize)).reply =
        .error (.notTopOfStack ledger.arena.name holding.handle) ↔
      (onPage ledger.arena.cursor.page ledger.held).getLast? ≠ some holding

section Disciplined

variable {σ : Type} {supply : Supply} {inlinePage : Nat} {settings : ArenaSettings} {state : σ}
  {start : Arena} {ledger : Ledger} {holding : Holding}

theorem stacked_fresh (supply : Supply) (inlinePage : Nat) (settings : ArenaSettings) :
    Stacked ⟨fresh supply inlinePage settings, [], []⟩ :=
  ⟨covers_start _, nofun, .nil, .empty, nofun⟩

theorem le_and_ne_of_position_lt {a b : Handle} (hlt : a.position < b.position) :
    a.le b = true ∧ a ≠ b := by
  constructor
  · rw [Handle.le_iff]
    have hle := Cursor.le_iff.mp (le_of_lt hlt)
    exact hle
  · rintro rfl
    exact lt_irrefl _ hlt

theorem Stacked.contiguous (hstacked : ledger.Stacked) {index : Nat}
    (hle : index ≤ ledger.arena.cursor.page) : ∃ last length,
    Contiguous 0 (onPage index ledger.held) last ∧
      ledger.arena.pageLength? index = some length ∧ last ≤ length ∧
      (index = ledger.arena.cursor.page → last = ledger.arena.cursor.top) := by
  obtain ⟨last, hcontiguous, hlast⟩ := hstacked.whole.onPage hle
  have hindex : index < ledger.arena.pages.length := Nat.lt_of_le_of_lt hle hstacked.sound.page_lt
  refine ⟨last, _, hcontiguous, by rw [pageLength?, List.getElem?_eq_getElem hindex, Option.map_some],
    ?_, hlast⟩
  obtain ⟨_, rfl⟩ | ⟨holding, hmem, rfl⟩ := hcontiguous.last_eq
  · exact Nat.zero_le _
  · rw [onPage, List.mem_reverse, List.mem_filter, decide_eq_true_iff] at hmem
    obtain ⟨hheld, rfl⟩ := hmem
    obtain ⟨length, hlength, hwithin⟩ := decoded?_within (hstacked.decoded holding hheld)
    rw [pageLength?, List.getElem?_eq_getElem hindex, Option.map_some, Option.some.injEq] at hlength
    rw [hlength]
    exact hwithin.stop_le

theorem Stacked.disciplined (hstacked : ledger.Stacked) : ledger.Disciplined where
  decoded _ := hstacked.header?_eq
  contiguous _ := hstacked.contiguous
  page_le _ hmem := Cursor.page_le (hstacked.whole.stop_le hmem)
  ascending := hstacked.whole.pairwise_position.imp le_and_ne_of_position_lt
  free_iff holding hmem := by
    rw [perform_eq, ne_eq, hstacked.whole.getLast?_onPage_iff hmem]
    exact reply_free_eq_notTopOfStack_iff (hstacked.header?_eq hmem)
  realloc_iff holding hmem newSize := by
    rw [perform_eq, ne_eq, hstacked.whole.getLast?_onPage_iff hmem]
    exact reply_realloc_eq_notTopOfStack_iff hstacked.sound (hstacked.header?_eq hmem)
      (hstacked.proper hmem) newSize

/-- After any well-behaved steps the live allocations of an arena are where the cursor says. -/
theorem reachable_disciplined
    (hcreated : (create supply inlinePage settings state).reply = .ok start)
    (hreachable : Reachable start ledger) : ledger.Disciplined := by
  obtain ⟨_, rfl⟩ := reply_create_eq_ok_iff.mp hcreated
  exact (hreachable.stacked (stacked_fresh supply inlinePage settings)).disciplined

/-- An allocation in a scope moves to an added page, past one that stays. -/
theorem reachable_disciplined_of_spill :
    let start := fresh Supply.ample 128 ⟨"scratch", 64, none, true⟩
    let opened := (next ⟨start, [], []⟩ (.call (.alloc 16))).next .enter
    let moved := (opened.next (.call (.alloc 16))).next (.call (.realloc ⟨0, 80⟩ 64))
    moved.held.map Holding.handle = [⟨1, 32⟩, ⟨0, 32⟩] ∧ moved.Disciplined := by
  intro start opened moved
  have hcreated : (create Supply.ample 128 ⟨"scratch", 64, none, true⟩ ()).reply = .ok start :=
    reply_create_eq_ok_iff.mpr ⟨by decide, rfl⟩
  have hopened : Reachable start opened :=
    (Reachable.start.step (.call (.alloc 16)) ⟨by decide, nofun, nofun⟩).step .enter trivial
  have hmoved : Reachable start moved :=
    (hopened.step (.call (.alloc 16)) ⟨by decide, nofun, nofun⟩).step _
      ⟨nofun, by rintro handle ⟨⟩; decide +kernel, nofun⟩
  exact ⟨by decide +kernel, reachable_disciplined hcreated hmoved⟩

end Disciplined

end Ledger

end Arena

end HandleAlloc
