import HandleAlloc.Proofs.Arena.Reclaim
/-!
# What calls do to other allocations

On an arena that was only used in a well-behaved way, a call changes the allocation it is made with
and no other. A turn of the innermost scope changes nothing below its floor, and what it does not take
ends there; pages are only added above it. A write stays within the usable bytes of one allocation,
and these are apart from what the others own.
-/

namespace HandleAlloc

namespace Arena

namespace Ledger

/-- A step leaves an allocation alone, in all that a client can tell of it. -/
structure Untouched (ledger after : Ledger) (holding : Holding) : Prop where
  mem : holding ∈ after.held
  header?_eq : after.arena.header? holding.handle = some holding.header
  /-- No byte of its header and none of its usable bytes changes, -/
  byte?_eq : ∀ i ∈ interval (holding.handle.offset - headerSize)
      (holding.handle.offset + holding.header.size),
    after.arena.byte? ⟨holding.handle.page, i⟩ = ledger.arena.byte? ⟨holding.handle.page, i⟩
  /-- and it is read as before. -/
  bytes_eq : (after.perform (.bytes holding.handle)).reply =
    (ledger.perform (.bytes holding.handle)).reply

section Isolation

variable {α : Type} {ledger : Ledger} {call : Call α} {floor : Cursor} {lost rest : List Holding}
  {gained : Option Holding} {holding other : Holding}

theorem Stacked.untouched {after : Ledger} (hstacked : ledger.Stacked) (hafter : after.Stacked)
    (hmem : holding ∈ ledger.held) (hkept : holding ∈ after.held)
    (hlength : after.arena.pageLength? holding.handle.page =
      ledger.arena.pageLength? holding.handle.page)
    (hbytes : ∀ i ∈ holding.header.bytes holding.handle.offset,
      after.arena.byte? ⟨holding.handle.page, i⟩ = ledger.arena.byte? ⟨holding.handle.page, i⟩) :
    ledger.Untouched after holding := by
  have hstart := (hstacked.proper hmem).start_le
  have howned (i : Nat) (hi : i ∈ interval (holding.handle.offset - headerSize)
      (holding.handle.offset + holding.header.size)) :
      after.arena.byte? ⟨holding.handle.page, i⟩ = ledger.arena.byte? ⟨holding.handle.page, i⟩ := by
    rw [mem_interval] at hi
    apply hbytes i
    rw [Header.mem_bytes]
    omega
  refine ⟨hkept, hafter.header?_eq hkept, howned, ?_⟩
  rw [reply_bytes hafter hkept, reply_bytes hstacked hmem, Reply.ok.injEq]
  apply load_congr hlength
  intro i hi
  simp only [mem_interval] at hi howned
  exact howned i ⟨by omega, hi.2⟩

theorem Turn.mem_held (hturn : ledger.Turn call floor lost rest gained) (hmem : holding ∈ ledger.held)
    (hother : call.handle? ≠ some holding.handle) :
    holding ∈ rest ∨ holding ∈ ledger.outer.flatMap Frame.live := by
  rw [held, hturn.before, List.append_assoc, List.mem_append, List.mem_append] at hmem
  exact hmem.resolve_left fun hlost => hother (hturn.operand holding hlost)

theorem Turn.keeps (hturn : ledger.Turn call floor lost rest gained) (hstacked : ledger.Stacked)
    (hmem : holding ∈ ledger.held) (hother : call.handle? ≠ some holding.handle) :
    holding ∈ (ledger.next (.call call)).held ∧ holding.stop ≤ floor := by
  rw [held, hturn.after, List.append_assoc, List.mem_append, List.mem_append]
  obtain hrest | houter := hturn.mem_held hmem hother
  · exact ⟨Or.inr (Or.inl hrest), hturn.rest_stack.stop_le hrest⟩
  · refine ⟨Or.inr (Or.inr houter), ?_⟩
    exact le_trans (hstacked.frames.stack.stop_le houter) hturn.base_le

theorem Turn.untouched (hturn : ledger.Turn call floor lost rest gained) (hstacked : ledger.Stacked)
    (hmem : holding ∈ ledger.held) (hother : call.handle? ≠ some holding.handle) :
    ledger.Untouched (ledger.next (.call call)) holding := by
  obtain ⟨hkept, hfloor⟩ := hturn.keeps hstacked hmem hother
  apply hstacked.untouched (hturn.stacked hstacked) hmem hkept
  · exact hturn.kept.pageLength?_eq _ (Cursor.page_le hfloor)
  · intro i hi
    rw [Header.mem_bytes] at hi
    refine hturn.kept.byte?_eq _ (lt_of_lt_of_le ?_ hfloor)
    exact Or.inr ⟨rfl, hi.2⟩

theorem handle?_of_overwritten? {handle : Handle} (hwritten : call.overwritten? = some handle) :
    call.handle? = some handle := by
  cases call <;> cases hwritten
  rfl

theorem Writes.untouched (hwrites : ledger.Writes call other) (hstacked : ledger.Stacked)
    (hmem : holding ∈ ledger.held) (hother : call.handle? ≠ some holding.handle) :
    ledger.Untouched (ledger.next (.call call)) holding := by
  have hne : holding ≠ other := by
    rintro rfl
    exact hother (handle?_of_overwritten? hwrites.operand)
  have hafter := hwrites.stacked hstacked
  obtain ⟨position, data, hnext⟩ := hwrites.next_eq
  rw [hnext] at hafter ⊢
  apply hstacked.untouched hafter hmem hmem (pageLength?_store _)
  intro i hi
  apply byte?_store
  intro hpage
  exact hstacked.notMem_other hmem hwrites.mem hne hpage hi

end Isolation

section Reachable

variable {σ α : Type} {supply : Supply} {inlinePage : Nat} {settings : ArenaSettings} {state : σ}
  {start : Arena} {ledger : Ledger} {call : Call α} {holding : Holding}

/-- A well-behaved call leaves every live allocation alone but the one it is made with, whether it
fails or replies with a value, and whatever pages it adds. -/
theorem reachable_isolated (hcreated : (create supply inlinePage settings state).reply = .ok start)
    (hreachable : Reachable start ledger) (hallows : ledger.Allows (.call call))
    (hmem : holding ∈ ledger.held) (hother : call.handle? ≠ some holding.handle) :
    ledger.Untouched (ledger.next (.call call)) holding := by
  obtain ⟨_, rfl⟩ := reply_create_eq_ok_iff.mp hcreated
  have hstacked := hreachable.stacked (stacked_fresh supply inlinePage settings)
  obtain ⟨_, _, _, _, hturn⟩ | ⟨_, hwrites⟩ := exists_turn hstacked hallows
  · exact hturn.untouched hstacked hmem hother
  · exact hwrites.untouched hstacked hmem hother

/-- An allocation moves to a page that is added in front of one that a scope left behind. The one
before it stays. -/
theorem reachable_isolated_of_inserted_page :
    let start := fresh Supply.ample 128 ⟨"scratch", 64, none, true⟩
    let second := (next ⟨start, [], []⟩ (.call (.alloc 16))).next (.call (.alloc 16))
    let filled := second.next (.call (.overwrite ⟨0, 32⟩ 4 ⟨#[7, 8, 9]⟩))
    let ended := ((filled.next .enter).next (.call (.alloc 64))).next .leave
    let moved := ended.next (.call (.realloc ⟨0, 80⟩ 100))
    let first : Holding := ⟨⟨0, 32⟩, ⟨0, 16, 16, 32⟩⟩
    ended.arena.addedPages.map ByteArray.size = [111] ∧
      moved.arena.addedPages.map ByteArray.size = [147, 111] ∧
      moved.held.map Holding.handle = [⟨1, 32⟩, ⟨0, 32⟩] ∧ ended.Untouched moved first := by
  intro start second filled ended moved first
  have hcreated : (create Supply.ample 128 ⟨"scratch", 64, none, true⟩ ()).reply = .ok start :=
    reply_create_eq_ok_iff.mpr ⟨by decide, rfl⟩
  have hsecond : Reachable start second :=
    (Reachable.start.step (.call (.alloc 16)) ⟨by decide, nofun, nofun⟩).step
      (.call (.alloc 16)) ⟨by decide, nofun, nofun⟩
  have hfilled : Reachable start filled :=
    hsecond.step _ ⟨nofun, nofun, by rintro handle ⟨⟩; decide +kernel⟩
  have hended : Reachable start ended :=
    ((hfilled.step .enter trivial).step (.call (.alloc 64)) ⟨by decide, nofun, nofun⟩).step
      .leave (List.cons_ne_nil _ _)
  have hallows : ended.Allows (.call (.realloc ⟨0, 80⟩ 100)) :=
    ⟨nofun, by rintro handle ⟨⟩; decide +kernel, nofun⟩
  have hmem : first ∈ ended.held := by decide +kernel
  refine ⟨by decide +kernel, by decide +kernel, by decide +kernel, ?_⟩
  exact reachable_isolated hcreated hended hallows hmem (by decide)

end Reachable

end Ledger

end Arena

end HandleAlloc
