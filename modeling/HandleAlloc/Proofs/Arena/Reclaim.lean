import HandleAlloc.Proofs.Arena.Discipline
/-!
# Taking back in bulk

The end of a scope sets the cursor back, and that is all it does. It is enough: nothing that is done
through the scope reaches below the cursor it was opened at (`Sheltered`), so the arena is left as if
the scope had not been, but for spare pages and for bytes above the cursor, and every handle issued
inside is rejected (`Reclaimed`).

Handles that are taken back so stay rejected only until the cursor gets past them again (`Spares`):
nothing wipes their headers.
-/

namespace HandleAlloc

namespace Arena

theorem header?_eq_none {arena : Arena} {handle : Handle}
    (hle : arena.cursor ≤ handle.position)
    (hbytes : arena.cursor < handle.position ∨ arena.validate = true) :
    arena.header? handle = none := by
  rw [Option.eq_none_iff_forall_ne_some]
  intro header hheader
  obtain ⟨hdecoded, hstop⟩ := header?_eq_some_iff.mp hheader
  obtain hlt | hvalidate := hbytes
  · exact not_le_of_gt (lt_of_lt_of_le hlt (handle.position_le_stop header)) hstop
  · obtain ⟨page, _, hread⟩ := decoded?_eq_some_iff.mp hdecoded
    have hgenuine := Header.isGenuine_iff.mp (Header.isGenuine_of_read? hread hvalidate)
    have hsize := hgenuine.2.1
    have hle := Cursor.le_iff.mp (le_trans hstop hle)
    simp only [Handle.stop, Handle.position] at hle
    omega

def Step.overwritten? : Step → Option Handle
  | .call made => made.overwritten?
  | .enter | .leave | .reset | .supply _ => none

namespace Ledger

/-- What happens in a scope that is opened on a ledger, while the scope is open: well-behaved steps,
of which those that end a scope end one opened inside, and those that write to an allocation write to
one issued inside. The handles issued inside are listed, whether their allocations still live or not. -/
inductive Inside (outer : Ledger) : Ledger → List Handle → Prop where
  | opened : Inside outer (outer.next .enter) []
  | step {ledger : Ledger} {issued : List Handle} (hinside : Inside outer ledger issued)
    (step : Step) (hallows : ledger.Allows step)
    (hdeeper : step = .leave → outer.outer.length + 1 < ledger.outer.length)
    (hown : ∀ handle ∈ step.overwritten?, handle ∈ issued) :
    Inside outer (ledger.next step) ((ledger.issued? step).toList ++ issued)

theorem Inside.step_eq {outer ledger : Ledger} {issued handles : List Handle}
    (hinside : Inside outer ledger issued) (step : Step) (hallows : ledger.Allows step)
    (hdeeper : step = .leave → outer.outer.length + 1 < ledger.outer.length)
    (hown : ∀ handle ∈ step.overwritten?, handle ∈ issued)
    (hhandles : (ledger.issued? step).toList ++ issued = handles) :
    Inside outer (ledger.next step) handles :=
  hhandles ▸ hinside.step step hallows hdeeper hown

/-- What holds inside a scope: the scopes around it and everything below the cursor it was opened at
are as they were, and what was issued inside lies behind that. -/
structure Sheltered (outer ledger : Ledger) (issued : List Handle) : Prop where
  stacked : ledger.Stacked
  frames : ∃ inner, ledger.outer = inner ++ ⟨outer.arena.cursor, outer.live⟩ :: outer.outer
  kept : Kept outer.arena.cursor outer.arena ledger.arena
  beyond : ∀ handle ∈ issued, outer.arena.cursor < handle.position

section Inside

variable {α : Type} {outer ledger : Ledger} {issued : List Handle} {call : Call α} {step : Step}
  {floor : Cursor} {lost rest : List Holding} {gained : Option Holding} {holding : Holding}

theorem Sheltered.cursor_le_base (hsheltered : outer.Sheltered ledger issued) :
    outer.arena.cursor ≤ base ledger.outer := by
  obtain ⟨inner, hframes⟩ := hsheltered.frames
  have hmem : ⟨outer.arena.cursor, outer.live⟩ ∈ ledger.outer := by
    rw [hframes]
    exact List.mem_append_right _ List.mem_cons_self
  exact hsheltered.stacked.frames.snapshot_le hmem

theorem Sheltered.turn (hsheltered : outer.Sheltered ledger issued)
    (hturn : ledger.Turn call floor lost rest gained) :
    outer.Sheltered (ledger.next (.call call))
      ((ledger.issued? (.call call)).toList ++ issued) where
  stacked := hturn.stacked hsheltered.stacked
  frames := hsheltered.frames
  kept := by
    have hle := le_trans hsheltered.cursor_le_base hturn.base_le
    exact hsheltered.kept.trans (hturn.kept.mono hle)
  beyond := by
    intro handle hmem
    obtain hnew | hold := List.mem_append.mp hmem
    · rw [hturn.issued, Option.mem_toList] at hnew
      obtain ⟨holding, hgained, rfl⟩ := Option.map_eq_some_iff.mp hnew
      have hlisted := Option.mem_toList.mpr hgained
      have hstart := hturn.stack.base_le_start hlisted
      have hposition := (hturn.stack.proper hlisted).start_lt_position
      have hfloor := le_trans hsheltered.cursor_le_base hturn.base_le
      exact lt_of_le_of_lt (le_trans hfloor hstart) hposition
    · exact hsheltered.beyond handle hold

theorem Sheltered.writes (hsheltered : outer.Sheltered ledger issued)
    (hwrites : ledger.Writes call holding) (hown : holding.handle ∈ issued) :
    outer.Sheltered (ledger.next (.call call))
      ((ledger.issued? (.call call)).toList ++ issued) where
  stacked := hwrites.stacked hsheltered.stacked
  frames := hsheltered.frames
  kept := by
    obtain ⟨position, data, hnext⟩ := hwrites.next_eq
    rw [hnext]
    exact hsheltered.kept.trans (store_kept (le_of_lt (hsheltered.beyond _ hown)))
  beyond := by
    rw [hwrites.issued]
    exact hsheltered.beyond

theorem Sheltered.next (hsheltered : outer.Sheltered ledger issued) (hallows : ledger.Allows step)
    (hdeeper : step = .leave → outer.outer.length + 1 < ledger.outer.length)
    (hown : ∀ handle ∈ step.overwritten?, handle ∈ issued) :
    outer.Sheltered (ledger.next step) ((ledger.issued? step).toList ++ issued) := by
  obtain ⟨inner, hframes⟩ := hsheltered.frames
  cases step with
  | call call =>
    obtain ⟨_, _, _, _, hturn⟩ | ⟨holding, hwrites⟩ := exists_turn hsheltered.stacked hallows
    · exact hsheltered.turn hturn
    · exact hsheltered.writes hwrites (hown _ hwrites.operand)
  | enter =>
    refine ⟨hsheltered.stacked.next hallows, ?_, hsheltered.kept, hsheltered.beyond⟩
    rw [next_enter]
    exact ⟨⟨ledger.arena.cursor, ledger.live⟩ :: inner, by rw [hframes, List.cons_append]⟩
  | leave =>
    have hlong := hdeeper rfl
    cases inner with
    | nil =>
      rw [hframes, List.nil_append, List.length_cons] at hlong
      exact absurd hlong (Nat.lt_irrefl _)
    | cons frame inner =>
      have hnext := next_leave (by rw [hframes, List.cons_append])
      refine ⟨hsheltered.stacked.next hallows, ?_, ?_, hsheltered.beyond⟩
      · rw [hnext]
        exact ⟨inner, rfl⟩
      · rw [hnext]
        exact hsheltered.kept.withCursor _
  | reset =>
    have hnone : ledger.outer = [] := hallows
    rw [hnone] at hframes
    simp at hframes
  | supply supply =>
    refine ⟨hsheltered.stacked.next hallows, ⟨inner, hframes⟩, ?_, hsheltered.beyond⟩
    exact hsheltered.kept.withSupply supply

theorem Inside.sheltered (hinside : Inside outer ledger issued) (houter : outer.Stacked) :
    outer.Sheltered ledger issued := by
  induction hinside with
  | opened =>
    refine ⟨houter.next trivial, ⟨[], ?_⟩, ?_, nofun⟩
    · rw [next_enter, List.nil_append]
    · rw [next_enter]
      exact .refl _ _
  | step _ step hallows hdeeper hown ih => exact ih.next hallows hdeeper hown

/-- What the end of a scope does, that was opened on `outer` and in which `issued` were issued. -/
structure Reclaimed (outer after : Ledger) (issued : List Handle) : Prop where
  /-- The cursor is where it was, -/
  cursor_eq : after.arena.cursor = outer.arena.cursor
  /-- the same allocations live, in the same scopes, -/
  live_eq : after.live = outer.live
  outer_eq : after.outer = outer.outer
  /-- there are as many pages, or more behind the others, -/
  pageCount_le : outer.arena.pageCount ≤ after.arena.pageCount
  pageLength?_eq : ∀ index ≤ outer.arena.cursor.page,
    after.arena.pageLength? index = outer.arena.pageLength? index
  /-- and every byte before the cursor is as it was: -/
  byte?_eq : ∀ position < outer.arena.cursor,
    after.arena.byte? position = outer.arena.byte? position
  /-- the headers and the contents of the allocations. -/
  header?_eq : ∀ holding ∈ outer.held,
    after.arena.header? holding.handle = some holding.header
  bytes_eq : ∀ holding ∈ outer.held,
    (after.perform (.bytes holding.handle)).reply = (outer.perform (.bytes holding.handle)).reply
  /-- No call accepts a handle issued inside. -/
  rejected : ∀ handle ∈ issued, ∀ {α : Type} (call : Call α), call.handle? = some handle →
    (after.perform call).reply = .error (.invalidHandle after.arena.name handle)

theorem Sheltered.outer_eq (hsheltered : outer.Sheltered ledger issued)
    (hlength : ledger.outer.length = outer.outer.length + 1) :
    ledger.outer = ⟨outer.arena.cursor, outer.live⟩ :: outer.outer := by
  obtain ⟨inner, hframes⟩ := hsheltered.frames
  have hinner : inner = [] := by
    rw [hframes, List.length_append, List.length_cons] at hlength
    exact List.eq_nil_of_length_eq_zero (by omega)
  rw [hframes, hinner, List.nil_append]

theorem reply_of_header?_eq_none {handle : Handle} (hnone : ledger.arena.header? handle = none)
    (hhandle : call.handle? = some handle) :
    (ledger.perform call).reply = .error (.invalidHandle ledger.arena.name handle) := by
  rw [perform_eq, run_of_header?_eq_none hhandle hnone]
  rfl

theorem reply_bytes (hstacked : ledger.Stacked) (hmem : holding ∈ ledger.held) :
    (ledger.perform (.bytes holding.handle)).reply =
      .ok (load ⟨holding.handle.page, holding.handle.offset, holding.header.size⟩ ledger.arena) := by
  rw [perform_eq, call_bytes_run (hstacked.header?_eq hmem)]

/-- The end of a scope takes back exactly what was allocated through it. -/
theorem Sheltered.reclaimed (hsheltered : outer.Sheltered ledger issued) (houter : outer.Stacked)
    (hlength : ledger.outer.length = outer.outer.length + 1) :
    outer.Reclaimed (ledger.next .leave) issued := by
  have hnext := next_leave (hsheltered.outer_eq hlength)
  have hafter : (ledger.next .leave).Stacked := by
    apply hsheltered.stacked.next
    intro hnone
    rw [hnone] at hlength
    contradiction
  have hkept : Kept outer.arena.cursor outer.arena (ledger.next .leave).arena := by
    rw [hnext]
    exact hsheltered.kept.withCursor _
  have hcursor : (ledger.next .leave).arena.cursor = outer.arena.cursor := by rw [hnext]
  have hheld : (ledger.next .leave).held = outer.held := by rw [hnext, held, held]
  refine ⟨hcursor, by rw [hnext], by rw [hnext], hkept.pageCount_le, hkept.pageLength?_eq,
    hkept.byte?_eq, ?_, ?_, ?_⟩
  · intro holding hmem
    exact hafter.header?_eq (hheld ▸ hmem)
  · intro holding hmem
    rw [reply_bytes hafter (hheld ▸ hmem), reply_bytes houter hmem]
    exact congrArg Reply.ok (hkept.load_eq (houter.whole.stop_le hmem))
  · intro handle hmem α call hhandle
    apply reply_of_header?_eq_none _ hhandle
    have hbeyond := hcursor ▸ hsheltered.beyond handle hmem
    exact header?_eq_none (le_of_lt hbeyond) (Or.inl hbeyond)

end Inside

section Scope

variable {σ : Type} {supply : Supply} {inlinePage : Nat} {settings : ArenaSettings} {state : σ}
  {start : Arena} {outer ledger : Ledger} {issued : List Handle}

/-- A scope that is opened on an arena that was used in a well-behaved way has the cursor as its
snapshot as long as it is open, and when it ends, the arena is what it was when the scope began. -/
theorem leave_reclaims (hcreated : (create supply inlinePage settings state).reply = .ok start)
    (hreachable : Reachable start outer) (hinside : Inside outer ledger issued)
    (hlength : ledger.outer.length = outer.outer.length + 1) :
    ledger.outer.head?.map Frame.snapshot = some outer.arena.cursor ∧
      outer.Reclaimed (ledger.next .leave) issued := by
  obtain ⟨_, rfl⟩ := reply_create_eq_ok_iff.mp hcreated
  have houter := hreachable.stacked (stacked_fresh supply inlinePage settings)
  have hsheltered := hinside.sheltered houter
  refine ⟨?_, hsheltered.reclaimed houter hlength⟩
  rw [hsheltered.outer_eq hlength, List.head?_cons, Option.map_some]

/-- A scope in which an allocation is written to, and another one is made in a scope of its own, on an
added page. -/
theorem leave_reclaims_of_nested :
    let start := fresh Supply.ample 128 ⟨"scratch", 64, none, false⟩
    let outer := next ⟨start, [], []⟩ (.call (.alloc 16))
    let first := (outer.next .enter).next (.call (.alloc 16))
    let second := (first.next .enter).next (.call (.alloc 64))
    let last := (second.next .leave).next (.call (.overwrite ⟨0, 80⟩ 0 ⟨#[1, 2]⟩))
    Inside outer last [⟨1, 32⟩, ⟨0, 80⟩] ∧
      last.outer.head?.map Frame.snapshot = some outer.arena.cursor ∧
      outer.Reclaimed (last.next .leave) [⟨1, 32⟩, ⟨0, 80⟩] := by
  intro start outer first second last
  have hcreated : (create Supply.ample 128 ⟨"scratch", 64, none, false⟩ ()).reply = .ok start :=
    reply_create_eq_ok_iff.mpr ⟨by decide, rfl⟩
  have houter : Reachable start outer :=
    Reachable.start.step (.call (.alloc 16)) ⟨by decide, nofun, nofun⟩
  have hfirst : Inside outer first [⟨0, 80⟩] :=
    Inside.opened.step_eq (.call (.alloc 16)) ⟨by decide, nofun, nofun⟩ nofun nofun
      (by decide +kernel)
  have hsecond : Inside outer second [⟨1, 32⟩, ⟨0, 80⟩] :=
    (hfirst.step .enter trivial nofun nofun).step_eq (.call (.alloc 64))
      ⟨by decide, nofun, nofun⟩ nofun nofun (by decide +kernel)
  have hended : Inside outer (second.next .leave) [⟨1, 32⟩, ⟨0, 80⟩] :=
    hsecond.step .leave (List.cons_ne_nil _ _) (fun _ => by decide +kernel) nofun
  have hlast : Inside outer last [⟨1, 32⟩, ⟨0, 80⟩] :=
    hended.step_eq (.call (.overwrite ⟨0, 80⟩ 0 ⟨#[1, 2]⟩))
      ⟨nofun, nofun, by rintro handle ⟨⟩; decide +kernel⟩ nofun
      (by rintro handle ⟨⟩; decide) (by decide +kernel)
  exact ⟨hlast, leave_reclaims hcreated houter hlast (by decide +kernel)⟩

end Scope

/-! ## Stale handles -/

/-- Well-behaved steps of which none issues an allocation that ends past a position. -/
inductive Spares (position : Cursor) (first : Ledger) : Ledger → Prop where
  | refl : Spares position first first
  | step {ledger : Ledger} (hspares : Spares position first ledger) (step : Step)
    (hallows : ledger.Allows step)
    (hissued : ∀ handle ∈ ledger.issued? step, ∀ header,
      (ledger.next step).arena.header? handle = some header → handle.stop header ≤ position) :
    Spares position first (ledger.next step)

section Stale

variable {σ α : Type} {supply : Supply} {inlinePage : Nat} {settings : ArenaSettings} {state : σ}
  {start : Arena} {ledger first later : Ledger} {step : Step} {call : Call α} {holding : Holding}
  {position floor : Cursor} {lost rest : List Holding} {gained : Option Holding}

theorem validate_next (hstacked : ledger.Stacked) (hallows : ledger.Allows step) :
    (ledger.next step).arena.validate = ledger.arena.validate := by
  cases step with
  | call call =>
    obtain ⟨_, _, _, _, hturn⟩ | ⟨_, hwrites⟩ := exists_turn hstacked hallows
    · exact hturn.kept.validate_eq
    · obtain ⟨_, _, hnext⟩ := hwrites.next_eq
      rw [hnext]
      exact validate_store
  | enter => rfl
  | leave =>
    obtain ⟨frame, outer, houter⟩ := List.exists_cons_of_ne_nil hallows
    rw [next_leave houter]
  | reset | supply => rfl

theorem Reachable.validate_eq (hreachable : Reachable start ledger)
    (hstart : Stacked ⟨start, [], []⟩) : ledger.arena.validate = start.validate := by
  induction hreachable with
  | start => rfl
  | step hreachable _ hallows ih =>
    exact (validate_next (hreachable.stacked hstart) hallows).trans ih

theorem cursor_leave (houter : ledger.outer ≠ []) :
    (ledger.next .leave).arena.cursor = base ledger.outer := by
  obtain ⟨frame, outer, houter⟩ := List.exists_cons_of_ne_nil houter
  rw [next_leave houter, houter, base]

theorem cursor_next_le_start (hstacked : ledger.Stacked) (hallows : ledger.Allows step)
    (hends : step = .leave ∨ step = .reset) (hmem : holding ∈ ledger.held)
    (hreclaimed : holding ∉ (ledger.next step).held) :
    (ledger.next step).arena.cursor ≤ holding.start := by
  obtain rfl | rfl := hends
  · obtain ⟨frame, outer, houter⟩ := List.exists_cons_of_ne_nil hallows
    rw [next_leave houter] at hreclaimed
    have hlive : holding ∈ ledger.live := by
      rw [held, houter] at hmem
      exact (List.mem_append.mp hmem).resolve_right hreclaimed
    rw [cursor_leave hallows]
    exact hstacked.stack.base_le_start hlive
  · exact Cursor.start_le _

theorem Turn.cursor_le (hturn : ledger.Turn call floor lost rest gained)
    (hle : ledger.arena.cursor ≤ position)
    (hissued : ∀ handle ∈ ledger.issued? (.call call), ∀ header,
      (ledger.next (.call call)).arena.header? handle = some header →
        handle.stop header ≤ position) :
    (ledger.next (.call call)).arena.cursor ≤ position := by
  cases gained with
  | none =>
    rw [hturn.cursor_eq, Option.elim_none]
    exact le_trans hturn.floor_le hle
  | some holding =>
    have hcursor : (ledger.next (.call call)).arena.cursor = holding.stop := hturn.cursor_eq
    rw [hcursor]
    refine hissued holding.handle hturn.issued holding.header ?_
    exact header?_eq_some_iff.mpr ⟨hturn.decoded holding rfl, le_of_eq hcursor.symm⟩

theorem cursor_next_le (hstacked : ledger.Stacked) (hallows : ledger.Allows step)
    (hle : ledger.arena.cursor ≤ position)
    (hissued : ∀ handle ∈ ledger.issued? step, ∀ header,
      (ledger.next step).arena.header? handle = some header → handle.stop header ≤ position) :
    (ledger.next step).arena.cursor ≤ position := by
  cases step with
  | call call =>
    obtain ⟨_, _, _, _, hturn⟩ | ⟨_, hwrites⟩ := exists_turn hstacked hallows
    · exact hturn.cursor_le hle hissued
    · obtain ⟨_, _, hnext⟩ := hwrites.next_eq
      rw [hnext, cursor_store]
      exact hle
  | enter => exact hle
  | leave =>
    rw [cursor_leave hallows]
    exact le_trans hstacked.stack.base_le hle
  | reset => exact Cursor.start_le _
  | supply => exact hle

theorem Spares.cursor_le (hspares : Spares position first later) (hstacked : first.Stacked)
    (hle : first.arena.cursor ≤ position) :
    later.Stacked ∧ later.arena.validate = first.arena.validate ∧
      later.arena.cursor ≤ position := by
  induction hspares with
  | refl => exact ⟨hstacked, rfl, hle⟩
  | step _ step hallows hissued ih =>
    obtain ⟨hstacked, hvalidate, hle⟩ := ih
    exact ⟨hstacked.next hallows, (validate_next hstacked hallows).trans hvalidate,
      cursor_next_le hstacked hallows hle hissued⟩

/-- What the end of a scope or a reset has taken back is rejected by every call, until an allocation
is issued that ends past its handle. -/
theorem reclaimed_rejected
    (hcreated : (create supply inlinePage settings state).reply = .ok start)
    (hvalidate : settings.validateHeaders = true) (hreachable : Reachable start ledger)
    (hallows : ledger.Allows step) (hends : step = .leave ∨ step = .reset)
    (hmem : holding ∈ ledger.held) (hreclaimed : holding ∉ (ledger.next step).held)
    (hspares : Spares holding.handle.position (ledger.next step) later)
    (hhandle : call.handle? = some holding.handle) :
    (later.perform call).reply = .error (.invalidHandle later.arena.name holding.handle) := by
  obtain ⟨_, rfl⟩ := reply_create_eq_ok_iff.mp hcreated
  have hfresh := stacked_fresh supply inlinePage settings
  have hstacked := hreachable.stacked hfresh
  have hstart := cursor_next_le_start hstacked hallows hends hmem hreclaimed
  have hposition := (hstacked.proper hmem).start_lt_position
  obtain ⟨_, hsame, hle⟩ := hspares.cursor_le (hstacked.next hallows)
    (le_of_lt (lt_of_le_of_lt hstart hposition))
  apply reply_of_header?_eq_none _ hhandle
  apply header?_eq_none hle (Or.inr _)
  rw [hsame, validate_next hstacked hallows, hreachable.validate_eq hfresh]
  exact hvalidate

/-- A reset takes two allocations back, and a larger one is placed over the first of them. -/
theorem reclaimed_rejected_of_reset :
    let start := fresh Supply.ample 256 ⟨"persistent", 64, none, true⟩
    let second := (next ⟨start, [], []⟩ (.call (.alloc 16))).next (.call (.alloc 16))
    let later := (second.next .reset).next (.call (.alloc 24))
    (second.held.map Holding.handle).head? = some ⟨0, 80⟩ ∧ later.arena.cursor = ⟨0, 56⟩ ∧
      (later.perform (.header ⟨0, 80⟩)).reply =
        .error (.invalidHandle later.arena.name ⟨0, 80⟩) := by
  intro start second later
  have hcreated : (create Supply.ample 256 ⟨"persistent", 64, none, true⟩ ()).reply = .ok start :=
    reply_create_eq_ok_iff.mpr ⟨by decide, rfl⟩
  have hsecond : Reachable start second :=
    (Reachable.start.step (.call (.alloc 16)) ⟨by decide, nofun, nofun⟩).step
      (.call (.alloc 16)) ⟨by decide, nofun, nofun⟩
  have hmem : ⟨⟨0, 80⟩, ⟨48, 16, 16, 80⟩⟩ ∈ second.held := by decide +kernel
  have hreclaimed : ⟨⟨0, 80⟩, ⟨48, 16, 16, 80⟩⟩ ∉ (second.next .reset).held := by decide +kernel
  have hissued : (second.next .reset).issued? (.call (.alloc 24)) = some ⟨0, 32⟩ := by
    decide +kernel
  have hheader : later.arena.header? ⟨0, 32⟩ = some ⟨0, 24, 16, 32⟩ := by decide +kernel
  have hspares : Spares ⟨0, 80⟩ (second.next .reset) later := by
    apply Spares.refl.step (.call (.alloc 24)) ⟨by decide, nofun, nofun⟩
    intro handle hhandle header hread
    obtain rfl := Option.some.inj (hissued.symm.trans hhandle)
    obtain rfl := Option.some.inj (hheader.symm.trans hread)
    exact Or.inr ⟨rfl, by decide⟩
  have hreset : second.Allows .reset := rfl
  have hhandle : (Call.header ⟨0, 80⟩).handle? = some ⟨0, 80⟩ := rfl
  refine ⟨by decide +kernel, by decide +kernel, ?_⟩
  exact reclaimed_rejected hcreated rfl hsecond hreset (Or.inr rfl) hmem hreclaimed hspares hhandle

/-- It is not so afterwards. Past the handle of an allocation that a reset took back the header that
was written for it still stands, and is accepted. -/
theorem stale_handle_accepted :
    let start := fresh Supply.ample 256 ⟨"persistent", 64, none, true⟩
    let second := (next ⟨start, [], []⟩ (.call (.alloc 16))).next (.call (.alloc 16))
    let later := (second.next .reset).next (.call (.alloc 100))
    Reachable start later ∧ ⟨0, 80⟩ ∈ second.held.map Holding.handle ∧
      (second.next .reset).held.map Holding.handle = [] ∧
      later.held.map Holding.handle = [⟨0, 32⟩] ∧
      (later.perform (.header ⟨0, 80⟩)).reply = .ok ⟨48, 16, 16, 80⟩ := by
  intro start second later
  have hlater : Reachable start later :=
    (((Reachable.start.step (.call (.alloc 16)) ⟨by decide, nofun, nofun⟩).step
      (.call (.alloc 16)) ⟨by decide, nofun, nofun⟩).step .reset rfl).step
      (.call (.alloc 100)) ⟨by decide, nofun, nofun⟩
  exact ⟨hlater, by decide +kernel, by decide +kernel, by decide +kernel, by decide +kernel⟩

end Stale

end Ledger

end Arena

end HandleAlloc
