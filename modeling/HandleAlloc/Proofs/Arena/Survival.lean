import HandleAlloc.Proofs.Arena.Session
/-!
# What outlives a scope

A scope hands every call on to its arena, so an allocation from before the scope can be resized and
freed through it. A `Register` keeps the live allocations of a session in one list, whichever scope
they were made through. An allocation that is resized through a scope outlives it if it ends at or
before the cursor that the scope returns to (`Register.leave_spares`); one that has grown or moved past
that cursor is taken back with the scope, and bytes that it gave up in between are lost.
-/

namespace HandleAlloc

namespace Arena

open HandleAlloc.Action

section Resize

variable {arena : Arena} {handle : Handle} {old : Header} {newSize : Nat}

theorem byte?_withHeader {i : Nat} (hoffset : headerSize ≤ handle.offset)
    (houtside : i ∉ interval (handle.offset - headerSize) handle.offset) :
    (arena.withHeader handle old).byte? ⟨handle.page, i⟩ = arena.byte? ⟨handle.page, i⟩ :=
  byte?_updatePage fun _ _ => Header.getElem?_store_of_notMem hoffset houtside

theorem load_resized (hserves : old.Serves handle.offset old.size old.alignment) (size : Nat) :
    load ⟨handle.page, handle.offset, size⟩ (arena.resized handle old newSize) =
      load ⟨handle.page, handle.offset, size⟩ arena := by
  have hstart := hserves.start_le
  apply load_congr (pageLength?_resized _)
  intro i hi
  apply byte?_withHeader (by omega)
  rw [mem_interval] at hi ⊢
  exact fun hheader => Nat.not_le_of_lt hheader.2 hi.1

theorem realloc_place (hsound : arena.Sound) (handle : Handle) (newSize : Nat)
    (hserves : ∀ old, arena.header? handle = some old →
      old.Serves handle.offset old.size old.alignment) :
    (realloc handle newSize arena).Settles arena fun moved after =>
      moved.page = arena.cursor.page + 1 ∨ moved = handle ∧ ∀ size,
        load ⟨handle.page, handle.offset, size⟩ after =
          load ⟨handle.page, handle.offset, size⟩ arena := by
  apply (realloc_cases_of_serves hsound handle newSize hserves).imp
  intro moved after hreallocates
  cases hreallocates with
  | same => exact Or.inr ⟨rfl, fun _ => rfl⟩
  | resized htop => exact Or.inr ⟨rfl, load_resized (hserves _ htop.header?_eq)⟩
  | relocated => exact Or.inl rfl

end Resize

/-- A session and the allocations that are live in it, whichever scope they were made through. -/
structure Register where
  session : Session
  live : List Holding

namespace Register

/-- Brings a register forward by a step. What ends past the cursor that a scope returns to is not live
any more. -/
def next (register : Register) : Step → Register
  | .call call =>
    let outcome := register.session.perform call
    ⟨register.session.next (.call call), match outcome.reply with
      | .ok value => Ledger.settle register.live outcome.state call value
      | .error _ | .trap => register.live⟩
  | .enter => { register with session := register.session.next .enter }
  | .leave =>
    let after := register.session.next .leave
    ⟨after, register.live.filter (·.stop ≤ after.arena.cursor)⟩
  | .reset => ⟨register.session.next .reset, []⟩
  | .supply supply => { register with session := register.session.next (.supply supply) }

/-- A step is well-behaved if it resizes, frees and writes to live allocations only, and ends a scope
only if one is open, and resets the arena only if none is. -/
def Allows (register : Register) : Step → Prop
  | .call call =>
    (∀ request ∈ call.request?, request.2 < wordSize) ∧
      (∀ handle ∈ call.taken?, handle ∈ register.live.map Holding.handle) ∧
      ∀ handle ∈ call.overwritten?, handle ∈ register.live.map Holding.handle
  | .enter => True
  | .leave => register.session.snapshots ≠ []
  | .reset => register.session.snapshots = []
  | .supply _ => True

inductive Reachable (start : Arena) : Register → Prop where
  | start : Reachable start ⟨⟨start, []⟩, []⟩
  | step {register : Register} (hreachable : Reachable start register) (step : Step)
    (hallows : register.Allows step) : Reachable start (register.next step)

/-- Live allocations are apart from each other and end at or before the cursor. -/
structure Orderly (settings : ArenaSettings) (register : Register) : Prop where
  moored : register.session.Moored settings
  decoded : ∀ holding ∈ register.live,
    register.session.arena.decoded? holding.handle = some holding.header
  proper : ∀ holding ∈ register.live, holding.Proper
  apart : register.live.Pairwise Holding.Apart
  stop_le : ∀ holding ∈ register.live, holding.stop ≤ register.session.arena.cursor

/-- What a call does that does not write to an allocation: of the live allocations, those that end at
`floor` or before stay, and so does every byte before it; one is added above it, if any. -/
structure Turn {α : Type} (register : Register) (call : Call α) (floor : Cursor)
    (rest : List Holding) (gained : Option Holding) : Prop where
  sublist : rest.Sublist register.live
  others : ∀ holding ∈ register.live, holding ∈ rest ∨ call.taken? = some holding.handle
  live_eq : (register.next (.call call)).live = gained.toList ++ rest
  rest_le : ∀ holding ∈ rest, holding.stop ≤ floor
  floor_le : floor ≤ (register.next (.call call)).session.arena.cursor
  kept : Kept floor register.session.arena (register.next (.call call)).session.arena
  topmost : ∀ holding ∈ gained,
    (register.next (.call call)).session.arena.Topmost holding.handle holding.header
  proper : ∀ holding ∈ gained, holding.Proper
  floor_le_start : ∀ holding ∈ gained, floor ≤ holding.start

structure Writes {α : Type} (register : Register) (call : Call α) (holding : Holding) : Prop where
  mem : holding ∈ register.live
  operand : call.overwritten? = some holding.handle
  next_eq : ∃ position data, register.next (.call call) =
    { register with
      session.arena := store ⟨holding.handle.page, holding.handle.offset, holding.header.size⟩
        position data register.session.arena }

section Call

variable {α : Type} {settings : ArenaSettings} {register : Register} {call : Call α} {value : α}
  {after : Arena} {events : List Event} {holding other : Holding} {handle moved : Handle}
  {header old : Header} {floor : Cursor} {rest : List Holding} {gained : Option Holding}
  {size alignment : Nat} {fault : Fault}

theorem next_of_ok (hrun : call.run register.session.arena = ⟨.ok value, after, events⟩) :
    register.next (.call call) = ⟨{ register.session with arena := after },
      Ledger.settle register.live after call value⟩ := by
  simp only [next, Session.next, Session.perform_eq, hrun]

theorem next_of_failed
    (hrun : call.run register.session.arena = .failed fault register.session.arena) :
    register.next (.call call) = register := by
  simp only [next, Session.next, Session.perform_eq, hrun, Outcome.failed]

theorem Orderly.header?_eq (horderly : register.Orderly settings) (hmem : holding ∈ register.live) :
    register.session.arena.header? holding.handle = some holding.header :=
  header?_eq_some_iff.mpr ⟨horderly.decoded holding hmem, horderly.stop_le holding hmem⟩

theorem Orderly.serves (horderly : register.Orderly settings)
    (hmem : handle ∈ register.live.map Holding.handle)
    (hheader : register.session.arena.header? handle = some old) :
    old.Serves handle.offset old.size old.alignment := by
  obtain ⟨holding, hlisted, rfl⟩ := List.mem_map.mp hmem
  obtain rfl := Option.some.inj (hheader.symm.trans (horderly.header?_eq hlisted))
  exact horderly.proper holding hlisted

theorem Orderly.settles (horderly : register.Orderly settings)
    (hallows : register.Allows (.call call)) :
    (call.run register.session.arena).Settles register.session.arena
      (register.session.arena.Effect call) :=
  call_settles horderly.moored.valid.covers call hallows.1 fun handle hhandle _ =>
    horderly.serves (hallows.2.1 handle hhandle)

theorem next_of_error (horderly : register.Orderly settings)
    (hallows : register.Allows (.call call))
    (hfault : (register.session.perform call).reply = .error fault) :
    register.next (.call call) = register := by
  rw [Session.perform_eq] at hfault
  have hstate := (horderly.settles hallows).state_eq_of_error hfault
  simp only [next, Session.next, Session.perform_eq, hfault, hstate]

theorem Orderly.stop_le_start (horderly : register.Orderly settings)
    (hmem : holding ∈ register.live) (hstop : holding.stop = register.session.arena.cursor)
    (hother : other ∈ register.live) (hne : other ≠ holding) : other.stop ≤ holding.start := by
  obtain hbelow | habove := horderly.apart.forall hmem hother hne.symm
  · exact hbelow
  · have hlt := lt_of_le_of_lt habove (horderly.proper other hother).start_lt_stop
    exact absurd (horderly.stop_le other hother) (not_le_of_gt (hstop ▸ hlt))

theorem Orderly.untaken (horderly : register.Orderly settings)
    (hmem : handle ∈ register.live.map Holding.handle)
    (htop : register.session.arena.Topmost handle old) :
    Holding.Proper ⟨handle, old⟩ ∧
      ∀ other ∈ register.live.filter (·.handle ≠ handle), other.stop ≤ handle.start old := by
  obtain ⟨holding, hlisted, rfl⟩ := List.mem_map.mp hmem
  obtain rfl := Option.some.inj (htop.decoded.symm.trans (horderly.decoded holding hlisted))
  refine ⟨horderly.proper holding hlisted, ?_⟩
  intro other hother
  obtain ⟨hother, hne⟩ := List.mem_filter.mp hother
  apply horderly.stop_le_start hlisted htop.stop_eq hother
  rintro rfl
  exact of_decide_eq_true hne rfl

theorem others_of_taken (htaken : call.taken? = some handle) (holding : Holding)
    (hmem : holding ∈ register.live) : holding ∈ register.live.filter (·.handle ≠ handle) ∨
      call.taken? = some holding.handle := by
  by_cases hsame : holding.handle = handle
  · exact Or.inr (hsame ▸ htaken)
  · exact Or.inl (List.mem_filter.mpr ⟨hmem, decide_eq_true hsame⟩)

theorem turn_of_next_eq (horderly : register.Orderly settings)
    (hnext : register.next (.call call) = register) :
    register.Turn call register.session.arena.cursor register.live none where
  sublist := .refl _
  others _ := Or.inl
  live_eq := by rw [hnext, Option.toList_none, List.nil_append]
  rest_le := horderly.stop_le
  floor_le := by rw [hnext]
  kept := by
    rw [hnext]
    exact .refl _ _
  topmost := nofun
  proper := nofun
  floor_le_start := nofun

theorem turn_of_issued (hsublist : rest.Sublist register.live)
    (hothers : ∀ holding ∈ register.live, holding ∈ rest ∨ call.taken? = some holding.handle)
    (hrest : ∀ holding ∈ rest, holding.stop ≤ floor)
    (hrun : call.run register.session.arena = ⟨.ok value, after, events⟩)
    (hsettle : Ledger.settle register.live after call value =
      ⟨handle, after.written handle⟩ :: rest)
    (hissued : register.session.arena.Issued floor size alignment handle header after) :
    register.Turn call floor rest (some ⟨handle, header⟩) := by
  have hstack := Ledger.stack_of_issued hissued
  have hnext := next_of_ok hrun
  rw [hsettle, written_eq hissued.decoded] at hnext
  refine ⟨hsublist, hothers, by rw [hnext]; rfl, hrest, ?_, ?_, ?_, ?_, ?_⟩
  · rw [hnext]
    exact hstack.base_le
  · rw [hnext]
    exact hissued.kept
  · rw [hnext]
    rintro _ ⟨⟩
    exact ⟨hissued.decoded, hissued.cursor_eq.symm⟩
  · rintro _ ⟨⟩
    exact hstack.proper (List.mem_singleton_self _)
  · rintro _ ⟨⟩
    exact hstack.base_le_start (List.mem_singleton_self _)

theorem turn_of_freed (horderly : register.Orderly settings)
    (hmem : handle ∈ register.live.map Holding.handle)
    (htop : register.session.arena.Topmost handle old)
    (hrun : (Call.free handle).run register.session.arena =
      ⟨.ok (), register.session.arena.freed handle old, events⟩) :
    register.Turn (.free handle) (handle.start old) (register.live.filter (·.handle ≠ handle))
      none := by
  obtain ⟨hproper, hrest⟩ := horderly.untaken hmem htop
  have hnext := next_of_ok hrun
  refine ⟨List.filter_sublist, others_of_taken rfl, by rw [hnext]; rfl, hrest, ?_, ?_, nofun, nofun,
    nofun⟩
  · rw [hnext]
    exact le_refl _
  · rw [hnext]
    exact freed_kept hproper

/-- A well-behaved call is a turn or a write. -/
theorem Orderly.exists_turn (horderly : register.Orderly settings)
    (hallows : register.Allows (.call call)) :
    (∃ floor rest gained, register.Turn call floor rest gained) ∨
      ∃ holding, register.Writes call holding := by
  have hsettles := horderly.settles hallows
  obtain ⟨_, htaken, hwritten⟩ := hallows
  generalize hrun : call.run register.session.arena = outcome at hsettles
  cases hsettles with
  | failed fault => exact Or.inl ⟨_, _, _, turn_of_next_eq horderly (next_of_failed hrun)⟩
  | @done value after events heffect =>
    cases heffect with
    | issued hrequest hvalue hissued =>
      exact Or.inl ⟨_, _, _, turn_of_issued (.refl _) (fun _ => Or.inl) horderly.stop_le hrun
        (Ledger.settle_of_issued hrequest hvalue) hissued⟩
    | resized htop hissued =>
      obtain ⟨_, hrest⟩ := horderly.untaken (htaken _ rfl) htop
      exact Or.inl ⟨_, _, _, turn_of_issued List.filter_sublist (others_of_taken rfl) hrest hrun rfl
        hissued⟩
    | freed htop => exact Or.inl ⟨_, _, _, turn_of_freed horderly (htaken _ rfl) htop hrun⟩
    | @overwritten handle header position data fits hdecoded =>
      obtain ⟨holding, hmem, rfl⟩ := List.mem_map.mp (hwritten _ rfl)
      obtain rfl := Option.some.inj (hdecoded.symm.trans (horderly.decoded holding hmem))
      exact Or.inr ⟨holding, hmem, rfl, position, data, next_of_ok hrun⟩
    | observed hquery =>
      have hnext := next_of_ok hrun
      rw [Ledger.settle_of_isQuery hquery] at hnext
      exact Or.inl ⟨_, _, _, turn_of_next_eq horderly hnext⟩

theorem Turn.orderly (hturn : register.Turn call floor rest gained)
    (horderly : register.Orderly settings)
    (hmoored : (register.next (.call call)).session.Moored settings) :
    (register.next (.call call)).Orderly settings := by
  have hrest (holding : Holding) (hmem : holding ∈ rest) : holding ∈ register.live :=
    hturn.sublist.subset hmem
  refine ⟨hmoored, ?_, ?_, ?_, ?_⟩ <;> rw [hturn.live_eq]
  · intro holding hmem
    obtain hgained | hmem := List.mem_append.mp hmem
    · exact (hturn.topmost holding (Option.mem_toList.mp hgained)).decoded
    · have hposition := (horderly.proper holding (hrest holding hmem)).position_lt_stop
      rw [hturn.kept.decoded?_eq (le_trans (le_of_lt hposition) (hturn.rest_le holding hmem))]
      exact horderly.decoded holding (hrest holding hmem)
  · intro holding hmem
    obtain hgained | hmem := List.mem_append.mp hmem
    · exact hturn.proper holding (Option.mem_toList.mp hgained)
    · exact horderly.proper holding (hrest holding hmem)
  · refine List.pairwise_append.mpr ⟨?_, horderly.apart.sublist hturn.sublist, ?_⟩
    · cases gained <;> simp
    · intro holding hgained other hother
      exact Or.inl (le_trans (hturn.rest_le other hother)
        (hturn.floor_le_start holding (Option.mem_toList.mp hgained)))
  · intro holding hmem
    obtain hgained | hmem := List.mem_append.mp hmem
    · exact le_of_eq (hturn.topmost holding (Option.mem_toList.mp hgained)).stop_eq
    · exact le_trans (hturn.rest_le holding hmem) hturn.floor_le

theorem Writes.orderly (hwrites : register.Writes call holding)
    (horderly : register.Orderly settings)
    (hmoored : (register.next (.call call)).session.Moored settings) :
    (register.next (.call call)).Orderly settings := by
  obtain ⟨position, data, hnext⟩ := hwrites.next_eq
  rw [hnext] at hmoored ⊢
  refine ⟨hmoored, ?_, horderly.proper, horderly.apart, ?_⟩
  · intro other hother
    have houtside (hpage : other.handle.page = holding.handle.page) (i : Nat) :=
      (horderly.proper other hother).notMem_usable (horderly.proper holding hwrites.mem)
        (horderly.apart.forall hother hwrites.mem) hpage (i := i)
    rw [decoded?_store houtside]
    exact horderly.decoded other hother
  · intro other hother
    rw [cursor_store]
    exact horderly.stop_le other hother

theorem Turn.load_eq (hturn : register.Turn call floor rest gained) (hmem : holding ∈ rest)
    (hsize : size ≤ holding.header.size) :
    load ⟨holding.handle.page, holding.handle.offset, size⟩
        (register.next (.call call)).session.arena =
      load ⟨holding.handle.page, holding.handle.offset, size⟩ register.session.arena := by
  have hstop : (⟨holding.handle.page, holding.handle.offset + size⟩ : Cursor) ≤ holding.stop :=
    Or.inr ⟨rfl, Nat.add_le_add_left hsize _⟩
  exact hturn.kept.load_eq (le_trans hstop (hturn.rest_le holding hmem))

theorem Writes.next_live (hwrites : register.Writes call holding) :
    (register.next (.call call)).session.snapshots = register.session.snapshots ∧
      (register.next (.call call)).live = register.live := by
  obtain ⟨position, data, hnext⟩ := hwrites.next_eq
  rw [hnext]
  exact ⟨rfl, rfl⟩

theorem Writes.load_eq (hwrites : register.Writes call holding)
    (horderly : register.Orderly settings) (hmem : other ∈ register.live)
    (hother : call.overwritten? ≠ some other.handle) (hsize : size ≤ other.header.size) :
    load ⟨other.handle.page, other.handle.offset, size⟩
        (register.next (.call call)).session.arena =
      load ⟨other.handle.page, other.handle.offset, size⟩ register.session.arena := by
  have hne : other ≠ holding := by
    rintro rfl
    exact hother hwrites.operand
  have hstart := (horderly.proper other hmem).start_le
  obtain ⟨position, data, hnext⟩ := hwrites.next_eq
  rw [hnext]
  apply load_congr (pageLength?_store _)
  intro i hi
  apply byte?_store
  intro hpage
  apply (horderly.apart.forall hmem hwrites.mem hne).notMem_usable
    (horderly.proper holding hwrites.mem) hpage
  rw [mem_interval] at hi
  simp only at hi
  rw [Header.mem_bytes]
  simp only
  omega

end Call

/-! ## Every step -/

section Reachable

variable {settings : ArenaSettings} {start : Arena} {register : Register} {step : Step}

theorem Orderly.permits (horderly : register.Orderly settings) (hallows : register.Allows step) :
    register.session.Permits step := by
  cases step with
  | call call =>
    rw [Session.Permits, Session.perform_eq]
    exact (horderly.settles hallows).reply_ne_trap
  | enter | leave | reset | supply => exact hallows

theorem session_next (register : Register) (step : Step) :
    (register.next step).session = register.session.next step := by
  cases step <;> rfl

theorem Orderly.next (horderly : register.Orderly settings) (hallows : register.Allows step) :
    (register.next step).Orderly settings := by
  have hmoored : (register.next step).session.Moored settings := by
    rw [session_next]
    exact horderly.moored.next (horderly.permits hallows)
  cases step with
  | call call =>
    obtain ⟨_, _, _, hturn⟩ | ⟨_, hwrites⟩ := horderly.exists_turn hallows
    · exact hturn.orderly horderly hmoored
    · exact hwrites.orderly horderly hmoored
  | enter => exact { horderly with moored := hmoored }
  | leave =>
    obtain ⟨snapshot, snapshots, hsnapshots⟩ := List.exists_cons_of_ne_nil hallows
    simp only [Register.next, Session.next_leave hsnapshots] at hmoored ⊢
    refine ⟨hmoored, ?_, ?_, horderly.apart.sublist List.filter_sublist, ?_⟩
    · intro holding hmem
      exact horderly.decoded holding (List.mem_filter.mp hmem).1
    · intro holding hmem
      exact horderly.proper holding (List.mem_filter.mp hmem).1
    · intro holding hmem
      exact of_decide_eq_true (List.mem_filter.mp hmem).2
  | reset => exact ⟨hmoored, nofun, nofun, .nil, nofun⟩
  | supply => exact { horderly with moored := hmoored }

theorem orderly_fresh (supply : Supply) (inlinePage : Nat) (settings : ArenaSettings) :
    Orderly settings ⟨⟨fresh supply inlinePage settings, []⟩, []⟩ :=
  ⟨Session.moored_fresh supply inlinePage settings, nofun, nofun, .nil, nofun⟩

theorem Reachable.orderly (hreachable : Reachable start register)
    (hstart : Orderly settings ⟨⟨start, []⟩, []⟩) : register.Orderly settings := by
  induction hreachable with
  | start => exact hstart
  | step _ step hallows ih => exact ih.next hallows

end Reachable

/-! ## An allocation that is resized through a scope -/

/-- What happens to an allocation `first` while a scope is open that is opened on `outer`: well-behaved
calls, of which none frees it or writes to it. It is `current` by now, and `least` is the least size
that it had. -/
inductive Through (outer : Register) (first : Holding) : Register → Holding → Nat → Prop where
  | opened : Through outer first (outer.next .enter) first first.header.size
  /-- A call with other allocations, or one that fails. -/
  | other {register : Register} {current : Holding} {least : Nat}
    (hthrough : Through outer first register current least) {α : Type} (call : Call α)
    (hallows : register.Allows (.call call))
    (hkeeps : call.taken? = some current.handle →
      ∃ fault, (register.session.perform call).reply = .error fault)
    (hspares : call.overwritten? ≠ some current.handle) :
    Through outer first (register.next (.call call)) current least
  | resized {register : Register} {current moved : Holding} {least : Nat}
    (hthrough : Through outer first register current least) (newSize : Nat)
    (hreply : (register.session.perform (.realloc current.handle newSize)).reply =
      .ok moved.handle)
    (hheader : (register.next (.call (.realloc current.handle newSize))).session.arena.header?
      moved.handle = some moved.header) :
    Through outer first (register.next (.call (.realloc current.handle newSize))) moved
      (min least newSize)
  | supplied {register : Register} {current : Holding} {least : Nat}
    (hthrough : Through outer first register current least) (supply : Supply) :
    Through outer first (register.next (.supply supply)) current least

/-- The bytes of an allocation that a scope has not touched, if it is still on a page of its arena from
before the scope. -/
structure Tracked (settings : ArenaSettings) (outer : Register) (first : Holding)
    (register : Register) (current : Holding) (least : Nat) : Prop where
  orderly : register.Orderly settings
  snapshots_eq : register.session.snapshots =
    outer.session.arena.cursor :: outer.session.snapshots
  mem : current ∈ register.live
  le_size : least ≤ current.header.size
  le_first : least ≤ first.header.size
  place : outer.session.arena.cursor.page < current.handle.page ∨
    current.handle = first.handle ∧ ∀ size ≤ least,
      load ⟨first.handle.page, first.handle.offset, size⟩ register.session.arena =
        load ⟨first.handle.page, first.handle.offset, size⟩ outer.session.arena

section Through

variable {α : Type} {settings : ArenaSettings} {outer register : Register}
  {first current holding moved : Holding} {least newSize : Nat} {call : Call α} {floor : Cursor}
  {rest : List Holding} {gained : Option Holding}

theorem Tracked.allows (htracked : Tracked settings outer first register current least)
    (newSize : Nat) : register.Allows (.call (.realloc current.handle newSize)) :=
  ⟨nofun, by rintro _ ⟨⟩; exact List.mem_map_of_mem htracked.mem, nofun⟩

theorem Turn.tracked (hturn : register.Turn call floor rest gained)
    (htracked : Tracked settings outer first register current least)
    (hallows : register.Allows (.call call)) (hother : call.taken? ≠ some current.handle) :
    Tracked settings outer first (register.next (.call call)) current least := by
  have hrest := (hturn.others current htracked.mem).resolve_right hother
  refine ⟨htracked.orderly.next hallows, htracked.snapshots_eq, ?_, htracked.le_size,
    htracked.le_first, htracked.place.imp_right ?_⟩
  · rw [hturn.live_eq]
    exact List.mem_append_right _ hrest
  · rintro ⟨hhandle, hsame⟩
    refine ⟨hhandle, fun size hsize => ?_⟩
    rw [← hsame size hsize, ← hhandle]
    exact hturn.load_eq hrest (Nat.le_trans hsize htracked.le_size)

theorem Writes.tracked (hwrites : register.Writes call holding)
    (htracked : Tracked settings outer first register current least)
    (hallows : register.Allows (.call call)) (hother : call.overwritten? ≠ some current.handle) :
    Tracked settings outer first (register.next (.call call)) current least := by
  obtain ⟨hsnapshots, hlive⟩ := hwrites.next_live
  refine ⟨htracked.orderly.next hallows, hsnapshots ▸ htracked.snapshots_eq, hlive ▸ htracked.mem,
    htracked.le_size, htracked.le_first, htracked.place.imp_right ?_⟩
  rintro ⟨hhandle, hsame⟩
  refine ⟨hhandle, fun size hsize => ?_⟩
  rw [← hsame size hsize, ← hhandle]
  exact hwrites.load_eq htracked.orderly htracked.mem hother (Nat.le_trans hsize htracked.le_size)

theorem Tracked.place_resized {target : Handle} {after : Arena}
    (htracked : Tracked settings outer first register current least)
    (hplace : target.page = register.session.arena.cursor.page + 1 ∨
      target = current.handle ∧ ∀ size,
        load ⟨current.handle.page, current.handle.offset, size⟩ after =
          load ⟨current.handle.page, current.handle.offset, size⟩ register.session.arena) :
    outer.session.arena.cursor.page < target.page ∨
      target = first.handle ∧ ∀ size ≤ min least newSize,
        load ⟨first.handle.page, first.handle.offset, size⟩ after =
          load ⟨first.handle.page, first.handle.offset, size⟩ outer.session.arena := by
  obtain hnext | ⟨hhandle, hsame⟩ := hplace
  · left
    have hmem : outer.session.arena.cursor ∈ register.session.snapshots := by
      rw [htracked.snapshots_eq]
      exact List.mem_cons_self
    rw [hnext]
    exact Nat.lt_succ_of_le (htracked.orderly.moored.valid.snapshots _ hmem).1
  · rw [hhandle]
    refine htracked.place.imp_right ?_
    rintro ⟨hfirst, hbefore⟩
    refine ⟨hfirst, fun size hsize => ?_⟩
    rw [← hbefore size (Nat.le_trans hsize (Nat.min_le_left _ _)), ← hfirst]
    exact hsame size

theorem Tracked.resized (htracked : Tracked settings outer first register current least)
    (hreply : (register.session.perform (.realloc current.handle newSize)).reply =
      .ok moved.handle)
    (hheader : (register.next (.call (.realloc current.handle newSize))).session.arena.header?
      moved.handle = some moved.header) :
    Tracked settings outer first (register.next (.call (.realloc current.handle newSize))) moved
      (min least newSize) := by
  have hallows := htracked.allows newSize
  have hcovers := htracked.orderly.moored.valid.covers
  have hserves (old : Header) (hold : register.session.arena.header? current.handle = some old) :=
    htracked.orderly.serves (List.mem_map_of_mem htracked.mem) hold
  rw [Session.perform_eq] at hreply
  have hrun := Outcome.eq_of_reply hreply
  have hsettles := realloc_settles hcovers current.handle newSize hserves
  have hplace := realloc_place hcovers current.handle newSize hserves
  rw [show realloc current.handle newSize register.session.arena = _ from hrun] at hsettles hplace
  obtain ⟨_, header, _, hissued⟩ := hsettles.effect_of_ok
  have hafter := next_of_ok hrun
  rw [Ledger.settle] at hafter
  have horderly := htracked.orderly.next hallows
  rw [hafter] at hheader horderly ⊢
  obtain rfl := Option.some.inj (hissued.header?_eq.symm.trans hheader)
  refine ⟨horderly, htracked.snapshots_eq, ?_, ?_, ?_, htracked.place_resized hplace.effect_of_ok⟩
  · rw [written_eq hissued.decoded]
    exact List.mem_cons_self
  · rw [hissued.size_eq]
    exact Nat.min_le_right _ _
  · exact Nat.le_trans (Nat.min_le_left _ _) htracked.le_first

theorem Through.tracked (hthrough : Through outer first register current least)
    (houter : outer.Orderly settings) (hmem : first ∈ outer.live) :
    Tracked settings outer first register current least := by
  induction hthrough with
  | opened =>
    have hentered : (outer.next .enter).Orderly settings := houter.next trivial
    exact ⟨hentered, rfl, hmem, Nat.le_refl _, Nat.le_refl _,
      Or.inr ⟨rfl, fun _ _ => rfl⟩⟩
  | @other register current least _ α call hallows hkeeps hspares ih =>
    by_cases htaken : call.taken? = some current.handle
    case pos =>
      obtain ⟨fault, hfault⟩ := hkeeps htaken
      rwa [next_of_error ih.orderly hallows hfault]
    case neg =>
      obtain ⟨_, _, _, hturn⟩ | ⟨_, hwrites⟩ := ih.orderly.exists_turn hallows
      · exact hturn.tracked ih hallows htaken
      · exact hwrites.tracked ih hallows hspares
  | resized _ newSize hreply hheader ih => exact ih.resized hreply hheader
  | @supplied register _ _ _ supply ih =>
    have hallows : register.Allows (.supply supply) := trivial
    exact { ih with orderly := ih.orderly.next hallows }

/-! ## The end of the scope -/

/-- An allocation has outlived a scope: it is live, every call that reads it or writes to it accepts
its handle, and as many of its bytes as it had at all times are those it had before the scope. -/
structure Spared (outer after : Register) (first current : Holding) (least : Nat) : Prop where
  mem : current ∈ after.live
  header_eq : (after.session.perform (.header current.handle)).reply = .ok current.header
  bytes_eq : ∃ before bytes,
    (outer.session.perform (.bytes first.handle)).reply = .ok before ∧
      (after.session.perform (.bytes current.handle)).reply = .ok bytes ∧
        bytes.size = current.header.size ∧ bytes.extract 0 least = before.extract 0 least
  overwrite_eq : ∀ position data,
    (after.session.perform (.overwrite current.handle position data)).reply =
      .ok (position + data.size ≤ current.header.size)

theorem reply_bytes (horderly : register.Orderly settings) (hmem : holding ∈ register.live) :
    (register.session.perform (.bytes holding.handle)).reply =
      .ok (load ⟨holding.handle.page, holding.handle.offset, holding.header.size⟩
        register.session.arena) := by
  rw [Session.perform_eq, call_bytes_run (horderly.header?_eq hmem)]

/-- An allocation that ends at or before the cursor that a scope returns to outlives the scope. -/
theorem Tracked.spared (htracked : Tracked settings outer first register current least)
    (houter : outer.Orderly settings) (hmem : first ∈ outer.live)
    (hstop : current.stop ≤ outer.session.arena.cursor) :
    Spared outer (register.next .leave) first current least := by
  have hallows : register.Allows .leave := by
    rw [Allows, htracked.snapshots_eq]
    exact List.cons_ne_nil _ _
  have hafter := htracked.orderly.next hallows
  simp only [Register.next, Session.next_leave htracked.snapshots_eq] at hafter ⊢
  have hlive : current ∈ register.live.filter (·.stop ≤ outer.session.arena.cursor) :=
    List.mem_filter.mpr ⟨htracked.mem, decide_eq_true hstop⟩
  have hheader := hafter.header?_eq hlive
  refine ⟨hlive, ?_, ?_, ?_⟩
  · rw [Session.perform_eq, call_header_run hheader]
  · refine ⟨_, _, reply_bytes houter hmem, reply_bytes hafter hlive,
      size_load (hafter.decoded current hlive), ?_⟩
    obtain hpage | ⟨hhandle, hsame⟩ := htracked.place
    · exact absurd (Cursor.page_le hstop) (Nat.not_le_of_lt hpage)
    · rw [extract_load _ _ htracked.le_size, extract_load _ _ htracked.le_first, hhandle]
      exact hsame least (Nat.le_refl _)
  · intro position data
    rw [Session.perform_eq, Call.run, Allocator.overwrite_run_of_region (region_run_eq _ _), region?,
      hheader]
    rfl

end Through

section Scope

variable {σ : Type} {supply : Supply} {inlinePage : Nat} {settings : ArenaSettings} {state : σ}
  {start : Arena} {outer register : Register} {first current : Holding} {least : Nat}

/-- An allocation from before a scope that is resized through it outlives it, if it then ends at or
before the cursor that the scope was opened at. It keeps the bytes that it never gave up. -/
theorem leave_spares (hcreated : (create supply inlinePage settings state).reply = .ok start)
    (hreachable : Reachable start outer) (hmem : first ∈ outer.live)
    (hthrough : Through outer first register current least)
    (hstop : current.stop ≤ outer.session.arena.cursor) :
    Spared outer (register.next .leave) first current least := by
  obtain ⟨_, rfl⟩ := reply_create_eq_ok_iff.mp hcreated
  have houter := hreachable.orderly (orderly_fresh supply inlinePage settings)
  exact (hthrough.tracked houter hmem).spared houter hmem hstop

/-- An allocation shrinks, and another one takes the place that it gave up. -/
theorem leave_spares_of_shrunk :
    let start := fresh Supply.ample 100 ⟨"scratch", 64, none, true⟩
    let allocated := next ⟨⟨start, []⟩, []⟩ (.call (.alloc 40))
    let outer := allocated.next (.call (.overwrite ⟨0, 32⟩ 4 ⟨#[7]⟩))
    let shrunk := (outer.next .enter).next (.call (.realloc ⟨0, 32⟩ 8))
    let last := shrunk.next (.call (.alignedAlloc 1 1))
    last.live.map Holding.handle = [⟨0, 72⟩, ⟨0, 32⟩] ∧
      Spared outer (last.next .leave) ⟨⟨0, 32⟩, ⟨0, 40, 16, 32⟩⟩ ⟨⟨0, 32⟩, ⟨0, 8, 16, 32⟩⟩ 8 := by
  intro start allocated outer shrunk last
  have hcreated : (create Supply.ample 100 ⟨"scratch", 64, none, true⟩ ()).reply = .ok start :=
    reply_create_eq_ok_iff.mpr ⟨by decide, rfl⟩
  have houter : Reachable start outer :=
    (Reachable.start.step (.call (.alloc 40)) ⟨by decide, nofun, nofun⟩).step
      (.call (.overwrite ⟨0, 32⟩ 4 ⟨#[7]⟩)) ⟨nofun, nofun, by rintro _ ⟨⟩; decide +kernel⟩
  have hshrunk : Through outer ⟨⟨0, 32⟩, ⟨0, 40, 16, 32⟩⟩ shrunk ⟨⟨0, 32⟩, ⟨0, 8, 16, 32⟩⟩ 8 :=
    Through.opened.resized 8 (by decide +kernel) (by decide +kernel)
  have hlast : Through outer ⟨⟨0, 32⟩, ⟨0, 40, 16, 32⟩⟩ last ⟨⟨0, 32⟩, ⟨0, 8, 16, 32⟩⟩ 8 :=
    hshrunk.other (.alignedAlloc 1 1) ⟨by decide, nofun, nofun⟩ nofun nofun
  exact ⟨by decide +kernel,
    leave_spares hcreated houter (by decide +kernel) hlast (by decide +kernel)⟩

/-- An allocation that grows past the cursor is taken back with the scope, and one that shrinks and
grows again, with another one in the place that it gave up meanwhile, has lost the bytes there. -/
theorem resized_not_spared :
    let start := fresh Supply.ample 100 ⟨"scratch", 64, none, true⟩
    let allocated := next ⟨⟨start, []⟩, []⟩ (.call (.alloc 40))
    let outer := allocated.next (.call (.overwrite ⟨0, 32⟩ 20 ⟨#[7]⟩))
    let first : Holding := ⟨⟨0, 32⟩, ⟨0, 40, 16, 32⟩⟩
    let grown := (outer.next .enter).next (.call (.realloc ⟨0, 32⟩ 50))
    let shrunk := (outer.next .enter).next (.call (.realloc ⟨0, 32⟩ 8))
    let freed := (shrunk.next (.call (.alignedAlloc 1 1))).next (.call (.free ⟨0, 72⟩))
    let regrown := freed.next (.call (.realloc ⟨0, 32⟩ 40))
    (create Supply.ample 100 ⟨"scratch", 64, none, true⟩ ()).reply = .ok start ∧
      Reachable start outer ∧ first ∈ outer.live ∧
      (Through outer first grown ⟨⟨0, 32⟩, ⟨0, 50, 16, 32⟩⟩ 40 ∧
        ((grown.next .leave).session.perform (.header ⟨0, 32⟩)).reply =
          .error (.invalidHandle "scratch" ⟨0, 32⟩)) ∧
      Through outer first regrown first 8 ∧
        (outer.session.perform (.bytes ⟨0, 32⟩)).reply =
          .ok ⟨Array.replicate 20 0 ++ #[7] ++ Array.replicate 19 0⟩ ∧
        ((regrown.next .leave).session.perform (.bytes ⟨0, 32⟩)).reply =
          .ok ⟨Array.replicate 40 0⟩ := by
  intro start allocated outer first grown shrunk freed regrown
  have houter : Reachable start outer :=
    (Reachable.start.step (.call (.alloc 40)) ⟨by decide, nofun, nofun⟩).step
      (.call (.overwrite ⟨0, 32⟩ 20 ⟨#[7]⟩))
      ⟨nofun, nofun, by rintro _ ⟨⟩; decide +kernel⟩
  have hgrown : Through outer first grown ⟨⟨0, 32⟩, ⟨0, 50, 16, 32⟩⟩ 40 :=
    Through.opened.resized 50 (by decide +kernel) (by decide +kernel)
  have hshrunk : Through outer first shrunk ⟨⟨0, 32⟩, ⟨0, 8, 16, 32⟩⟩ 8 :=
    Through.opened.resized 8 (by decide +kernel) (by decide +kernel)
  have hfreed : Through outer first freed ⟨⟨0, 32⟩, ⟨0, 8, 16, 32⟩⟩ 8 :=
    (hshrunk.other (.alignedAlloc 1 1) ⟨by decide, nofun, nofun⟩ nofun nofun).other (.free ⟨0, 72⟩)
      ⟨nofun, by rintro _ ⟨⟩; decide +kernel, nofun⟩ (absurd · (by decide)) nofun
  have hregrown : Through outer first regrown first 8 :=
    hfreed.resized 40 (by decide +kernel) (by decide +kernel)
  exact ⟨reply_create_eq_ok_iff.mpr ⟨by decide, rfl⟩, houter, by decide +kernel,
    ⟨hgrown, by decide +kernel⟩, hregrown, by decide +kernel, by decide +kernel⟩

end Scope

end Register

end Arena

end HandleAlloc
