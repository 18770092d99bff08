import HandleAlloc.Proofs.Arena.Calls
import HandleAlloc.Proofs.Arena.Stack
import HandleAlloc.Proofs.Scope
/-!
# Ledgers of arenas and scopes

An arena keeps no list of its allocations either. A `Ledger` is an arena with its live allocations,
those of the innermost scope apart from those of the scopes around it, brought forward by every call
and every scope that is opened or ended. A step is well-behaved (`Ledger.Allows`) if it takes
allocations of the innermost scope only, and writes to live ones. It keeps the ledger `Stacked`: from
the first byte of the arena on, the live allocations form a stack up to the cursor.
-/

namespace HandleAlloc

namespace Arena

/-- The header that the bytes before a handle spell, acceptable or not. -/
def written (arena : Arena) (handle : Handle) : Header :=
  Header.decode ((arena.pages[handle.page]?.getD ByteArray.empty).extract
    (handle.offset - headerSize) handle.offset)

theorem written_eq {arena : Arena} {handle : Handle} {header : Header}
    (hdecoded : arena.decoded? handle = some header) : arena.written handle = header := by
  obtain ⟨page, hpage, hread⟩ := decoded?_eq_some_iff.mp hdecoded
  rw [written, hpage]
  exact (Header.read?_eq_some_iff.mp hread).2.1

/-- An open scope: the cursor from before it, and what was live then and is not another scope's. -/
structure Frame where
  snapshot : Cursor
  /-- The newest first. -/
  live : List Holding

/-- An arena and the allocations that are live on it. -/
structure Ledger where
  arena : Arena
  /-- The live allocations of the innermost scope, the newest first. -/
  live : List Holding
  /-- The open scopes, the innermost first. -/
  outer : List Frame

/-- What happens to an arena. A client calls it or the innermost scope, opens or ends a scope, or
resets the arena; and between its calls the system may come to grant other reservations. -/
inductive Step : Type 1 where
  | call {α : Type} (call : Call α)
  | enter
  | leave
  | reset
  | supply (supply : Supply)

namespace Ledger

/-- All live allocations, the newest first. -/
def held (ledger : Ledger) : List Holding := ledger.live ++ ledger.outer.flatMap Frame.live

/-- Runs a call through the innermost scope, or on the arena if there is none. -/
def perform {α : Type} (ledger : Ledger) (call : Call α) : Outcome Arena α :=
  match ledger.outer with
  | [] => call.run ledger.arena
  | frame :: _ =>
    let outcome := call.run (Scope.mk ledger.arena frame.snapshot)
    ⟨outcome.reply, outcome.state.arena, outcome.events⟩

def settle (live : List Holding) (after : Arena) : {α : Type} → Call α → α → List Holding
  | _, .realloc handle _, moved =>
    ⟨moved, after.written moved⟩ :: live.filter (·.handle ≠ handle)
  | _, .free handle, _ => live.filter (·.handle ≠ handle)
  | _, call, value => match call.issued? value with
    | some handle => ⟨handle, after.written handle⟩ :: live
    | none => live

def next (ledger : Ledger) : Step → Ledger
  | .call call =>
    let outcome := ledger.perform call
    { ledger with
      arena := outcome.state
      live := match outcome.reply with
        | .ok value => settle ledger.live outcome.state call value
        | .error _ | .trap => ledger.live }
  | .enter => match (Scope.enter ledger.arena).reply with
    | .ok scope => ⟨scope.arena, [], ⟨scope.snapshot, ledger.live⟩ :: ledger.outer⟩
    | .error _ | .trap => ledger
  | .leave => match ledger.outer with
    | frame :: outer =>
      ⟨(Scope.leave ⟨ledger.arena, frame.snapshot⟩ ledger.arena).state, frame.live, outer⟩
    | [] => ledger
  | .reset => { ledger with arena := (reset ledger.arena).state, live := [] }
  | .supply supply => { ledger with arena := { ledger.arena with supply } }

/-- A step is well-behaved if it takes allocations of the innermost scope and writes to live ones,
and ends a scope only if one is open, and resets the arena only if none is. -/
def Allows (ledger : Ledger) : Step → Prop
  | .call call =>
    (∀ request ∈ call.request?, request.2 < wordSize) ∧
      (∀ handle ∈ call.taken?, handle ∈ ledger.live.map Holding.handle) ∧
      ∀ handle ∈ call.overwritten?, handle ∈ ledger.held.map Holding.handle
  | .enter => True
  | .leave => ledger.outer ≠ []
  | .reset => ledger.outer = []
  | .supply _ => True

inductive Reachable (start : Arena) : Ledger → Prop where
  | start : Reachable start ⟨start, [], []⟩
  | step {ledger : Ledger} (hreachable : Reachable start ledger) (step : Step)
    (hallows : ledger.Allows step) : Reachable start (ledger.next step)

/-- The position that the allocations of the innermost scope begin at. -/
def base : List Frame → Cursor
  | [] => .start
  | frame :: _ => frame.snapshot

/-- The allocations of each scope form a stack upon those of the scope around it. -/
inductive Frames : List Frame → Prop where
  | nil : Frames []
  | cons {frame : Frame} {outer : List Frame} (houter : Frames outer)
    (hstack : Stack (base outer) frame.live frame.snapshot) : Frames (frame :: outer)

theorem Frames.stack {outer : List Frame} (hframes : Frames outer) :
    Stack .start (outer.flatMap Frame.live) (base outer) := by
  induction hframes with
  | nil => exact .empty
  | cons houter hstack ih => exact ih.append hstack

/-- The live allocations read as they were written and form a stack up to the cursor. -/
structure Stacked (ledger : Ledger) : Prop where
  sound : ledger.arena.Sound
  decoded : ∀ holding ∈ ledger.held,
    ledger.arena.decoded? holding.handle = some holding.header
  frames : Frames ledger.outer
  stack : Stack (base ledger.outer) ledger.live ledger.arena.cursor
  covers : ∀ frame ∈ ledger.outer, ledger.arena.Covers frame.snapshot

section Stacked

variable {ledger : Ledger} {holding : Holding}

theorem Stacked.whole (hstacked : ledger.Stacked) :
    Stack .start ledger.held ledger.arena.cursor :=
  hstacked.frames.stack.append hstacked.stack

theorem Stacked.proper (hstacked : ledger.Stacked) (hmem : holding ∈ ledger.held) :
    holding.Proper :=
  hstacked.whole.proper hmem

theorem Stacked.header?_eq (hstacked : ledger.Stacked) (hmem : holding ∈ ledger.held) :
    ledger.arena.header? holding.handle = some holding.header :=
  header?_eq_some_iff.mpr ⟨hstacked.decoded holding hmem, hstacked.whole.stop_le hmem⟩

end Stacked

/-! ## Calls -/

/-- A call through a scope is the call on its arena. -/
theorem perform_eq {α : Type} (ledger : Ledger) (call : Call α) :
    ledger.perform call = call.run ledger.arena := by
  unfold perform
  split
  · rfl
  · rw [Scope.run_eq, Scope.onArena_run]

def issued? (ledger : Ledger) : Step → Option Handle
  | .call call => match (ledger.perform call).reply with
    | .ok value => call.issued? value
    | .error _ | .trap => none
  | .enter | .leave | .reset | .supply _ => none

/-- What a call does that does not write to an allocation. The allocations of the innermost scope
that end at `floor` or before stay, and so does every byte before it; above it there is what was
issued, if anything. -/
structure Turn {α : Type} (ledger : Ledger) (call : Call α) (floor : Cursor)
    (lost rest : List Holding) (gained : Option Holding) : Prop where
  before : ledger.live = lost ++ rest
  after : (ledger.next (.call call)).live = gained.toList ++ rest
  rest_stack : Stack (base ledger.outer) rest floor
  floor_le : floor ≤ ledger.arena.cursor
  stack : Stack floor gained.toList (ledger.next (.call call)).arena.cursor
  cursor_eq : (ledger.next (.call call)).arena.cursor = gained.elim floor Holding.stop
  kept : Kept floor ledger.arena (ledger.next (.call call)).arena
  sound : (ledger.next (.call call)).arena.Sound
  decoded : ∀ holding ∈ gained,
    (ledger.next (.call call)).arena.decoded? holding.handle = some holding.header
  issued : ledger.issued? (.call call) = gained.map Holding.handle
  operand : ∀ holding ∈ lost, call.handle? = some holding.handle

section Turn

variable {α : Type} {ledger : Ledger} {call : Call α} {value : α} {after : Arena}
  {events : List Event} {floor : Cursor} {lost rest live : List Holding} {gained : Option Holding}
  {holding : Holding}
  {handle moved : Handle} {header : Header} {size alignment newSize : Nat}

theorem next_of_ok (hrun : call.run ledger.arena = ⟨.ok value, after, events⟩) :
    ledger.next (.call call) =
      { ledger with arena := after, live := settle ledger.live after call value } := by
  simp only [next, perform_eq, hrun]

theorem next_of_failed {fault : Fault}
    (hrun : call.run ledger.arena = .failed fault ledger.arena) :
    ledger.next (.call call) = ledger := by
  simp only [next, perform_eq, hrun, Outcome.failed]

theorem issued?_of_ok (hrun : call.run ledger.arena = ⟨.ok value, after, events⟩) :
    ledger.issued? (.call call) = call.issued? value := by
  simp only [issued?, perform_eq, hrun]

theorem issued?_of_failed {fault : Fault}
    (hrun : call.run ledger.arena = .failed fault ledger.arena) :
    ledger.issued? (.call call) = none := by
  simp only [issued?, perform_eq, hrun, Outcome.failed]

theorem settle_of_issued (hrequest : call.request? = some (size, alignment))
    (hvalue : call.issued? value = some handle) :
    settle live after call value = ⟨handle, after.written handle⟩ :: live := by
  cases call <;> simp_all [settle, Call.request?, Call.issued?]

theorem issued?_of_isQuery (hquery : call.isQuery = true) : call.issued? value = none := by
  cases call <;> simp_all [Call.isQuery, Call.issued?]

theorem settle_of_isQuery (hquery : call.isQuery = true) :
    settle live after call value = live := by
  cases call <;> simp_all [settle, Call.isQuery, Call.issued?]

theorem turn_of_next_eq (hstacked : ledger.Stacked) (hnext : ledger.next (.call call) = ledger)
    (hnone : ledger.issued? (.call call) = none) :
    ledger.Turn call ledger.arena.cursor [] ledger.live none where
  before := rfl
  after := by rw [hnext, Option.toList_none, List.nil_append]
  rest_stack := hstacked.stack
  floor_le := le_refl _
  stack := by
    rw [hnext]
    exact .empty
  cursor_eq := by rw [hnext, Option.elim_none]
  kept := by
    rw [hnext]
    exact .refl _ _
  sound := by
    rw [hnext]
    exact hstacked.sound
  decoded := nofun
  issued := hnone
  operand := nofun

theorem stack_of_issued {arena : Arena}
    (hissued : arena.Issued floor size alignment handle header after) :
    Stack floor [⟨handle, header⟩] after.cursor := by
  have hproper : Holding.Proper ⟨handle, header⟩ := by
    have hserves := hissued.serves
    rw [Holding.Proper, hserves.alignment_eq, hissued.size_eq]
    exact hserves
  rw [hissued.cursor_eq]
  have hbelow : Stack floor [] (Holding.start ⟨handle, header⟩) := by
    rw [Holding.start]
    obtain hhere | hnext := hissued.start_eq
    · rw [hhere]
      exact .empty
    · rw [hnext]
      exact .turn .empty
  exact .push hbelow hproper

theorem turn_of_issued (hbefore : ledger.live = lost ++ rest)
    (hrest : Stack (base ledger.outer) rest floor) (hfloor : floor ≤ ledger.arena.cursor)
    (hrun : call.run ledger.arena = ⟨.ok value, after, events⟩)
    (hsettle : settle ledger.live after call value = ⟨handle, after.written handle⟩ :: rest)
    (hvalue : call.issued? value = some handle)
    (hissued : ledger.arena.Issued floor size alignment handle header after)
    (hoperand : ∀ holding ∈ lost, call.handle? = some holding.handle) :
    ledger.Turn call floor lost rest (some ⟨handle, header⟩) := by
  have hnext := next_of_ok hrun
  rw [hsettle, written_eq hissued.decoded] at hnext
  refine ⟨hbefore, by rw [hnext]; rfl, hrest, hfloor, ?_, ?_, ?_, ?_, ?_, ?_, hoperand⟩
  · rw [hnext]
    exact stack_of_issued hissued
  · rw [hnext]
    exact hissued.cursor_eq
  · rw [hnext]
    exact hissued.kept
  · rw [hnext]
    exact hissued.sound
  · rw [hnext]
    rintro _ ⟨⟩
    exact hissued.decoded
  · rw [issued?_of_ok hrun, hvalue, Option.map_some]

theorem filter_handle_ne (hstack : Stack floor (holding :: rest) ledger.arena.cursor) :
    (holding :: rest).filter (·.handle ≠ holding.handle) = rest := by
  rw [List.filter_cons_of_neg (by simp), List.filter_eq_self]
  intro other hmem
  have hlt := (List.pairwise_cons.mp hstack.pairwise_position).1 other hmem
  rw [decide_eq_true_iff]
  intro hsame
  exact lt_irrefl _ (hsame ▸ hlt)

theorem Stacked.pop (hstacked : ledger.Stacked) (hmem : handle ∈ ledger.live.map Holding.handle)
    (htop : ledger.arena.Topmost handle header) :
    ∃ rest, ledger.live = ⟨handle, header⟩ :: rest ∧
      Stack (base ledger.outer) rest (handle.start header) ∧
      ledger.live.filter (·.handle ≠ handle) = rest := by
  obtain ⟨holding, hlisted, rfl⟩ := List.mem_map.mp hmem
  have hdecoded := hstacked.decoded holding (List.mem_append_left _ hlisted)
  obtain rfl := Option.some.inj (htop.decoded.symm.trans hdecoded)
  obtain ⟨rest, hlive, hrest⟩ := hstacked.stack.pop hlisted htop.stop_eq
  have hstack := hstacked.stack
  rw [hlive] at hstack
  exact ⟨rest, hlive, hrest, by rw [hlive]; exact filter_handle_ne hstack⟩

theorem turn_of_freed (hstacked : ledger.Stacked)
    (hmem : handle ∈ ledger.live.map Holding.handle) (htop : ledger.arena.Topmost handle header)
    (hrun : (Call.free handle).run ledger.arena =
      ⟨.ok (), ledger.arena.freed handle header, events⟩) :
    ∃ rest, ledger.Turn (.free handle) (handle.start header) [⟨handle, header⟩] rest none := by
  obtain ⟨rest, hlive, hrest, hfilter⟩ := hstacked.pop hmem htop
  have hproper : Holding.Proper ⟨handle, header⟩ :=
    hstacked.stack.proper (by rw [hlive]; exact List.mem_cons_self)
  have hnext := next_of_ok hrun
  rw [settle, hfilter] at hnext
  refine ⟨rest, hlive, by rw [hnext]; rfl, hrest, ?_, ?_, by rw [hnext]; rfl, ?_, ?_, nofun, ?_,
    List.forall_mem_singleton.mpr rfl⟩
  · exact le_of_lt (htop.stop_eq ▸ hproper.start_lt_stop)
  · rw [hnext]
    exact .empty
  · rw [hnext]
    exact freed_kept hproper
  · rw [hnext]
    exact freed_sound htop.decoded
  · exact issued?_of_ok hrun

structure Writes {α : Type} (ledger : Ledger) (call : Call α) (holding : Holding) : Prop where
  mem : holding ∈ ledger.held
  operand : call.overwritten? = some holding.handle
  next_eq : ∃ position data, ledger.next (.call call) =
    { ledger with
      arena := store ⟨holding.handle.page, holding.handle.offset, holding.header.size⟩ position data
        ledger.arena }
  issued : ledger.issued? (.call call) = none

theorem Stacked.serves (hstacked : ledger.Stacked) (hmem : handle ∈ ledger.held.map Holding.handle)
    (hheader : ledger.arena.header? handle = some header) :
    header.Serves handle.offset header.size header.alignment := by
  obtain ⟨holding, hlisted, rfl⟩ := List.mem_map.mp hmem
  obtain rfl := Option.some.inj (hheader.symm.trans (hstacked.header?_eq hlisted))
  exact hstacked.proper hlisted

theorem Stacked.serves_taken (hstacked : ledger.Stacked) (hallows : ledger.Allows (.call call)) :
    ∀ handle ∈ call.taken?, ∀ old, ledger.arena.header? handle = some old →
      old.Serves handle.offset old.size old.alignment := by
  intro handle hhandle old hheader
  refine hstacked.serves ?_ hheader
  rw [held, List.map_append]
  exact List.mem_append_left _ (hallows.2.1 handle hhandle)

theorem Stacked.settles (hstacked : ledger.Stacked) (hallows : ledger.Allows (.call call)) :
    (call.run ledger.arena).Settles ledger.arena (ledger.arena.Effect call) :=
  call_settles hstacked.sound call hallows.1 (hstacked.serves_taken hallows)

/-- A well-behaved call is a turn of the innermost scope, or a write. -/
theorem exists_turn (hstacked : ledger.Stacked) (hallows : ledger.Allows (.call call)) :
    (∃ floor lost rest gained, ledger.Turn call floor lost rest gained) ∨
      ∃ holding, ledger.Writes call holding := by
  have hsettles := hstacked.settles hallows
  obtain ⟨_, htaken, hwritten⟩ := hallows
  generalize hrun : call.run ledger.arena = outcome at hsettles
  cases hsettles with
  | failed fault =>
    exact Or.inl ⟨_, _, _, _,
      turn_of_next_eq hstacked (next_of_failed hrun) (issued?_of_failed hrun)⟩
  | @done value after events heffect =>
    cases heffect with
    | issued hrequest hvalue hissued =>
      exact Or.inl ⟨_, [], _, _, turn_of_issued rfl hstacked.stack (le_refl _) hrun
        (settle_of_issued hrequest hvalue) hvalue hissued nofun⟩
    | resized htop hissued =>
      obtain ⟨rest, hlive, hrest, hfilter⟩ := hstacked.pop (htaken _ rfl) htop
      have hfloor := htop.stop_eq ▸ htop.start_le_stop
      exact Or.inl ⟨_, [_], _, _, turn_of_issued hlive hrest hfloor hrun
        (by rw [settle, hfilter]) rfl hissued (List.forall_mem_singleton.mpr rfl)⟩
    | freed htop =>
      obtain ⟨rest, hturn⟩ := turn_of_freed hstacked (htaken _ rfl) htop hrun
      exact Or.inl ⟨_, _, _, _, hturn⟩
    | @overwritten handle header position data fits hdecoded =>
      obtain ⟨holding, hmem, rfl⟩ := List.mem_map.mp (hwritten _ rfl)
      obtain rfl := Option.some.inj (hdecoded.symm.trans (hstacked.decoded holding hmem))
      exact Or.inr ⟨holding, hmem, rfl, ⟨position, data, next_of_ok hrun⟩, issued?_of_ok hrun⟩
    | observed hquery =>
      have hnext := next_of_ok hrun
      rw [settle_of_isQuery hquery] at hnext
      exact Or.inl ⟨_, _, _, _, turn_of_next_eq hstacked hnext
        ((issued?_of_ok hrun).trans (issued?_of_isQuery hquery))⟩

/-! ## Every step -/

theorem Frames.snapshot_le {outer : List Frame} (hframes : Frames outer) {frame : Frame}
    (hmem : frame ∈ outer) : frame.snapshot ≤ base outer := by
  induction hframes with
  | nil => exact absurd hmem List.not_mem_nil
  | cons houter hstack ih =>
    obtain rfl | hmem := List.mem_cons.mp hmem
    · exact le_refl _
    · exact le_trans (ih hmem) hstack.base_le

theorem Turn.base_le (hturn : ledger.Turn call floor lost rest gained) : base ledger.outer ≤ floor :=
  hturn.rest_stack.base_le

theorem Turn.stacked (hturn : ledger.Turn call floor lost rest gained)
    (hstacked : ledger.Stacked) : (ledger.next (.call call)).Stacked where
  sound := hturn.sound
  decoded := by
    intro holding hmem
    have hkept (hold : holding ∈ ledger.held) (hle : holding.stop ≤ floor) :
        (ledger.next (.call call)).arena.decoded? holding.handle = some holding.header := by
      have hposition := (hstacked.proper hold).position_lt_stop
      rw [hturn.kept.decoded?_eq (le_trans (le_of_lt hposition) hle)]
      exact hstacked.decoded holding hold
    rw [held, hturn.after, List.append_assoc, List.mem_append, Option.mem_toList] at hmem
    obtain hgained | hmem := hmem
    · exact hturn.decoded holding hgained
    obtain hrest | houter := List.mem_append.mp hmem
    · apply hkept
      · rw [held, hturn.before]
        exact List.mem_append_left _ (List.mem_append_right _ hrest)
      · exact hturn.rest_stack.stop_le hrest
    · apply hkept (List.mem_append_right _ houter)
      exact le_trans (hstacked.frames.stack.stop_le houter) hturn.base_le
  frames := hstacked.frames
  stack := by
    rw [hturn.after]
    exact hturn.rest_stack.append hturn.stack
  covers := by
    intro frame hmem
    apply hturn.kept.covers (hstacked.covers frame hmem)
    exact Cursor.page_le (le_trans (hstacked.frames.snapshot_le hmem) hturn.base_le)

theorem Stacked.notMem_other (hstacked : ledger.Stacked) {other : Holding}
    (hmem : holding ∈ ledger.held) (hother : other ∈ ledger.held) (hne : holding ≠ other)
    (hpage : holding.handle.page = other.handle.page) {i : Nat}
    (hi : i ∈ holding.header.bytes holding.handle.offset) :
    i ∉ interval other.handle.offset (other.handle.offset + other.header.size) :=
  (hstacked.whole.apart hmem hother hne).notMem_usable (hstacked.proper hother) hpage hi

theorem Stacked.notMem_usable (hstacked : ledger.Stacked) {other : Holding}
    (hmem : holding ∈ ledger.held) (hother : other ∈ ledger.held)
    (hpage : other.handle.page = holding.handle.page) {i : Nat}
    (hi : i ∈ interval (other.handle.offset - headerSize) other.handle.offset) :
    i ∉ interval holding.handle.offset (holding.handle.offset + holding.header.size) :=
  (hstacked.proper hother).notMem_usable (hstacked.proper hmem) (hstacked.whole.apart hother hmem)
    hpage hi

theorem Writes.stacked (hwrites : ledger.Writes call holding) (hstacked : ledger.Stacked) :
    (ledger.next (.call call)).Stacked := by
  obtain ⟨position, data, hnext⟩ := hwrites.next_eq
  rw [hnext]
  have hcovers {c : Cursor} (hcovers : ledger.arena.Covers c) :
      Covers (store ⟨holding.handle.page, holding.handle.offset, holding.header.size⟩ position data
        ledger.arena) c := by
    obtain ⟨length, hlength, htop⟩ := hcovers
    exact ⟨length, (pageLength?_store _).trans hlength, htop⟩
  refine ⟨?_, ?_, hstacked.frames, ?_, fun frame hmem => hcovers (hstacked.covers frame hmem)⟩
  · rw [Sound, cursor_store]
    exact hcovers hstacked.sound
  · intro other hother
    rw [decoded?_store fun hpage _ hi => hstacked.notMem_usable hwrites.mem hother hpage hi]
    exact hstacked.decoded other hother
  · rw [cursor_store]
    exact hstacked.stack

end Turn

section Reachable

variable {start : Arena} {ledger : Ledger} {step : Step}

theorem next_enter (ledger : Ledger) : ledger.next .enter =
    ⟨ledger.arena, [], ⟨ledger.arena.cursor, ledger.live⟩ :: ledger.outer⟩ := rfl

theorem next_leave {frame : Frame} {outer : List Frame} (houter : ledger.outer = frame :: outer) :
    ledger.next .leave =
      ⟨{ ledger.arena with cursor := frame.snapshot }, frame.live, outer⟩ := by
  rw [next, houter]
  rfl

theorem next_reset (ledger : Ledger) : ledger.next .reset =
    { ledger with arena := { ledger.arena with cursor := .start }, live := [] } := rfl

theorem next_supply (ledger : Ledger) (supply : Supply) : ledger.next (.supply supply) =
    { ledger with arena := { ledger.arena with supply } } := rfl

theorem covers_start (arena : Arena) : arena.Covers .start :=
  ⟨arena.firstPage.size, rfl, Nat.zero_le _⟩

/-- Every well-behaved step keeps the live allocations a stack. -/
theorem Stacked.next (hstacked : ledger.Stacked) (hallows : ledger.Allows step) :
    (ledger.next step).Stacked := by
  cases step with
  | call call =>
    obtain ⟨_, _, _, _, hturn⟩ | ⟨_, hwrites⟩ := exists_turn hstacked hallows
    · exact hturn.stacked hstacked
    · exact hwrites.stacked hstacked
  | enter =>
    rw [next_enter]
    refine ⟨hstacked.sound, ?_, .cons hstacked.frames hstacked.stack, .empty, ?_⟩
    · exact hstacked.decoded
    · exact List.forall_mem_cons.mpr ⟨hstacked.sound, hstacked.covers⟩
  | leave =>
    obtain ⟨frame, outer, houter⟩ := List.exists_cons_of_ne_nil hallows
    have hframes := houter ▸ hstacked.frames
    have hcovers := houter ▸ hstacked.covers
    rw [next_leave houter]
    cases hframes with
    | cons hframes hstack =>
      refine ⟨hcovers frame List.mem_cons_self, ?_, hframes, hstack, ?_⟩
      · intro holding hmem
        apply hstacked.decoded holding
        rw [held, houter]
        exact List.mem_append_right _ hmem
      · exact fun other hmem => hcovers other (List.mem_cons_of_mem _ hmem)
  | reset =>
    have houter : ledger.outer = [] := hallows
    rw [next_reset, houter]
    exact ⟨covers_start ledger.arena, nofun, .nil, .empty, nofun⟩
  | supply supply =>
    rw [next_supply]
    exact ⟨hstacked.sound, hstacked.decoded, hstacked.frames, hstacked.stack, hstacked.covers⟩

theorem Reachable.stacked (hreachable : Reachable start ledger)
    (hstart : Stacked ⟨start, [], []⟩) : ledger.Stacked := by
  induction hreachable with
  | start => exact hstart
  | step _ step hallows ih => exact ih.next hallows

end Reachable

end Ledger

end Arena

end HandleAlloc
