import Mathlib.Data.Finset.Dedup
import Mathlib.Data.Finset.Basic
import HandleAlloc.Proofs.Heap.Resizing
/-!
# What the log of a heap tells

The trace events of a heap are a journal of its live allocations: an `alloc` adds an offset to them,
a `free` takes one away, and a move replaces one. A call logs what its reply tells
(`call_reports`), and that is what it does to the live allocations (`Balanced.replay_next`).
So whoever reads the log from the start knows them at any time (`Logged.replay`), and needs no more
of it than the levels, messages and fields of its lines (`Line.replay_map_line`).
-/

namespace HandleAlloc

/-! ## Reading a log -/

namespace Event

/-- The offsets of the live allocations after an event, given those before it. An event that adds an
offset that is live, or takes away one that is not, is refused. -/
def track (live : Finset Nat) : Event → Option (Finset Nat)
  | heapAllocated _ offset _ => if offset ∈ live then none else some (insert offset live)
  | heapFreed _ offset => if offset ∈ live then some (live.erase offset) else none
  | heapRelocated _ source target _ =>
    if source ∈ live ∧ target ∉ live then some (insert target (live.erase source)) else none
  | _ => some live

/-- What the trace events of a log, in their order, make of the offsets that are live before. -/
def replay (live : Finset Nat) (log : List Event) : Option (Finset Nat) :=
  (log.filter (·.level = .trace)).foldlM track live

theorem replay_append (live : Finset Nat) (log events : List Event) :
    replay live (log ++ events) = (replay live log).bind (replay · events) := by
  unfold replay
  rw [List.filter_append, List.foldlM_append]
  rfl

theorem replay_singleton {event : Event} (htrace : event.level = .trace) (live : Finset Nat) :
    replay live [event] = track live event := by
  simp [replay, htrace]

end Event

/-! ## Reading log lines -/

/-- An event as it is written to a log. -/
structure Line where
  level : Level
  message : String
  fields : List (String × FieldValue)
  deriving DecidableEq, Repr

def Event.line (event : Event) : Line := ⟨event.level, event.message, event.fields⟩

namespace Line

/-- The event of a heap of the given name that a trace line tells of. -/
def event? (name : String) : Line → Option Event
  | ⟨.trace, "alloc", [("allocator", .text allocator), ("offset", .number offset),
      ("size", .number size)]⟩ =>
    if allocator = name then some (.heapAllocated name offset size) else none
  | ⟨.trace, "free", [("allocator", .text allocator), ("offset", .number offset)]⟩ =>
    if allocator = name then some (.heapFreed name offset) else none
  | ⟨.trace, "relocated allocation", [("allocator", .text allocator), ("from", .number source),
      ("to", .number target), ("new_size", .number newSize)]⟩ =>
    if allocator = name then some (.heapRelocated name source target newSize) else none
  | _ => none

/-- The offsets of the live allocations after a line of the heap of the given name. A line that tells of
nothing that such a heap does is refused. -/
def track (name : String) (live : Finset Nat) (line : Line) : Option (Finset Nat) :=
  (line.event? name).bind (·.track live)

/-- What the trace lines of a log, in their order, make of the offsets that are live before. -/
def replay (name : String) (live : Finset Nat) (lines : List Line) : Option (Finset Nat) :=
  (lines.filter (·.level = .trace)).foldlM (track name) live

end Line

/-- An event of a heap of the given name that can be told from its line, if it is a trace event. -/
def Event.Legible (name : String) (event : Event) : Prop :=
  event.level = .trace → event.line.event? name = some event

theorem Line.replay_map_line {name : String} {log : List Event}
    (hlegible : ∀ event ∈ log, event.Legible name) (live : Finset Nat) :
    replay name live (log.map Event.line) = Event.replay live log := by
  have hlines : (log.map Event.line).filter (·.level = .trace) =
      (log.filter (·.level = .trace)).map Event.line :=
    List.filter_map
  rw [replay, Event.replay, hlines, List.foldlM_map]
  have htracked (live : Finset Nat) (event : Event)
      (hmem : event ∈ log.filter (·.level = .trace)) :
      track name live event.line = event.track live := by
    obtain ⟨hlisted, htrace⟩ := List.mem_filter.mp hmem
    rw [track, hlegible event hlisted (of_decide_eq_true htrace), Option.bind_some]
  generalize log.filter (·.level = .trace) = entries at htracked
  induction entries generalizing live with
  | nil => rfl
  | cons event entries ih =>
    rw [List.foldlM_cons, List.foldlM_cons, htracked live event List.mem_cons_self]
    exact congrArg _ (funext fun live =>
      ih live fun live other hmem => htracked live other (List.mem_cons_of_mem _ hmem))

/-! ## What calls report -/

/-- What a call on a heap of the given name logs if it replies with a value. -/
def Call.report (name : String) : {α : Type} → Call α → α → List Event
  | _, .realloc handle newSize, moved =>
    if moved = handle then [] else [.heapRelocated name handle.offset moved.offset newSize]
  | _, .free handle, _ => [.heapFreed name handle.offset]
  | _, call, value => match call.request?, call.issued? value with
    | some (size, _), some handle => [.heapAllocated name handle.offset size]
    | _, _ => []

theorem Call.report_of_request {α : Type} {call : Call α} {value : α} {size alignment : Nat}
    {handle : Handle} (hrequest : call.request? = some (size, alignment))
    (hvalue : call.issued? value = some handle) (name : String) :
    call.report name value = [.heapAllocated name handle.offset size] := by
  cases call <;> simp_all [Call.report, Call.request?, Call.issued?]

theorem Call.report_of_isQuery {α : Type} {call : Call α} (hquery : call.isQuery = true)
    (name : String) (value : α) : call.report name value = [] := by
  cases call <;> simp_all [Call.report, Call.request?, Call.isQuery]

theorem Call.report_legible {α : Type} (call : Call α) (name : String) (value : α) :
    ∀ event ∈ call.report name value, event.Legible name := by
  cases call with
  | realloc handle newSize =>
    rw [report]
    split
    · exact nofun
    · exact List.forall_mem_singleton.mpr fun _ => if_pos rfl
  | free handle => exact List.forall_mem_singleton.mpr fun _ => if_pos rfl
  | alignedAlloc | alloc | allocZero | construct =>
    exact List.forall_mem_singleton.mpr fun _ => if_pos rfl
  | header | bytes | overwrite | read => exact nofun

/-- A call logs its fault and changes nothing, or replies with a value and logs a report of it. -/
inductive Outcome.Reports {σ α : Type} (start : σ) (report : α → List Event) : Outcome σ α → Prop where
  | failed (fault : Fault) : Reports start report (.failed fault start)
  | done {value : α} {after : σ} {events : List Event} (hevents : events = report value) :
    Reports start report ⟨.ok value, after, events⟩

theorem Outcome.Reports.legible {σ α : Type} {start : σ} {report : α → List Event}
    {outcome : Outcome σ α} {name : String} (hreports : outcome.Reports start report)
    (hreport : ∀ value, ∀ event ∈ report value, event.Legible name) :
    ∀ event ∈ outcome.events, event.Legible name := by
  cases hreports with
  | failed fault => exact List.forall_mem_singleton.mpr nofun
  | done hevents =>
    rw [hevents]
    exact hreport _

namespace Heap

open HandleAlloc.Action

section Reports

variable {α : Type} {heap after : Heap} {handle : Handle} {old : Header} {newSize : Nat}

theorem alignedAlloc_reports (hsound : heap.Sound) (size alignment : Nat) :
    (alignedAlloc size alignment heap).Reports heap fun handle =>
      [.heapAllocated heap.name handle.offset size] := by
  obtain ⟨fault, hrun⟩ | ⟨fit, _, _, _, hrun⟩ := alignedAlloc_cases hsound size alignment
  · rw [hrun]
    exact .failed fault
  · rw [hrun]
    exact .done rfl

theorem reports_of_issued {size alignment : Nat} {next : Handle → Action Heap Handle}
    (hsound : heap.Sound)
    (hnext : ∀ handle after, (∃ header, heap.Issued size alignment handle header after) →
      ∃ final, next handle after = ⟨.ok handle, final, []⟩) :
    ((alignedAlloc size alignment >>= next) heap).Reports heap fun handle =>
      [.heapAllocated heap.name handle.offset size] := by
  have hreports := alignedAlloc_reports hsound size alignment
  have hsettles := alignedAlloc_settles hsound size alignment
  rw [bind_run]
  generalize alignedAlloc size alignment heap = outcome at hreports hsettles
  cases hreports with
  | failed fault => exact .failed fault
  | @done handle after events hevents =>
    obtain ⟨final, hrun⟩ := hnext handle after hsettles.effect_of_ok
    simp only [hrun, List.append_nil]
    exact .done hevents

theorem resize_reports (hsound : heap.Sound) (hoccupied : heap.Occupied handle old)
    (newSize : Nat) :
    (resize handle old newSize heap).Reports heap
      ((Call.realloc handle newSize).report heap.name) := by
  by_cases hlt : old.size < newSize
  case neg =>
    obtain ⟨_, after, hrun, _⟩ := resize_run_of_le hsound hoccupied (Nat.le_of_not_lt hlt)
    rw [hrun]
    exact .done (if_pos rfl).symm
  rw [resize_run_of_lt hsound hoccupied hlt]
  cases hstay : heap.blocks.takeTail? (handle.offset + old.size) (newSize - old.size) with
  | some taken => exact .done (if_pos rfl).symm
  | none =>
    simp only
    cases hfit : (heap.vacated handle old).blocks.bestFit? newSize old.alignment with
    | none => exact .failed _
    | some fit =>
      -- The allocation moves, and a move is not to where it is.
      have hne : (⟨0, fit.offset⟩ : Handle) ≠ handle := by
        rw [ne_eq, (Resized.moved hlt hstay hfit).moved_eq_iff hsound hoccupied, not_or,
          ← takeTail?_eq_none_iff_not_extensible hsound]
        exact ⟨Nat.not_le_of_lt hlt, hstay⟩
      exact .done (if_neg hne).symm

theorem realloc_reports (hsound : heap.Sound) (handle : Handle) (newSize : Nat) :
    (realloc handle newSize heap).Reports heap
      ((Call.realloc handle newSize).report heap.name) := by
  obtain ⟨fault, hrun⟩ | ⟨old, hoccupied, _, hrun⟩ := realloc_cases hsound handle newSize
  · rw [hrun]
    exact .failed fault
  · rw [hrun]
    exact resize_reports hsound hoccupied newSize

theorem free_reports (hsound : heap.Sound) (handle : Handle) :
    (free handle heap).Reports heap ((Call.free handle).report heap.name) := by
  obtain ⟨fault, hrun⟩ | ⟨old, _, hrun⟩ := free_cases hsound handle
  · rw [hrun]
    exact .failed fault
  · rw [hrun]
    exact .done rfl

theorem call_reports (hsound : heap.Sound) (call : Call α) :
    (call.run heap).Reports heap (call.report heap.name) := by
  cases call with
  | alignedAlloc size alignment => exact alignedAlloc_reports hsound size alignment
  | alloc size => exact alignedAlloc_reports hsound size defaultAlignment
  | allocZero size =>
    apply reports_of_issued hsound
    rintro handle after ⟨header, hissued⟩
    obtain ⟨final, hrun, _⟩ := hissued.zeroed_run
    exact ⟨final, hrun⟩
  | construct value =>
    apply reports_of_issued hsound
    rintro handle after ⟨header, hissued⟩
    obtain ⟨final, hrun, _⟩ := hissued.constructed_run value
    exact ⟨final, hrun⟩
  | realloc handle newSize => exact realloc_reports hsound handle newSize
  | free handle => exact free_reports hsound handle
  | header handle =>
    rw [Call.run, show Allocator.header handle heap = _ from header_run handle heap]
    cases heap.header? handle with
    | none => exact .failed _
    | some header => exact .done rfl
  | bytes handle =>
    rw [Call.run, Allocator.bytes_run_of_region (region_run_eq handle heap)]
    cases heap.region? handle with
    | none => exact .failed _
    | some place => exact .done rfl
  | overwrite handle position data =>
    rw [Call.run, Allocator.overwrite_run_of_region (region_run_eq handle heap)]
    cases heap.region? handle with
    | none => exact .failed _
    | some place => exact .done rfl
  | read handle =>
    rw [Call.run, Allocator.read_run_of_region (region_run_eq handle heap)]
    cases heap.region? handle with
    | none => exact .failed _
    | some place =>
      simp only [Option.elim_some]
      split
      · exact .done rfl
      · exact .failed _

end Reports

namespace Ledger

def offsets (live : List Holding) : Finset Nat := (live.map (·.handle.offset)).toFinset

/-- The ledgers that well-behaved calls lead to, each with what was logged on the way. -/
inductive Logged (start : Heap) (opening : List Event) : Ledger → List Event → Prop where
  | start : Logged start opening ⟨start, []⟩ opening
  | step {ledger : Ledger} {log : List Event} {α : Type} (hlogged : Logged start opening ledger log)
    (call : Call α) (hallows : ledger.Allows call) :
    Logged start opening (ledger.next call) (log ++ (call.run ledger.heap).events)

section Journal

variable {σ α : Type} {supply : Supply} {settings : HeapSettings} {state : σ} {start : Heap}
  {ledger : Ledger} {call : Call α} {live left right : List Holding} {holding : Holding}
  {other : Holding} {heap after : Heap} {offset : Nat} {opening log : List Event}

theorem mem_offsets : offset ∈ offsets live ↔ ∃ holding ∈ live, holding.handle.offset = offset := by
  rw [offsets, List.mem_toFinset, List.mem_map]

theorem offsets_around (left right : List Holding) (holding : Holding) :
    offsets (left ++ [holding] ++ right) =
      insert holding.handle.offset (offsets (left ++ right)) := by
  ext offset
  simp only [Finset.mem_insert, mem_offsets, mem_around, List.mem_singleton, or_and_right,
    exists_or, exists_eq_left]
  rw [eq_comm (a := offset)]

theorem Balanced.offset_notMem (hbalanced : ledger.Balanced)
    (hlive : ledger.live = left ++ [holding] ++ right) :
    holding.handle.offset ∉ offsets (left ++ right) := by
  rw [mem_offsets]
  rintro ⟨other, hother, hsame⟩
  have hmem : holding ∈ ledger.live := by
    rw [hlive]
    simp
  have hlisted : other ∈ ledger.live := by
    rw [hlive]
    exact mem_around.mpr (Or.inr hother)
  have hhandle : other.handle = holding.handle := by
    rw [hbalanced.handle_eq hmem, hbalanced.handle_eq hlisted, hsame]
  exact (hbalanced.of_live_eq hlive).handle_ne hother hhandle

theorem Balanced.replay_alloc (hbalanced : Balanced ⟨heap, left ++ [holding] ++ right⟩)
    (name : String) (size : Nat) :
    Event.replay (offsets (left ++ right)) [.heapAllocated name holding.handle.offset size] =
      some (offsets (left ++ [holding] ++ right)) := by
  have hnew := hbalanced.offset_notMem rfl
  rw [Event.replay_singleton rfl, Event.track, if_neg hnew, offsets_around]

theorem Balanced.replay_free (hbalanced : Balanced ⟨heap, left ++ [holding] ++ right⟩)
    (name : String) :
    Event.replay (offsets (left ++ [holding] ++ right))
      [.heapFreed name holding.handle.offset] = some (offsets (left ++ right)) := by
  have hother := hbalanced.offset_notMem rfl
  rw [Event.replay_singleton rfl, Event.track, offsets_around,
    if_pos (Finset.mem_insert_self _ _), Finset.erase_insert hother]

theorem Balanced.replay_move (hbalanced : Balanced ⟨heap, left ++ [holding] ++ right⟩)
    (hafter : Balanced ⟨after, left ++ [other] ++ right⟩)
    (hne : other.handle ≠ holding.handle) (name : String) (newSize : Nat) :
    Event.replay (offsets (left ++ [holding] ++ right))
      [.heapRelocated name holding.handle.offset other.handle.offset newSize] =
        some (offsets (left ++ [other] ++ right)) := by
  have hold := hbalanced.offset_notMem rfl
  have hnew := hafter.offset_notMem rfl
  have hoffset : other.handle.offset ≠ holding.handle.offset := by
    intro hsame
    apply hne
    calc
      other.handle = ⟨0, other.handle.offset⟩ := hafter.handle_eq (by simp)
      _ = ⟨0, holding.handle.offset⟩ := by rw [hsame]
      _ = holding.handle := (hbalanced.handle_eq (by simp)).symm
  have hmoves : holding.handle.offset ∈ offsets (left ++ [holding] ++ right) ∧
      other.handle.offset ∉ offsets (left ++ [holding] ++ right) := by
    rw [offsets_around]
    exact ⟨Finset.mem_insert_self _ _, fun hmem =>
      (Finset.mem_insert.mp hmem).elim hoffset hnew⟩
  rw [Event.replay_singleton rfl, Event.track, if_pos hmoves, offsets_around,
    Finset.erase_insert hold, offsets_around]

/-- What a call logs is what it does to the live allocations. The cases are those of its effect, and
its report says which. -/
theorem Balanced.replay_next (hbalanced : ledger.Balanced) (hallows : ledger.Allows call) :
    Event.replay (offsets ledger.live) (call.run ledger.heap).events =
      some (offsets (ledger.next call).live) := by
  have hsettles := call_settles hbalanced.sound call
  have hreports := call_reports hbalanced.sound call
  generalize hrun : call.run ledger.heap = outcome at hsettles hreports
  cases hreports with
  | failed fault =>
    rw [next_of_failed hrun]
    rfl
  | @done value after events hevents =>
    simp only [hevents]
    cases hsettles.effect_of_ok with
    | issued hrequest hvalue hissued =>
      have hturn := turn_of_issued hrun hrequest hvalue hissued
      have hafter := (hturn.balanced hbalanced).of_live_eq hturn.after
      rw [Call.report_of_request hrequest hvalue, hturn.after]
      exact hafter.replay_alloc _ _
    | @resized handle moved old header newSize _ hoccupied hpos hresized =>
      obtain ⟨left, holding, right, hlive, rfl, rfl, hothers⟩ :=
        hbalanced.split_of_decoded (hallows _ rfl) hoccupied.decoded
      have hturn := turn_of_resized hbalanced hlive hothers hrun hpos hoccupied hresized
      rw [hlive, hturn.after, Call.report]
      by_cases hstay : moved = holding.handle
      case pos =>
        rw [if_pos hstay, offsets_around, offsets_around, hstay]
        rfl
      case neg =>
        rw [if_neg hstay]
        exact (hbalanced.of_live_eq hlive).replay_move
          ((hturn.balanced hbalanced).of_live_eq hturn.after) hstay _ _
    | freed hoccupied =>
      obtain ⟨left, holding, right, hlive, rfl, rfl, hothers⟩ :=
        hbalanced.split_of_decoded (hallows _ rfl) hoccupied.decoded
      have hturn := turn_of_freed hbalanced hlive hothers hrun hoccupied
      rw [hlive, hturn.after, Call.report, List.append_nil]
      exact (hbalanced.of_live_eq hlive).replay_free _
    | overwritten hdecoded =>
      rw [next_of_ok hrun]
      rfl
    | observed hquery =>
      rw [next_of_ok hrun, settle_of_isQuery hquery, Call.report_of_isQuery hquery]
      rfl

theorem Logged.reachable (hlogged : Logged start opening ledger log) : Reachable start ledger := by
  induction hlogged with
  | start => exact .start
  | step _ call hallows ih => exact ih.step call hallows

theorem Logged.replay (hlogged : Logged start opening ledger log)
    (hstart : Balanced ⟨start, []⟩) (hopening : Event.replay ∅ opening = some ∅) :
    Event.replay ∅ log = some (offsets ledger.live) := by
  induction hlogged with
  | start => exact hopening
  | step hlogged call hallows ih =>
    obtain ⟨hbalanced, _⟩ := hlogged.reachable.balanced hstart
    rw [Event.replay_append, ih]
    exact hbalanced.replay_next hallows

/-- A heap keeps its name, and writes it on every trace line. -/
theorem Logged.legible (hlogged : Logged start opening ledger log)
    (hstart : Balanced ⟨start, []⟩) (hopening : ∀ event ∈ opening, event.Legible start.name) :
    ledger.heap.name = start.name ∧ ∀ event ∈ log, event.Legible start.name := by
  induction hlogged with
  | start => exact ⟨rfl, hopening⟩
  | step hlogged call hallows ih =>
    obtain ⟨hname, hlegible⟩ := ih
    obtain ⟨hbalanced, _⟩ := hlogged.reachable.balanced hstart
    obtain ⟨_, _, _, _, hturn⟩ := exists_turn hbalanced hallows
    refine ⟨hturn.exchange.name_eq.trans hname, List.forall_mem_append.mpr ⟨hlegible, ?_⟩⟩
    apply (call_reports hbalanced.sound call).legible
    rw [hname]
    exact call.report_legible start.name

theorem events_create (hcreated : (create supply settings state).reply = .ok start) :
    (create supply settings state).events =
      [.heapInitialized settings.name settings.totalSize] := by
  obtain ⟨hpos, hgranted, _⟩ := reply_create_eq_ok_iff.mp hcreated
  simp [create, bind_run, emit_run, pure_run, Nat.ne_of_gt hpos, hgranted]

theorem Balanced.used_eq_zero_iff (hbalanced : ledger.Balanced) :
    ledger.heap.used = 0 ↔ offsets ledger.live = ∅ := by
  rw [hbalanced.used_eq, List.sum_eq_zero_iff_forall_eq_nat, offsets, List.toFinset_eq_empty_iff,
    List.map_eq_nil_iff, List.eq_nil_iff_forall_not_mem]
  simp only [List.forall_mem_map]
  apply forall₂_congr
  intro holding hmem
  have hspan := (within_of_header? (hbalanced.decoded holding hmem)).start_lt
  rw [Holding.bytes, Header.bytes, length_interval]
  exact iff_of_false (by omega) not_false

theorem Balanced.events_destroy (hbalanced : ledger.Balanced) :
    (destroy ledger.heap).events =
      if offsets ledger.live = ∅ then [.heapDestroyed ledger.heap.name]
      else [.heapLeaked ledger.heap.name ledger.heap.used] := by
  simp only [destroy, bind_run, get_run, emit_run, List.nil_append, ← hbalanced.used_eq_zero_iff,
    gt_iff_lt, Nat.pos_iff_ne_zero, ite_not]
  split <;> rfl

/-- The trace events of a heap determine its live allocations, and none adds an offset that is live or
takes away one that is not. The last event of a heap is a warning if any are left. The levels, messages
and fields of the lines that are written tell as much. -/
theorem replay_log (hcreated : (create supply settings state).reply = .ok start)
    (hlogged : Logged start (create supply settings state).events ledger log) :
    Event.replay ∅ log = some (offsets ledger.live) ∧
      Line.replay settings.name ∅ (log.map Event.line) = some (offsets ledger.live) ∧
      (destroy ledger.heap).events =
        (if offsets ledger.live = ∅ then [.heapDestroyed ledger.heap.name]
        else [.heapLeaked ledger.heap.name ledger.heap.used]) ∧
      (destroy ledger.heap).events.map Event.line =
        if offsets ledger.live = ∅ then
          [⟨.debug, "free-list allocator destroyed", [("allocator", .text settings.name)]⟩]
        else
          [⟨.warn, "free-list allocator destroyed with live allocations",
            [("allocator", .text settings.name), ("used_size", .number ledger.heap.used)]⟩] := by
  obtain ⟨hpos, hgranted, rfl⟩ := reply_create_eq_ok_iff.mp hcreated
  have hstart := balanced_fresh hpos hgranted
  rw [events_create hcreated] at hlogged
  have hreplay := hlogged.replay hstart rfl
  obtain ⟨hname, hlegible⟩ := hlogged.legible hstart (List.forall_mem_singleton.mpr nofun)
  obtain ⟨hbalanced, _⟩ := hlogged.reachable.balanced hstart
  have hdestroy := hbalanced.events_destroy
  refine ⟨hreplay, (Line.replay_map_line hlegible ∅).trans hreplay, hdestroy, ?_⟩
  rw [hdestroy, apply_ite (List.map Event.line), hname]
  rfl

/-- Two allocations, of which the first moves behind the other and then shrinks in place, a request
that fails, and a free. -/
theorem replay_log_of_move :
    let start := fresh ⟨"general", 140, false⟩
    let opening := (create Supply.ample ⟨"general", 140, false⟩ ()).events
    let second := next (next ⟨start, []⟩ (.alignedAlloc 1 1)) (.alignedAlloc 1 1)
    let shrunk := (second.next (.realloc ⟨0, 32⟩ 5)).next (.realloc ⟨0, 98⟩ 2)
    let last := (shrunk.next (.alloc 200)).next (.free ⟨0, 65⟩)
    ∃ log, log = [.heapInitialized "general" 140, .heapAllocated "general" 32 1,
        .heapAllocated "general" 65 1, .heapRelocated "general" 32 98 5,
        .failure (.outOfMemory "general" 200), .heapFreed "general" 65] ∧
      Logged start opening last log ∧ Event.replay ∅ log = some (offsets last.live) ∧
        Line.replay "general" ∅ (log.map Event.line) = some (offsets last.live) ∧
        (destroy last.heap).events =
          (if offsets last.live = ∅ then [.heapDestroyed last.heap.name]
          else [.heapLeaked last.heap.name last.heap.used]) ∧
        (destroy last.heap).events.map Event.line =
          if offsets last.live = ∅ then
            [⟨.debug, "free-list allocator destroyed", [("allocator", .text "general")]⟩]
          else
            [⟨.warn, "free-list allocator destroyed with live allocations",
              [("allocator", .text "general"), ("used_size", .number last.heap.used)]⟩] := by
  have hcreated : (create Supply.ample ⟨"general", 140, false⟩ ()).reply =
      .ok (fresh ⟨"general", 140, false⟩) :=
    reply_create_eq_ok_iff.mpr ⟨by decide, by decide, rfl⟩
  have hstart : Logged (fresh ⟨"general", 140, false⟩)
      (create Supply.ample ⟨"general", 140, false⟩ ()).events _ _ := .start
  have hsecond := (hstart.step (.alignedAlloc 1 1) nofun).step (.alignedAlloc 1 1) nofun
  have hmoved := hsecond.step (.realloc ⟨0, 32⟩ 5) (by rintro handle ⟨⟩; decide +kernel)
  have hshrunk := hmoved.step (.realloc ⟨0, 98⟩ 2) (by rintro handle ⟨⟩; decide +kernel)
  have hlast := (hshrunk.step (.alloc 200) nofun).step (.free ⟨0, 65⟩)
    (by rintro handle ⟨⟩; decide +kernel)
  obtain ⟨hreplay, hlines, hdestroy, hfinal⟩ := replay_log hcreated hlast
  exact ⟨_, by decide +kernel, hlast, hreplay, hlines, hdestroy, hfinal⟩

end Journal

end Ledger

end Heap

end HandleAlloc
