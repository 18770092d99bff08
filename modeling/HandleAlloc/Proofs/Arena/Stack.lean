import Mathlib.Data.List.Pairwise
import HandleAlloc.Proofs.Arena.Transition
/-!
# Stacks of allocations

The live allocations of an arena, the newest first, form a `Stack` from the position they began at up
to the cursor: each starts where the one before it ends, or at the start of a later page. What the
allocations on one page look like follows (`Stack.onPage`), and which of them is the topmost
(`Stack.getLast?_onPage_iff`).
-/

namespace HandleAlloc

namespace Arena

/-- A live allocation. -/
structure Holding where
  handle : Handle
  /-- Its header as it was last written. -/
  header : Header
  deriving DecidableEq

namespace Holding

def start (holding : Holding) : Cursor := holding.handle.start holding.header

def stop (holding : Holding) : Cursor := holding.handle.stop holding.header

def Apart (a b : Holding) : Prop := b.stop ≤ a.start ∨ a.stop ≤ b.start

instance : Std.Symm Apart := ⟨fun _ _ => Or.symm⟩

/-- It is an allocation of as many bytes as its header says. -/
def Proper (holding : Holding) : Prop :=
  holding.header.Serves holding.handle.offset holding.header.size holding.header.alignment

theorem Proper.start_lt_stop {holding : Holding} (hproper : holding.Proper) :
    holding.start < holding.stop :=
  Handle.start_lt_stop hproper

theorem Proper.start_lt_position {holding : Holding} (hproper : holding.Proper) :
    holding.start < holding.handle.position :=
  Handle.start_lt_position hproper

theorem Proper.position_lt_stop {holding : Holding} (hproper : holding.Proper) :
    holding.handle.position < holding.stop :=
  Handle.position_lt_stop hproper

theorem Apart.notMem_usable {a b : Holding} (hapart : a.Apart b) (hproper : b.Proper)
    (hpage : a.handle.page = b.handle.page) {i : Nat} (hi : i ∈ a.header.bytes a.handle.offset) :
    i ∉ interval b.handle.offset (b.handle.offset + b.header.size) := by
  have hstart := hproper.start_le
  simp only [Apart, start, stop, Handle.start, Handle.stop, Cursor.le_iff] at hapart
  rw [Header.mem_bytes] at hi
  rw [mem_interval]
  omega

theorem Proper.notMem_usable {a b : Holding} (hproper : a.Proper) (hother : b.Proper)
    (hapart : a ≠ b → a.Apart b) (hpage : a.handle.page = b.handle.page) {i : Nat}
    (hi : i ∈ interval (a.handle.offset - headerSize) a.handle.offset) :
    i ∉ interval b.handle.offset (b.handle.offset + b.header.size) := by
  have hstart := hproper.start_le
  rw [mem_interval] at hi
  by_cases hsame : a = b
  · subst hsame
    rw [mem_interval]
    omega
  · apply (hapart hsame).notMem_usable hother hpage
    rw [Header.mem_bytes]
    omega

end Holding

/-- The allocations that lead from `base` to a cursor, the newest first. -/
inductive Stack (base : Cursor) : List Holding → Cursor → Prop where
  | empty : Stack base [] base
  | push {live : List Holding} {holding : Holding} (hstack : Stack base live holding.start)
    (hproper : holding.Proper) : Stack base (holding :: live) holding.stop
  /-- The next page is begun; what stood at its start may be gone. -/
  | turn {live : List Holding} {top : Cursor} (hstack : Stack base live top) :
    Stack base live ⟨top.page + 1, 0⟩

/-- Each of the allocations, the oldest first, starts where the one before it ends. -/
inductive Contiguous : Nat → List Holding → Nat → Prop where
  | nil (position : Nat) : Contiguous position [] position
  | cons {holding : Holding} {rest : List Holding} {last : Nat}
    (hrest : Contiguous (holding.handle.offset + holding.header.size) rest last) :
    Contiguous holding.header.start (holding :: rest) last

def onPage (index : Nat) (live : List Holding) : List Holding :=
  (live.filter (·.handle.page = index)).reverse

section OnPage

variable {index : Nat} {live : List Holding} {holding : Holding}

theorem onPage_cons_of_eq (hpage : holding.handle.page = index) :
    onPage index (holding :: live) = onPage index live ++ [holding] := by
  rw [onPage, List.filter_cons_of_pos (by simpa using hpage), List.reverse_cons, onPage]

theorem onPage_cons_of_ne (hpage : holding.handle.page ≠ index) :
    onPage index (holding :: live) = onPage index live := by
  rw [onPage, List.filter_cons_of_neg (by simpa using hpage), onPage]

end OnPage

section Contiguous

variable {first last : Nat} {held : List Holding} {holding : Holding}

theorem Contiguous.concat (hcontiguous : Contiguous first held holding.header.start) :
    Contiguous first (held ++ [holding]) (holding.handle.offset + holding.header.size) := by
  generalize hmiddle : holding.header.start = middle at hcontiguous
  induction hcontiguous with
  | nil position =>
    subst hmiddle
    exact .cons (.nil _)
  | cons _ ih => exact .cons (ih hmiddle)

theorem Contiguous.last_eq (hcontiguous : Contiguous first held last) :
    held = [] ∧ last = first ∨
      ∃ holding ∈ held, last = holding.handle.offset + holding.header.size := by
  induction hcontiguous with
  | nil => exact Or.inl ⟨rfl, rfl⟩
  | @cons holding rest last hrest ih =>
    obtain ⟨rfl, hlast⟩ | ⟨other, hmem, hlast⟩ := ih
    · exact Or.inr ⟨holding, List.mem_singleton_self _, hlast⟩
    · exact Or.inr ⟨other, List.mem_cons_of_mem _ hmem, hlast⟩

end Contiguous

namespace Stack

variable {base middle top : Cursor} {live older : List Holding} {holding : Holding}

theorem lt_turn (top : Cursor) : top < ⟨top.page + 1, 0⟩ := Or.inl (Nat.lt_succ_self _)

theorem base_le (hstack : Stack base live top) : base ≤ top := by
  induction hstack with
  | empty => exact le_refl _
  | push _ hproper ih => exact le_of_lt (lt_of_le_of_lt ih hproper.start_lt_stop)
  | turn _ ih => exact le_of_lt (lt_of_le_of_lt ih (lt_turn _))

theorem proper (hstack : Stack base live top) (hmem : holding ∈ live) : holding.Proper := by
  induction hstack with
  | empty => exact absurd hmem List.not_mem_nil
  | push _ hproper ih =>
    obtain rfl | hmem := List.mem_cons.mp hmem
    · exact hproper
    · exact ih hmem
  | turn _ ih => exact ih hmem

theorem base_le_start (hstack : Stack base live top) (hmem : holding ∈ live) :
    base ≤ holding.start := by
  induction hstack with
  | empty => exact absurd hmem List.not_mem_nil
  | push hstack _ ih =>
    obtain rfl | hmem := List.mem_cons.mp hmem
    · exact hstack.base_le
    · exact ih hmem
  | turn _ ih => exact ih hmem

theorem stop_le (hstack : Stack base live top) (hmem : holding ∈ live) : holding.stop ≤ top := by
  induction hstack with
  | empty => exact absurd hmem List.not_mem_nil
  | push _ hproper ih =>
    obtain rfl | hmem := List.mem_cons.mp hmem
    · exact le_refl _
    · exact le_of_lt (lt_of_le_of_lt (ih hmem) hproper.start_lt_stop)
  | turn _ ih => exact le_of_lt (lt_of_le_of_lt (ih hmem) (lt_turn _))

theorem top_cases (hstack : Stack base live top) :
    (live = [] ∧ top = base) ∨
      (∃ holding rest, live = holding :: rest ∧ Stack base rest holding.start ∧
        top = holding.stop) ∨
      ∃ below, Stack base live below ∧ top = ⟨below.page + 1, 0⟩ := by
  cases hstack with
  | empty => exact Or.inl ⟨rfl, rfl⟩
  | push hbelow _ => exact Or.inr (Or.inl ⟨_, _, rfl, hbelow, rfl⟩)
  | turn hbelow => exact Or.inr (Or.inr ⟨_, hbelow, rfl⟩)

theorem append (holder : Stack base older middle) (hstack : Stack middle live top) :
    Stack base (live ++ older) top := by
  induction hstack with
  | empty => exact holder
  | push _ hproper ih => exact .push ih hproper
  | turn _ ih => exact .turn ih

theorem pairwise (hstack : Stack base live top) :
    live.Pairwise fun newer older => older.stop ≤ newer.start := by
  induction hstack with
  | empty => exact .nil
  | push hstack _ ih => exact .cons (fun _ hmem => hstack.stop_le hmem) ih
  | turn _ ih => exact ih

theorem apart (hstack : Stack base live top) {other : Holding} (hmem : holding ∈ live)
    (hother : other ∈ live) (hne : holding ≠ other) : holding.Apart other :=
  have hpairwise : live.Pairwise Holding.Apart := hstack.pairwise.imp Or.inl
  hpairwise.forall hmem hother hne

theorem pairwise_position (hstack : Stack base live top) :
    live.Pairwise fun newer older => older.handle.position < newer.handle.position := by
  refine hstack.pairwise.imp_of_mem ?_
  intro newer older hnewer holder hle
  have hstop := (hstack.proper holder).position_lt_stop
  have hstart := (hstack.proper hnewer).start_lt_position
  exact lt_trans (lt_of_lt_of_le hstop hle) hstart

/-- The allocation that ends at the top is the newest one, and what is below it ends where it
starts. -/
theorem pop (hstack : Stack base live top) (hmem : holding ∈ live) (hstop : holding.stop = top) :
    ∃ rest, live = holding :: rest ∧ Stack base rest holding.start := by
  cases hstack with
  | empty => exact absurd hmem List.not_mem_nil
  | @push rest newest hbelow hproper =>
    obtain rfl | hmem := List.mem_cons.mp hmem
    · exact ⟨rest, rfl, hbelow⟩
    · exact absurd (hstop ▸ hbelow.stop_le hmem) (not_le_of_gt hproper.start_lt_stop)
  | turn hbelow => exact absurd (hstop ▸ hbelow.stop_le hmem) (not_le_of_gt (lt_turn _))

/-! ## The allocations on a page -/

theorem onPage_eq_nil (hstack : Stack base live top) {index : Nat} (hlt : top.page < index) :
    onPage index live = [] := by
  rw [onPage, List.reverse_eq_nil_iff, List.filter_eq_nil_iff]
  intro holding hmem
  have hpage : holding.handle.page ≤ top.page := Cursor.page_le (hstack.stop_le hmem)
  simp only [decide_eq_true_iff]
  omega

/-- On each page up to the current one the allocations follow each other from its first byte on, on
the current one up to the cursor. -/
theorem onPage (hstack : Stack .start live top) {index : Nat} (hle : index ≤ top.page) :
    ∃ last, Contiguous 0 (Arena.onPage index live) last ∧ (index = top.page → last = top.top) := by
  induction hstack with
  | empty => exact ⟨0, .nil 0, fun _ => rfl⟩
  | @push live holding hstack hproper ih =>
    have hpage : holding.stop.page = holding.start.page := rfl
    obtain ⟨last, hcontiguous, hlast⟩ := ih hle
    by_cases hindex : index = holding.handle.page
    · have hhere := hlast hindex
      subst hhere
      refine ⟨_, ?_, fun _ => rfl⟩
      rw [onPage_cons_of_eq hindex.symm]
      exact hcontiguous.concat
    · refine ⟨last, ?_, fun hcurrent => absurd hcurrent hindex⟩
      rw [onPage_cons_of_ne (Ne.symm hindex)]
      exact hcontiguous
  | @turn live top hstack ih =>
    by_cases hindex : index ≤ top.page
    · obtain ⟨last, hcontiguous, _⟩ := ih hindex
      exact ⟨last, hcontiguous, fun hcurrent => by simp only at hcurrent; omega⟩
    · rw [hstack.onPage_eq_nil (Nat.lt_of_not_le hindex)]
      exact ⟨0, .nil 0, fun _ => rfl⟩

theorem getLast?_onPage_iff (hstack : Stack base live top) (hmem : holding ∈ live) :
    (Arena.onPage top.page live).getLast? = some holding ↔ holding.stop = top := by
  constructor
  · intro hlast
    cases hstack with
    | empty => exact absurd hmem List.not_mem_nil
    | @push rest newest =>
      have hpage : newest.handle.page = newest.stop.page := rfl
      rw [onPage_cons_of_eq hpage, List.getLast?_concat, Option.some.injEq] at hlast
      rw [hlast]
    | turn hbelow =>
      rw [hbelow.onPage_eq_nil (Nat.lt_succ_self _)] at hlast
      contradiction
  · intro hstop
    obtain ⟨rest, rfl, _⟩ := hstack.pop hmem hstop
    have hpage : holding.handle.page = top.page := congrArg Cursor.page hstop
    rw [onPage_cons_of_eq hpage, List.getLast?_concat]

end Stack

end Arena

end HandleAlloc
