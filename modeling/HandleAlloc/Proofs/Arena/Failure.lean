import HandleAlloc.Proofs.Arena.Calls
import HandleAlloc.Proofs.Scope
/-!
# Failed calls

A call that replies with a fault leaves the arena as it was, whatever bytes its pages hold. All faults
of a move come from the allocation it is made of, after which only the cursor has to be put back. A
header that no allocation wrote may give a move a target on the page it leaves; the call traps then,
which is no fault.
-/

namespace HandleAlloc

/-- The state is as it was if the reply is a fault. -/
def Outcome.Atomic {σ α : Type} (start : σ) (outcome : Outcome σ α) : Prop :=
  ∀ fault, outcome.reply = .error fault → outcome.state = start

namespace Action

variable {σ α β : Type}

/-- An action that replies with a value or traps. -/
def Faultless (action : Action σ α) : Prop := ∀ state fault, (action state).reply ≠ .error fault

theorem Faultless.pure (value : α) : (Action.pure value : Action σ α).Faultless :=
  fun _ _ => nofun

theorem Faultless.get : (MonadState.get : Action σ σ).Faultless := fun _ _ => nofun

theorem Faultless.modify (change : σ → σ) : (modify change : Action σ Unit).Faultless :=
  fun _ _ => nofun

theorem Faultless.require (condition : Prop) [Decidable condition] :
    (require condition : Action σ Unit).Faultless := by
  intro state fault
  by_cases hcondition : condition
  · rw [require_run_of hcondition]
    exact nofun
  · rw [require_run_of_not hcondition]
    exact nofun

theorem Faultless.demand (value? : Option α) : (demand value? : Action σ α).Faultless := by
  cases value? with
  | none => exact fun _ _ => nofun
  | some value => exact .pure value

theorem Faultless.bind {first : Action σ α} {next : α → Action σ β} (hfirst : first.Faultless)
    (hnext : ∀ value, (next value).Faultless) : (first >>= next).Faultless := by
  intro state fault
  have hfirst := hfirst state
  rw [bind_run]
  rcases hrun : first state with ⟨reply, middle, events⟩
  rw [hrun] at hfirst
  cases reply with
  | ok value => exact hnext value middle fault
  | error other => exact absurd rfl (hfirst other)
  | trap => exact nofun

end Action

namespace Outcome

variable {σ α β : Type} {start state : σ} {effect : α → σ → Prop}

theorem Settles.atomic {outcome : Outcome σ α} (hsettles : outcome.Settles start effect) :
    outcome.Atomic start :=
  fun _ => hsettles.state_eq_of_error

theorem Atomic.bind {first : Action σ α} {next : α → Action σ β}
    (hfirst : (first state).Atomic start) (hnext : ∀ value, (next value).Faultless) :
    ((first >>= next) state).Atomic start := by
  intro fault hfault
  rw [Action.bind_run] at hfault ⊢
  rcases hrun : first state with ⟨reply, middle, events⟩
  rw [hrun] at hfirst hfault
  cases reply with
  | ok value => exact absurd hfault (hnext value middle fault)
  | error other => exact hfirst other rfl
  | trap => simp only [reduceCtorEq] at hfault

theorem Atomic.onFault {action : Action σ α} {cleanup : Action σ Unit}
    (haction : (action state).Atomic state) (hcleanup : (cleanup state).state = start) :
    (action.onFault cleanup state).Atomic start := by
  intro fault hfault
  rw [Action.onFault] at hfault ⊢
  rcases hrun : action state with ⟨reply, middle, events⟩
  rw [hrun] at haction hfault
  cases reply with
  | ok value => simp only [reduceCtorEq] at hfault
  | error other =>
    obtain rfl : middle = state := haction other rfl
    exact hcleanup
  | trap => simp only [reduceCtorEq] at hfault

end Outcome

namespace Arena

open HandleAlloc.Action

variable {α : Type} {arena : Arena} {handle : Handle} {old : Header} {size alignment : Nat}

theorem place?_eq_none_of_le (hpower : alignment.isPowerOfTwo) (hlarge : wordSize ≤ alignment)
    (block : Block) : block.place? size alignment = none := by
  rw [Option.eq_none_iff_forall_ne_some]
  intro offset hplace
  exact Nat.not_lt_of_le hlarge (Block.placed_of_place? hpower hplace).alignment_lt

theorem alignedAlloc_run_of_le (hsound : arena.Sound) (hlarge : wordSize ≤ alignment) (size : Nat) :
    alignedAlloc size alignment arena =
      if ¬ alignment.isPowerOfTwo then .failed (.invalidAlignment arena.name alignment) arena
      else if size = 0 then .failed (.zeroSize arena.name) arena
      else ⟨.trap, arena, []⟩ := by
  have hslack : ¬ headerSize + alignment - 1 < wordSize := by
    rw [headerSize]
    omega
  simp only [alignedAlloc, bind_run, get_run, checkRequest_run]
  by_cases hpower : alignment.isPowerOfTwo
  case neg =>
    rw [if_pos hpower, if_pos hpower]
    rfl
  by_cases hsize : size = 0
  case pos =>
    rw [if_neg (not_not_intro hpower), if_neg (not_not_intro hpower), if_pos hsize, if_pos hsize]
    rfl
  rw [if_neg (not_not_intro hpower), if_neg (not_not_intro hpower), if_neg hsize, if_neg hsize]
  simp only [place, bind_run, bump?_run hsound hpower, place?_eq_none_of_le hpower hlarge, advance,
    get_run, word, require_run_of_not hslack, List.nil_append]

theorem alignedAlloc_atomic (hsound : arena.Sound) (size alignment : Nat) :
    (alignedAlloc size alignment arena).Atomic arena := by
  by_cases hword : alignment < wordSize
  case pos => exact (alignedAlloc_settles hsound hword size).atomic
  case neg =>
    rw [alignedAlloc_run_of_le hsound (Nat.le_of_not_lt hword)]
    split
    · exact fun _ _ => rfl
    · split
      · exact fun _ _ => rfl
      · exact fun _ => nofun

theorem faultless_carry (handle : Handle) (size : Nat) (target : Handle) :
    (carry handle size target).Faultless := by
  apply Faultless.bind
  · exact .bind (.require _) fun _ => .bind .get fun _ => .bind (.demand _) fun _ =>
      .bind (.require _) fun _ => .bind .get fun _ => .bind (.demand _) fun _ =>
        .bind (.require _) fun _ => .modify _
  · intro _
    apply Faultless.bind
    · exact .bind .get fun _ => .bind (.demand _) fun _ => .bind (.require _) fun _ => .modify _
    · exact fun _ => .pure target

theorem relocate_atomic (hdecoded : arena.decoded? handle = some old)
    (htop : handle.stop old = arena.cursor) (newSize : Nat) :
    (relocate handle old newSize arena).Atomic arena := by
  rw [relocate_eq]
  apply Outcome.Atomic.bind _ (faultless_carry handle old.size)
  apply Outcome.Atomic.onFault
  · exact alignedAlloc_atomic (rewound_sound hdecoded htop) newSize old.alignment
  · rfl

/-- The cursor of an arena that has a topmost allocation stands within a page. -/
theorem realloc_atomic (handle : Handle) (newSize : Nat) (arena : Arena) :
    (realloc handle newSize arena).Atomic arena := by
  rw [realloc_run]
  cases hheader : arena.header? handle with
  | none => exact fun _ _ => rfl
  | some old =>
    obtain ⟨hdecoded, _⟩ := header?_eq_some_iff.mp hheader
    simp only
    split
    case isTrue => exact fun _ _ => rfl
    case isFalse htop =>
      split
      case isTrue => exact fun _ _ => rfl
      case isFalse =>
        split
        case isTrue => exact fun _ _ => rfl
        case isFalse =>
          split
          case isTrue => exact fun _ => nofun
          case isFalse => exact relocate_atomic hdecoded (Decidable.not_not.mp htop) newSize

theorem call_atomic (hsound : arena.Sound) (call : Call α) : (call.run arena).Atomic arena := by
  cases call with
  | alignedAlloc size alignment => exact alignedAlloc_atomic hsound size alignment
  | realloc handle newSize => exact realloc_atomic handle newSize arena
  | free handle => exact (free_settles handle arena).atomic
  | alloc size => exact alignedAlloc_atomic hsound size defaultAlignment
  | allocZero size => exact (allocZero_settles hsound size).atomic
  | construct value => exact (construct_settles hsound value).atomic
  | overwrite handle position data => exact (overwrite_settles handle position data arena).atomic
  | header | bytes | read =>
    exact (Call.query_settles rfl (header_settles · arena) (region_run_eq · arena)).atomic

/-- A call that fails on an arena, or through a scope, changes no byte, no page and not the cursor. -/
theorem failed_call_unchanged (hsound : arena.Sound) (call : Call α) (snapshot : Cursor) :
    (call.run arena).Atomic arena ∧
      (call.run (Scope.mk arena snapshot)).Atomic ⟨arena, snapshot⟩ := by
  have hatomic := call_atomic hsound call
  refine ⟨hatomic, ?_⟩
  intro fault hfault
  rw [Scope.run_eq, Scope.onArena_run] at hfault ⊢
  rw [hatomic fault hfault]

/-- A move that a header of the client's own making sends to the start of its page, and that does not
find room on it nor on another page. -/
theorem failed_call_unchanged_of_forged_header :
    let page := Header.store (Memory.zeros 128) 64 ⟨0, 16, 8, 7⟩
    let arena : Arena :=
      ⟨"scratch", page, [Memory.zeros 64], ⟨0, 80⟩, 64, some 1, false, Supply.ample⟩
    let call := Call.realloc ⟨0, 64⟩ 100
    let outcome := call.run (Scope.mk arena .start)
    arena.Sound ∧ (call.run arena).reply = .error (.outOfMemory "scratch" 100) ∧
      (call.run arena).state = arena ∧ outcome.reply = .error (.outOfMemory "scratch" 100) ∧
      outcome.state = ⟨arena, .start⟩ := by
  intro page arena call outcome
  have hsound : arena.Sound := by
    refine ⟨128, ?_, by decide⟩
    simp [arena, page, pageLength?, pages]
  obtain ⟨hdirect, hscoped⟩ := failed_call_unchanged hsound call .start
  have hfailed : (call.run arena).reply = .error (.outOfMemory "scratch" 100) := by decide +kernel
  have hinside : outcome.reply = .error (.outOfMemory "scratch" 100) := by decide +kernel
  exact ⟨hsound, hfailed, hdirect _ hfailed, hinside, hscoped _ hinside⟩

end Arena

end HandleAlloc
