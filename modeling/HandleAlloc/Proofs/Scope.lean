import HandleAlloc.Proofs.Call
import HandleAlloc.Scope
/-!
# Scopes and their arenas

A call through a scope is that call on the arena of the scope (`Scope.run_eq`): what holds of the
calls on an arena holds of those through scopes.
-/

namespace HandleAlloc

namespace Scope

open HandleAlloc.Action

variable {α β : Type}

theorem onArena_run (action : Action Arena α) (scope : Scope) : onArena action scope =
    ⟨(action scope.arena).reply, { scope with arena := (action scope.arena).state },
      (action scope.arena).events⟩ := rfl

theorem onArena_bind (first : Action Arena α) (next : α → Action Arena β) :
    onArena (first >>= next) = onArena first >>= fun value => onArena (next value) := by
  funext scope
  simp only [onArena_run, bind_run]
  rcases first scope.arena with ⟨reply, middle, events⟩
  cases reply <;> rfl

theorem onArena_require (condition : Prop) [Decidable condition] :
    onArena (require condition) = require condition := by
  unfold require
  split <;> rfl

/-- The operations that are defined from those of the class look at a scope through its arena. -/
theorem bytes_eq (handle : Handle) : (Allocator.bytes handle : Action Scope ByteArray) =
    onArena (Allocator.bytes handle) := by
  rw [Allocator.bytes, Allocator.bytes, onArena_bind]
  rfl

theorem run_eq (call : Call α) : (call.run : Action Scope α) = onArena call.run := by
  cases call with
  | alignedAlloc | alloc | realloc | free | header => rfl
  | allocZero size =>
    simp only [Call.run, Allocator.allocZero, onArena_bind]
    rfl
  | construct value =>
    simp only [Call.run, Allocator.construct, onArena_bind, onArena_require]
    rfl
  | bytes handle => exact bytes_eq handle
  | overwrite handle position data =>
    simp only [Call.run, Allocator.overwrite, onArena_bind]
    rfl
  | read handle =>
    simp only [Call.run, Allocator.read, onArena_bind, bytes_eq, apply_ite onArena]
    rfl

end Scope

end HandleAlloc
