import HandleAlloc.Arena
/-!
# Scopes

A scope is an arena together with the cursor it had when the scope was opened. Allocations
made through it are taken back all at once when it ends, by setting the cursor back. A scope
opened within a scope works on the same arena.
-/

namespace HandleAlloc

structure Scope where
  arena : Arena
  /-- The cursor that the arena returns to when the scope ends. -/
  snapshot : Cursor

namespace Scope

def enter : Action Arena Scope := do
  let arena ← get
  Action.emit (.scopeOpened arena.name arena.cursor)
  return ⟨arena, arena.cursor⟩

def leave (scope : Scope) : Action Arena Unit := do
  set scope.arena
  Arena.rewind scope.snapshot

def onArena {α : Type} (action : Action Arena α) : Action Scope α :=
  action.within Scope.arena fun arena scope => { scope with arena }

def enterNested : Action Scope Scope := onArena enter

instance : Allocator Scope where
  name scope := scope.arena.name
  alignedAlloc size alignment := onArena (Arena.alignedAlloc size alignment)
  realloc handle newSize := onArena (Arena.realloc handle newSize)
  free handle := onArena (Arena.free handle)
  header handle := onArena (Arena.header handle)
  region handle := onArena (Arena.region handle)
  load place scope := scope.arena.load place
  store place position data scope := { scope with arena := scope.arena.store place position data }

end Scope

end HandleAlloc
