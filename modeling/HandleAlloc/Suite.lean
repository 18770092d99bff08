import HandleAlloc.Heap
import HandleAlloc.Scope
/-!
# The process-wide allocators

A heap for general traffic and an arena for what lives until the end, made together from one
set of settings and given up together.
-/

namespace HandleAlloc

structure Suite where
  persistent : Arena
  general : Heap

namespace Suite

/-- The length of the persistent arena's first page. -/
def persistentInlinePage : Nat := 16 * 1024

/-- Checks the settings and makes both allocators. If the heap cannot be made, the arena is
given up again. -/
def create {σ : Type} (supply : Supply) (settings : Settings) : Action σ Suite := do
  settings.check
  let persistent ← Arena.create supply persistentInlinePage settings.persistent
  let general ← (Heap.create supply settings.general).onFault <|
    Arena.destroy.within (fun _ => persistent) fun _ state => state
  Action.emit <| .suiteInitialized persistent.name general.name general.totalSize
  return { persistent, general }

def onPersistent {α : Type} (action : Action Arena α) : Action Suite α :=
  action.within Suite.persistent fun persistent suite => { suite with persistent }

def onGeneral {α : Type} (action : Action Heap α) : Action Suite α :=
  action.within Suite.general fun general suite => { suite with general }

/-- Gives both allocators up, the persistent one first. -/
def shutdown : Action Suite Unit := do
  let suite ← get
  Action.emit (.suiteShuttingDown suite.general.used suite.persistent.pageCount)
  onPersistent Arena.destroy
  onGeneral Heap.destroy

end Suite

end HandleAlloc
