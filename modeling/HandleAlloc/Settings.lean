import HandleAlloc.Action
/-!
# Settings

Names and sizes of the two process-wide allocators, their defaults, and the rule for which
settings are acceptable.
-/

namespace HandleAlloc

structure HeapSettings where
  name : String := "general"
  totalSize : Nat := 16 * 1024 * 1024
  /-- Whether a header has to be genuine for its handle to count as live. The default is that of a
  build with debug assertions; without them it is off. -/
  validateHeaders : Bool := true
  deriving DecidableEq, Repr

structure ArenaSettings where
  name : String := "persistent"
  /-- The least length of an added page in bytes. -/
  pageSize : Nat := 64 * 1024
  /-- How many pages may be added; without a number, as many as the system grants. -/
  maxPages : Option Nat := none
  /-- Whether a header has to be genuine for its handle to count as live. The default is that of a
  build with debug assertions; without them it is off. -/
  validateHeaders : Bool := true
  deriving DecidableEq, Repr

/-- The settings of the process-wide allocators. -/
structure Settings where
  general : HeapSettings := {}
  persistent : ArenaSettings := {}
  deriving DecidableEq, Repr

/-- The first thing wrong with some settings: an empty name or a zero size. -/
def Settings.problem? (settings : Settings) : Option SettingsProblem :=
  if settings.general.name = "" then some (.emptyName "general")
  else if settings.general.totalSize = 0 then some (.zero "general.total_size")
  else if settings.persistent.name = "" then some (.emptyName "persistent")
  else if settings.persistent.pageSize = 0 then some (.zero "persistent.page_size")
  else none

def Settings.check {σ : Type} (settings : Settings) : Action σ Unit :=
  match settings.problem? with
  | some problem => Action.fail (.invalidSettings problem)
  | none => pure ()

end HandleAlloc
