import HandleAlloc.Handle
/-!
# Faults

Everything that can go wrong, by cause, and the wording of each. `Fault` is what a failed
call replies with; its `message` is also the text of the one failure event it logs.
-/

namespace HandleAlloc

/-- Why a file could not be read. -/
inductive ReadProblem where
  /-- The system gave no contents, for a reason of its own. -/
  | refused (reason : String)
  | notUtf8
  deriving DecidableEq, Repr

/-- What is wrong with the settings of the process-wide allocators. -/
inductive SettingsProblem where
  | unreadable (path : String) (reason : ReadProblem)
  /-- The text is no document, or not one of settings. A reader may say what is wrong with it. -/
  | unparsable (reason : Option String)
  | emptyName (allocator : String)
  | zero (field : String)
  deriving DecidableEq, Repr

/-- The reason of a failed call. All but the last name the allocator that raised it. -/
inductive Fault where
  /-- A request for no bytes, or a backing store of none. -/
  | zeroSize (allocator : String)
  | invalidAlignment (allocator : String) (alignment : Nat)
  | outOfMemory (allocator : String) (requested : Nat)
  /-- The system refused to reserve a buffer or a page. -/
  | reservationRefused (allocator : String) (size : Nat)
  /-- The handle names no live allocation. -/
  | invalidHandle (allocator : String) (handle : Handle)
  /-- The bytes behind the handle are free already. -/
  | doubleFree (allocator : String) (handle : Handle)
  /-- An arena resizes and frees its most recent allocation only. -/
  | notTopOfStack (allocator : String) (handle : Handle)
  | invalidSettings (problem : SettingsProblem)
  deriving DecidableEq, Repr

def ReadProblem.message : ReadProblem → String
  | .refused reason => reason
  | .notUtf8 => "stream did not contain valid UTF-8"

def SettingsProblem.message : SettingsProblem → String
  | .unreadable path reason => s!"failed to read {path}: {reason.message}"
  | .unparsable none => "failed to parse"
  | .unparsable (some reason) => s!"failed to parse: {reason}"
  | .emptyName allocator => s!"{allocator}.name must not be empty"
  | .zero field => s!"{field} must be non-zero"

def Fault.message : Fault → String
  | .zeroSize allocator => s!"zero-sized request to allocator {allocator}"
  | .invalidAlignment allocator alignment =>
    s!"invalid alignment {alignment} for allocator {allocator}: must be a power of two"
  | .outOfMemory allocator requested =>
    s!"out of space for allocator {allocator}: requested {requested} bytes"
  | .reservationRefused allocator size =>
    s!"allocator {allocator} could not reserve {size} bytes from the system"
  | .invalidHandle allocator handle =>
    s!"invalid handle {handle.text} passed to allocator {allocator}"
  | .doubleFree allocator handle => s!"double free of {handle.text} in allocator {allocator}"
  | .notTopOfStack allocator handle =>
    s!"{handle.text} is not the top-of-stack allocation of allocator {allocator}"
  | .invalidSettings problem => s!"invalid configuration: {problem.message}"

end HandleAlloc
