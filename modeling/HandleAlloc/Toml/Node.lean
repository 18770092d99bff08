import HandleAlloc.Toml.Text
/-!
# Documents as trees

The tree that a document describes, and the rules by which statements add to it: which names
may be defined, where, and how often. Tables come about in four ways, and what may be added to
one later depends on the way.
-/

namespace HandleAlloc.Toml

/-- How a table came about. -/
inductive Origin where
  /-- It has a header of its own, or is the whole document. -/
  | header
  /-- It leads to a table that has a header. -/
  | parent
  /-- It leads to a value with a dotted key. -/
  | dotted
  /-- It was written between braces, and is complete. -/
  | braces
  deriving DecidableEq, Repr

/-- A value or table of a document. What a float or a moment says is not kept. -/
inductive Node where
  | string (text : String)
  | integer (value : Int)
  | float
  | boolean (value : Bool)
  | moment
  | array (items : List Node)
  | table (origin : Origin) (entries : List (String × Node))
  /-- Tables with headers in double brackets; only the latest can still be added to. -/
  | tables (latest : List (String × Node)) (earlier : List (List (String × Node)))

namespace Node

def text? : Node → Option String
  | string text => some text
  | _ => none

def natural? : Node → Option Nat
  | integer (.ofNat value) => some value
  | _ => none

def flag? : Node → Option Bool
  | boolean value => some value
  | _ => none

end Node

abbrev Entries := List (String × Node)

namespace Entries

/-- Replaces what a name stands for, or adds the name. -/
def alter? (name : String) (change : Option Node → Option Node) : Entries → Option Entries
  | [] => (change none).map fun node => [(name, node)]
  | (other, node) :: entries =>
    if other = name then (change (some node)).map fun node => (name, node) :: entries
    else (alter? name change entries).map ((other, node) :: ·)

/-- Adds a name that is not there yet. -/
def insert? (name : String) (node : Node) : Entries → Option Entries :=
  alter? name fun
    | none => some node
    | some _ => none

/-- Changes the table that a path leads to. Tables missing on the way are made with the given
origin. A dotted key leads only through tables that have no header of their own. -/
def descend? (origin : Origin) (change : Origin → Entries → Option Entries) :
    (path : List String) → Origin → Entries → Option Entries
  | [], here, entries => change here entries
  | name :: path, _, entries =>
    entries.alter? name fun
      | none => (descend? origin change path origin []).map (.table origin)
      | some (.table there inner) =>
        if there = .braces ∨ origin = .dotted ∧ there = .header then none
        else (descend? origin change path there inner).map (.table there)
      | some (.tables latest earlier) =>
        (descend? origin change path .header latest).map (.tables · earlier)
      | some _ => none

/-- Defines a value in a table. A dotted key has to end in a table made by dotted keys, and a
plain one in any other table. -/
def assign? (path : Path) (value : Node) : Origin → Entries → Option Entries :=
  descend? .dotted
    (fun here entries =>
      if here = .dotted ↔ path.parents = [] then none else entries.insert? path.name value)
    path.parents

/-- Gives a table its header. It may be new, or so far only lead to other tables. -/
def openTable? (path : Path) (entries : Entries) : Option Entries :=
  descend? .parent
    (fun _ entries => entries.alter? path.name fun
      | none => some (.table .header [])
      | some (.table .parent inner) => some (.table .header inner)
      | some _ => none)
    path.parents .header entries

/-- Adds a table to those with the same header in double brackets. -/
def appendTable? (path : Path) (entries : Entries) : Option Entries :=
  descend? .parent
    (fun _ entries => entries.alter? path.name fun
      | none => some (.tables [] [])
      | some (.tables latest earlier) => some (.tables [] (latest :: earlier))
      | some _ => none)
    path.parents .header entries

end Entries

end HandleAlloc.Toml
