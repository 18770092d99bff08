import HandleAlloc.Toml.Value
/-!
# Documents

A document is a sequence of statements, one a line: assignments, headers, and headers in
double brackets. An assignment belongs to the table of the header before it.
-/

namespace HandleAlloc.Toml

open Toml.Parser

inductive Statement where
  | assign (path : Path) (value : Node)
  | openTable (path : Path)
  | appendTable (path : Path)

def header : Parser Statement :=
  (.appendTable <$> (chars ['[', '['] *> key <* chars [']', ']'])) <|>
    (.openTable <$> (char '[' *> key <* char ']'))

def statement : Parser Statement :=
  header <|> (fun (path, value) => .assign path value) <$> assignment value

def line : Parser (Option Statement) :=
  (comment *> lineEnd *> pure none) <|> (some <$> (statement <* trailing)) <|>
    (newline *> pure none)

/-- All statements of a text, which may start with a byte order mark. -/
def statements : Parser (List Statement) := do
  discard (option (char '\ufeff'))
  blanks
  let lines ← many (line <* blanks)
  endOfText
  return lines.filterMap id

/-- The tree of the statements so far, and the path of the table they add to. -/
structure Draft where
  entries : Entries
  current : List String

def Draft.add? (draft : Draft) : Statement → Option Draft
  | .assign path value => do
    let entries ← Entries.descend? .parent (Entries.assign? path value) draft.current .header
      draft.entries
    return { draft with entries }
  | .openTable path => do
    return ⟨← draft.entries.openTable? path, path.parents ++ [path.name]⟩
  | .appendTable path => do
    return ⟨← draft.entries.appendTable? path, path.parents ++ [path.name]⟩

/-- The tree that a text describes, if it is a document. -/
def parse? (text : String) : Option Entries := do
  let (statements, _) ← StateT.run statements text.toList
  let draft ← statements.foldlM Draft.add? ⟨[], []⟩
  return draft.entries

end HandleAlloc.Toml
