import HandleAlloc.Toml.Moment
import HandleAlloc.Toml.Node
/-!
# Values

What may stand to the right of an equals sign. Arrays may extend over several lines and end
with a comma; inline tables may do neither.
-/

namespace HandleAlloc.Toml

open Toml.Parser

def boolean : Parser Bool :=
  (chars "true".toList *> pure true) <|> (chars "false".toList *> pure false)

/-- A value that holds no other. -/
def scalar : Parser Node :=
  (.string <$> string) <|> (.boolean <$> boolean) <|> (moment *> pure .moment) <|>
    (float *> pure .float) <|> (.integer <$> integer)

def array (item : Parser Node) : Parser (List Node) := do
  char '['
  let items ← sepBy (gap *> item <* gap) (char ',')
  unless items.isEmpty do
    discard (option (char ','))
  gap
  char ']'
  return items

def assignment (item : Parser Node) : Parser (Path × Node) := do
  let path ← key
  char '='
  blanks
  let value ← item
  return (path, value)

def inlineTable (item : Parser Node) : Parser Entries := do
  char '\x7b'
  let assignments ← sepBy (assignment item <* blanks) (char ',')
  blanks
  char '\x7d'
  ofOption <| assignments.foldlM
    (fun entries (path, value) => entries.assign? path value .braces) []

/-- A value in which arrays and inline tables are nested at most `depth` times. -/
def nested : (depth : Nat) → Parser Node
  | 0 => scalar
  | depth + 1 =>
    (.array <$> array (nested depth)) <|> (.table .braces <$> inlineTable (nested depth)) <|> scalar

def value : Parser Node := nested nestingLimit

end HandleAlloc.Toml
