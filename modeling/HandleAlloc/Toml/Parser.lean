/-!
# Parsing text

A parser takes characters off the front of the text and gives a value and the rest, or
nothing. Alternatives are tried in order, each from the same place. Repetition ends where its
item fails or takes nothing, so that it is total.
-/

namespace HandleAlloc.Toml

abbrev Parser := StateT (List Char) Option

namespace Parser

variable {α β : Type}

def satisfy (accepts : Char → Bool) : Parser Char
  | c :: rest => if accepts c then some (c, rest) else none
  | [] => none

def char (c : Char) : Parser Unit := discard (satisfy (· == c))

def chars (expected : List Char) : Parser Unit := expected.forM char

/-- All characters of a class that follow; there may be none. -/
def run (accepts : Char → Bool) : Parser (List Char) := fun text =>
  some (text.takeWhile accepts, text.dropWhile accepts)

/-- An item as often as it can be read. -/
def many (item : Parser α) : Parser (List α) := fun text =>
  match item text with
  | none => some ([], text)
  | some (value, rest) =>
    if rest.length < text.length then
      (many item rest).map fun (values, rest) => (value :: values, rest)
    else some ([value], rest)
termination_by text => text.length

/-- Items with a separator between any two of them; there is at least one. -/
def sepBy1 (item : Parser α) (separator : Parser β) : Parser (List α) := do
  let first ← item
  let others ← many (separator *> item)
  return first :: others

def sepBy (item : Parser α) (separator : Parser β) : Parser (List α) :=
  sepBy1 item separator <|> pure []

def option (item : Parser α) : Parser (Option α) := some <$> item <|> pure none

def count : Nat → Parser α → Parser (List α)
  | 0, _ => pure []
  | n + 1, item => do
    let first ← item
    let others ← count n item
    return first :: others

/-- The value of an option; nothing is read. -/
def ofOption : Option α → Parser α
  | some value => pure value
  | none => failure

def endOfText : Parser Unit := fun text => if text.isEmpty then some ((), []) else none

/-! ## White space and comments -/

def isBlank (c : Char) : Bool := c == ' ' || c == '\t'

def blanks : Parser Unit := discard (run isBlank)

/-- A line feed, with or without a carriage return before it. -/
def newline : Parser Unit := char '\n' <|> chars ['\r', '\n']

/-- A character from outside ASCII. -/
def isForeign (c : Char) : Bool := 0x80 ≤ c.toNat

/-- Comments hold tabs but no other control characters. -/
def isCommentChar (c : Char) : Bool := c == '\t' || (' ' ≤ c && c ≤ '~') || isForeign c

def comment : Parser Unit := do
  char '#'
  discard (run isCommentChar)

def lineEnd : Parser Unit := newline <|> endOfText

/-- What may follow a statement on its line. -/
def trailing : Parser Unit := do
  blanks
  discard (option comment)
  lineEnd

/-- Blanks, line ends and comments, as they may stand around the items of an array. -/
def gap : Parser Unit := discard (many (discard (satisfy isBlank) <|> newline <|> comment))

end Parser

end HandleAlloc.Toml
