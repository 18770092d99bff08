import HandleAlloc.Toml.Parser
/-!
# Strings and keys

The four kinds of strings: basic ones with escapes, literal ones without, and both over
several lines. A key is a dotted path of bare words and of strings on one line.
-/

namespace HandleAlloc.Toml

open Toml.Parser

def isHexDigit (c : Char) : Bool :=
  c.isDigit || ('a' ≤ c && c ≤ 'f') || ('A' ≤ c && c ≤ 'F')

def hexValue (c : Char) : Nat :=
  if c.isDigit then c.toNat - 48 else if 'a' ≤ c then c.toNat - 87 else c.toNat - 55

/-- The character with a code, unless it is a surrogate or too large. -/
def scalar? (code : Nat) : Option Char :=
  if code.isValidChar then some (Char.ofNat code) else none

/-- A character given by a number of hexadecimal digits. -/
def codePoint (digits : Nat) : Parser Char := do
  let digits ← count digits (satisfy isHexDigit)
  ofOption (scalar? (digits.foldl (fun code digit => 16 * code + hexValue digit) 0))

def escaped : Parser Char := do
  char '\\'
  match ← satisfy fun _ => true with
  | 'b' => return '\x08'
  | 't' => return '\t'
  | 'n' => return '\n'
  | 'f' => return '\x0c'
  | 'r' => return '\r'
  | '"' => return '"'
  | '\\' => return '\\'
  | 'u' => codePoint 4
  | 'U' => codePoint 8
  | _ => failure

/-- What stands for itself in a basic string. -/
def isBasicChar (c : Char) : Bool := isCommentChar c && c != '"' && c != '\\'

/-- What a literal string holds. -/
def isLiteralChar (c : Char) : Bool := isCommentChar c && c != '\x27'

def basicString : Parser String := do
  char '"'
  let text ← many (satisfy isBasicChar <|> escaped)
  char '"'
  return String.ofList text

def literalString : Parser String := do
  char '\x27'
  let text ← run isLiteralChar
  char '\x27'
  return String.ofList text

/-- A backslash at the end of a line hides that line end and all white space after it. -/
def lineContinuation : Parser Unit := do
  char '\\'
  blanks
  newline
  discard (many (discard (satisfy isBlank) <|> newline))

/-- Quotes in a row, as many as `accepts`. -/
def quotes (quote : Char) (accepts : Nat → Bool) : Parser (List Char) := do
  let quotes ← run (· == quote)
  if accepts quotes.length then return quotes else failure

/-- A string over several lines. It is delimited by three quotes; up to two more may stand
anywhere in it, also just before the end. A line end right after the start is left out, and
every other one counts as a line feed. -/
def multiLine (quote : Char) (piece : Parser (List Char)) : Parser String := do
  chars [quote, quote, quote]
  discard (option newline)
  let pieces ← many <|
    piece <|> (newline *> pure ['\n']) <|> quotes quote fun n => 1 ≤ n && n ≤ 2
  let last ← quotes quote fun n => 3 ≤ n && n ≤ 5
  return String.ofList (pieces.flatten ++ last.drop 3)

def multiLineBasic : Parser String :=
  multiLine '"' <|
    (List.singleton <$> satisfy isBasicChar) <|> (lineContinuation *> pure []) <|>
      (List.singleton <$> escaped)

def multiLineLiteral : Parser String :=
  multiLine '\x27' (List.singleton <$> satisfy isLiteralChar)

def string : Parser String :=
  multiLineBasic <|> basicString <|> multiLineLiteral <|> literalString

def isBareChar (c : Char) : Bool := c.isAlphanum || c == '-' || c == '_'

def simpleKey : Parser String := basicString <|> literalString <|> do
  let first ← satisfy isBareChar
  let others ← run isBareChar
  return String.ofList (first :: others)

/-- Where a name stands: the tables that lead to it, and the name itself. -/
structure Path where
  parents : List String
  name : String
  deriving DecidableEq, Repr

/-- How many parts a key may have, and how deep arrays and inline tables may be nested. -/
def nestingLimit : Nat := 79

def key : Parser Path := do
  let parts ← sepBy1 (blanks *> simpleKey <* blanks) (char '.')
  if h : parts = [] ∨ nestingLimit < parts.length then failure
  else return ⟨parts.dropLast, parts.getLast (by simp_all)⟩

end HandleAlloc.Toml
