import HandleAlloc.Toml.Number
/-!
# Dates and times

A moment is a date, a time of day, or both with or without an offset from universal time. Only
days that exist are read.
-/

namespace HandleAlloc.Toml

open Toml.Parser

/-- A number of exactly `width` digits within bounds. -/
def fixed (width low high : Nat) : Parser Nat := do
  let value := numeral 10 (← count width (satisfy Char.isDigit))
  if low ≤ value ∧ value ≤ high then return value else failure

def isLeapYear (year : Nat) : Bool := year % 4 == 0 && (year % 100 != 0 || year % 400 == 0)

def daysInMonth (year month : Nat) : Nat :=
  if month = 2 then (if isLeapYear year then 29 else 28)
  else if month = 4 ∨ month = 6 ∨ month = 9 ∨ month = 11 then 30
  else 31

def date : Parser Unit := do
  let year ← fixed 4 0 9999
  char '-'
  let month ← fixed 2 1 12
  char '-'
  discard (fixed 2 1 (daysInMonth year month))

/-- A time of day; a leap second is allowed. -/
def time : Parser Unit := do
  discard (fixed 2 0 23)
  char ':'
  discard (fixed 2 0 59)
  char ':'
  discard (fixed 2 0 60)
  discard (option (char '.' *> satisfy Char.isDigit *> run Char.isDigit))

/-- The distance from universal time. -/
def offset : Parser Unit :=
  discard (satisfy fun c => c == 'Z' || c == 'z') <|> do
    discard (satisfy fun c => c == '+' || c == '-')
    discard (fixed 2 0 23)
    char ':'
    discard (fixed 2 0 59)

def moment : Parser Unit :=
  (do
    date
    discard (option do
      discard (satisfy fun c => c == 'T' || c == 't' || c == ' ')
      time
      discard (option offset))) <|>
  time

end HandleAlloc.Toml
