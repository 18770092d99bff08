import HandleAlloc.Toml.Parser
import HandleAlloc.Toml.Text
/-!
# Numbers

Integers have to fit 64 bits. Floats are read exactly, as a decimal; whether one is acceptable
is a question of its size only.
-/

namespace HandleAlloc.Toml

open Toml.Parser

/-- Digits with single underscores between some of them. -/
def digits (accepts : Char → Bool) : Parser (List Char) := do
  let first ← satisfy accepts
  let others ← many (option (char '_') *> satisfy accepts)
  return first :: others

/-- The number that some digits write in a base. -/
def numeral (base : Nat) (digits : List Char) : Nat :=
  digits.foldl (fun value digit => base * value + hexValue digit) 0

/-- A sign, if there is one; whether it is a minus. -/
def sign : Parser Bool := (char '-' *> pure true) <|> (option (char '+') *> pure false)

/-- Digits of which the first is zero only if there is no other. -/
def wholeDigits : Parser (List Char) := do
  let all ← (digits Char.isDigit : Parser _)
  if all.head? = some '0' ∧ all.length ≠ 1 then failure else return all

def based : Parser Int :=
  let inBase (mark : Char) (base : Nat) (accepts : Char → Bool) : Parser Int := do
    chars ['0', mark]
    return (numeral base (← digits accepts) : Nat)
  inBase 'x' 16 isHexDigit <|> inBase 'o' 8 (fun c => '0' ≤ c && c ≤ '7') <|>
    inBase 'b' 2 (fun c => c == '0' || c == '1')

def decimal : Parser Int := do
  let negative ← sign
  let magnitude := numeral 10 (← wholeDigits)
  return if negative then -magnitude else magnitude

def integer : Parser Int := do
  let value ← based <|> decimal
  if -9223372036854775808 ≤ value ∧ value ≤ 9223372036854775807 then return value else failure

/-- A decimal fraction: `mantissa` times ten to the `exponent`. -/
structure Decimal where
  negative : Bool
  mantissa : Nat
  exponent : Int
  deriving DecidableEq, Repr

/-- The least number that rounds to infinity as a double: half a unit above the largest one. -/
def infinityThreshold : Nat := (1 <<< 1024) - (1 <<< 970)

/-- Whether the magnitude of a decimal rounds to infinity. Its number of digits decides unless
it has as many as the threshold itself, so that no huge power is computed. -/
def Decimal.overflows (value : Decimal) : Bool :=
  let length := value.exponent + (Nat.toDigits 10 value.mantissa).length
  if value.mantissa = 0 || length < 309 then false
  else if 309 < length then true
  else
    infinityThreshold * Nat.pow 10 (-value.exponent).toNat ≤
      value.mantissa * Nat.pow 10 value.exponent.toNat

/-- A float written with a fraction or an exponent or both. -/
def decimalFloat : Parser Decimal := do
  let negative ← sign
  let whole ← wholeDigits
  let power : Parser Int := do
    discard (satisfy fun c => c == 'e' || c == 'E')
    let negative ← sign
    let magnitude := numeral 10 (← digits Char.isDigit)
    return if negative then -magnitude else magnitude
  let fraction := char '.' *> digits Char.isDigit
  let (fraction, power) ←
    (do return ([], ← power)) <|> (do return (← fraction, (← option power).getD 0))
  return ⟨negative, numeral 10 (whole ++ fraction), power - fraction.length⟩

/-- A float. One that is too large is refused, though not if it is negative. -/
def float : Parser Unit :=
  (do
    let value ← decimalFloat
    if value.overflows && !value.negative then failure) <|>
  (do
    discard sign
    chars ['i', 'n', 'f'] <|> chars ['n', 'a', 'n'])

end HandleAlloc.Toml
