/-! # Decimal numbers

The number that a decimal text denotes, rounded to the nearest binary one.

* `Decimal.read?`: reads `12`, `-0.5`, `1.5e-3`, `inf`, `nan` and the like.
-/

namespace TracedHeap

namespace Decimal

/-- An unsigned decimal number: `digits · 10 ^ exponent`. -/
structure Magnitude where
  digits : Nat
  exponent : Int
  deriving DecidableEq, Repr

def digit (c : Char) : Nat := c.toNat - '0'.toNat

def number (digits : List Char) : Nat := digits.foldl (fun n c => 10 * n + digit c) 0

def digits (text : List Char) : List Char × List Char :=
  (text.takeWhile Char.isDigit, text.dropWhile Char.isDigit)

def sign : List Char → Bool × List Char
  | '-' :: rest => (true, rest)
  | '+' :: rest => (false, rest)
  | rest => (false, rest)

def fraction : List Char → List Char × List Char
  | '.' :: rest => digits rest
  | rest => ([], rest)

def exponent? : List Char → Option Int
  | [] => some 0
  | c :: rest =>
    if c = 'e' ∨ c = 'E' then
      let (negative, rest) := sign rest
      let (power, rest) := digits rest
      -- nothing may follow
      if power.isEmpty ∨ !rest.isEmpty then none
      else some (if negative then -(number power) else number power)
    else none

/-- The magnitude that a text without a sign denotes. -/
def magnitude? (text : List Char) : Option Magnitude := do
  let (whole, rest) := digits text
  let (part, rest) := fraction rest
  if whole.isEmpty && part.isEmpty then none
  let exponent ← exponent? rest
  return ⟨number (whole ++ part), exponent - part.length⟩

/-- The binary number nearest to a magnitude. -/
def Magnitude.toFloat (m : Magnitude) : Float :=
  let order := m.exponent + (toString m.digits).length
  -- no magnitude beyond 10 ^ 310 is finite, and none below 10 ^ -330 differs from zero
  if m.digits = 0 ∨ order < -330 then 0.0
  else if 310 < order then 1.0 / 0.0
  else Float.ofScientific m.digits (m.exponent < 0) m.exponent.natAbs

def read? (text : String) : Option Float := do
  let (negative, rest) := sign text.toList
  let value ←
    match String.ofList (rest.map Char.toLower) with
    | "inf" | "infinity" => some (1.0 / 0.0)
    | "nan" => some (0.0 / 0.0)
    | _ => (magnitude? rest).map (·.toFloat)
  return if negative then -value else value

end Decimal

end TracedHeap
