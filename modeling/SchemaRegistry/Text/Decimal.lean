import SchemaRegistry.Text.Basic

/-!
Numbers with a decimal point and an exponent, and the floating-point numbers next to them.
-/

namespace SchemaRegistry.Text

/-- The number `digits * 10 ^ exponent`. -/
structure Decimal where
  digits : Nat
  exponent : Int
  deriving DecidableEq, Repr

namespace Decimal

def exponent? : List Char → Option Int
  | [] => some 0
  | c :: cs => if c = 'e' ∨ c = 'E' then int? cs else none

/-- Reads a number without sign. A digit must stand before or after the point. -/
def read? (cs : List Char) : Option Decimal := do
  let whole := cs.takeWhile Char.isDigit
  let (fraction, rest) := match cs.dropWhile Char.isDigit with
    | '.' :: r => (r.takeWhile Char.isDigit, r.dropWhile Char.isDigit)
    | r => ([], r)
  let digits ← nat? (whole ++ fraction)
  let exponent ← exponent? rest
  return ⟨digits, exponent - fraction.length⟩

def infinity : Float := 1.0 / 0.0

def nan : Float := 0.0 / 0.0

/-- The nearest floating-point number. Beyond the bounds here every number is infinite or zero, so
no power with a large exponent is computed. -/
def float (d : Decimal) : Float :=
  let magnitude : Int := d.exponent + (Nat.toDigits 10 d.digits).length
  if d.digits = 0 then 0.0
  else if 310 < magnitude then infinity
  else if magnitude < -400 then 0.0
  else if d.exponent < 0 then Float.ofScientific d.digits true d.exponent.natAbs
  else Float.ofScientific d.digits false d.exponent.natAbs

end Decimal

/-- The floating-point number that a text without sign writes. -/
def magnitude? (cs : List Char) : Option Float :=
  match cs.map Char.toLower with
  | ['i', 'n', 'f'] | ['i', 'n', 'f', 'i', 'n', 'i', 't', 'y'] => some Decimal.infinity
  | ['n', 'a', 'n'] => some Decimal.nan
  | _ => (Decimal.read? cs).map Decimal.float

def float? : List Char → Option Float
  | '+' :: cs => magnitude? cs
  | '-' :: cs => (magnitude? cs).map fun x => -x
  | cs => magnitude? cs

/-- The nearest integer of 64 bits, a half away from zero. Too large numbers give the ends of the
range and what is no number gives zero. -/
def toInt64 (x : Float) : Int64 := x.round.toInt64

end SchemaRegistry.Text
