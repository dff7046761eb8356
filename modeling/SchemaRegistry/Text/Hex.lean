import SchemaRegistry.Text.Basic

/-!
Bytes as pairs of hexadecimal digits.
-/

namespace SchemaRegistry.Text

def utf8 (s : String) : List UInt8 := s.toByteArray.data.toList

namespace Hex

/-- The lower-case digit of a value below sixteen. -/
def digitChar (n : Nat) : Char :=
  if n < 10 then Char.ofNat ('0'.toNat + n) else Char.ofNat ('a'.toNat + (n - 10))

def ofByte (b : UInt8) : List Char := [digitChar (b.toNat / 16), digitChar (b.toNat % 16)]

def encode (bytes : List UInt8) : String := String.ofList (bytes.flatMap ofByte)

/-- Why a text is no list of bytes. -/
inductive Fault where
  | oddLength
  | invalidDigit (byte : UInt8) (position : Nat)
  deriving DecidableEq, Repr

/-- How a character stands between quotes. Blanks other than the space and characters that print
nothing stand as their numbers, as far as they have no shorter escape. -/
def quotedChar (c : Char) : String :=
  let n := c.toNat
  if c = '\'' then "\\'"
  else if c = '\\' then "\\\\"
  else if n = 0 then "\\0"
  else if c = '\t' then "\\t"
  else if c = '\n' then "\\n"
  else if c = '\r' then "\\r"
  else if n < 0x20 || (0x7F ≤ n && n ≤ 0xA0) || n = 0xAD then
    "\\u\x7b" ++ String.ofList (Nat.toDigits 16 n) ++ "\x7d"
  else String.singleton c

/-- A byte that is no digit is shown as the character of the same number. -/
def Fault.message : Fault → String
  | .oddLength => "Odd number of digits"
  | .invalidDigit b i =>
    "Invalid character '" ++ quotedChar (Char.ofNat b.toNat) ++ "' at position " ++ ofNat i

def digit (b : UInt8) (position : Nat) : Except Fault Nat :=
  match digitIn? 16 (Char.ofNat b.toNat) with
  | some v => .ok v
  | none => .error (.invalidDigit b position)

/-- Reads pairs of digits; `i` is the position of the first one. -/
def pairs (i : Nat) : List UInt8 → Except Fault (List UInt8)
  | [] => .ok []
  | [_] => .error .oddLength
  | hi :: lo :: r => do
    let h ← digit hi i
    let l ← digit lo (i + 1)
    let bs ← pairs (i + 2) r
    return UInt8.ofNat (16 * h + l) :: bs

/-- The length is checked before the digits. -/
def decode (s : String) : Except Fault (List UInt8) :=
  let bytes := utf8 s
  if bytes.length % 2 = 1 then .error .oddLength else pairs 0 bytes

end Hex

end SchemaRegistry.Text
