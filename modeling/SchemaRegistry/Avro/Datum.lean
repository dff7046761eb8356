import SchemaRegistry.Avro.Shape
import SchemaRegistry.Text.Decimal
import SchemaRegistry.Text.Hex

/-!
Values of AVRO schemas. A JSON value is one when nothing is known of its shape; a shape that takes a
value may turn it into a value of another kind, as a text into a UUID.
-/

namespace SchemaRegistry.Avro

/-- A value. Of numbers with a fraction, of most meanings and of truth values only the kind is kept:
no shape asks for more. -/
inductive Datum where
  | null
  | boolean
  | int (i : Int32)
  | long (i : Int64)
  | float
  | double
  | bytes (bs : List UInt8)
  | string (s : String)
  | fixed (bs : List UInt8)
  | enum (symbol : String)
  /-- A value of one of the branches of a union. -/
  | union (d : Datum)
  | array (items : List Datum)
  | map (entries : List (String × Datum))
  | record (entries : List (String × Datum))
  | decimal (length : Nat)
  | logical (l : Logical)
  deriving Repr

namespace Datum

def kind : Datum → Kind
  | .null => .primitive .null
  | .boolean => .primitive .boolean
  | .int _ => .primitive .int
  | .long _ => .primitive .long
  | .float => .primitive .float
  | .double => .primitive .double
  | .bytes _ => .primitive .bytes
  | .string _ => .primitive .string
  | .fixed _ => .fixed
  | .enum _ => .enum
  | .union _ => .union
  | .array _ => .array
  | .map _ => .map
  | .record _ => .record
  | .decimal _ => .decimal
  | .logical l => .logical l

def inner : Datum → Datum
  | .union d => d
  | d => d

def entries? : Datum → Option (List (String × Datum))
  | .map es | .record es => some es
  | _ => none

/-! ### Values in JSON -/

/-- An integer that takes as few bits as it can. One of 64 bits without sign stands for the signed
one with the same bits. -/
def ofInt? (i : Int) : Option Datum :=
  match Text.toInt32? i with
  | some v => some (.int v)
  | none =>
    if Int64.minValue.toInt ≤ i ∧ i < UInt64.size then some (.long (Int64.ofInt i)) else none

/-- A number with a point or an exponent has a fraction; it must be finite. -/
def ofNumber? (text : String) : Option Datum :=
  match Text.int? text.toList with
  | some i => ofInt? i
  | none => ((Text.float? text.toList).filter Float.isFinite).map fun _ => .double

mutual

/-- The value that JSON stands for; none if a number in it is out of range. -/
def ofJson? : Json → Option Datum
  | .null => some .null
  | .bool _ => some .boolean
  | .number t => ofNumber? t
  | .string s => some (.string s)
  | .array vs => (ofItems? vs).map .array
  | .object ms => (ofMembers? ms).map .map

def ofItems? : List Json → Option (List Datum)
  | [] => some []
  | v :: vs => do return (← ofJson? v) :: (← ofItems? vs)

def ofMembers? : List (String × Json) → Option (List (String × Datum))
  | [] => some []
  | (k, v) :: ms => do return (k, ← ofJson? v) :: (← ofMembers? ms)

end

/-! ### Numbers -/

def toInt32? : Datum → Option Int32
  | .int i => some i
  | .long i => some i.toInt32
  | _ => none

def toInt64? : Datum → Option Int64
  | .int i => some i.toInt64
  | .long i => some i
  | _ => none

def toByte? (d : Datum) : Option UInt8 := do
  let i ← d.inner.toInt32?
  if 0 ≤ i.toInt ∧ i.toInt < 256 then some (UInt8.ofNat i.toInt.toNat) else none

/-- Texts for the floating-point values that JSON has no numbers for. -/
def isSpecialFloat (s : String) : Bool :=
  ["NaN", "INF", "-INF", "Infinity", "-Infinity"].contains s

def isReal : Datum → Bool
  | .int _ | .long _ | .float | .double => true
  | .string s => isSpecialFloat s
  | _ => false

/-! ### Texts and bytes -/

def toBytes? : Datum → Option (List UInt8)
  | .bytes bs => some bs
  | .string s => some (Text.utf8 s)
  | .array ds => ds.mapM toByte?
  | _ => none

def toText? : Datum → Option String
  | .string s => some s
  | .bytes bs | .fixed bs => String.fromUTF8? ⟨bs.toArray⟩
  | _ => none

/-- A text counts as a fixed value of any size; bytes must have the right number. -/
def toFixed? (size : Nat) : Datum → Option (List UInt8)
  | .string s => some (Text.utf8 s)
  | .bytes bs | .fixed bs => if bs.length = size then some bs else none
  | _ => none

/-- A text that is no symbol stands for the default of the enumeration. -/
def toSymbol? (e : Enumeration) : Datum → Option String
  | .string s | .enum s =>
    if e.symbols.contains s then some s else e.default.filter fun d => e.symbols.contains d
  | _ => none

/-! ### Meanings -/

def isHex (cs : List Char) : Bool := cs.all fun c => (Text.digitIn? 16 c).isSome

/-- Groups of eight, four, four, four and twelve hexadecimal digits with hyphens between them. -/
def isHyphenated (cs : List Char) : Bool :=
  let groups := Text.split '-' cs
  groups.map List.length = [8, 4, 4, 4, 12] && groups.all isHex

/-- Whether a text is a UUID: digits alone, with hyphens, in braces, or as a URN. -/
def isUuid (s : String) : Bool :=
  let cs := s.toList
  (cs.length = 32 && isHex cs) || isHyphenated cs ||
    (cs.take 1 = ['\x7b'] && cs.getLast? = some '\x7d' && isHyphenated (cs.drop 1).dropLast) ||
    ((cs.take 9).map Char.toLower = "urn:uuid:".toList && isHyphenated (cs.drop 9))

/-- Reads a number of at most ten bytes with seven bits each, the lowest first; all bytes but the
last have the eighth bit. Of the result 64 bits are kept. -/
def varint? : Nat → List UInt8 → Option (Nat × List UInt8)
  | 0, _ | _, [] => none
  | count + 1, b :: bs =>
    if b < 128 then some (b.toNat, bs)
    else do
      let (n, rest) ← varint? count bs
      return ((b.toNat - 128 + 128 * n) % UInt64.size, rest)

/-- Whether bytes are a length, as many bytes, and a scale. Odd numbers stand for negative ones. -/
def isBigDecimal (bs : List UInt8) : Bool :=
  match varint? 10 bs with
  | some (n, rest) =>
    n % 2 = 0 && n / 2 ≤ rest.length && (varint? 10 (rest.drop (n / 2))).isSome
  | none => false

def toLogical? (l : Logical) (d : Datum) : Option Datum :=
  let fits : Bool := match l, d with
    | .uuid, .string s => isUuid s
    | .bigDecimal, .bytes bs => isBigDecimal bs
    | .duration, .fixed bs => bs.length = 12
    | .date, .int _ | .timeMillis, .int _ => true
    | l, .logical m => l = m
    | l, d => l.base? = some .long && d.toInt64?.isSome
  if fits then some (.logical l) else none

/-- The number of decimal digits that always fit in bytes of a signed number; none when there is no
bound on it. -/
def digitsIn (length : Nat) : Option Nat :=
  if length ≤ 128 then some ((Nat.toDigits 10 (1 <<< (8 * length - 1) - 1)).length - 1) else none

def canHold (length precision : Nat) : Bool :=
  match digitsIn length with
  | some n => precision ≤ n
  | none => true

/-- Bytes as a decimal. They must hold the precision, and so must the fixed size, if there is one. -/
def toDecimal? (precision : Nat) (base : Option Fixed) (d : Datum) : Option Datum := do
  if base.any fun f => Int32.maxValue.toInt < f.size || !canHold f.size precision then none
  let length ← match d with
    | .decimal n => some n
    | .bytes bs | .fixed bs => some bs.length
    | _ => none
  if canHold length precision then some (.decimal length) else none

def toPrimitive? : Primitive → Datum → Option Datum
  | .null, .null => some .null
  | .boolean, .boolean => some .boolean
  | .int, d => d.toInt32?.map .int
  | .long, d => d.toInt64?.map .long
  | .float, d => if d.isReal then some .float else none
  | .double, d => if d.isReal then some .double else none
  | .bytes, d => d.toBytes?.map .bytes
  | .string, d => d.toText?.map .string
  | _, _ => none

end Datum

end SchemaRegistry.Avro
