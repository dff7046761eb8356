import SchemaRegistry.Text.Decimal
import SchemaRegistry.Text.Basic

/-!
Values in TOML, and how those that are neither strings, arrays nor tables are written: as one word
without blanks or brackets.
-/

namespace SchemaRegistry.Toml

inductive Value where
  | bool (b : Bool)
  | int (i : Int64)
  | float (x : Float)
  | text (s : String)
  /-- A date, a time, or both. -/
  | date
  | array (items : List Value)
  | table (entries : List (String × Value))

open SchemaRegistry.Text (split digitIn? natFrom float? int? toInt64?)

/-! ### Numbers -/

/-- Characters of a number, a truth value, a date or a time. -/
def isWordChar (c : Char) : Bool := c.isAlphanum || ['_', '+', '-', '.', ':'].contains c

/-- Digits of a base in groups with underscores between them; the result is without these. -/
def digits? (base : Nat) (cs : List Char) : Option (List Char) :=
  let groups := split '_' cs
  if groups.all fun g => !g.isEmpty && g.all fun c => (digitIn? base c).isSome then
    some groups.flatten
  else none

def sign : List Char → List Char × List Char
  | '+' :: cs => (['+'], cs)
  | '-' :: cs => (['-'], cs)
  | cs => ([], cs)

/-- Decimal digits with a sign; a zero in front stands alone. -/
def decimal? (cs : List Char) : Option (List Char) :=
  let (s, rest) := sign cs
  if rest.head? = some '0' ∧ rest.length ≠ 1 then none else (digits? 10 rest).map (s ++ ·)

def inBase? (base : Nat) (cs : List Char) : Option Int64 := do
  toInt64? (← natFrom base 0 (← digits? base cs))

def integer? (cs : List Char) : Option Int64 :=
  match cs with
  | '0' :: 'x' :: r => inBase? 16 r
  | '0' :: 'o' :: r => inBase? 8 r
  | '0' :: 'b' :: r => inBase? 2 r
  | _ => do toInt64? (← int? (← decimal? cs))

def exponent? (cs : List Char) : Option (List Char) :=
  let (s, rest) := sign cs
  (digits? 10 rest).map fun ds => 'e' :: s ++ ds

def isMarker (c : Char) : Bool := c = 'e' || c = 'E'

/-- A whole number with a fraction, an exponent or both, without underscores. -/
def real? (cs : List Char) : Option (List Char) :=
  let mantissa := cs.takeWhile fun c => !isMarker c
  let exponent := (cs.dropWhile fun c => !isMarker c).drop 1
  let hasExponent := mantissa.length < cs.length
  let whole := mantissa.takeWhile (· ≠ '.')
  let fraction := (mantissa.dropWhile (· ≠ '.')).drop 1
  let hasFraction := whole.length < mantissa.length
  if hasExponent ∨ hasFraction then do
    let w ← decimal? whole
    let f ← if hasFraction then (digits? 10 fraction).map ('.' :: ·) else some []
    let e ← if hasExponent then exponent? exponent else some []
    return w ++ f ++ e
  else none

/-- Numbers with a point or an exponent, infinity and what is no number. A number may not be so
large that it becomes infinite. -/
def floating? (cs : List Char) : Option Float :=
  match (sign cs).2 with
  | ['i', 'n', 'f'] | ['n', 'a', 'n'] => float? cs
  | _ => ((real? cs).bind float?).filter fun x => !(x == Text.Decimal.infinity)

/-! ### Dates and times -/

/-- Reads a number of exactly `count` digits between two bounds, and what follows it. -/
def field? (count low high : Nat) (cs : List Char) : Option (Nat × List Char) := do
  let ds := cs.take count
  if ds.length = count then
    let n ← natFrom 10 0 ds
    if low ≤ n ∧ n ≤ high then some (n, cs.drop count) else none
  else none

def expect? (c : Char) : List Char → Option (List Char)
  | [] => none
  | d :: r => if c = d then some r else none

def daysIn (year month : Nat) : Nat :=
  if month = 2 then
    if year % 4 = 0 ∧ (year % 100 ≠ 0 ∨ year % 400 = 0) then 29 else 28
  else if [4, 6, 9, 11].contains month then 30
  else 31

/-- What follows a date. -/
def date? (cs : List Char) : Option (List Char) := do
  let (year, r) ← field? 4 0 9999 cs
  let (month, r) ← field? 2 1 12 (← expect? '-' r)
  let (_, r) ← field? 2 1 (daysIn year month) (← expect? '-' r)
  return r

/-- How far some parts of a time may go. -/
structure TimeLimits where
  hour : Nat
  offsetHour : Nat
  offsetMinute : Nat

/-- What a time in a document keeps to. -/
def TimeLimits.strict : TimeLimits := { hour := 23, offsetHour := 23, offsetMinute := 59 }

/-- What a time in a string keeps to: its hour may be 24, and its offset any two numbers of two
digits. -/
def TimeLimits.lenient : TimeLimits := { hour := 24, offsetHour := 99, offsetMinute := 99 }

/-- What follows a time of day. -/
def time? (limits : TimeLimits) (cs : List Char) : Option (List Char) := do
  let (_, r) ← field? 2 0 limits.hour cs
  let (_, r) ← field? 2 0 59 (← expect? ':' r)
  let (_, r) ← field? 2 0 60 (← expect? ':' r)
  match r with
  | '.' :: d :: r => if d.isDigit then some (r.dropWhile Char.isDigit) else none
  | r => some r

/-- Whether a text is nothing or the distance from universal time, which is a day at most. -/
def isOffset (limits : TimeLimits) (cs : List Char) : Bool :=
  match cs with
  | [] | ['Z'] | ['z'] => true
  | c :: r =>
    (c = '+' || c = '-') && ((do
      let (hours, r) ← field? 2 0 limits.offsetHour r
      let (minutes, r) ← field? 2 0 limits.offsetMinute (← expect? ':' r)
      if r.isEmpty ∧ hours * 60 + minutes ≤ 24 * 60 then some () else none) : Option Unit).isSome

/-- Whether a word is a time of day that may stand after a date. -/
def isTimeOfDate (limits : TimeLimits) (cs : List Char) : Bool := (time? limits cs).any (isOffset limits)

def isDate (cs : List Char) : Bool :=
  time? .strict cs = some [] ||
    match date? cs with
    | some [] => true
    | some (c :: r) => (c = 'T' || c = 't') && isTimeOfDate .strict r
    | none => false

/-- The key that begins a table which stands for a date. -/
def dateKey : String := "$__toml_private_datetime"

/-- Whether a text is a date, a time, or both with a letter or a space between them. An offset may
follow the date alone. -/
def isDateText (s : String) : Bool :=
  let cs := s.toList
  time? .lenient cs = some [] ||
    match date? cs with
    | some (c :: r) =>
      if ['T', 't', ' '].contains c then isTimeOfDate .lenient r else isOffset .lenient (c :: r)
    | some [] => true
    | none => false

/-- The value that a table with these entries is. If its first key says that it is a date, the text
there must be one. -/
def Value.ofEntries? : List (String × Value) → Option Value
  | [] => some (.table [])
  | (k, v) :: es =>
    if k = dateKey then
      match v with
      | .text s => if isDateText s then some .date else none
      | _ => none
    else some (.table ((k, v) :: es))

/-! ### Words -/

def ofWord? (cs : List Char) : Option Value :=
  if cs = "true".toList then some (.bool true)
  else if cs = "false".toList then some (.bool false)
  else if isDate cs then some .date
  else match integer? cs with
    | some i => some (.int i)
    | none => (floating? cs).map .float

/-- Reads a word. The time may stand apart from its date, after one space. -/
def word? (cs : List Char) : Option (Value × List Char) := do
  let word := cs.takeWhile isWordChar
  let rest := cs.dropWhile isWordChar
  let v ← ofWord? word
  match rest with
  | ' ' :: r =>
    if date? word = some [] ∧ isTimeOfDate .strict (r.takeWhile isWordChar) then
      return (v, r.dropWhile isWordChar)
    else return (v, rest)
  | _ => return (v, rest)

end SchemaRegistry.Toml
