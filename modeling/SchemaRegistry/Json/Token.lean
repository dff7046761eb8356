import SchemaRegistry.Text.Basic

/-!
The tokens of a JSON text. The scanner is a fold over the characters, so the scan of `a ++ b` is
the scan of `b` from where the scan of `a` stopped.
-/

namespace SchemaRegistry.Json

inductive Token where
  | leftBracket
  | rightBracket
  | leftBrace
  | rightBrace
  | comma
  | colon
  | null
  | bool (b : Bool)
  /-- A number keeps its digits; the exponent is written `e` and always has a sign. -/
  | number (text : String)
  /-- A string with an unpaired surrogate escape is well formed and stands for no text. -/
  | string (text : Option String)
  deriving DecidableEq, Repr

/-! ### Numbers -/

/-- The place in a number after the characters read so far. -/
inductive Place where
  | sign
  | zero
  | whole
  | point
  | fraction
  | marker
  | markerSign
  | exponent
  deriving DecidableEq, Repr

def isDigit (c : Char) : Bool := '0' ≤ c && c ≤ '9'

/-- The next place, and what the number's text gains. -/
def Place.next (p : Place) (c : Char) : Option (Place × List Char) :=
  match p with
  | .sign => if c = '0' then some (.zero, [c]) else if isDigit c then some (.whole, [c]) else none
  | .zero =>
    if c = '.' then some (.point, [c])
    else if c = 'e' || c = 'E' then some (.marker, ['e']) else none
  | .whole =>
    if isDigit c then some (.whole, [c])
    else if c = '.' then some (.point, [c])
    else if c = 'e' || c = 'E' then some (.marker, ['e']) else none
  | .point => if isDigit c then some (.fraction, [c]) else none
  | .fraction =>
    if isDigit c then some (.fraction, [c])
    else if c = 'e' || c = 'E' then some (.marker, ['e']) else none
  | .marker =>
    if c = '+' || c = '-' then some (.markerSign, [c])
    else if isDigit c then some (.exponent, ['+', c]) else none
  | .markerSign => if isDigit c then some (.exponent, [c]) else none
  | .exponent => if isDigit c then some (.exponent, [c]) else none

def Place.isEnd : Place → Bool
  | .zero | .whole | .fraction | .exponent => true
  | _ => false

/-- Reads on in a number from a place in it; the text is reversed. -/
def Place.read? (p : Place) (text : List Char) : List Char → Option (List Char)
  | [] => if p.isEnd then some text else none
  | c :: cs => do
    let (p', w) ← p.next c
    p'.read? (w.reverse ++ text) cs

def number? (s : String) : Option String :=
  let read := match s.toList with
    | '-' :: cs => Place.sign.read? ['-'] cs
    | cs => Place.sign.read? [] cs
  read.map fun text => String.ofList text.reverse

/-! ### Strings -/

/-- A character of a string, or half of a surrogate pair. -/
inductive Piece where
  | char (c : Char)
  | high (unit : Nat)
  | low (unit : Nat)
  deriving DecidableEq, Repr

def Piece.ofUnit (n : Nat) : Piece :=
  if 0xD800 ≤ n && n < 0xDC00 then .high n
  else if 0xDC00 ≤ n && n < 0xE000 then .low n
  else .char (Char.ofNat n)

def pairUnits (high low : Nat) : Char :=
  Char.ofNat (0x10000 + (high - 0xD800) * 0x400 + (low - 0xDC00))

/-- A high half must be followed by a low one. -/
def joinPieces : List Piece → Option (List Char)
  | [] => some []
  | .char c :: r => (joinPieces r).map (c :: ·)
  | .high h :: .low l :: r => (joinPieces r).map (pairUnits h l :: ·)
  | .high _ :: _ => none
  | .low _ :: _ => none

/-- The character that an escape of one letter stands for. -/
def escaped? : Char → Option Char
  | '"' => some '"'
  | '\\' => some '\\'
  | '/' => some '/'
  | 'b' => some (Char.ofNat 8)
  | 'f' => some (Char.ofNat 12)
  | 'n' => some '\n'
  | 'r' => some '\r'
  | 't' => some '\t'
  | _ => none

/-! ### The scanner -/

/-- What has been read of an unfinished token; texts are reversed. -/
inductive Begun where
  | nothing
  | word (due : List Char) (token : Token)
  | number (place : Place) (text : List Char)
  | string (pieces : List Piece)
  | escape (pieces : List Piece)
  | unit (pieces : List Piece) (count value : Nat)
  deriving DecidableEq, Repr

/-- Finished tokens, the last one first, and the unfinished one. -/
structure Scan where
  done : List Token := []
  begun : Begun := .nothing
  deriving DecidableEq, Repr

def isSpace (c : Char) : Bool := c = ' ' || c = '\t' || c = '\n' || c = '\r'

def Scan.start (done : List Token) (c : Char) : Option Scan :=
  if isSpace c then some ⟨done, .nothing⟩
  else match c with
    | '[' => some ⟨.leftBracket :: done, .nothing⟩
    | ']' => some ⟨.rightBracket :: done, .nothing⟩
    | '{' => some ⟨.leftBrace :: done, .nothing⟩
    | '}' => some ⟨.rightBrace :: done, .nothing⟩
    | ',' => some ⟨.comma :: done, .nothing⟩
    | ':' => some ⟨.colon :: done, .nothing⟩
    | '"' => some ⟨done, .string []⟩
    | 'n' => some ⟨done, .word ['u', 'l', 'l'] .null⟩
    | 't' => some ⟨done, .word ['r', 'u', 'e'] (.bool true)⟩
    | 'f' => some ⟨done, .word ['a', 'l', 's', 'e'] (.bool false)⟩
    | '-' => some ⟨done, .number .sign ['-']⟩
    | _ => (Place.sign.next c).map fun (p, w) => ⟨done, .number p w⟩

def Scan.step (s : Scan) (c : Char) : Option Scan :=
  match s.begun with
  | .nothing => Scan.start s.done c
  | .word [] t => Scan.start (t :: s.done) c
  | .word [d] t => if c = d then some ⟨t :: s.done, .nothing⟩ else none
  | .word (d :: due) t => if c = d then some ⟨s.done, .word due t⟩ else none
  | .number p text =>
    match p.next c with
    | some (p', w) => some ⟨s.done, .number p' (w.reverse ++ text)⟩
    | none =>
      if p.isEnd then Scan.start (.number (String.ofList text.reverse) :: s.done) c else none
  | .string pieces =>
    if c = '"' then
      some ⟨.string ((joinPieces pieces.reverse).map String.ofList) :: s.done, .nothing⟩
    else if c = '\\' then some ⟨s.done, .escape pieces⟩
    else if c.toNat < 0x20 then none
    else some ⟨s.done, .string (.char c :: pieces)⟩
  | .escape pieces =>
    if c = 'u' then some ⟨s.done, .unit pieces 0 0⟩
    else (escaped? c).map fun d => ⟨s.done, .string (.char d :: pieces)⟩
  | .unit pieces count value => do
    let v := value * 16 + (← Text.digitIn? 16 c)
    if count = 3 then some ⟨s.done, .string (Piece.ofUnit v :: pieces)⟩
    else some ⟨s.done, .unit pieces (count + 1) v⟩

/-- The tokens of a text that ends here. -/
def Scan.finish (s : Scan) : Option (List Token) :=
  match s.begun with
  | .nothing => some s.done.reverse
  | .number p text =>
    if p.isEnd then some (.number (String.ofList text.reverse) :: s.done).reverse else none
  | _ => none

def tokens? (cs : List Char) : Option (List Token) := (cs.foldlM Scan.step {}).bind Scan.finish

end SchemaRegistry.Json
