import SchemaRegistry.Text.Basic

/-!
Strings and keys in TOML. Basic strings have escapes, literal ones have none; tripled quotes allow
line feeds. Line ends are single line feeds here.
-/

namespace SchemaRegistry.Toml

open SchemaRegistry.Text (natFrom)

def isSpace (c : Char) : Bool := c = ' ' || c = '\t'

/-- Characters that stand for themselves in strings and comments; control characters do not. -/
def isPlain (c : Char) : Bool := c = '\t' || (0x20 ≤ c.toNat && c.toNat ≠ 0x7F)

/-- The character with a number in hexadecimal digits; surrogates are none. -/
def scalar? (digits : List Char) : Option Char := do
  let n ← natFrom 16 0 digits
  if n.isValidChar then some (Char.ofNat n) else none

def escaped? : Char → Option Char
  | 'b' => some (Char.ofNat 8)
  | 't' => some '\t'
  | 'n' => some '\n'
  | 'f' => some (Char.ofNat 12)
  | 'r' => some '\r'
  | '"' => some '"'
  | '\\' => some '\\'
  | _ => none

def consTo (c : Char) (r : Option (List Char × List Char)) : Option (List Char × List Char) :=
  r.map fun (text, rest) => (c :: text, rest)

/-- A basic string after its quote, and what follows the closing one. -/
def basic? : List Char → Option (List Char × List Char)
  | [] => none
  | '"' :: r => some ([], r)
  | '\\' :: 'u' :: a :: b :: c :: d :: r => do consTo (← scalar? [a, b, c, d]) (basic? r)
  | '\\' :: 'U' :: a :: b :: c :: d :: e :: f :: g :: h :: r => do
    consTo (← scalar? [a, b, c, d, e, f, g, h]) (basic? r)
  | '\\' :: c :: r => do consTo (← escaped? c) (basic? r)
  | c :: r => if c = '\\' ∨ ¬ isPlain c then none else consTo c (basic? r)

def literal? : List Char → Option (List Char × List Char)
  | [] => none
  | c :: r =>
    if c = '\'' then some ([], r) else if isPlain c then consTo c (literal? r) else none

/-- Whether a backslash at the end of a line is skipping blanks: not, up to the line feed, or up to
the next character that is not blank. -/
inductive Gap where
  | none
  | before
  | after
  deriving DecidableEq, Repr

/-- A basic string of several lines after its quotes. Up to two quotes may stand in front of the
closing ones. -/
def basicLines? (gap : Gap) : List Char → Option (List Char × List Char)
  | [] => .none
  | '\n' :: r =>
    match gap with
    | .none => consTo '\n' (basicLines? .none r)
    | _ => basicLines? .after r
  | '"' :: '"' :: '"' :: '"' :: '"' :: '"' :: _ => .none
  | '"' :: '"' :: '"' :: '"' :: '"' :: r => if gap = .before then .none else some (['"', '"'], r)
  | '"' :: '"' :: '"' :: '"' :: r => if gap = .before then .none else some (['"'], r)
  | '"' :: '"' :: '"' :: r => if gap = .before then .none else some ([], r)
  | '\\' :: 'u' :: a :: b :: c :: d :: r => do
    if gap = .before then .none
    else consTo (← scalar? [a, b, c, d]) (basicLines? .none r)
  | '\\' :: 'U' :: a :: b :: c :: d :: e :: f :: g :: h :: r => do
    if gap = .before then .none
    else consTo (← scalar? [a, b, c, d, e, f, g, h]) (basicLines? .none r)
  | '\\' :: c :: r =>
    if gap = .before then .none
    else if c = '\n' then basicLines? .after r
    else if isSpace c then basicLines? .before r
    else do consTo (← escaped? c) (basicLines? .none r)
  | c :: r =>
    if isSpace c ∧ gap ≠ .none then basicLines? gap r
    else if gap = .before ∨ c = '\\' ∨ ¬ isPlain c then .none
    else consTo c (basicLines? .none r)

/-- A literal string of several lines after its quotes. -/
def literalLines? : List Char → Option (List Char × List Char)
  | [] => none
  | '\'' :: '\'' :: '\'' :: '\'' :: '\'' :: '\'' :: _ => none
  | '\'' :: '\'' :: '\'' :: '\'' :: '\'' :: r => some (['\'', '\''], r)
  | '\'' :: '\'' :: '\'' :: '\'' :: r => some (['\''], r)
  | '\'' :: '\'' :: '\'' :: r => some ([], r)
  | c :: r => if c = '\n' ∨ isPlain c then consTo c (literalLines? r) else none

/-- A line feed right after the opening quotes does not belong to the string. -/
def dropLineFeed : List Char → List Char
  | '\n' :: r => r
  | cs => cs

def string? (cs : List Char) : Option (String × List Char) :=
  let read := match cs with
    | '"' :: '"' :: '"' :: r => basicLines? .none (dropLineFeed r)
    | '"' :: r => basic? r
    | '\'' :: '\'' :: '\'' :: r => literalLines? (dropLineFeed r)
    | '\'' :: r => literal? r
    | _ => none
  read.map fun (text, rest) => (String.ofList text, rest)

/-! ### Keys -/

def isBareChar (c : Char) : Bool := c.isAlphanum || c = '_' || c = '-'

/-- Reads one part of a key: quoted on one line, or bare. -/
def keyPart? (cs : List Char) : Option (String × List Char) :=
  match cs with
  | '"' :: r => (basic? r).map fun (text, rest) => (String.ofList text, rest)
  | '\'' :: r => (literal? r).map fun (text, rest) => (String.ofList text, rest)
  | _ =>
    let part := cs.takeWhile isBareChar
    if part.isEmpty then none else some (String.ofList part, cs.dropWhile isBareChar)

/-- Reads a key of at most `count` parts with dots between them; blanks may stand around each. -/
def key? : Nat → List Char → Option (List String × List Char)
  | 0, _ => none
  | count + 1, cs => do
    let (part, rest) ← keyPart? (cs.dropWhile isSpace)
    match rest.dropWhile isSpace with
    | '.' :: r =>
      let (parts, rest) ← key? count r
      return (part :: parts, rest)
    | r => return ([part], r)

end SchemaRegistry.Toml
