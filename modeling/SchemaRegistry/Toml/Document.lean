import SchemaRegistry.Toml.Quoted
import SchemaRegistry.Toml.Table

/-!
A TOML document: the statements of its text, one a line except that arrays and strings may take
several, build one table.
-/

namespace SchemaRegistry.Toml

inductive Statement where
  | entry (path : List String) (key : String) (v : Value)
  | table (path : List String) (key : String)
  | arrayTable (path : List String) (key : String)

/-- Keys have fewer parts than this, and arrays and tables in values nest less deep. -/
def limit : Nat := 80

/-- A key as the path to a table and the key in it. -/
def splitLast? : List String → Option (List String × String)
  | [] => none
  | [k] => some ([], k)
  | k :: ks => (splitLast? ks).map fun (path, key) => (k :: path, key)

def readKey? (cs : List Char) : Option ((List String × String) × List Char) := do
  let (parts, rest) ← key? (limit - 1) cs
  return (← splitLast? parts, rest)

/-- Skips a comment up to the end of its line. -/
def skipComment? : List Char → Option (List Char)
  | '#' :: cs =>
    let rest := cs.dropWhile isPlain
    if rest.isEmpty ∨ rest.head? = some '\n' then some rest else none
  | cs => some cs

/-- Skips what may stand after a statement, with the line feed. -/
def endLine? (cs : List Char) : Option (List Char) := do
  match ← skipComment? (cs.dropWhile isSpace) with
  | [] => some []
  | '\n' :: r => some r
  | _ => none

/-- Skips blanks, line feeds and comments, maybe from within a comment. Each comment ends in a line
feed. -/
def skipFrom? (inComment : Bool) : List Char → Option (List Char)
  | [] => if inComment then none else some []
  | c :: cs =>
    if c = '\n' then skipFrom? false cs
    else if inComment then if isPlain c then skipFrom? true cs else none
    else if c = '#' then skipFrom? true cs
    else if isSpace c then skipFrom? false cs
    else some (c :: cs)

/-- Skips what may stand between the items of an array. -/
def skipGap? (cs : List Char) : Option (List Char) := skipFrom? false cs

abbrev Reader := List Char → Option (Value × List Char)

/-- The items of an array after the first bracket, or after a comma; `count` bounds their number. -/
def items? (read : Reader) : Nat → List Value → List Char → Option (Value × List Char)
  | 0, _, _ => none
  | count + 1, before, cs => do
    match ← skipGap? cs with
    | ']' :: r => return (.array before.reverse, r)
    | cs =>
      let (v, rest) ← read cs
      match ← skipGap? rest with
      | ',' :: r => items? read count (v :: before) r
      | ']' :: r => return (.array (v :: before).reverse, r)
      | _ => none

def assignment? (read : Reader) (cs : List Char) :
    Option ((List String × String) × Value × List Char) := do
  let (target, rest) ← readKey? cs
  match rest with
  | '=' :: r =>
    let (v, rest) ← read (r.dropWhile isSpace)
    return (target, v, rest.dropWhile isSpace)
  | _ => none

/-- The entries of an inline table after the first brace, or after a comma. -/
def inlineEntries? (read : Reader) : Nat → Entries → List Char → Option (Value × List Char)
  | 0, _, _ => none
  | count + 1, entries, cs => do
    let ((path, key), v, rest) ← assignment? read cs
    let entries ← entries.addValue? path key v
    match rest with
    | ',' :: r => inlineEntries? read count entries r
    | '\x7d' :: r => return (← entries.toValue?, r)
    | _ => none

/-- Reads a value that nests less than `depth` deep. -/
def value? : Nat → Reader
  | 0, _ => none
  | depth + 1, cs =>
    match cs with
    | '[' :: r => if depth = 0 then none else items? (value? depth) (r.length + 1) [] r
    | '\x7b' :: r =>
      if depth = 0 then none
      else match r.dropWhile isSpace with
        | '\x7d' :: rest => some (.table [], rest)
        | _ => inlineEntries? (value? depth) (r.length + 1) [] r
    | '"' :: _ | '\'' :: _ => (string? cs).map fun (s, rest) => (.text s, rest)
    | _ => word? cs

def header? (close : List Char) (cs : List Char) : Option ((List String × String) × List Char) := do
  let (target, rest) ← readKey? cs
  if close.isPrefixOf rest then return (target, ← endLine? (rest.drop close.length)) else none

def statement? (cs : List Char) : Option (Statement × List Char) :=
  match cs with
  | '[' :: '[' :: r => (header? [']', ']'] r).map fun ((path, key), rest) => (.arrayTable path key, rest)
  | '[' :: r => (header? [']'] r).map fun ((path, key), rest) => (.table path key, rest)
  | _ => do
    let ((path, key), v, rest) ← assignment? (value? limit) cs
    return (.entry path key v, ← endLine? rest)

/-- The statements of a text of at most `count` lines. -/
def statements? : Nat → List Char → Option (List Statement)
  | 0, _ => none
  | count + 1, cs =>
    match cs.dropWhile isSpace with
    | [] => some []
    | '\n' :: r => statements? count r
    | '#' :: r => do
      match ← skipComment? ('#' :: r) with
      | '\n' :: r => statements? count r
      | _ => some []
    | cs => do
      let (s, rest) ← statement? cs
      return s :: (← statements? count rest)

/-- The table so far, and the path to the table that the last header opened. -/
structure Building where
  entries : Entries := []
  opened : List String := []

def Building.add? (b : Building) : Statement → Option Building
  | .entry path key v => do return { b with entries := ← b.entries.addBelow? b.opened path key v }
  | .table path key => do
    return { entries := ← b.entries.openTable? path key, opened := path ++ [key] }
  | .arrayTable path key => do
    return { entries := ← b.entries.openArray? path key, opened := path ++ [key] }

/-- Line ends as single line feeds. -/
def unifyLineEnds : List Char → List Char
  | '\r' :: '\n' :: cs => '\n' :: unifyLineEnds cs
  | c :: cs => c :: unifyLineEnds cs
  | [] => []

/-- The text without the mark that files in UTF-8 may begin with. -/
def dropMark : List Char → List Char
  | '\ufeff' :: cs => cs
  | cs => cs

/-- The entries of the table that a text describes. -/
def parse? (text : String) : Option (List (String × Value)) := do
  let cs := unifyLineEnds (dropMark text.toList)
  let b ← (← statements? (cs.length + 1) cs).foldlM Building.add? {}
  match ← b.entries.toValue? with
  | .table es => some es
  | _ => none

end SchemaRegistry.Toml
