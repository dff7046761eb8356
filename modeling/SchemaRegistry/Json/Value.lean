import SchemaRegistry.Json.Document

/-!
JSON values. A value that was read has the members of its objects sorted by key, no key twice, so
two documents have the same value exactly when they differ only in layout, in the order of members,
in members that a later one with the same key replaces, and in numbers that are written as objects.
-/

namespace SchemaRegistry

inductive Json where
  | null
  | bool (b : Bool)
  | number (text : String)
  | string (text : String)
  | array (items : List Json)
  | object (members : List (String × Json))
  deriving Repr, Inhabited

namespace Json

/-- Puts a member in its place; one with the same key is replaced. -/
def putMember (k : String) (v : Json) : List (String × Json) → List (String × Json)
  | [] => [(k, v)]
  | (k', v') :: r =>
    if k = k' then (k, v) :: r
    else if k < k' then (k, v) :: (k', v') :: r
    else (k', v') :: putMember k v r

/-- The object with these members, put in from the left. -/
def ofMembers (ms : List (String × Json)) : Json :=
  .object (ms.foldl (fun acc m => putMember m.1 m.2 acc) [])

def get? (key : String) : Json → Option Json
  | .object ms => ms.lookup key
  | _ => none

def text? : Json → Option String
  | .string s => some s
  | _ => none

def items? : Json → Option (List Json)
  | .array xs => some xs
  | _ => none

/-- The key that begins an object which stands for a number. -/
def numberKey : String := "$serde_json::private::Number"

/-- The number that an object stands for: its only member is the text of the number. -/
def numberOf? : List Document.Member → Option Json
  | [(_, .string (some t))] => (number? t).map .number
  | _ => none

def beginsNumber : List Document.Member → Bool
  | (k, _) :: _ => k = some numberKey
  | [] => false

/-- Arrays and objects nest at most this deep. -/
def maxDepth : Nat := 127

mutual

/-- The value of a document that nests at most `depth` deep and whose strings are all texts. -/
def ofDocument? (depth : Nat) : Document → Option Json
  | .null => some .null
  | .bool b => some (.bool b)
  | .number t => some (.number t)
  | .string t => t.map .string
  | .array ds => if depth = 0 then none else (ofItems? (depth - 1) ds).map .array
  | .object ms =>
    if depth = 0 then none
    else if beginsNumber ms then numberOf? ms
    else (ofMembers? (depth - 1) ms).map ofMembers

def ofItems? (depth : Nat) : List Document → Option (List Json)
  | [] => some []
  | d :: ds => do return (← ofDocument? depth d) :: (← ofItems? depth ds)

def ofMembers? (depth : Nat) : List (Option String × Document) → Option (List (String × Json))
  | [] => some []
  | (k, d) :: ms => do return (← k, ← ofDocument? depth d) :: (← ofMembers? depth ms)

end

def parse? (s : String) : Option Json := (Document.parse? s).bind (ofDocument? maxDepth)

/-! ### Compact text -/

/-- The four digits of a control character. -/
def controlEscape (c : Char) : List Char :=
  ['\\', 'u', '0', '0', Nat.digitChar (c.toNat / 16), Nat.digitChar (c.toNat % 16)]

/-- Only quotes, backslashes and control characters are escaped. -/
def escapeChar (c : Char) : List Char :=
  if c = '"' then ['\\', '"']
  else if c = '\\' then ['\\', '\\']
  else if c.toNat < 0x20 then
    if c = '\n' then ['\\', 'n']
    else if c = '\r' then ['\\', 'r']
    else if c = '\t' then ['\\', 't']
    else if c.toNat = 8 then ['\\', 'b']
    else if c.toNat = 12 then ['\\', 'f']
    else controlEscape c
  else [c]

def quoted (s : String) : List Char := '"' :: (s.toList.flatMap escapeChar ++ ['"'])

mutual

/-- Writes a value without blanks in front of `rest`. -/
def write : Json → List Char → List Char
  | .null, rest => "null".toList ++ rest
  | .bool b, rest => (if b then "true" else "false").toList ++ rest
  | .number t, rest => t.toList ++ rest
  | .string s, rest => quoted s ++ rest
  | .array xs, rest => '[' :: writeItems xs (']' :: rest)
  | .object ms, rest => '{' :: writeMembers ms ('}' :: rest)

def writeItems : List Json → List Char → List Char
  | [], rest => rest
  | [v], rest => v.write rest
  | v :: vs, rest => v.write (',' :: writeItems vs rest)

def writeMembers : List (String × Json) → List Char → List Char
  | [], rest => rest
  | [(k, v)], rest => quoted k ++ ':' :: v.write rest
  | (k, v) :: ms, rest => quoted k ++ ':' :: v.write (',' :: writeMembers ms rest)

end

def compact (v : Json) : String := String.ofList (v.write [])

end Json

end SchemaRegistry
