import SchemaRegistry.Json.Token

/-!
A JSON document as it is written: members keep their order and may repeat a key. Reading is a fold
over the tokens with a stack of the brackets that are open, so brackets may nest to any depth.
-/

namespace SchemaRegistry.Json

inductive Document where
  | null
  | bool (b : Bool)
  | number (text : String)
  | string (text : Option String)
  | array (items : List Document)
  | object (members : List (Option String × Document))
  deriving Repr

namespace Document

abbrev Member := Option String × Document

/-- An open bracket with the parts before the one being read, the last one first. -/
inductive Frame where
  | items (before : List Document)
  | members (before : List Member) (key : Option String)

/-- What the next token may be. -/
inductive Reading where
  | value (outer : List Frame)
  | itemOrEnd (outer : List Frame)
  | keyOrEnd (outer : List Frame)
  | key (outer : List Frame) (before : List Member)
  | colon (outer : List Frame) (before : List Member) (key : Option String)
  | complete (outer : List Frame) (document : Document)

/-- Reads the first token of a value. -/
def Reading.open (outer : List Frame) : Token → Option Reading
  | .null => some (.complete outer .null)
  | .bool b => some (.complete outer (.bool b))
  | .number t => some (.complete outer (.number t))
  | .string t => some (.complete outer (.string t))
  | .leftBracket => some (.itemOrEnd outer)
  | .leftBrace => some (.keyOrEnd outer)
  | _ => none

def Reading.step : Reading → Token → Option Reading
  | .value outer, t => Reading.open outer t
  | .itemOrEnd outer, .rightBracket => some (.complete outer (.array []))
  | .itemOrEnd outer, t => Reading.open (.items [] :: outer) t
  | .keyOrEnd outer, .rightBrace => some (.complete outer (.object []))
  | .keyOrEnd outer, .string k => some (.colon outer [] k)
  | .key outer before, .string k => some (.colon outer before k)
  | .colon outer before k, .colon => some (.value (.members before k :: outer))
  | .complete (.items before :: outer) d, .comma => some (.value (.items (d :: before) :: outer))
  | .complete (.items before :: outer) d, .rightBracket =>
    some (.complete outer (.array (d :: before).reverse))
  | .complete (.members before k :: outer) d, .comma => some (.key outer ((k, d) :: before))
  | .complete (.members before k :: outer) d, .rightBrace =>
    some (.complete outer (.object ((k, d) :: before).reverse))
  | _, _ => none

def Reading.finish : Reading → Option Document
  | .complete [] d => some d
  | _ => none

def ofTokens? (ts : List Token) : Option Document := (ts.foldlM Reading.step (.value [])).bind Reading.finish

def parse? (s : String) : Option Document := (tokens? s.toList).bind ofTokens?

end Document

end SchemaRegistry.Json
