import SchemaRegistry.Error
import SchemaRegistry.Json.Value

/-!
Names in AVRO. A name is declared and looked up in a namespace; written with dots it carries its
own.
-/

namespace SchemaRegistry.Avro

open SchemaRegistry.Text (split)

structure Name where
  simple : String
  /-- The namespace; the outermost one has no name. -/
  space : Option String
  deriving DecidableEq, Repr

def isInitial (c : Char) : Bool := c.isAlpha || c = '_'

/-- Letters, digits and underscores of ASCII, no digit first. -/
def isIdentifier : List Char → Bool
  | [] => false
  | c :: cs => isInitial c && cs.all fun d => isInitial d || d.isDigit

/-- Identifiers with dots between them, or nothing. -/
def isNamespace (text : String) : Bool :=
  text.isEmpty || (split '.' text.toList).all isIdentifier

namespace Name

def full (n : Name) : String :=
  match n.space with
  | some s => s ++ "." ++ n.simple
  | none => n.simple

/-- A name without namespace is one of the enclosing namespace. -/
def within (enclosing : Option String) (n : Name) : Name :=
  match n.space with
  | some _ => n
  | none => { n with space := enclosing }

/-- The last part of a text and the namespace in front of it, which is empty for a text with a
leading dot and missing for one without dots. -/
def parts? (text : String) : Option (String × Option String) :=
  match (split '.' text.toList).reverse with
  | [] => none
  | simple :: outer =>
    if isIdentifier simple then
      match outer with
      | [] => some (String.ofList simple, none)
      | [[]] => some (String.ofList simple, some "")
      | _ =>
        if outer.all isIdentifier then
          some (String.ofList simple, some (".".intercalate (outer.reverse.map String.ofList)))
        else none
    else none

/-- The namespace that a text stands for; an empty text stands for the outermost one. -/
def spaceOf (text : String) : Option String := if text.isEmpty then none else some text

/-- The name that a text declares: a bare one belongs to the enclosing namespace, one with a leading
dot to the outermost. -/
def declared? (enclosing : Option String) (text : String) : Option Name :=
  (parts? text).map fun
    | (simple, none) => ⟨simple, enclosing⟩
    | (simple, some space) => ⟨simple, spaceOf space⟩

/-- The name that a text uses. One that carries no namespace is looked up in the enclosing one, with
a leading dot or without. -/
def used? (enclosing : Option String) (text : String) : Option Name :=
  (parts? text).map fun (simple, space) =>
    (Name.mk simple (space.bind spaceOf)).within enclosing

end Name

abbrev Members := List (String × Json)

namespace Members

def text? (ms : Members) (key : String) : Option String := (ms.lookup key).bind Json.text?

/-- The namespace that an object is in: its own, else the enclosing one. -/
def space (enclosing : Option String) (ms : Members) : Option String :=
  match ms.text? "namespace" with
  | some s => Name.spaceOf s
  | none => enclosing

def declaredName (enclosing : Option String) (ms : Members) : Except Fault Name := do
  let some text := ms.text? "name" | throw .missingName
  let some name := Name.declared? (ms.space enclosing) text | throw (.invalidName text)
  let space := name.space.getD ""
  if isNamespace space then return name else throw (.invalidNamespace space)

def innerName? (ms : Members) : Option String :=
  match ms.lookup "type" with
  | some (.object inner) => Members.text? inner "name"
  | _ => none

/-- The name under which a definition is known: an object as its `type` gives it its own. -/
def definitionName (ms : Members) : Except Fault Name := do
  let name ← ms.declaredName none
  return { name with simple := ms.innerName?.getD name.simple }

/-- The other names that an object declares, when all of them are texts. -/
def aliases (ms : Members) : List String :=
  match (ms.lookup "aliases").bind Json.items? with
  | some xs => (xs.mapM Json.text?).getD []
  | none => []

end Members

end SchemaRegistry.Avro
