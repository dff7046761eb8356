import SchemaRegistry.CommandLine.Arguments
import SchemaRegistry.Text.Basic

/-!
The commands of the inspector.
-/

namespace SchemaRegistry.CommandLine

inductive Command where
  /-- Show what the header of a message says. -/
  | header (hex : String)
  /-- Put a payload into an envelope. -/
  | encode (id : UInt32) (hex : String)
  /-- Show settings, from files or from options, and the policy that they select. -/
  | policy (config : Option String) (options : List String)
  deriving DecidableEq, Repr

inductive Refusal where
  | usage
  | help
  deriving DecidableEq, Repr

def idFlag : Flag := ⟨'i', "id"⟩

def configFlag : Flag := ⟨'c', "config"⟩

def setFlag : Flag := ⟨'s', "set"⟩

structure Given where
  id : Option UInt32 := none
  config : Option String := none
  options : List String := []
  hex : Option String := none

namespace Given

/-- Takes an item. Only `set` may be repeated, and a path may not be empty. -/
def take (takesHex : Bool) (g : Given) : Item → Except Refusal Given
  | .help => .error .help
  | .unknown => .error .usage
  | .positional s => if takesHex ∧ g.hex.isNone then .ok { g with hex := some s } else .error .usage
  | .option f value =>
    if f = setFlag then .ok { g with options := g.options ++ [value] }
    else if f = configFlag ∧ g.config.isNone ∧ ¬ value.isEmpty then
      .ok { g with config := some value }
    else if f = idFlag ∧ g.id.isNone then
      match Text.uint32? value.toList with
      | some id => .ok { g with id := some id }
      | none => .error .usage
    else .error .usage

def takeAll (takesHex : Bool) (items : List Item) : Except Refusal Given :=
  items.foldlM (take takesHex) {}

end Given

def orUsage {α : Type} : Option α → Except Refusal α
  | some a => .ok a
  | none => .error .usage

namespace Command

def names : List String := ["header", "encode", "policy", "help"]

/-- What asking for help with these arguments ends in: help with one command or with all. -/
def help : List String → Refusal
  | [] => .help
  | [name] => if names.contains name then .help else .usage
  | _ => .usage

def parse : List String → Except Refusal Command
  | "header" :: args => do
    let g ← Given.takeAll true (readItems [] args)
    return .header (← orUsage g.hex)
  | "encode" :: args => do
    let g ← Given.takeAll true (readItems [idFlag] args)
    return .encode (← orUsage g.id) (g.hex.getD "")
  | "policy" :: args => do
    let g ← Given.takeAll false (readItems [configFlag, setFlag] args)
    return .policy g.config g.options
  | "help" :: args => .error (help args)
  | "--help" :: _ => .error .help
  | a :: _ => if "-h".toList.isPrefixOf a.toList then .error .help else .error .usage
  | [] => .error .usage

end Command

end SchemaRegistry.CommandLine
