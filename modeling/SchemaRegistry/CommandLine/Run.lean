import SchemaRegistry.CommandLine.Command
import SchemaRegistry.Envelope
import SchemaRegistry.Policy
import SchemaRegistry.Settings.Load

/-!
Running a command: its output, or what went wrong.
-/

namespace SchemaRegistry.CommandLine

open SchemaRegistry.Settings (Surroundings)

structure Outcome where
  exit : Nat := 0
  stdout : String := ""
  stderr : String := ""
  deriving DecidableEq, Repr

inductive Failure where
  /-- A text that should be bytes is none. -/
  | hex (what : String) (fault : Text.Hex.Fault)
  | notAnOption (text : String)
  | configAndOptions
  | error (e : Error)
  deriving DecidableEq, Repr

def Failure.message : Failure → String
  | .hex what fault => what ++ " is not valid hex: " ++ fault.message
  | .notAnOption text => "expected KEY=VALUE, got '" ++ text ++ "'"
  | .configAndOptions => "--config and --set cannot be combined"
  | .error e => e.message?.getD "Invalid configuration:"

/-- The bytes that an argument writes, without the blanks around it. -/
def bytes (what hex : String) : Except Failure (List UInt8) :=
  (Text.Hex.decode (Text.trim hex)).mapError (.hex what)

def previewLength : Nat := 32

def line (s : String) : String := s ++ "\n"

/-- The header of an envelope and the beginning of its payload. -/
def describeEnvelope (e : Envelope) : String :=
  line ("magic:     0x" ++ Text.Hex.encode [Envelope.magicByte]) ++
    line ("schema id: " ++ Text.ofNat e.schemaId.toNat) ++
    line ("payload:   " ++ Text.ofNat e.payload.length ++ " bytes") ++
    if e.payload.isEmpty then ""
    else line ("           " ++ Text.Hex.encode (e.payload.take previewLength))

/-- A key and a value with an equals sign between them, without blanks around them. -/
def readOption (text : String) : Except Failure (String × OptionValue) :=
  match Text.splitFirst? '=' text.toList with
  | some (key, value) =>
    .ok (Text.trim (String.ofList key), .text (Text.trim (String.ofList value)))
  | none => .error (.notAnOption text)

/-- Settings from options if there are any, else from files and the environment. -/
def settings (s : Surroundings) (config : Option String) (options : List String) :
    Except Failure Settings :=
  if options.isEmpty then (Settings.load s config).mapError .error
  else if config.isSome then .error .configAndOptions
  else do
    let entries ← options.mapM readOption
    (Settings.ofOptions (.ofList entries)).mapError .error

def describeSettings (s : Settings) : String :=
  let p := IdPolicy.select s
  line s.toml ++ line ("policy: " ++ p.label) ++
    line ("registers schemas: " ++ Settings.boolText p.mutates)

def Command.output (s : Surroundings) : Command → Except Failure String
  | .header hex => do
    let e ← (Envelope.parse (← bytes "message" hex)).mapError .error
    return describeEnvelope e
  | .encode id hex => do
    return line (Text.Hex.encode (Envelope.write ⟨id, ← bytes "body" hex⟩))
  | .policy config options => return describeSettings (← settings s config options)

def usage : String :=
  "Usage: serde-inspect <COMMAND>\n\n" ++
    "Commands:\n" ++
    "  header <HEX>                     decode the header of a message\n" ++
    "  encode --id <ID> [HEX]           put a payload into an envelope\n" ++
    "  policy [--config <FILE>] [--set <KEY=VALUE>]...\n" ++
    "                                   show settings and the policy that they select\n"

def run (s : Surroundings) (args : List String) : Outcome :=
  match Command.parse args with
  | .error .help => { stdout := usage }
  | .error .usage => { exit := 2, stderr := usage }
  | .ok command =>
    match command.output s with
    | .ok text => { stdout := text }
    | .error f => { exit := 1, stderr := line ("Error: " ++ f.message) }

end SchemaRegistry.CommandLine
