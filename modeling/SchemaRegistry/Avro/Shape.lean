import SchemaRegistry.Avro.Name

/-!
The shapes of data that AVRO schemas describe.
-/

namespace SchemaRegistry.Avro

inductive Primitive where
  | null
  | boolean
  | int
  | long
  | float
  | double
  | bytes
  | string
  deriving DecidableEq, Repr

namespace Primitive

def all : List Primitive := [.null, .boolean, .int, .long, .float, .double, .bytes, .string]

def name : Primitive → String
  | .null => "null"
  | .boolean => "boolean"
  | .int => "int"
  | .long => "long"
  | .float => "float"
  | .double => "double"
  | .bytes => "bytes"
  | .string => "string"

def ofName? (s : String) : Option Primitive := all.find? fun p => p.name = s

end Primitive

/-- Meanings that a schema gives to data of some other shape, decimals apart. -/
inductive Logical where
  | bigDecimal
  | uuid
  | date
  | timeMillis
  | timeMicros
  | timestampMillis
  | timestampMicros
  | timestampNanos
  | localTimestampMillis
  | localTimestampMicros
  | localTimestampNanos
  | duration
  deriving DecidableEq, Repr

namespace Logical

def all : List Logical :=
  [.bigDecimal, .uuid, .date, .timeMillis, .timeMicros, .timestampMillis, .timestampMicros,
    .timestampNanos, .localTimestampMillis, .localTimestampMicros, .localTimestampNanos, .duration]

def name : Logical → String
  | .bigDecimal => "big-decimal"
  | .uuid => "uuid"
  | .date => "date"
  | .timeMillis => "time-millis"
  | .timeMicros => "time-micros"
  | .timestampMillis => "timestamp-millis"
  | .timestampMicros => "timestamp-micros"
  | .timestampNanos => "timestamp-nanos"
  | .localTimestampMillis => "local-timestamp-millis"
  | .localTimestampMicros => "local-timestamp-micros"
  | .localTimestampNanos => "local-timestamp-nanos"
  | .duration => "duration"

def ofName? (s : String) : Option Logical := all.find? fun l => l.name = s

/-- The shape of the data; none for a duration, which is twelve bytes. -/
def base? : Logical → Option Primitive
  | .bigDecimal => some .bytes
  | .uuid => some .string
  | .date | .timeMillis => some .int
  | .duration => none
  | _ => some .long

end Logical

/-- Members of a schema that have no meaning for its shape. -/
abbrev Attributes := Members

structure Fixed where
  name : Name
  size : Nat
  attributes : Attributes := []
  deriving Repr

structure Enumeration where
  name : Name
  symbols : List String
  default : Option String
  attributes : Attributes := []
  deriving Repr

/-- A field of a record, apart from its shape. -/
structure Field where
  name : String
  aliases : List String
  attributes : Attributes := []
  default : Option Json
  deriving Repr

inductive Shape where
  | primitive (p : Primitive)
  | logical (l : Logical)
  /-- A decimal in bytes, or in bytes of a fixed number. -/
  | decimal (precision scale : Nat) (base : Option Fixed)
  | array (items : Shape) (attributes : Attributes)
  | map (values : Shape) (attributes : Attributes)
  | union (branches : List Shape)
  | record (name : Name) (fields : List (Field × Shape)) (attributes : Attributes)
  | enum (e : Enumeration)
  | fixed (f : Fixed)
  /-- A use of a name that is defined elsewhere. -/
  | ref (name : Name)
  deriving Repr

/-- What a shape is, without its parts. -/
inductive Kind where
  | primitive (p : Primitive)
  | logical (l : Logical)
  | decimal
  | array
  | map
  | union
  | record
  | enum
  | fixed
  | ref
  deriving DecidableEq, Repr

namespace Kind

def name : Kind → String
  | .primitive .null => "Null"
  | .primitive .boolean => "Boolean"
  | .primitive .int => "Int"
  | .primitive .long => "Long"
  | .primitive .float => "Float"
  | .primitive .double => "Double"
  | .primitive .bytes => "Bytes"
  | .primitive .string => "String"
  | .logical .bigDecimal => "BigDecimal"
  | .logical .uuid => "Uuid"
  | .logical .date => "Date"
  | .logical .timeMillis => "TimeMillis"
  | .logical .timeMicros => "TimeMicros"
  | .logical .timestampMillis => "TimestampMillis"
  | .logical .timestampMicros => "TimestampMicros"
  | .logical .timestampNanos => "TimestampNanos"
  | .logical .localTimestampMillis => "LocalTimestampMillis"
  | .logical .localTimestampMicros => "LocalTimestampMicros"
  | .logical .localTimestampNanos => "LocalTimestampNanos"
  | .logical .duration => "Duration"
  | .decimal => "Decimal"
  | .array => "Array"
  | .map => "Map"
  | .union => "Union"
  | .record => "Record"
  | .enum => "Enum"
  | .fixed => "Fixed"
  | .ref => "Ref"

/-- Shapes of these kinds have names. -/
def isNamed : Kind → Bool
  | .record | .enum | .fixed | .ref => true
  | _ => false

end Kind

namespace Shape

def kind : Shape → Kind
  | .primitive p => .primitive p
  | .logical l => .logical l
  | .decimal .. => .decimal
  | .array .. => .array
  | .map .. => .map
  | .union _ => .union
  | .record .. => .record
  | .enum _ => .enum
  | .fixed _ => .fixed
  | .ref _ => .ref

def name? : Shape → Option Name
  | .record n .. => some n
  | .enum e => some e.name
  | .fixed f => some f.name
  | .ref n => some n
  | _ => none

/-- The namespace of a shape with a name. -/
def space (s : Shape) : Option String := s.name?.bind Name.space

/-- How a shape is written where it is used: by its name if it has one. -/
def used (s : Shape) : Shape :=
  match s.name? with
  | some n => .ref n
  | none => s

/-- Whether the shapes that have no name differ in kind, so that a value tells which one it is. -/
def areDistinct (shapes : List Shape) : Bool :=
  ((shapes.map kind).filter fun k => !k.isNamed).Nodup

end Shape

end SchemaRegistry.Avro
