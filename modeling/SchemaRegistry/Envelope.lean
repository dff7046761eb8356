import SchemaRegistry.Error

/-!
The envelope of a payload: a magic byte, the schema's ID in four big-endian bytes, and the payload,
which takes the rest of the message.
-/

namespace SchemaRegistry

structure Envelope where
  schemaId : UInt32
  payload : List UInt8
  deriving DecidableEq, Repr

namespace Envelope

def magicByte : UInt8 := 0

def headerLength : Nat := 5

def idBytes (id : UInt32) : List UInt8 :=
  [(id >>> 24).toUInt8, (id >>> 16).toUInt8, (id >>> 8).toUInt8, id.toUInt8]

def idOfBytes (b0 b1 b2 b3 : UInt8) : UInt32 :=
  (b0.toUInt32 <<< 24) ||| (b1.toUInt32 <<< 16) ||| (b2.toUInt32 <<< 8) ||| b3.toUInt32

def write (e : Envelope) : List UInt8 := magicByte :: (idBytes e.schemaId ++ e.payload)

/-- The magic byte is looked at before the length, so that a short foreign message is told apart
from a cut one. -/
def parse : List UInt8 → Except Error Envelope
  | [] => .error (.truncated 0)
  | b :: r =>
    if b ≠ magicByte then .error (.unknownMagicByte b)
    else match r with
      | b0 :: b1 :: b2 :: b3 :: payload => .ok ⟨idOfBytes b0 b1 b2 b3, payload⟩
      | _ => .error (.truncated (r.length + 1))

def schemaId? (bytes : List UInt8) : Except Error UInt32 := (parse bytes).map schemaId

end Envelope

end SchemaRegistry
