/-!
# Narrow numbers

A variable declared with a narrow integer type keeps its values in the range of that type: every
value stored through its name is reduced modulo the width.  A float of 32 bits is kept as a float of
64 bits with the same value.
-/

set_option autoImplicit false

namespace SandboxedGo

/-- The integer types narrower than 64 bits. -/
inductive IntWidth
  | int8 | int16 | int32 | uint8 | uint16 | uint32
  deriving DecidableEq, Repr

namespace IntWidth

def ofName? : String → Option IntWidth
  | "int8" => some int8
  | "int16" => some int16
  | "int32" | "rune" => some int32
  | "uint8" | "byte" => some uint8
  | "uint16" => some uint16
  | "uint32" => some uint32
  | _ => none

/-- The number of the type's range that differs from `n` by a multiple of the width. -/
def wrap (w : IntWidth) (n : Int64) : Int64 :=
  match w with
  | int8 => n.toInt8.toInt64
  | int16 => n.toInt16.toInt64
  | int32 => n.toInt32.toInt64
  | uint8 => n &&& 0xff
  | uint16 => n &&& 0xffff
  | uint32 => n &&& 0xffffffff

end IntWidth

def toSingle (f : Float) : Float := f.toFloat32.toFloat

end SandboxedGo
