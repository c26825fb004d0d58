/-!
# Equality and order of byte sequences
-/

namespace Sandbox

/-- Byte sequences are compared byte by byte. -/
instance (priority := high) decidableEqBytes : DecidableEq ByteArray := ByteArray.instDecidableEq

/-- A byte sequence comes before another one: at the first difference it has the smaller byte, or
it ends there. -/
def bytesBelow : List UInt8 → List UInt8 → Bool
  | _, [] => false
  | [], _ :: _ => true
  | a :: s, b :: t => if a == b then bytesBelow s t else a < b

end Sandbox
