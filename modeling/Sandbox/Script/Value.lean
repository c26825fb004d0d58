import Sandbox.Number.Binary64
import Sandbox.Text.Bytes

/-!
# Values of scripts

Scalars are values in themselves; tables, functions and the other objects are numbers of objects that
the machine keeps. Strings of scripts are byte sequences.
-/

namespace Sandbox.Script

/-- A value of a script. -/
inductive Value
  | nil
  | bool (b : Bool)
  | int (n : Int64)
  | float (x : Binary64)
  | text (s : ByteArray)
  | table (id : Nat)
  | function (id : Nat)
  | thread (id : Nat)
  | userdata (id : Nat)
  /-- A bare address of the host. -/
  | pointer
  /-- An error of the host. -/
  | fault (id : Nat)
  deriving DecidableEq, Inhabited

namespace Value

/-- A text as a value. -/
def ofString (s : String) : Value := .text s.toUTF8

/-- The name of the type of a value. -/
def typeName : Value → String
  | .nil => "nil"
  | .bool _ => "boolean"
  | .int _ | .float _ => "number"
  | .text _ => "string"
  | .table _ => "table"
  | .function _ => "function"
  | .thread _ => "thread"
  | .userdata _ | .pointer | .fault _ => "userdata"

/-- The name of the type of a value as the host sees it. -/
def hostTypeName : Value → String
  | .int _ => "integer"
  | .pointer => "lightuserdata"
  | .fault _ => "error"
  | v => v.typeName

/-- All values but nil and false count as true. -/
def isTrue : Value → Bool
  | .nil | .bool false => false
  | _ => true

/-- The value is nil. -/
def isNil : Value → Bool
  | .nil => true
  | _ => false

/-- An integral float is the same number as the integer. -/
def equalsInt (n : Int64) (x : Binary64) : Bool := x.toInt? == some n.toInt

/-- Equality without regard to metatables. -/
def rawEquals : Value → Value → Bool
  | .float x, .float y => x.eqv y
  | .int n, .float x => equalsInt n x
  | .float x, .int n => equalsInt n x
  | a, b => a == b

/-- A float with an integral value of the integer range is the same key as the integer. -/
def asKey : Value → Value
  | .float x =>
    match x.toInt64? with
    | some n => .int n
    | none => .float x
  | v => v

/-- Two keys of a table are the same. -/
def sameKey : Value → Value → Bool
  | .float x, .float y => x.eqv y
  | a, b => a == b

end Value
end Sandbox.Script
