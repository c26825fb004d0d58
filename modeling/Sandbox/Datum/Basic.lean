import Sandbox.Named
import Sandbox.Number.Decimal

/-!
# Plain values

A `Datum` is what a host and a script exchange: a scalar, a list, or a record with text keys. The
fields of a record stand in the order of their keys and no key occurs twice; `Named.insert`
keeps that and `Datum.WellFormed` states it.
-/

namespace Sandbox

/-- A value that can cross the boundary between host and script. -/
inductive Datum
  | null
  | bool (b : Bool)
  | int (n : Int64)
  | float (x : Binary64)
  | text (s : String)
  /-- Items in order. -/
  | list (items : List Datum)
  /-- Fields in the order of their keys. -/
  | record (fields : List (String × Datum))
  /-- Stands for a script value that has no plain form; carries the name of its type. -/
  | foreign (type : String)
  deriving Repr, Inhabited

namespace Datum

mutual
/-- Equality of values is decided structurally; numbers are compared by their bits. -/
def beq : Datum → Datum → Bool
  | .null, .null => true
  | .bool a, .bool b => a == b
  | .int a, .int b => a == b
  | .float a, .float b => a == b
  | .text a, .text b => a == b
  | .list a, .list b => beqList a b
  | .record a, .record b => beqFields a b
  | .foreign a, .foreign b => a == b
  | _, _ => false

/-- Equality of lists of values. -/
def beqList : List Datum → List Datum → Bool
  | [], [] => true
  | a :: as, b :: bs => beq a b && beqList as bs
  | _, _ => false

/-- Equality of fields. -/
def beqFields : List (String × Datum) → List (String × Datum) → Bool
  | [], [] => true
  | (k, a) :: as, (l, b) :: bs => k == l && beq a b && beqFields as bs
  | _, _ => false
end

instance : BEq Datum := ⟨beq⟩

/-- The record of some fields, of which a later one replaces an earlier one with the same key. -/
def ofFields (fields : List (String × Datum)) : Datum :=
  .record (Named.ofList fields)

/-- The value of the field with this key. -/
def field? (key : String) : List (String × Datum) → Option Datum
  | [] => none
  | (k, v) :: rest => if k = key then some v else field? key rest

/-- The name of the kind of a value. -/
def kind : Datum → String
  | .null => "nil"
  | .bool _ => "boolean"
  | .int _ | .float _ => "number"
  | .text _ => "string"
  | .list _ => "array"
  | .record _ => "map"
  | .foreign _ => "opaque"

/-- The text of a text value. -/
def text? : Datum → Option String
  | .text s => some s
  | _ => none

/-- The fields of a record. -/
def fields? : Datum → Option (List (String × Datum))
  | .record fields => some fields
  | _ => none

/-- The items of a list. -/
def items? : Datum → Option (List Datum)
  | .list items => some items
  | _ => none

/-- A complex number is the pair of its real and imaginary parts. -/
def complex (re im : Binary64) : Datum := .list [.float re, .float im]

/-- A natural is an integer where it fits and else the nearest number in floating point. -/
def ofNat (n : Nat) : Datum :=
  if n ≤ Int64.maxValue.toInt.toNat then .int (.ofNat n) else .float (.ofRatio n 1)

/-- A value that may be absent. -/
def ofOption : Option Datum → Datum
  | some v => v
  | none => .null

mutual
/-- The keys of every record, at any depth, stand in strictly ascending order. -/
def WellFormed : Datum → Prop
  | .list items => WellFormedItems items
  | .record fields => (fields.map (·.1)).Pairwise (· < ·) ∧ WellFormedFields fields
  | _ => True

/-- Every item is well formed. -/
def WellFormedItems : List Datum → Prop
  | [] => True
  | v :: rest => WellFormed v ∧ WellFormedItems rest

/-- The value of every field is well formed. -/
def WellFormedFields : List (String × Datum) → Prop
  | [] => True
  | (_, v) :: rest => WellFormed v ∧ WellFormedFields rest
end

mutual
/-- The greatest number of lists and records that stand inside one another. -/
def depth : Datum → Nat
  | .list items => depthItems items + 1
  | .record fields => depthFields fields + 1
  | _ => 0

/-- The greatest depth of some items. -/
def depthItems : List Datum → Nat
  | [] => 0
  | v :: rest => max (depth v) (depthItems rest)

/-- The greatest depth of the values of some fields. -/
def depthFields : List (String × Datum) → Nat
  | [] => 0
  | (_, v) :: rest => max (depth v) (depthFields rest)
end

end Datum
end Sandbox
