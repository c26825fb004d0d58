import Sandbox.Datum.Basic

/-!
# The node graph of a YAML document

A `Node` is a YAML value before it becomes a plain value: mappings may have keys of any kind, and a
node may carry a tag. Two keys of a mapping are the same when `Node.same` says so; an integer and a
float are never the same key.
-/

namespace Sandbox.Yaml

/-- A YAML value. -/
inductive Node
  | null
  | bool (b : Bool)
  /-- An integer of the range of 64-bit words, signed or unsigned. -/
  | int (n : Int)
  | float (x : Binary64)
  | text (s : String)
  | sequence (items : List Node)
  /-- Entries in the order of the document. -/
  | mapping (entries : List (Node × Node))
  | tagged (tag : String) (value : Node)
  deriving Repr, Inhabited

/-- Numbers are the same key when they are equal, and all that are not numbers are one key. -/
def sameNumber (x y : Binary64) : Bool := x.eqv y || (x.isNaN && y.isNaN)

namespace Node

mutual
/-- Whether two nodes are the same as keys; the order of entries does not matter. -/
def same : Node → Node → Bool
  | .null, .null => true
  | .bool a, .bool b => a == b
  | .int a, .int b => a == b
  | .float a, .float b => sameNumber a b
  | .text a, .text b => a == b
  | .sequence a, .sequence b => sameItems a b
  | .mapping a, .mapping b => a.length == b.length && sameEntries a b
  | .tagged t a, .tagged u b => t == u && same a b
  | _, _ => false

/-- Whether two lists of nodes agree item by item. -/
def sameItems : List Node → List Node → Bool
  | [], [] => true
  | a :: as, b :: bs => same a b && sameItems as bs
  | _, _ => false

/-- Whether every entry of the first mapping has its like in the second. -/
def sameEntries : List (Node × Node) → List (Node × Node) → Bool
  | [], _ => true
  | (k, v) :: rest, bs => bs.any (fun e => same k e.1 && same v e.2) && sameEntries rest bs
end

end Node
end Sandbox.Yaml
