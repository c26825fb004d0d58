import Sandbox.Script.Table
import Sandbox.Text.Bytes

/-!
# The order of keys

The entries of a table have no order of their own. For a listing they stand in the order of their keys:
integers first, then floats, texts and truth values, and each kind by its own order. Texts are in the
order of their bytes.
-/

namespace Sandbox.Script

namespace Value

/-- Where a kind of keys stands in a listing. -/
def keyRank : Value → Nat
  | .int _ => 0
  | .float _ => 1
  | .text _ => 2
  | .bool _ => 3
  | _ => 4

/-- A key stands before another one, or both are the same. -/
def keyAtMost (a b : Value) : Bool :=
  match a, b with
  | .int m, .int n => m ≤ n
  | .float x, .float y => !y.lt x
  | .text s, .text t => !bytesBelow t.toList s.toList
  | .bool s, .bool t => !s || t
  | a, b => a.keyRank ≤ b.keyRank

end Value

/-- The entries of a table in the order of their keys. -/
def Table.sortedEntries (t : Table) : List (Value × Value) :=
  t.entries.mergeSort fun a b => a.1.keyAtMost b.1

end Sandbox.Script
