import Sandbox.Proofs.Script.Growth

/-!
# The keys of a table

A traversal of a sound table meets each of its keys once, in the form in which tables keep keys, and with
a value.
-/

namespace Sandbox.Script.Table

variable {t : Table} {v : Value} {n : Nat}

end Sandbox.Script.Table
