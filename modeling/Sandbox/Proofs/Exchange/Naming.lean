import Sandbox.Proofs.Exchange.Extraction
import Sandbox.Proofs.Named
import Sandbox.Proofs.Yaml.Keys

/-!
# Names of entries

A record has the texts of keys as names. Different numbers have different texts, and so have different
texts, but a text may be that of a number: then the later one of the two entries is kept. Without two
such keys there is one field for each entry, whatever order the entries come in.
-/

namespace Sandbox

open Script Script.Machine

namespace Exchange

variable {H W : Type} {invoke : Invoke H W} {m m₁ m' : Machine H W} {depth id : Nat}
  {key other : Value} {name : String}

/-! ## The texts of keys -/

/-- An integer or a float. -/
def IsNumber : Value → Prop
  | .int _ | .float _ => True
  | _ => False

/-- How a table becomes fields: it says that it has no items, and then its entries are read one after the
other, each under the text of its key. -/
structure ReadsFields (invoke : Invoke H W) (depth id : Nat) (m m₁ m' : Machine H W)
    (fields : List (String × Datum)) : Prop where
  measured : ∃ length ≤ 0, Yields (lengthOf invoke id) m (.ok length) m₁
  names : List.Forall₂ (fun entry name => keyText entry.1 = .ok name) (m₁.tableAt id).entries
    (fields.map (·.1))
  values : Yields ((m₁.tableAt id).entries.mapM fun entry => pullInner invoke depth entry.2) m₁
    (.ok (fields.map (·.2))) m'

theorem ReadsFields.length_eq {fields : List (String × Datum)}
    (h : ReadsFields invoke depth id m m₁ m' fields) : (m₁.tableAt id).entries.length = fields.length := by
  simpa using h.names.length_eq

end Exchange

namespace Yaml

end Yaml

namespace Exchange

/-- Calls that answer with nothing. -/
def silent : Invoke Empty Unit := fun _ _ _ => pure []

end Exchange
end Sandbox
