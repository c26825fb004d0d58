import Sandbox.Yaml.Parser
import Sandbox.Proofs.Number.Text
import Std.Data.String.ToInt

/-!
# Texts of YAML keys

Scalars that are no texts are told apart by their texts: words have no digits, floats have a point or an
exponent. A text may spell any of them, and then the two keys have one name, as keys of other kinds may.
-/

namespace Sandbox.Yaml

open Decimal Binary64

variable {k k' : Node} {x y : Binary64} {w : String}

/-- A scalar, without a tag. -/
def Node.IsScalar : Node → Prop
  | .sequence _ | .mapping _ | .tagged _ _ => False
  | _ => True

end Sandbox.Yaml
