import Sandbox.Proofs.Module.Once
import Sandbox.Proofs.Module.Ring

/-!
# Modules that are never loaded

A module that needs itself, over others or directly, cannot be loaded. What stops the functions that ask
for each other is the limit of nested calls: nobody notices before that a module is asked for whose
function has not yet returned.
-/

namespace Sandbox

open Script Script.Run

namespace Module.Ring

variable {E : Type} {m : Machine (Service E) World} {r : Ring} {s : Setting E} {name : String}
  {nesting depth : Nat}

/-- The names of the modules. -/
def roundNames : Finset String := {"ping", "pong", "self"}

/-- The first two need each other, and the last one needs itself. -/
def roundNext (name : String) : String := ([("ping", "pong"), ("pong", "ping")].lookup name).getD name

/-- Two modules that need each other, and one that needs itself. -/
def round : Ring where
  names := roundNames
  next := roundNext
  closed := by decide +kernel

end Module.Ring

namespace Session

end Session
end Sandbox
