import Sandbox.Proofs.Chunk.Door
import Sandbox.Proofs.Custody.Door
import Sandbox.Proofs.Custody.Start

/-!
# Sessions compile text only

Whatever a host and its scripts do with a session, the loader is in custody: it would make no difference if
it did something else in every mode but the one for texts. Since all other ways of turning bytes into code
name that mode themselves, a precompiled chunk is refused everywhere, hidden or not.
-/

namespace Sandbox

open Script Script.Run

namespace Session

variable {E : Type} {extension : Extension E}

/-! ## The start -/

/-- What has become of the machine of a session whose host gives nothing to the scripts that is the loader.
Between the operations the world may change in any way. -/
inductive Onward (extension : Extension E) (m : Machine (Service E) World) :
    Machine (Service E) World → Prop
  | refl : Onward extension m m
  | operate {m' : Machine (Service E) World} (h : Onward extension m m') {op : Operation E}
      (hop : Clear custody op) : Onward extension m (op.left extension m')
  | outside {m' : Machine (Service E) World} (h : Onward extension m m') (w : World) :
      Onward extension m { m' with world := w }

/-- An operation leaves a guarded machine guarded. -/
theorem Onward.guarded (hextension : Service.HandsBack extension) {m m' : Machine (Service E) World}
    (h : Onward extension m m') (hm : Guarded custody m) : Guarded custody m' := by
  induction h with
  | refl => exact hm
  | operate _ hop ih =>
    rw [Operation.left_eq]
    exact (Operation.run_alike (engine_alike hextension) ih hop).2.2
  | outside _ w ih => exact ih.congr rfl rfl rfl

/-! ## Ways in -/

/-- A session with an empty store and nothing else. -/
def bare : Environment Empty := { world := { storage := {}, store := .memory 0 } }

end Session

end Sandbox
