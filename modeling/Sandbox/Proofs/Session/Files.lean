import Sandbox.Proofs.Chunk.Outcome

/-!
# Files in a session

There are three ways to load a file: `loadfile` and `dofile` for scripts, and the one of a session, which
flushes the output at the end. Each makes something of its own of what comes of the file, but what this is
and why it is not had is the same for all three.
-/

namespace Sandbox

open Script Script.Run Chunk

variable {E : Type} {m m' : Machine (Service E) World} {w' : World} {file mode : Option String}
  {outcome : Outcome}

/-- A run goes on from what has come of a file. -/
theorem Chunk.Ends.bind_run {H α : Type} {m : Machine H World} (h : Ends m.world file mode outcome w')
    (hname : nameFault? (nameIn file) = none) (scope : Value)
    (next : Except LoadError Loaded → Run H World α) :
    (loadFile file mode scope >>= next).run m =
      (outcome.loaded (nameIn file) scope >>= next).run { m with world := w' } := by
  rw [EStateM.run_bind, EStateM.run_bind, h.loadFile_run hname]

namespace Service

variable {values : List Value}

end Service

namespace Session

/-- A number between many brackets. -/
def nested : String :=
  "return " ++ String.ofList (List.replicate 250 '(') ++ "1" ++ String.ofList (List.replicate 250 ')')

end Session

end Sandbox
