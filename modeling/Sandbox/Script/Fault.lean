/-!
# Faults

What goes wrong between the host and its scripts, as the host sees it: by cause, with one wording.
-/

namespace Sandbox.Script

/-- An error of the host. -/
inductive Fault
  /-- A script has raised an error with this text. -/
  | runtime (text : String)
  /-- A chunk is none. -/
  | grammar (text : String)
  /-- The host's own error. -/
  | host (text : String)
  /-- A value of a script is no value of the host's type. -/
  | conversion (source target : String) (reason : Option String)
  /-- An argument is not what the host's function takes. -/
  | argument (position : Nat) (cause : Fault)
  deriving DecidableEq, Repr, Inhabited

/-- The wording of a fault. -/
def Fault.message : Fault → String
  | .runtime text => s!"runtime error: {text}"
  | .grammar text => s!"syntax error: {text}"
  | .host text => text
  | .conversion source target none => s!"error converting Lua {source} to {target}"
  | .conversion source target (some reason) =>
    s!"error converting Lua {source} to {target} ({reason})"
  | .argument position cause => s!"bad argument #{position}: {cause.message}"

end Sandbox.Script
