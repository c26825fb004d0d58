import Sandbox.Script.Operation

/-!
# The host's view of scripts

What a host makes of the errors that scripts raise, and how it takes the values that scripts give to
its functions. A host takes a number for a text and a text for a number where one stands for the other.
-/

namespace Sandbox.Script
namespace Run

variable {H W : Type} {α : Type}

/-! ## Errors -/

/-- The bytes in front of the first null byte. -/
def untilNull (s : ByteArray) : ByteArray := ⟨(s.toList.takeWhile (· ≠ 0)).toArray⟩

/-- How often the text of an error may fail with another error. -/
def errorTextLimit : Nat := 10

/-- What the host makes of an error. -/
def faultOf (invoke : Invoke H W) : Nat → Value → Run H W Fault
  | _, .fault id => return (← get).faults.getD id default
  | 0, _ => return .runtime "error in error handling"
  | n + 1, e => do
    match ← protect (textOf invoke e) with
    | .ok s => return .runtime (untilNull s).toTextLossy
    | .error e => faultOf invoke n e

/-- Runs for the host: an error is a fault. -/
def guarded (invoke : Invoke H W) (act : Run H W α) : Run H W (Except Fault α) := do
  match ← protect act with
  | .ok a => return .ok a
  | .error e => return .error (← faultOf invoke errorTextLimit e)

/-- Calls a value for the host. -/
def callGuarded (invoke : Invoke H W) (f : Value) (arguments : List Value) :
    Run H W (Except Fault (List Value)) :=
  guarded invoke (invoke none f arguments)

/-- A fault is raised as an error. -/
def orFail (r : Except Fault α) : Run H W α :=
  match r with
  | .ok a => return a
  | .error fault => fail fault

/-- The field of a table for the host, which its metatable may give. -/
def hostField (invoke : Invoke H W) (id : Nat) (key : String) : Run H W Value := do
  orFail (← guarded invoke (index invoke (.table id) (.ofString key)))

/-- Sets the field of a table for the host, which its metatable may take. -/
def setHostField (invoke : Invoke H W) (id : Nat) (key : String) (v : Value) : Run H W Unit := do
  orFail (← guarded invoke (setIndex invoke (.table id) (.ofString key) v))

end Run

namespace Value

/-! ## Values for the host -/

/-- A text of a script as a text of the host, which its target names. -/
def decodeText (target : String) (s : ByteArray) : Except Fault String :=
  s.toText.mapError fun flaw => .conversion "string" target (some flaw.message)

/-- A text for the host. -/
def toHostText (v : Value) : Except Fault String :=
  match Numeral.text? v with
  | some s => decodeText "String" s
  | none => .error (.conversion v.hostTypeName "String" (some "expected string or number"))

/-- A float without its fraction, where it is in the range of integers. -/
def cutFloat? (x : Binary64) : Option Int64 :=
  if !x.isFinite then none
  else
    let n := x.truncInt
    if -2 ^ 63 ≤ n && n < 2 ^ 63 then some (.ofInt n) else none

/-- An integer for the host. A float loses its fraction. -/
def toHostInteger (v : Value) : Except Fault Int64 :=
  match Numeral.ofValue? v with
  | some (.int n) => .ok n
  | some (.float x) =>
    match cutFloat? x with
    | some n => .ok n
    | none => .error (.conversion v.hostTypeName "i64" (some "out of range"))
  | _ =>
    .error (.conversion v.hostTypeName "i64" (some "expected number or string coercible to number"))

/-- A table for the host. -/
def toHostTable (v : Value) : Except Fault Nat :=
  match v with
  | .table id => .ok id
  | v => .error (.conversion v.hostTypeName "table" none)

/-- A function for the host. -/
def toHostFunction (v : Value) : Except Fault Value :=
  match v with
  | .function id => .ok (.function id)
  | v => .error (.conversion v.hostTypeName "function" none)

/-- A value that may be missing. -/
def toHostOption {α : Type} (take : Value → Except Fault α) (v : Value) :
    Except Fault (Option α) :=
  if v.isNil then .ok none else some <$> take v

/-- An argument of a function of the host, where a missing one is nil. -/
def hostArgument {α : Type} (take : Value → Except Fault α) (arguments : List Value)
    (position : Nat) : Except Fault α :=
  (take (arguments.getD (position - 1) .nil)).mapError (.argument position)

end Value
end Sandbox.Script
