import Sandbox.Text.Bytes

/-!
# Routines

The functions of the standard library by name. What they do is in the modules under `Library`.
-/

namespace Sandbox.Script

/-- The functions that are global variables, and the steps of their loops. -/
inductive BaseRoutine
  | assert | collectgarbage | error | getmetatable | ipairs | ipairsStep | load | next | pairs | pcall
  | rawequal | rawget | rawlen | rawset | select | setmetatable | tonumber | tostring | type | xpcall
  deriving DecidableEq, Repr

/-- The functions on texts. The step of a loop over matches keeps its place in a table. -/
inductive TextRoutine
  | byte | char | dump | find | format | gmatch | gsub | len | lower | match | rep | reverse | sub
  | upper
  | matchStep (text pattern : ByteArray) (state : Nat)
  /-- Arithmetic on texts that write numbers, by the name of its event. -/
  | arithmetic (event : String)
  deriving DecidableEq

/-- The functions on sequences. -/
inductive SequenceRoutine
  | concat | insert | move | pack | remove | sort | unpack
  deriving DecidableEq, Repr

/-- The functions on numbers. -/
inductive MathRoutine
  | abs | acos | asin | atan | ceil | cos | deg | exp | floor | fmod | log | max | min | modf | rad
  | sin | sqrt | tan | tointeger | type | ult
  deriving DecidableEq, Repr

/-- The functions on characters. -/
inductive CharacterRoutine
  | char | codepoint | codes | codesStep (isLax : Bool) | len | offset
  deriving DecidableEq, Repr

/-- A function of the standard library. -/
inductive Routine
  | base (r : BaseRoutine)
  | text (r : TextRoutine)
  | sequence (r : SequenceRoutine)
  | math (r : MathRoutine)
  | character (r : CharacterRoutine)
  deriving DecidableEq

end Sandbox.Script
