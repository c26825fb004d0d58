import Sandbox.Script.Engine
import Sandbox.Script.Library.Base
import Sandbox.Script.Library.Character
import Sandbox.Script.Library.Math
import Sandbox.Script.Library.Sequence
import Sandbox.Script.Library.Text

/-!
# The standard library

The routines with their names, and a machine that has them.
-/

namespace Sandbox.Script

/-- What a function of the standard library does. -/
def Routine.run {H W : Type} (invoke : Invoke H W) (r : Routine) (arguments : List Value) :
    Run H W (List Value) :=
  match r with
  | .base r => r.run invoke arguments
  | .text r => r.run invoke arguments
  | .sequence r => r.run invoke arguments
  | .math r => r.run arguments
  | .character r => r.run arguments

/-- An engine with the standard library and the functions of a host. -/
def Engine.withLibrary {H W : Type} (host : Invoke H W → H → List Value → Run H W (List Value)) :
    Engine H W :=
  { routine := Routine.run, host }

namespace Library

/-- The functions that are global variables. -/
def base : List (String × Routine) :=
  [("assert", .base .assert), ("collectgarbage", .base .collectgarbage), ("error", .base .error),
    ("getmetatable", .base .getmetatable), ("ipairs", .base .ipairs), ("load", .base .load),
    ("next", .base .next), ("pairs", .base .pairs), ("pcall", .base .pcall),
    ("rawequal", .base .rawequal), ("rawget", .base .rawget), ("rawlen", .base .rawlen),
    ("rawset", .base .rawset), ("select", .base .select), ("setmetatable", .base .setmetatable),
    ("tonumber", .base .tonumber), ("tostring", .base .tostring), ("type", .base .type),
    ("xpcall", .base .xpcall)]

/-- The functions on texts. -/
def text : List (String × Routine) :=
  [("byte", .text .byte), ("char", .text .char), ("dump", .text .dump), ("find", .text .find),
    ("format", .text .format), ("gmatch", .text .gmatch), ("gsub", .text .gsub),
    ("len", .text .len), ("lower", .text .lower), ("match", .text .match), ("rep", .text .rep),
    ("reverse", .text .reverse), ("sub", .text .sub), ("upper", .text .upper)]

/-- The metamethods of texts. -/
def textEvents : List String :=
  ["__add", "__sub", "__mul", "__mod", "__pow", "__div", "__idiv", "__unm"]

/-- The functions on sequences. -/
def sequence : List (String × Routine) :=
  [("concat", .sequence .concat), ("insert", .sequence .insert), ("move", .sequence .move),
    ("pack", .sequence .pack), ("remove", .sequence .remove), ("sort", .sequence .sort),
    ("unpack", .sequence .unpack)]

/-- The functions on numbers. -/
def math : List (String × Routine) :=
  [("abs", .math .abs), ("acos", .math .acos), ("asin", .math .asin), ("atan", .math .atan),
    ("ceil", .math .ceil), ("cos", .math .cos), ("deg", .math .deg), ("exp", .math .exp),
    ("floor", .math .floor), ("fmod", .math .fmod), ("log", .math .log), ("max", .math .max),
    ("min", .math .min), ("modf", .math .modf), ("rad", .math .rad), ("sin", .math .sin),
    ("sqrt", .math .sqrt), ("tan", .math .tan), ("tointeger", .math .tointeger),
    ("type", .math .type), ("ult", .math .ult)]

/-- The numbers that the functions on numbers come with. -/
def mathConstants : List (String × Value) :=
  [("pi", .float Run.pi), ("huge", .float .infinity), ("maxinteger", .int Int64.maxValue),
    ("mininteger", .int Int64.minValue)]

/-- The functions on characters. -/
def character : List (String × Routine) :=
  [("char", .character .char), ("codepoint", .character .codepoint), ("codes", .character .codes),
    ("len", .character .len), ("offset", .character .offset)]

/-- The pattern of one encoded character. -/
def characterPattern : Value := .text ⟨#[0x5B, 0x00, 0x2D, 0x7F, 0xC2, 0x2D, 0xFD, 0x5D, 0x5B, 0x80,
  0x2D, 0xBF, 0x5D, 0x2A]⟩

variable {H W : Type}

/-- Sets fields of a table to new functions. -/
def setRoutines (id : Nat) (routines : List (String × Routine)) : Run H W Unit :=
  routines.forM fun (name, r) => do Run.setField id name (← Run.newFunction (.routine r))

/-- Sets fields of a table. -/
def setFields (id : Nat) (fields : List (String × Value)) : Run H W Unit :=
  fields.forM fun (name, v) => Run.setField id name v

/-- Makes a table a module and a global variable. -/
def publish (name : String) (id : Nat) : Run H W Unit := do
  let m ← get
  Run.setField m.loaded name (.table id)
  Run.setField m.globals name (.table id)

/-- A new table with functions. -/
def newModule (name : String) (routines : List (String × Routine)) : Run H W Nat := do
  let id ← Run.newTable {}
  setRoutines id routines
  publish name id
  return id

/-- Sets up the tables of global variables and modules with all of the library. -/
def install : Run H W Unit := do
  let globals ← Run.newTable {}
  let loaded ← Run.newTable {}
  modify fun m => { m with globals, loaded }
  publish "_G" globals
  Run.setField globals "_VERSION" (.ofString "Lua 5.4")
  setRoutines globals base
  discard (Run.newFunction (.routine (.base .ipairsStep)))
  let textModule ← newModule "string" text
  discard (newModule "table" sequence)
  let mathModule ← newModule "math" math
  setFields mathModule mathConstants
  let characterModule ← newModule "utf8" character
  setFields characterModule [("charpattern", characterPattern)]
  let metatable ← Run.newTable {}
  setRoutines metatable (textEvents.map fun event => (event, .text (.arithmetic event)))
  Run.setField metatable "__index" (.table textModule)
  modify fun m => { m with textMetatable := some metatable }

end Library

/-- A machine with the standard library. -/
def Machine.fresh {H W : Type} (world : W) : Machine H W :=
  match Library.install.run { world } with
  | .ok _ m => m
  | .error _ m => m

end Sandbox.Script
