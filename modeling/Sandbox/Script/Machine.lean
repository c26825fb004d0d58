import Sandbox.Script.Fault
import Sandbox.Script.Routine
import Sandbox.Script.Syntax
import Sandbox.Script.Table

/-!
# Machines

The state of a script engine: its objects, the variables of its closures and the functions that are
running. It is generic in the functions `H` that a host adds and in the host's own state `W`.

A run stops in one of two ways: an error is raised, which scripts can catch, or the run is given up
since it does not end within any reasonable number of steps.
-/

namespace Sandbox.Script

/-- What a function value does. -/
inductive Callable (H : Type)
  /-- A function of a chunk with the variables around it. -/
  | closure (chunk : String) (function : Function) (locals : List Nat)
  | routine (r : Routine)
  | host (h : H)

/-- A function that is running. -/
structure Frame where
  function : Value
  /-- The chunk that it is from, or none if it is not from a script. -/
  chunk : Option String
  /-- The current line in the chunk. -/
  line : Nat
  /-- How the caller names it. -/
  site : Option Site
  /-- How many calls from functions that are not from scripts are around it. -/
  nesting : Nat

/-- Where in a script a function is running, if it is one of a script. -/
def Frame.place? (f : Frame) : Option String :=
  match f.chunk with
  | some chunk => if f.line = 0 then none else some s!"{chunk}:{f.line}"
  | none => none

/-- The state of a script engine. -/
structure Machine (H W : Type) where
  tables : Array Table := #[]
  functions : Array (Callable H) := #[]
  /-- The values of local variables. -/
  locals : Array Value := #[]
  faults : Array Fault := #[]
  /-- The number of threads and of userdata so far. -/
  others : Nat := 0
  /-- The metatable of texts. -/
  textMetatable : Option Nat := none
  /-- The table of global variables. -/
  globals : Nat := 0
  /-- The table of modules that are there. -/
  loaded : Nat := 0
  /-- The running functions, the innermost one first. -/
  frames : List Frame := []
  /-- The host's own state. -/
  world : W

/-- Why a run stops. -/
inductive Stop
  | raised (error : Value)
  | exhausted

/-- A computation on a machine. -/
abbrev Run (H W : Type) := EStateM Stop (Machine H W)

/-- A way to call a value. -/
abbrev Invoke (H W : Type) := Option Site → Value → List Value → Run H W (List Value)

namespace Run

variable {H W : Type} {α : Type}

/-- How often a loop goes round before a run is given up. -/
def budget : Nat := 10 ^ 15

/-- Goes round a loop until it has an answer. -/
def repeatFrom {σ : Type} (step : σ → Run H W (σ ⊕ α)) : Nat → σ → Run H W α
  | 0, _ => throw .exhausted
  | n + 1, s => do
    match ← step s with
    | .inl s => repeatFrom step n s
    | .inr a => return a

/-- Raises an error. -/
def raise (error : Value) : Run H W α := throw (.raised error)

/-! ## Objects -/

/-- A table. -/
def table (id : Nat) : Run H W Table := return (← get).tables.getD id {}

/-- Changes a table. -/
def modifyTable (id : Nat) (f : Table → Table) : Run H W Unit :=
  modify fun m => { m with tables := m.tables.modify id f }

/-- A new table. -/
def newTable (t : Table) : Run H W Nat :=
  modifyGet fun m => (m.tables.size, { m with tables := m.tables.push t })

/-- A new function. -/
def newFunction (f : Callable H) : Run H W Value :=
  modifyGet fun m => (.function m.functions.size, { m with functions := m.functions.push f })

/-- A new variable. -/
def newVariable (v : Value) : Run H W Nat :=
  modifyGet fun m => (m.locals.size, { m with locals := m.locals.push v })

/-- The value of a variable. -/
def variableValue (id : Nat) : Run H W Value := return (← get).locals.getD id .nil

/-- Gives a variable a value. -/
def setVariable (id : Nat) (v : Value) : Run H W Unit :=
  modify fun m => { m with locals := m.locals.setIfInBounds id v }

/-- A fault as a value. -/
def newFault (f : Fault) : Run H W Value :=
  modifyGet fun m => (.fault m.faults.size, { m with faults := m.faults.push f })

/-- A new object of some other kind. -/
def newObject (kind : Nat → Value) : Run H W Value :=
  modifyGet fun m => (kind m.others, { m with others := m.others + 1 })

/-- Raises a fault of the host. -/
def fail (f : Fault) : Run H W α := do raise (← newFault f)

/-- The value of a field without regard to metatables. -/
def rawGet (id : Nat) (key : Value) : Run H W Value := do
  let v := (← table id).get key
  modifyTable id (·.touch key)
  return v

/-- The value of a text key without regard to metatables. -/
def rawField (id : Nat) (key : String) : Run H W Value := return (← table id).getText key

/-- Sets a text key without regard to metatables. -/
def setField (id : Nat) (key : String) (v : Value) : Run H W Unit :=
  modifyTable id (·.setText key v)

/-! ## Frames -/

/-- Runs in a new frame. An error leaves the frame where it is, for whoever catches it. -/
def inFrame (frame : Frame) (act : Run H W α) : Run H W α := do
  modify fun m => { m with frames := frame :: m.frames }
  let a ← act
  modify fun m => { m with frames := m.frames.drop 1 }
  return a

/-- Runs and catches an error, with the frames as they were. -/
def protect (act : Run H W α) : Run H W (Except Value α) := do
  let frames := (← get).frames
  tryCatch (Except.ok <$> act) fun stop =>
    match stop with
    | .raised e => do
      modify fun m => { m with frames }
      return .error e
    | .exhausted => throw .exhausted

/-- Notes the line on which the running function is. -/
def atLine (line : Nat) : Run H W Unit :=
  modify fun m =>
    match m.frames with
    | f :: rest => { m with frames := { f with line } :: rest }
    | [] => m

/-- The place of a frame in front of an error text, where frame 0 is the running function. -/
def placeOf (level : Nat) : Run H W String := do
  match (← get).frames[level]?.bind Frame.place? with
  | some place => return place ++ ": "
  | none => return ""

/-- Raises an error text with the place of a frame. -/
def raiseAt (level : Nat) (text : String) : Run H W α := do
  raise (.ofString ((← placeOf level) ++ text))

/-- Raises an error text of the running function. -/
def raiseText (text : String) : Run H W α := raiseAt 0 text

/-- Raises an error text of a routine for its caller. -/
def raiseForCaller (text : String) : Run H W α := raiseAt 1 text

end Run
end Sandbox.Script
