import Sandbox.Module.Searcher

/-!
# Requiring modules

A module that is there is the answer. Otherwise the searchers are asked one after the other, and the
function of the first that finds the module makes it. Only successes are kept: a module whose function
answers nil is what the function itself has put in its place, or else true.
-/

namespace Sandbox.Module

open Script

variable {H : Type}

/-- Adds an event to the history. -/
def note (event : Event) : Run H World Unit :=
  modify fun m => { m with world.history := m.world.history ++ [event] }

/-- Adds an event with the table of modules as it is now. -/
def noteModules (event : Table → Event) : Run H World Unit := do
  note (event (← Run.table (← get).loaded))

/-- The module of a name among those that are there. -/
def kept (invoke : Invoke H World) (name : String) : Run H World Value := do
  Run.hostField invoke (← get).loaded name

/-- Keeps a module. -/
def keep (invoke : Invoke H World) (name : String) (v : Value) : Run H World Unit := do
  Run.setHostField invoke (← get).loaded name v

/-- Keeps the result of a function that makes a module, where nil is no result. -/
def keepResult (invoke : Invoke H World) (name : String) (result : Value) : Run H World Unit :=
  if result.isNil then pure () else keep invoke name result

/-- The module of a name, where true is kept if there is none. -/
def keptOrTrue (invoke : Invoke H World) (name : String) : Run H World Value := do
  let v ← kept invoke name
  if !v.isNil then return v
  keep invoke name (.bool true)
  return .bool true

/-- Keeps what the function of a module has returned. The module is what is kept then. -/
def settle (invoke : Invoke H World) (name : String) (result : Value) : Run H World Value := do
  noteModules (.returned name result)
  keepResult invoke name result
  keptOrTrue invoke name

/-- Makes a module by its function and keeps it. -/
def make (invoke : Invoke H World) (name : String) (loader : Value) (label : String) :
    Run H World Value := do
  note (.called name loader label)
  let results ← Run.orFail
    (← Run.callGuarded invoke loader [.ofString name, .ofString label])
  settle invoke name (results.headD .nil)

/-- Asks a searcher for a module. -/
def ask (invoke : Invoke H World) (tables : ModuleTables) (name : String) (s : Searcher) :
    Run H World Finding := do
  note (.consulted name s)
  s.search invoke tables name

/-- Asks searchers for a module, with where has been looked so far. -/
def consult (invoke : Invoke H World) (tables : ModuleTables) (name : String) :
    List Searcher → String → Run H World Value
  | [], trail => Run.fail (.runtime s!"module '{name}' not found:{trail}")
  | s :: rest, trail => do
    match ← ask invoke tables name s with
    | .missing more => consult invoke tables name rest (trail ++ more)
    | .found loader label => make invoke name loader label

/-- The module of a name, which is made if it is not there. -/
def require (invoke : Invoke H World) (tables : ModuleTables) (name : String) :
    Run H World Value := do
  noteModules (.asked name)
  let v ← kept invoke name
  let v ← if v.isTrue then pure v else consult invoke tables name Searcher.all ""
  noteModules (.answered name v)
  return v

end Sandbox.Module
