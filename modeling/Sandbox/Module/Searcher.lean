import Sandbox.Chunk.Load
import Sandbox.Module.SearchPath
import Sandbox.Script.Host

/-!
# Searchers

Where `require` looks for a module: among the functions that scripts have put into a table beforehand, in
the library of the world, and in the store along a search path. A searcher that knows nothing of a module
says where it has looked. One that finds a module that cannot be loaded fails, and no other one is asked.
-/

namespace Sandbox

open Script

/-- The tables that searchers look at. -/
structure ModuleTables where
  /-- The table of the module system, which has the search path. -/
  package : Nat
  /-- The table of functions that make modules. -/
  preload : Nat
  deriving DecidableEq

/-- What a searcher has found. -/
inductive Finding
  /-- Nothing; this is where it has looked. -/
  | missing (trail : String)
  /-- A function that makes the module, and where it is from. -/
  | found (loader : Value) (label : String)

namespace Searcher

/-- All searchers, in the order in which they are asked. -/
def all : List Searcher := [.preload, .library, .path]

/-- The name of a searcher. -/
def name : Searcher → String
  | .preload => "preload"
  | .library => "library"
  | .path => "path"

/-- Where a function from the table of functions beforehand is from. -/
def preloadLabel : String := ":preload:"

/-- The separator in module names and the one in file names. -/
def separators : String × String := (".", "/")

variable {H : Type}

/-- A module from a file: its function, or a failure that says why there is none. -/
def foundIn (name file : String) (loaded : Except Chunk.LoadError Chunk.Loaded) :
    Run H World Finding :=
  let failure (reason : String) : Run H World Finding :=
    Run.fail (.runtime s!"error loading module '{name}' from file '{file}':\n\t{reason}")
  match loaded with
  | .ok (.chunk f) => return .found f file
  | .ok (.refused refusal) => failure refusal.fault.message
  | .error e => failure e.message

/-- Looks among the functions that are there beforehand. -/
def searchPreload (invoke : Invoke H World) (tables : ModuleTables) (name : String) :
    Run H World Finding := do
  match ← Run.hostField invoke tables.preload name with
  | .function f => return .found (.function f) preloadLabel
  | .nil => return .missing s!"\n\tno field package.preload['{name}']"
  | v => Run.fail (.runtime s!"package.preload['{name}'] must be a function, got {v.hostTypeName}")

/-- Looks in the library of the world. -/
def searchLibrary (name : String) : Run H World Finding := do
  match (← get).world.library.lookup name with
  | none => return .missing s!"\n\tno library '{name}'"
  | some file => foundIn name file.name (← Chunk.loadSource file)

/-- The search path that is in force. -/
def currentPath (invoke : Invoke H World) (tables : ModuleTables) : Run H World String := do
  match ← Run.hostField invoke tables.package "path" with
  | .text s => Run.orFail (Value.decodeText "&str" s)
  | _ => Run.fail (.runtime "'package.path' must be a string")

/-- Makes a function of a file of the store, in the table of global variables. -/
def loadStored (file : String) : Run H World (Except Chunk.LoadError Chunk.Loaded) := do
  match ← Chunk.readFile file with
  | .error e => return .error e
  | .ok source => Chunk.load s!"@{file}" source (.table (← get).globals)

/-- Looks in the store along the search path. -/
def searchStore (invoke : Invoke H World) (tables : ModuleTables) (name : String) :
    Run H World Finding := do
  let path ← currentPath invoke tables
  let w := (← get).world
  let files := SearchPath.candidates name path separators.1 separators.2
  match SearchPath.search (w.storage.opens w.store) files with
  | .error tried => return .missing (SearchPath.missingMessage tried)
  | .ok file => foundIn name file (← loadStored file)

/-- Looks for a module. -/
def search (invoke : Invoke H World) (tables : ModuleTables) (s : Searcher) (name : String) :
    Run H World Finding :=
  match s with
  | .preload => searchPreload invoke tables name
  | .library => searchLibrary name
  | .path => searchStore invoke tables name

end Searcher
end Sandbox
