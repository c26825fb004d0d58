import Sandbox.Script.Library
import Sandbox.Session.Service

/-!
# Setting up a session

A machine for scripts is set up in steps: the services that are global variables, a `load` that takes text
only, no libraries that reach outside, the module system, the table of services, and the libraries of the
host. Then the scripts that come before all others run, one after the other: one that fails is logged and
noted, and the next one still runs.
-/

namespace Sandbox

open Script

/-- A field of a library of the host. -/
inductive Member (E : Type)
  | value (v : Value)
  | function (e : E)

/-- A library that a host adds. -/
structure HostLibrary (E : Type) where
  name : String
  /-- What is in it, or why it cannot be had. -/
  opened : Except Fault (List (String × Member E))

/-- The text that describes a library of the host in diagnostics. -/
def HostLibrary.describe {E : Type} (l : HostLibrary E) : String :=
  s!"HostLibrary \x7b name: {l.name.quoted}, .. \x7d"

/-- What a session starts from. -/
structure Environment (E : Type) where
  world : World
  /-- The search path at the start. -/
  searchPath : String := SearchPath.standard
  hostLibraries : List (HostLibrary E) := []
  /-- The scripts that run before all others. -/
  preInit : List SourceFile := []

/-- A script that runs before all others has failed. -/
structure PreInitFailure where
  script : String
  error : String
  deriving DecidableEq, Repr

namespace Setup

variable {E : Type}

/-- A new function for a service. -/
def service {W : Type} (s : Service E) : Run (Service E) W Value := Run.newFunction (.host s)

/-- Sets fields of a table to new functions for services. -/
def setServices {W : Type} (id : Nat) (services : List (String × Service E)) :
    Run (Service E) W Unit :=
  services.forM fun (name, s) => do Run.setField id name (← service s)

/-- The services that are global variables. -/
def globalServices : List (String × Service E) :=
  [("print", .print), ("loadfile", .loadFile), ("dofile", .runFile)]

/-- The name of the chunk that binds `load` to text. -/
def loadChunkName : String := "=sandbox"

/-- The chunk that binds `load` to text, whatever mode is asked for. -/
def loadChunk : String :=
  "\n        local rawload = load\n" ++
  "        load = function(chunk, chunkname, _mode, ...)\n" ++
  "            return rawload(chunk, chunkname, \"t\", ...)\n" ++
  "        end\n        "

/-- The function of a text that the host gives. -/
def functionOf {H W : Type} (name code : String) : Run H W Value := do
  match ← Run.orFail (Chunk.compileText name code.toUTF8) with
  | .ok f => Run.newChunk name.toUTF8 f (.table (← get).globals)
  | .error refusal => Run.fail refusal.fault

/-- The global variables that scripts do not get. -/
def hiddenGlobals : List String := ["warn", "io", "os", "debug"]

/-- Sets global variables to functions of the session, and takes others away. -/
def installGlobals {W : Type} (invoke : Invoke (Service E) W) : Run (Service E) W Unit := do
  let globals := (← get).globals
  setServices globals globalServices
  discard (invoke none (← functionOf loadChunkName loadChunk) [])
  hiddenGlobals.forM fun name => Run.setField globals name .nil

/-- What the characters of search paths mean, as scripts can look it up. -/
def pathCharacters : String := "/\n;\n?\n!\n-\n"

/-- Sets up the module system with a search path. -/
def installModules {W : Type} (searchPath : String) : Run (Service E) W ModuleTables := do
  let package ← Run.newTable {}
  let preload ← Run.newTable {}
  let tables : ModuleTables := ⟨package, preload⟩
  let m ← get
  Library.setFields package
    [("path", .ofString searchPath), ("config", .ofString pathCharacters),
      ("loaded", .table m.loaded), ("preload", .table preload)]
  setServices package [("searchpath", .searchPath), ("loadlib", .loadLibrary)]
  setServices m.globals [("require", .require tables)]
  Library.publish "package" package
  return tables

/-- The name of the table of services. -/
def tableName : String := "luabox"

/-- The services in that table. -/
def tableServices : List (String × Service E) :=
  [("log", .log), ("logLevel", .logLevel), ("yamlRepr", .yamlText), ("yamlParse", .yamlValue),
    ("jsonRepr", .jsonText), ("jsonParse", .jsonValue), ("getEnv", .environ),
    ("getArgs", .arguments)]

/-- Adds a library of the host. -/
def installLibrary {W : Type} (l : HostLibrary E) : Run (Service E) W Unit := do
  let members ← Run.orFail l.opened
  let id ← Run.newTable {}
  members.forM fun (name, member) => do
    match member with
    | .value v => Run.setField id name v
    | .function e => do Run.setField id name (← service (.extra e))
  Library.publish l.name id

/-- All steps of the setup. -/
def install {W : Type} (invoke : Invoke (Service E) W) (searchPath : String)
    (libraries : List (HostLibrary E)) : Run (Service E) W Unit := do
  installGlobals invoke
  discard (installModules searchPath)
  let id ← Run.newTable {}
  setServices id tableServices
  Library.publish tableName id
  libraries.forM installLibrary

/-- Runs a script that comes before all others. -/
def runScript (invoke : Invoke (Service E) World) (file : SourceFile) :
    Run (Service E) World (Except String Unit) := do
  match ← Chunk.loadSource file with
  | .error e => return .error e.message
  | .ok loaded =>
    match loaded.toFunction with
    | .error fault => return .error fault.message
    | .ok f =>
      match ← Run.callGuarded invoke f [] with
      | .error fault => return .error fault.message
      | .ok _ => return .ok ()

/-- The message of the record for a script that has failed. -/
def failureMessage : String := "loading preinit"

/-- Runs the scripts that come before all others. -/
def runScripts (invoke : Invoke (Service E) World) :
    List SourceFile → Run (Service E) World (List PreInitFailure)
  | [] => return []
  | file :: rest => do
    match ← runScript invoke file with
    | .ok () => runScripts invoke rest
    | .error error => do
      Service.addRecord .error failureMessage [("error", .text error), ("script", .text file.name)]
      return ⟨file.name, error⟩ :: (← runScripts invoke rest)

end Setup
end Sandbox
