import Sandbox.Datum.Json.Parser
import Sandbox.Exchange
import Sandbox.Module.Require
import Sandbox.Yaml.Parser

/-!
# Services

The functions that a session gives to its scripts: they write, load files, find modules, log, and read and
write JSON and YAML. A service that fails raises a fault, which scripts can catch. An extension adds
functions `E` of its own.
-/

namespace Sandbox

open Script

/-- A function that a session gives to its scripts. -/
inductive Service (E : Type)
  | print | loadFile | runFile
  | require (tables : ModuleTables)
  | searchPath | loadLibrary
  | log | logLevel | yamlText | yamlValue | jsonText | jsonValue | environ | arguments
  | extra (e : E)

/-- What the functions of an extension answer. -/
abbrev Extension (E : Type) := E → World → List Value → Except Fault (List Value)

namespace Service

variable {H : Type}

/-! ## Writing -/

/-- The text of a value for writing, from the function that makes texts of values. -/
def textBy (invoke : Invoke H World) (f v : Value) : Run H World ByteArray := do
  match (← Run.orFail (← Run.callGuarded invoke f [v])).headD .nil with
  | .text s => return s
  | _ => Run.fail (.runtime "'tostring' must return a string to 'print'")

/-- The line of some texts, with tabs between them. -/
def line : List ByteArray → ByteArray
  | [] => "\n".toUTF8
  | [s] => s ++ "\n".toUTF8
  | s :: rest => s ++ "\t".toUTF8 ++ line rest

/-- Takes the output, to use it alone. -/
def takeOutput : Run H World Unit := do
  let m ← get
  if m.world.output.isHeld then do
    set { m with world.output.clashes := m.world.output.clashes + 1 }
    Run.fail (.host "already borrowed")
  else set { m with world.output.isHeld := true }

/-- Gives the output back. -/
def releaseOutput : Run H World Unit := modify fun m => { m with world.output.isHeld := false }

/-- Writes bytes to the output, which is held for as long as that takes. -/
def write (bytes : ByteArray) : Run H World Unit := do
  takeOutput
  match (← get).world.output.write bytes with
  | .ok output => do
    modify fun m => { m with world.output := output }
    releaseOutput
  | .error flaw => do
    releaseOutput
    Run.fail (.host flaw)

/-- Writes the texts of values as one line, once all of them are known. -/
def printLine (invoke : Invoke H World) (values : List Value) : Run H World (List Value) := do
  let f ← Run.orFail (← Run.hostField invoke (← get).globals "tostring").toHostFunction
  let texts ← values.mapM (textBy invoke f)
  write (line texts)
  return []

/-! ## Loading -/

/-- The file and, for `loadfile`, the mode and the table of variables. -/
def loadArguments (arguments : List Value) :
    Except Fault (Option String × Option String × Option Nat) := do
  let file ← Value.hostArgument (Value.toHostOption Value.toHostText) arguments 1
  let mode ← Value.hostArgument (Value.toHostOption Value.toHostText) arguments 2
  let scope ← Value.hostArgument (Value.toHostOption Value.toHostTable) arguments 3
  return (file, mode, scope)

/-- Makes a function of a file. A file that does not compile gives nil and the reason. -/
def loadFileFor (arguments : List Value) : Run H World (List Value) := do
  let (file, mode, scope) ← Run.orFail (loadArguments arguments)
  let scope := Value.table (scope.getD (← get).globals)
  match ← Chunk.loadFile file mode scope with
  | .ok (.chunk f) => return [f, .nil]
  | .ok (.refused refusal) => return [.nil, .ofString refusal.message]
  | .error e => Run.fail (.host e.message)

/-- Makes a function of a file and calls it. -/
def runFileFor (invoke : Invoke H World) (arguments : List Value) : Run H World (List Value) := do
  let file ← Run.orFail (Value.hostArgument (Value.toHostOption Value.toHostText) arguments 1)
  match ← Chunk.loadFile file none (.table (← get).globals) with
  | .error e => Run.fail (.host e.message)
  | .ok loaded =>
    let f ← Run.orFail loaded.toFunction
    Run.orFail (← Run.callGuarded invoke f [])

/-! ## Modules -/

/-- The file of a module on a search path, or nil and what has been tried. -/
def searchPathFor (arguments : List Value) : Run H World (List Value) := do
  let name ← Run.orFail (Value.hostArgument Value.toHostText arguments 1)
  let path ← Run.orFail (Value.hostArgument Value.toHostText arguments 2)
  let separator ← Run.orFail (Value.hostArgument (Value.toHostOption Value.toHostText) arguments 3)
  let directory ← Run.orFail (Value.hostArgument (Value.toHostOption Value.toHostText) arguments 4)
  let files := SearchPath.candidates name path (separator.getD Searcher.separators.1)
    (directory.getD Searcher.separators.2)
  let w := (← get).world
  match SearchPath.search (w.storage.opens w.store) files with
  | .ok file => return [.ofString file]
  | .error tried => return [.nil, .ofString (SearchPath.missingMessage tried)]

/-- Libraries of machine code are never loaded. -/
def loadLibraryFor (arguments : List Value) : Run H World (List Value) := do
  discard (Run.orFail (Value.hostArgument Value.toHostText arguments 1))
  discard (Run.orFail (Value.hostArgument Value.toHostText arguments 2))
  return [.nil, .ofString "dynamic libraries not enabled; check your Lua installation",
    .ofString "absent"]

/-! ## Logging -/

/-- The field of a record that says where in a script it is from. -/
def originField : String := "lua_origin"

/-- The place in the script that has called the running function, if it is in a script. -/
def origin? : Run H World (Option String) := return (← get).frames[1]?.bind Frame.place?

/-- Adds a record to the log of the world. -/
def addRecord (severity : Severity) (message : String) (fields : List (String × Datum)) :
    Run H World Unit :=
  modify fun m => { m with world.log := m.world.log.add severity message fields }

/-- The fields of a record in a table; a table that has no plain value as a record gives none. -/
def recordFields (invoke : Invoke H World) (parameters : Option Nat) :
    Run H World (List (String × Datum)) := do
  match parameters with
  | none => return []
  | some id =>
    match ← (Exchange.pull invoke id).run with
    | .ok (.record fields) => return fields
    | _ => return []

/-- Logs a message at a level with fields. -/
def logFor (invoke : Invoke H World) (arguments : List Value) : Run H World (List Value) := do
  let level ← Run.orFail (Value.hostArgument Value.toHostInteger arguments 1)
  let message ← Run.orFail (Value.hostArgument Value.toHostText arguments 2)
  let parameters ←
    Run.orFail (Value.hostArgument (Value.toHostOption Value.toHostTable) arguments 3)
  let fields ← recordFields invoke parameters
  let fields := match ← origin? with
    | some place => Named.insert originField (.text place) fields
    | none => fields
  match Severity.ofNumber? level.toInt with
  | some severity => do
    addRecord severity message fields
    return []
  | none => Run.fail (.runtime s!"invalid log level {level.toInt}")

/-! ## Data -/

/-- An exchange whose failure is a fault. -/
def exchanged {α : Type} (act : Exchange.Exchanging H World α) : Run H World α := do
  Run.orFail ((← act.run).mapError Exchange.Error.fault)

/-- The YAML documents of plain values: one alone, or several each behind a line that begins one. -/
def yamlDocuments : List Datum → String
  | [] => ""
  | [d] => Yaml.render d
  | many => String.join (many.map fun d => "---\n" ++ Yaml.render d)

/-- The value of a text in a format. -/
def readFor {ε : Type} (parse : String → Except ε Datum) (message : ε → String)
    (arguments : List Value) : Run H World (List Value) := do
  let text ← Run.orFail (Value.hostArgument Value.toHostText arguments 1)
  match parse text with
  | .ok d => return [← exchanged (Exchange.push d)]
  | .error e => Run.fail (.host (message e))

/-- What a service does. -/
def run {E : Type} (extension : Extension E) (invoke : Invoke (Service E) World) (s : Service E)
    (values : List Value) : Run (Service E) World (List Value) := do
  match s with
  | .print => printLine invoke values
  | .loadFile => loadFileFor values
  | .runFile => runFileFor invoke values
  | .require tables =>
    let name ← Run.orFail (Value.hostArgument Value.toHostText values 1)
    return [← Module.require invoke tables name]
  | .searchPath => searchPathFor values
  | .loadLibrary => loadLibraryFor values
  | .log => logFor invoke values
  | .logLevel => return [.int (.ofNat (← get).world.log.threshold.number)]
  | .yamlText =>
    return [.ofString (yamlDocuments (← exchanged (Exchange.pullArguments invoke values)))]
  | .yamlValue => readFor Yaml.parse (·.message) values
  | .jsonText =>
    return [.ofString (Json.render (← exchanged (Exchange.pullValue invoke (values.headD .nil))))]
  | .jsonValue => readFor Json.parse (·.message) values
  | .environ =>
    let fields := (← get).world.environ.map fun (name, text) => (name, Datum.text text)
    return [← exchanged (Exchange.push (.record fields))]
  | .arguments =>
    return [← exchanged (Exchange.push (.list ((← get).world.arguments.map Datum.text)))]
  | .extra e => Run.orFail (extension e (← get).world values)

end Service
end Sandbox
