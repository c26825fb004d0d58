import Sandbox.Session.Setup

/-!
# Sessions

A session runs scripts against a world. Whatever a script does, an operation of the session answers with a
result or an error, and the session goes on from the state that the script has left.
-/

namespace Sandbox

open Script

/-- A machine for scripts with the world that they can reach. -/
structure Session (E : Type) where
  extension : Extension E
  machine : Machine (Service E) World
  /-- The scripts at the start that have failed. -/
  failures : List PreInitFailure := []

namespace Session

/-- Why an operation of a session fails. -/
inductive Error
  | script (fault : Fault)
  | load (e : Chunk.LoadError)
  | exchange (e : Exchange.Error)
  /-- The script has been given up. -/
  | endless

/-- The wording of an error. -/
def Error.message : Error → String
  | .script fault => s!"Lua error: {fault.message}"
  | .load e => e.message
  | .exchange e => e.message
  | .endless => "the script does not end"

variable {E : Type} {α : Type}

/-- The engine of a session. -/
def engine (extension : Extension E) : Engine (Service E) World :=
  .withLibrary (Service.run extension)

/-- Runs for the host on a machine. -/
def runOn (extension : Extension E) (m : Machine (Service E) World)
    (act : Invoke (Service E) World → Run (Service E) World α) :
    Except Error α × Machine (Service E) World :=
  let invoke := (engine extension).invoke
  match (Run.guarded invoke (act invoke)).run m with
  | .ok (.ok a) m => (.ok a, m)
  | .ok (.error fault) m => (.error (.script fault), m)
  | .error _ m => (.error .endless, m)

/-- Runs for the host. -/
def perform (s : Session E) (act : Invoke (Service E) World → Run (Service E) World α) :
    Except Error α × Session E :=
  let (r, machine) := runOn s.extension s.machine act
  (r, { s with machine })

/-- The world as the scripts have left it. -/
def world (s : Session E) : World := s.machine.world

/-- A session in an environment. -/
def create (extension : Extension E) (e : Environment E) : Except Error (Session E) :=
  let r := runOn extension (.fresh e.world) fun invoke => do
    Setup.install invoke e.searchPath e.hostLibraries
    Setup.runScripts invoke e.preInit
  match r with
  | (.ok failures, machine) => .ok { extension, machine, failures }
  | (.error e, _) => .error e

/-- Runs a text for what it does. -/
def exec (s : Session E) (name code : String) : Except Error Unit × Session E :=
  s.perform fun invoke => do
    discard (invoke none (← Setup.functionOf name code) [])

/-- The name of a text that is run for its value. -/
def evaluationName : String := "=eval"

/-- The first value of a text. -/
def firstValue (invoke : Invoke (Service E) World) (code : String) :
    Run (Service E) World Value := do
  return (← invoke none (← Setup.functionOf evaluationName code) []).headD .nil

/-- A value that is neither a number nor a text nor a truth value, as diagnostics show it. -/
def describe (v : Value) : Run (Service E) World String := do
  match v with
  | .fault id => return s!"Error({((← get).faults.getD id default).message.quoted})"
  | .pointer => return "LightUserData(0x0)"
  | .table _ => return s!"Table(Ref({Run.address v}))"
  | .function _ => return s!"Function(Ref({Run.address v}))"
  | .thread _ => return s!"Thread(Ref({Run.address v}))"
  | _ => return s!"AnyUserData(Ref({Run.address v}))"

/-- The text of a value, or none for nil. -/
def valueText (v : Value) : Run (Service E) World (Option String) := do
  match v with
  | .nil => return none
  | .bool b => return some (if b then "true" else "false")
  | .int n => return some (toString n.toInt)
  | .float x => return some x.toPlainText
  | .text s => return some (← Run.orFail (Value.decodeText "&str" s))
  | v => return some (← describe v)

/-- Runs a text for the text of its value. -/
def eval (s : Session E) (code : String) : Except Error (Option String) × Session E :=
  s.perform fun invoke => do valueText (← firstValue invoke code)

/-- Runs a text for the text of its value, which must not be nil. -/
def evalText (s : Session E) (code : String) : Except Error String × Session E :=
  s.perform fun invoke => do
    match ← valueText (← firstValue invoke code) with
    | some text => return text
    | none => Run.fail (.runtime "script returned nil")

/-- The plain value of a value, where one that has none stands for itself by its type. -/
def plainValue (invoke : Invoke (Service E) World) (v : Value) :
    Run (Service E) World (Except Exchange.Error Datum) := do
  match v with
  | .nil => return .ok .null
  | .bool b => return .ok (.bool b)
  | .int n => return .ok (.int n)
  | .float x => return .ok (.float x)
  | .text s => return .ok (.text (← Run.orFail (Value.decodeText "&str" s)))
  | .table id => (Exchange.pull invoke id).run
  | v => return .ok (.foreign v.hostTypeName)

/-- Runs a text for its value as a plain one. -/
def evalDatum (s : Session E) (code : String) : Except Error Datum × Session E :=
  let (r, s) := s.perform fun invoke => do plainValue invoke (← firstValue invoke code)
  (r.bind fun d => d.mapError .exchange, s)

/-- Finds a module as scripts do. -/
def require (s : Session E) (name : String) : Except Error Value × Session E :=
  s.perform fun invoke => do
    let f ← Run.orFail (← Run.hostField invoke (← get).globals "require").toHostFunction
    return (← invoke none f [.ofString name]).headD .nil

/-- The results of a file that gets some arguments, once the output is flushed. -/
def fileResults (invoke : Invoke (Service E) World) (file : String) (arguments : List String) :
    Run (Service E) World (Except Chunk.LoadError (List Value)) := do
  match ← Chunk.loadFile (some file) none (.table (← get).globals) with
  | .error e => return .error e
  | .ok loaded =>
    let f ← Run.orFail loaded.toFunction
    let values ← invoke none f (arguments.map Value.ofString)
    match (← get).world.output.flush with
    | .ok () => return .ok values
    | .error flaw => Run.fail (.host flaw)

/-- Runs a file with arguments and flushes the output. -/
def runFile (s : Session E) (file : String) (arguments : List String) :
    Except Error (List Value) × Session E :=
  let (r, s) := s.perform fun invoke => fileResults invoke file arguments
  (r.bind fun values => values.mapError .load, s)

/-- The value at a path of fields from the global variables on. -/
def valueAt (invoke : Invoke (Service E) World) (path : List String) :
    Run (Service E) World Value := do
  path.foldlM (fun v key => Run.index invoke v (.ofString key)) (.table (← get).globals)

/-- The value at a path of fields. -/
def field (s : Session E) (path : List String) : Except Error Value × Session E :=
  s.perform fun invoke => valueAt invoke path

/-- Sets the value at a path of fields. -/
def setField (s : Session E) (path : List String) (v : Value) : Except Error Unit × Session E :=
  s.perform fun invoke => do
    let owner ← valueAt invoke path.dropLast
    Run.setIndex invoke owner (.ofString (path.getLastD "")) v

/-- Calls the function at a path of fields. -/
def call (s : Session E) (path : List String) (arguments : List Value) :
    Except Error (List Value) × Session E :=
  s.perform fun invoke => do invoke none (← valueAt invoke path) arguments

end Session
end Sandbox
