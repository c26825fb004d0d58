import Sandbox.Chunk.Source
import Sandbox.Script.Library.Base
import Sandbox.World

/-!
# Loading chunks

`Chunk.load` makes a function of a source text, and `Chunk.loadFile` of a file of the store or of the
input. Both read text only. A source that does not compile is an answer and no failure, so that whoever
asked can look at it.
-/

namespace Sandbox.Chunk

open Script

/-- What becomes of a source text. -/
inductive Loaded
  | chunk (f : Value)
  /-- It does not compile. -/
  | refused (refusal : Refusal)

/-- The function, where there is one. -/
def Loaded.toFunction : Loaded → Except Fault Value
  | .chunk f => .ok f
  | .refused refusal => .error refusal.fault

/-- Why a chunk cannot be loaded. -/
inductive LoadError
  | badMode (mode : String)
  | opening (file : String) (cause : Store.Error)
  | reading (file : String) (cause : String)
  | script (fault : Fault)

/-- The wording of an error. -/
def LoadError.message : LoadError → String
  | .badMode mode => s!"invalid file mode {mode}"
  | .opening file _ => s!"cannot open {file}"
  | .reading file _ => s!"cannot read {file}"
  | .script fault => fault.message

/-- A chunk name must not hold a null character. -/
def nameFault? (name : String) : Option Fault :=
  let before := name.toUTF8.toList.takeWhile (· ≠ 0)
  if before.length = name.utf8ByteSize then none
  else some (.runtime
    s!"invalid name: nul byte found in provided data at position: {before.length}")

/-- The function of a source text, which is taken as it is. -/
def compileText (name : String) (source : ByteArray) : Except Fault (Except Refusal Function) :=
  match nameFault? name with
  | some fault => .error fault
  | none => .ok (compile name.toUTF8 textMode source)

section Run

variable {H W : Type}

/-- Makes a function of a compiled chunk in a table of variables. -/
def instantiate (name : String) (compiled : Except Refusal Function) (scope : Value) :
    Run H W (Except LoadError Loaded) := do
  match compiled with
  | .ok f => return .ok (.chunk (← Run.newChunk name.toUTF8 f scope))
  | .error refusal =>
    match refusal.fault with
    | .grammar _ => return .ok (.refused refusal)
    | fault => return .error (.script fault)

/-- Makes a function of a source text without its preamble, in a table of variables. -/
def load (name : String) (source : ByteArray) (scope : Value) : Run H W (Except LoadError Loaded) :=
  match compileText name (stripPreamble source) with
  | .error fault => return .error (.script fault)
  | .ok compiled => instantiate name compiled scope

/-- Makes a function of a script, in the table of global variables. -/
def loadSource (file : SourceFile) : Run H W (Except LoadError Loaded) := do
  load s!"@{file.name}" file.code.toUTF8 (.table (← get).globals)

end Run

section File

variable {H : Type}

/-- The name of the input in error texts. -/
def inputName : String := "stdin"

/-- All of the input. -/
def readInput : Run H World (Except LoadError ByteArray) := do
  let m ← get
  match m.world.input.takeAll with
  | .error flaw => return .error (.reading inputName flaw)
  | .ok (source, input) => do
    set { m with world := { m.world with input } }
    return .ok source

/-- The content of a file of the store. -/
def readFile (file : String) : Run H World (Except LoadError ByteArray) := do
  match (← get).world.readFile file with
  | .ok source => return .ok source
  | .error (.opening cause) => return .error (.opening file cause)
  | .error (.reading cause) => return .error (.reading file cause)

/-- Makes a function of a file of the store, or of the input if no file is named, in a table of
variables. The mode is looked at before anything is read. -/
def loadFile (file mode : Option String) (scope : Value) : Run H World (Except LoadError Loaded) := do
  if !acceptsMode mode then return .error (.badMode (mode.getD ""))
  let (name, source) ← match file.filter (· ≠ "") with
    | none => do pure (s!"={inputName}", ← readInput)
    | some file => do pure (s!"@{file}", ← readFile file)
  match source with
  | .error e => return .error e
  | .ok source => load name source scope

end File
end Sandbox.Chunk
