import Sandbox.Log
import Sandbox.Module.History
import Sandbox.Store.Routing

/-!
# Worlds

What scripts can reach from within: a store, an input, an output, a log, and what they are told about
where they run. A stream may be broken, for reading, for writing or for flushing.
-/

namespace Sandbox

/-- A text to read. -/
structure Input where
  /-- What is still to be read. -/
  rest : ByteArray := .empty
  /-- Why nothing can be read, if so. -/
  flaw : Option String := none

/-- Takes all that is left of an input. -/
def Input.takeAll (i : Input) : Except String (ByteArray × Input) :=
  match i.flaw with
  | some flaw => .error flaw
  | none => .ok (i.rest, { i with rest := .empty })

/-- A text that grows. One at a time may use it. -/
structure Output where
  written : ByteArray := .empty
  /-- Why nothing can be written, if so. -/
  flaw : Option String := none
  /-- Why a flush fails, if so. -/
  flushFlaw : Option String := none
  /-- Somebody is using it. -/
  isHeld : Bool := false
  /-- How often somebody has wanted to use it while somebody else did. -/
  clashes : Nat := 0

/-- Writes to an output. -/
def Output.write (o : Output) (bytes : ByteArray) : Except String Output :=
  match o.flaw with
  | some flaw => .error flaw
  | none => .ok { o with written := o.written ++ bytes }

/-- Flushes an output. -/
def Output.flush (o : Output) : Except String Unit :=
  match o.flushFlaw with
  | some flaw => .error flaw
  | none => .ok ()

/-- A script with the name of its file. -/
structure SourceFile where
  name : String
  code : String
  deriving DecidableEq, Repr

/-- What scripts can reach. -/
structure World where
  storage : Storage
  /-- The store that files come from. -/
  store : Store
  input : Input := {}
  output : Output := {}
  log : Log := {}
  /-- The variables that scripts see, in the order of their names. -/
  environ : List (String × String) := []
  /-- The arguments that scripts see. -/
  arguments : List String := []
  /-- The modules that come from no file, by name. -/
  library : List (String × SourceFile) := []
  /-- What the module system has done so far. -/
  history : List Module.Event := []

namespace World

/-- Why a file of the store cannot be read. -/
inductive ReadError
  | opening (cause : Store.Error)
  | reading (cause : String)

/-- The content of a file of the store. -/
def readFile (w : World) (path : String) : Except ReadError ByteArray := do
  let reader ← (w.storage.openRead w.store path).mapError .opening
  (w.storage.readAll reader).mapError fun r => .reading r.message

end World
end Sandbox
