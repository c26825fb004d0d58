import Sandbox.Chunk.Compile
import Sandbox.Script.Library.Argument

/-!
# The functions that are global variables

`load` compiles the text that it is given, or that a function gives piece by piece, in the mode that it
is given.
-/

namespace Sandbox.Script
namespace Run

variable {H W : Type} {α : Type}

/-- The function value of a routine: the one that is there, or a new one. -/
def routineValue (r : Routine) : Run H W Value := do
  let isIt : Callable H → Bool
    | .routine s => decide (s = r)
    | _ => false
  match (← get).functions.findIdx? isIt with
  | some id => return .function id
  | none => newFunction (.routine r)

/-- A new function from a chunk, with a table as its environment. -/
def newChunk (name : ByteArray) (f : Function) (environment : Value) : Run H W Value := do
  newFunction (.closure (Chunk.displayName name) f [← newVariable environment])

/-- Raises the argument as an error, with a place if it is a text. -/
def raiseWith (error : Value) (level : Int) : Run H W α := do
  match error with
  | .text s =>
    if level > 0 then raise (.text ((← placeOf level.toNat).toUTF8 ++ s)) else raise error
  | _ => raise error

/-- The pieces of a text that a function yields, up to nil or an empty one. -/
def readPieces (invoke : Invoke H W) (reader : Value) : Run H W ByteArray :=
  repeatFrom (fun (acc : ByteArray) => do
    match (← invoke none reader []).headD .nil with
    | .nil => return .inr acc
    | v =>
      match Numeral.text? v with
      | some s => return if s.isEmpty then .inr acc else .inl (acc ++ s)
      | none => raiseText "reader function must return a string") budget .empty

/-- Nil and an error. -/
def failed (error : Value) : List Value := [.nil, error]

/-- Compiles a text. -/
def loadText (invoke : Invoke H W) (arguments : List Value) : Run H W (List Value) := do
  let standardName : ByteArray := "=(load)".toUTF8
  let text? := Numeral.text? (given arguments 1)
  let mode := (← textOr arguments 3 "bt".toUTF8).toTextLossy
  let name ← textOr arguments 2 (text?.getD standardName)
  let source ← match text? with
    | some s => pure (Except.ok s)
    | none =>
      match given arguments 1 with
      | .function _ => protect (readPieces invoke (given arguments 1))
      | _ => raiseArgumentType arguments 1 "function"
  match source with
  | .error e => return failed e
  | .ok source =>
    match Chunk.compile name mode source with
    | .error refusal => return failed (.ofString refusal.message)
    | .ok f =>
      let environment ← match given? arguments 4 with
        | some v => pure v
        | none => pure (.table (← get).globals)
      return [← newChunk name f environment]

/-- The next entry of a table. -/
def nextEntry (arguments : List Value) : Run H W (List Value) := do
  let id ← tableArgument arguments 1
  match (← table id).next? (given arguments 2) with
  | none => raiseText "invalid key to 'next'"
  | some none => return [.nil]
  | some (some (k, v)) => return [k, v]

/-- How often a handler may be called for its own error. -/
def handlerLimit : Nat := 10

/-- What a handler makes of an error. -/
def handle (invoke : Invoke H W) (handler : Value) : Nat → Value → Run H W Value
  | 0, _ => return .ofString "C stack overflow"
  | n + 1, e => do
    match ← protect (invoke none handler [e]) with
    | .ok values => return values.headD .nil
    | .error e => handle invoke handler n e

/-- The digits of a number in a base. -/
def digitsValue? (base : Nat) : List UInt8 → Option Nat :=
  List.foldl (fun acc b => do
    let n ← acc
    let d ← if Numeral.isDigit b then some (b.toNat - 0x30)
      else if 0x61 ≤ b && b ≤ 0x7A then some (b.toNat - 0x61 + 10)
      else if 0x41 ≤ b && b ≤ 0x5A then some (b.toNat - 0x41 + 10)
      else none
    if d < base then some (n * base + d) else none) (some 0)

/-- The integer that a text writes in a base. -/
def integerInBase? (base : Nat) (s : ByteArray) : Option Int64 :=
  let (isNegative, digits) := match Numeral.trim s.toList with
    | 0x2D :: rest => (true, rest)
    | rest => (false, rest)
  if digits.isEmpty then none
  else (digitsValue? base digits).map fun n =>
    let n := Int64.ofNat n
    if isNegative then -n else n

/-- The number that a value writes, in a base if one is given. -/
def toNumber (arguments : List Value) : Run H W Value := do
  if (given arguments 2).isNil then
    match Numeral.ofValue? (← anyArgument arguments 1) with
    | some v => return v
    | none => return .nil
  else
    let base := (← integerArgument arguments 2).toInt
    match given arguments 1 with
    | .text s =>
      if base < 2 || base > 36 then raiseArgument 2 "base out of range"
      else
        match integerInBase? base.toNat s with
        | some n => return .int n
        | none => return .nil
    | _ => raiseArgumentType arguments 1 "string"

/-- The arguments from a place on that counts from the front, or from the end if it is negative. -/
def selectFrom (arguments : List Value) : Run H W (List Value) := do
  let isCount := match arguments.head? with
    | some (.text s) => s.toList.head? == some 0x23
    | _ => false
  if isCount then return [.int (.ofNat (arguments.length - 1))]
  else
    let i := (← integerArgument arguments 1).toInt
    let count : Int := arguments.length
    let i := if i < 0 then count + i else min i count
    if i < 1 then raiseArgument 1 "index out of range"
    else return arguments.drop i.toNat

/-- Sets the metatable of a table. -/
def setMetatable (arguments : List Value) : Run H W (List Value) := do
  let id ← tableArgument arguments 1
  let metatable ← match given? arguments 2 with
    | some .nil => pure none
    | some (.table m) => pure (some m)
    | _ => raiseArgumentType arguments 2 "nil or table"
  unless (← metafield (.table id) "__metatable").isNil do
    raiseForCaller "cannot change a protected metatable"
  modifyTable id fun t => { t with metatable }
  return [.table id]

/-- The metatable of a value, or what it shows instead. -/
def getMetatable (v : Value) : Run H W Value := do
  match v, ← metatable? v with
  | .fault _, _ => return .bool false
  | _, none => return .nil
  | _, some id =>
    let shown ← rawField id "__metatable"
    return if shown.isNil then .table id else shown

/-- The options of the collector and what they yield. -/
def collectorAnswer? (option : String) : Option Value :=
  match option with
  | "collect" => some (.int 0)
  | "count" => some (.float (.ofInt 32))
  | "step" => some (.bool true)
  | "isrunning" => some (.bool true)
  | "stop" | "restart" => some (.int 0)
  | "setpause" => some (.int 200)
  | "setstepmul" => some (.int 100)
  | "incremental" | "generational" => some (.ofString "incremental")
  | _ => none

end Run

open Run in
/-- What a function does that is a global variable. -/
def BaseRoutine.run {H W : Type} (invoke : Invoke H W) (r : BaseRoutine) (arguments : List Value) :
    Run H W (List Value) := do
  let one := given arguments 1
  match r with
  | .assert =>
    if one.isTrue then return arguments
    else
      discard (anyArgument arguments 1)
      let message := (given? arguments 2).getD (.ofString "assertion failed!")
      raiseWith message 1
  | .collectgarbage =>
    let option := (← textOr arguments 1 "collect".toUTF8).toTextLossy
    match collectorAnswer? option with
    | some v => return [v]
    | none => raiseArgument 1 s!"invalid option '{option}'"
  | .error => raiseWith one (← integerOr arguments 2 1)
  | .getmetatable => return [← getMetatable (← anyArgument arguments 1)]
  | .ipairs => return [← routineValue (.base .ipairsStep), ← anyArgument arguments 1, .int 0]
  | .ipairsStep =>
    let i := (← integerArgument arguments 2) + 1
    let v ← index invoke one (.int i)
    return if v.isNil then [.nil] else [.int i, v]
  | .load => loadText invoke arguments
  | .next => nextEntry arguments
  | .pairs =>
    let t ← anyArgument arguments 1
    match ← metafield t "__pairs" with
    | .nil => return [← routineValue (.base .next), t, .nil]
    | f => return adjust3 (← invoke none f [t])
  | .pcall =>
    match arguments with
    | [] => raise (.ofString "not enough arguments to pcall")
    | f :: rest =>
      match ← protect (invoke none f rest) with
      | .ok values => return .bool true :: values
      | .error e => return [.bool false, e]
  | .rawequal => return [.bool ((← anyArgument arguments 1).rawEquals (← anyArgument arguments 2))]
  | .rawget =>
    let id ← tableArgument arguments 1
    return [← rawGet id (← anyArgument arguments 2)]
  | .rawlen =>
    match one with
    | .table id => return [.int (.ofNat (← rawLength id))]
    | .text s => return [.int (.ofNat s.size)]
    | _ => raiseArgumentType arguments 1 "table or string"
  | .rawset =>
    let id ← tableArgument arguments 1
    rawSet id (← anyArgument arguments 2) (← anyArgument arguments 3)
    return [.table id]
  | .select => selectFrom arguments
  | .setmetatable => setMetatable arguments
  | .tonumber => return [← toNumber arguments]
  | .tostring => return [.text (← textOf invoke (← anyArgument arguments 1))]
  | .type => return [.ofString (← anyArgument arguments 1).typeName]
  | .xpcall =>
    match arguments with
    | f :: handler :: rest =>
      match ← protect (invoke none f rest) with
      | .ok values => return .bool true :: values
      | .error e => return [.bool false, ← handle invoke handler handlerLimit e]
    | _ => raise (.ofString "not enough arguments to xpcall")
where
  /-- Three values, with nil for those that are missing. -/
  adjust3 (values : List Value) : List Value :=
    values.take 3 ++ List.replicate (3 - values.length) .nil

end Sandbox.Script
