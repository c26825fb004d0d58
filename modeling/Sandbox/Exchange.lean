import Sandbox.Datum.Basic
import Sandbox.Script.Host

/-!
# Exchange of plain values

A plain value becomes a value of a script by `Exchange.push`: lists and records become tables. The way
back is `Exchange.pull`: a table of a positive length is a list and may have no other keys than the
indices up to that length; any other table is a record, whose keys are texts or numbers. A table that
holds a value without a plain form is refused, as is one with too many tables inside one another.
-/

namespace Sandbox
namespace Exchange

open Script

/-- Why a value has no counterpart. -/
inductive Error
  | unsupported (type : String)
  | badKey (type : String)
  | badIndex (type : String)
  | indexOutside (index limit : Int)
  | tooDeep
  | notTable (type : String)
  /-- The script engine has failed. -/
  | script (fault : Fault)
  deriving DecidableEq, Repr

/-- The wording of an error. -/
def Error.message : Error → String
  | .unsupported type => s!"unsupported type {type}"
  | .badKey type => s!"key should be a string ({type})"
  | .badIndex type => s!"pull array: expected numeric index, got '{type}'"
  | .indexOutside index limit => s!"pull array: index {index} outside 1..{limit}"
  | .tooDeep => "pull table, stack exhausted"
  | .notTable type => s!"need a table, got {type}"
  | .script fault => fault.message

/-- An error as a fault of the host. -/
def Error.fault : Error → Fault
  | .script fault => fault
  | e => .runtime e.message

/-- An exchange on a machine. -/
abbrev Exchanging (H W : Type) := ExceptT Error (Run H W)

variable {H W : Type}

/-! ## To scripts -/

mutual

/-- A plain value as a value of a script. -/
def push : Datum → Exchanging H W Value
  | .null => return .nil
  | .bool b => return .bool b
  | .int n => return .int n
  | .float x => return .float x
  | .text s => return .ofString s
  | .list items => do
    let id ← (Run.newTable (.withSizes items.length 0) : Run H W Nat)
    pushItems id 1 items
    return .table id
  | .record fields => do
    let id ← (Run.newTable (.withSizes 0 fields.length) : Run H W Nat)
    pushFields id fields
    return .table id
  | .foreign type => throw (.unsupported type)

/-- Puts items into a table from an index on. -/
def pushItems (id index : Nat) : List Datum → Exchanging H W Unit
  | [] => return ()
  | item :: rest => do
    let v ← push item
    (Run.modifyTable id (·.setIndex index v) : Run H W Unit)
    pushItems id (index + 1) rest

/-- Puts fields into a table. -/
def pushFields (id : Nat) : List (String × Datum) → Exchanging H W Unit
  | [] => return ()
  | (key, item) :: rest => do
    let v ← push item
    (Run.setField id key v : Run H W Unit)
    pushFields id rest

end

/-! ## From scripts -/

/-- How many tables may be inside one another, with the outermost one. -/
def depthLimit : Nat := 200

/-- A text of a script as plain text. -/
def pullText (s : ByteArray) : Except Error String :=
  (Value.decodeText "&str" s).mapError .script

/-- The key of a record. -/
def keyText (key : Value) : Except Error String :=
  match key with
  | .text s => pullText s
  | .int n => .ok (toString n.toInt)
  | .float x => .ok x.toPlainText
  | v => .error (.badKey v.hostTypeName)

/-- The integer that an integral float is nearest to. -/
def nearestIndex (x : Binary64) : Option Int :=
  x.toInt?.map fun n => max (-2 ^ 63) (min n (2 ^ 63 - 1))

/-- The index that a key is. -/
def indexOf (key : Value) : Except Error Int :=
  match key with
  | .int n => .ok n.toInt
  | .float x =>
    match nearestIndex x with
    | some n => .ok n
    | none => .error (.badIndex key.hostTypeName)
  | v => .error (.badIndex v.hostTypeName)

/-- A value that is no table. -/
def scalar (v : Value) : Except Error Datum :=
  match v with
  | .bool b => .ok (.bool b)
  | .int n => .ok (.int n)
  | .float x => .ok (.float x)
  | .text s => .text <$> pullText s
  | v => .error (.unsupported v.hostTypeName)

/-- The length of a table, which its metatable may give. -/
def lengthOf (invoke : Invoke H W) (id : Nat) : Exchanging H W Int := do
  let t ← (Run.table id : Run H W Table)
  let measured ← (Run.guarded invoke (do
    if t.metatable.isNone then return ((← Run.rawLength id : Nat) : Int)
    match Numeral.integer? (← Run.length invoke (.table id)) with
    | some n => return n.toInt
    | none => Run.raise (.ofString "object length is not an integer")) :
      Run H W (Except Fault Int))
  match measured with
  | .ok n => return n
  | .error fault => throw (.script fault)

/-- The items with the indices from 1 on, and null for each index without an item. -/
def listItems (count : Nat) (items : List (Int × Datum)) : List Datum :=
  let slots := items.foldl
    (fun (acc : Array Datum) (i, d) => acc.setIfInBounds (i.toNat - 1) d)
    (Array.replicate count .null)
  slots.toList

/-- The value of a table with this many tables allowed in it, itself included. -/
def pullTable (invoke : Invoke H W) : Nat → Nat → Exchanging H W Datum
  | 0, _ => throw .tooDeep
  | depth + 1, id => do
    let inner (v : Value) : Exchanging H W Datum :=
      match v with
      | .table id => pullTable invoke depth id
      | v => liftExcept (scalar v)
    let length ← lengthOf invoke id
    let entries := (← (Run.table id : Run H W Table)).entries
    if length > 0 then
      let items ← entries.mapM fun (key, v) => do
        let i ← liftExcept (indexOf key)
        if i < 1 || i > length then throw (.indexOutside i length)
        return (i, ← inner v)
      let border ← (Run.rawLength id : Run H W Nat)
      if length > border then
        let held := max border (items.map (·.1)).eraseDups.length
        if length > held then throw (.indexOutside length held)
      return .list (listItems length.toNat items)
    else
      let fields ← entries.mapM fun (key, v) => do
        let key ← liftExcept (keyText key)
        return (key, ← inner v)
      return .ofFields fields
where
  /-- An outcome as an exchange. -/
  liftExcept {α : Type} (r : Except Error α) : Exchanging H W α :=
    match r with
    | .ok a => return a
    | .error e => throw e

/-- The plain value of a table. -/
def pull (invoke : Invoke H W) (id : Nat) : Exchanging H W Datum := pullTable invoke depthLimit id

/-- The plain value of a value that has to be a table. -/
def pullValue (invoke : Invoke H W) (v : Value) : Exchanging H W Datum :=
  match v with
  | .table id => pull invoke id
  | v => throw (.notTable v.hostTypeName)

/-- The plain value of an argument: a value without plain form stands for itself by its type. -/
def pullArgument (invoke : Invoke H W) (v : Value) : Exchanging H W Datum :=
  match v with
  | .nil => return .null
  | .table id => pull invoke id
  | .function _ | .thread _ | .userdata _ | .pointer | .fault _ => return .foreign v.hostTypeName
  | v =>
    match scalar v with
    | .ok d => return d
    | .error e => throw e

/-- The plain values of arguments. -/
def pullArguments (invoke : Invoke H W) (values : List Value) : Exchanging H W (List Datum) :=
  values.mapM (pullArgument invoke)

end Exchange
end Sandbox
