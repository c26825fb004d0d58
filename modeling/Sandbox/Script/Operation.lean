import Sandbox.Script.Machine
import Sandbox.Script.Order

/-!
# Operations on values

Indexing, arithmetic, comparison and the other operations of the language, with the metamethods that
tables may have for them. Where an operation fails, the expressions of its operands give the names for
the error text.
-/

namespace Sandbox.Script
namespace Run

variable {H W : Type} {α : Type}

/-! ## Metatables -/

/-- The metatable of a value. -/
def metatable? (v : Value) : Run H W (Option Nat) :=
  match v with
  | .table id => return (← table id).metatable
  | .text _ => return (← get).textMetatable
  | _ => return none

/-- The field of a metatable, or nil. -/
def metafield (v : Value) (field : String) : Run H W Value := do
  match ← metatable? v with
  | some id => rawField id field
  | none => return .nil

/-- Calls a metamethod for its first result. -/
def callEvent (invoke : Invoke H W) (event : String) (f : Value) (arguments : List Value) :
    Run H W Value :=
  return (← invoke (some ⟨"metamethod", (event.drop 2).toString⟩) f arguments).headD .nil

/-- The name of a value's type in error texts, which its metatable may give. -/
def typeNameOf (v : Value) : Run H W String := do
  match v with
  | .table _ =>
    match ← metafield v "__name" with
    | .text s => return s.toTextLossy
    | _ => return v.typeName
  | _ => return v.typeName

/-- The value is of no type for an operation. -/
def raiseType (v : Value) (operation : String) (source : Expression) : Run H W α := do
  raiseText s!"attempt to {operation} a {← typeNameOf v} value{Site.describe source.site?}"

/-! ## Indexing -/

/-- How many objects an operation may be handed on to. -/
def chainLimit : Nat := 2000

/-- The value of a key of an object. -/
def indexFrom (invoke : Invoke H W) (key : Value) : Nat → Value → Expression → Run H W Value
  | 0, _, _ => raiseText "'__index' chain too long; possibly a loop"
  | n + 1, object, source => do
    let found ← match object with
      | .table id => rawGet id key
      | _ => pure .nil
    if !found.isNil then return found
    match object, ← metafield object "__index" with
    | .table _, .nil => return .nil
    | object, .nil => raiseType object "index" source
    | object, .function f => callEvent invoke "__index" (.function f) [object, key]
    | _, next => indexFrom invoke key n next .nil

/-- The value of a key of an object. -/
def index (invoke : Invoke H W) (object key : Value) (source : Expression := .nil) :
    Run H W Value :=
  indexFrom invoke key chainLimit object source

/-- Sets a key of a table without regard to metatables. -/
def rawSet (id : Nat) (key value : Value) : Run H W Unit :=
  match key with
  | .nil => raiseText "table index is nil"
  | .float x =>
    if x.isNaN then raiseText "table index is NaN" else modifyTable id (·.set key value)
  | _ => modifyTable id (·.set key value)

/-- Sets a key of an object. -/
def setIndexFrom (invoke : Invoke H W) (key value : Value) : Nat → Value → Expression → Run H W Unit
  | 0, _, _ => raiseText "'__newindex' chain too long; possibly a loop"
  | n + 1, object, source => do
    let present ← match object with
      | .table id => (fun v => !v.isNil) <$> rawGet id key
      | _ => pure false
    match object, present with
    | .table id, true => rawSet id key value
    | _, _ =>
      match object, ← metafield object "__newindex" with
      | .table id, .nil => rawSet id key value
      | object, .nil => raiseType object "index" source
      | object, .function f =>
        discard (invoke (some ⟨"metamethod", "newindex"⟩) (.function f) [object, key, value])
      | _, next => setIndexFrom invoke key value n next .nil

/-- Sets a key of an object. -/
def setIndex (invoke : Invoke H W) (object key value : Value) (source : Expression := .nil) :
    Run H W Unit :=
  setIndexFrom invoke key value chainLimit object source

/-! ## Arithmetic -/

/-- The metamethod for a binary operation, the first operand's before the second's. -/
def binaryEvent (event : String) (a b : Value) : Run H W Value := do
  let first ← metafield a event
  if first.isNil then metafield b event else return first

/-- The wrong one of two operands has a name of its own. -/
def raiseOperand (operation : String) (aIsRight : Bool) (a b : Value) (sa sb : Expression) :
    Run H W α :=
  if aIsRight then raiseType b operation sb else raiseType a operation sa

/-- The operands of an operator are not numbers that it takes. -/
def raiseArithmetic (op : Operator) (a b : Value) (sa sb : Expression) : Run H W α :=
  let isNumber (v : Value) : Bool := v.typeName == "number"
  if op.isBitwise then
    if isNumber a && isNumber b then
      let source := if (Numeral.integer? a).isSome then sb else sa
      raiseText s!"number{Site.describe source.site?} has no integer representation"
    else raiseOperand "perform bitwise operation on" (isNumber a) a b sa sb
  else raiseOperand "perform arithmetic on" (isNumber a) a b sa sb

/-- A binary operator on numbers, or its metamethod. -/
def arithmetic (invoke : Invoke H W) (op : Operator) (a b : Value)
    (sa : Expression := .nil) (sb : Expression := .nil) : Run H W Value := do
  match op.onNumbers? a b with
  | some (.ok v) => return v
  | some (.error fault) => raiseText fault.message
  | none =>
    match ← binaryEvent op.event a b with
    | .nil => raiseArithmetic op a b sa sb
    | f => callEvent invoke op.event f [a, b]

/-- The negative of a number. -/
def negative (invoke : Invoke H W) (a : Value) (source : Expression := .nil) : Run H W Value := do
  match a with
  | .int n => return .int (-n)
  | .float x => return .float x.neg
  | _ =>
    match ← metafield a "__unm" with
    | .nil => raiseType a "perform arithmetic on" source
    | f => callEvent invoke "__unm" f [a, a]

/-- The complement of the bits of an integer. -/
def complement (invoke : Invoke H W) (a : Value) (source : Expression := .nil) : Run H W Value := do
  match Numeral.integer? a with
  | some n => return .int (~~~n)
  | none =>
    match ← metafield a "__bnot" with
    | .nil => raiseArithmetic .xor a a source source
    | f => callEvent invoke "__bnot" f [a, a]

/-! ## Texts and lengths -/

/-- The texts of two values one behind the other, or the metamethod for that. -/
def concat (invoke : Invoke H W) (a b : Value)
    (sa : Expression := .nil) (sb : Expression := .nil) : Run H W Value := do
  match Numeral.text? a, Numeral.text? b with
  | some s, some t => return .text (s ++ t)
  | first, _ =>
    match ← binaryEvent "__concat" a b with
    | .nil => raiseOperand "concatenate" first.isSome a b sa sb
    | f => callEvent invoke "__concat" f [a, b]

/-- A border of a table. -/
def rawLength (id : Nat) : Run H W Nat := do
  let n := (← table id).length.1
  modifyTable id (·.length.2)
  return n

/-- The length of a value. -/
def length (invoke : Invoke H W) (a : Value) (source : Expression := .nil) : Run H W Value := do
  match a with
  | .text s => return .int (.ofNat s.size)
  | _ =>
    match a, ← metafield a "__len" with
    | .table id, .nil => return .int (.ofNat (← rawLength id))
    | a, .nil => raiseType a "get length of" source
    | a, f => callEvent invoke "__len" f [a]

/-! ## Comparison -/

/-- Equality of values, where tables may say of others that they are equal. -/
def equals (invoke : Invoke H W) (a b : Value) : Run H W Bool := do
  if a.rawEquals b then return true
  match a, b with
  | .table _, .table _ =>
    match ← binaryEvent "__eq" a b with
    | .nil => return false
    | f => return (← callEvent invoke "__eq" f [a, b]).isTrue
  | _, _ => return false

/-- A value is below another, or not above it if `orEqual`. -/
def below (invoke : Invoke H W) (orEqual : Bool) (a b : Value) : Run H W Bool := do
  match a, b with
  | .text s, .text t =>
    return if orEqual then !bytesBelow t.toList s.toList else bytesBelow s.toList t.toList
  | a, b =>
    match Numeral.below? orEqual a b with
    | some answer => return answer
    | none =>
      let event := if orEqual then "__le" else "__lt"
      match ← binaryEvent event a b with
      | .nil =>
        let first ← typeNameOf a
        let second ← typeNameOf b
        if first = second then raiseText s!"attempt to compare two {first} values"
        else raiseText s!"attempt to compare {first} with {second}"
      | f => return (← callEvent invoke event f [a, b]).isTrue

/-- Compares two values. -/
def compare (invoke : Invoke H W) (op : Comparison) (a b : Value) : Run H W Bool :=
  match op with
  | .equal => equals invoke a b
  | .unequal => return !(← equals invoke a b)
  | .below => below invoke false a b
  | .atMost => below invoke true a b
  | .above => below invoke false b a
  | .atLeast => below invoke true b a

/-! ## The text of a value -/

/-- What stands for the address of an object. -/
def addressText (kind id : Nat) : String :=
  let digits := Nat.toDigits 16 (0x550000000000 + id * 64 + kind * 8)
  "0x" ++ String.ofList (List.replicate (14 - digits.length) '0' ++ digits)

/-- What stands for the address of a value. -/
def address : Value → String
  | .table id => addressText 0 id
  | .function id => addressText 1 id
  | .thread id => addressText 2 id
  | .userdata id => addressText 3 id
  | .fault id => addressText 4 id
  | _ => "(nil)"

/-- The text of a value, which its metatable may give. -/
def textOf (invoke : Invoke H W) (v : Value) : Run H W ByteArray := do
  match ← metafield v "__tostring" with
  | .nil =>
    match v with
    | .nil => return "nil".toUTF8
    | .bool b => return (if b then "true" else "false").toUTF8
    | .fault id => return ((← get).faults.getD id default).message.toUTF8
    | v =>
      match Numeral.text? v with
      | some s => return s
      | none => return s!"{← typeNameOf v}: {address v}".toUTF8
  | f =>
    match Numeral.text? (← callEvent invoke "__tostring" f [v]) with
    | some s => return s
    | none => raiseForCaller "'__tostring' must return a string"

end Run
end Sandbox.Script
