import Sandbox.Script.Library.Argument

/-!
# The functions on sequences

They read and write the indices of a table through its metamethods.
-/

namespace Sandbox.Script
namespace Run

variable {H W : Type}

/-- The table has metamethods that stand for what an operation on sequences needs. -/
def checkSequence (arguments : List Value) (position : Nat) (events : List String) :
    Run H W Unit := do
  match given arguments position with
  | .table _ => return ()
  | v =>
    let missing ← events.anyM fun event => return (← metafield v event).isNil
    if missing then discard (tableArgument arguments position)

/-- The length of a sequence, which has to be an integer. -/
def sequenceLength (invoke : Invoke H W) (v : Value) : Run H W Int := do
  match Numeral.integer? (← length invoke v) with
  | some n => return n.toInt
  | none => raiseForCaller "object length is not an integer"

/-- The value at a position. -/
def item (invoke : Invoke H W) (t : Value) (i : Int) : Run H W Value :=
  index invoke t (.int (.ofInt i))

/-- Sets the value at a position. -/
def setItem (invoke : Invoke H W) (t : Value) (i : Int) (v : Value) : Run H W Unit :=
  setIndex invoke t (.int (.ofInt i)) v

/-- The texts of a sequence with a separator between them. -/
def concatItems (invoke : Invoke H W) (arguments : List Value) : Run H W ByteArray := do
  checkSequence arguments 1 ["__index", "__len"]
  let t := given arguments 1
  let size ← sequenceLength invoke t
  let separator ← textOr arguments 2 .empty
  let start ← integerOr arguments 3 1
  let stop ← integerOr arguments 4 size
  repeatFrom (fun (s : Int × ByteArray) => do
    let (i, acc) := s
    if i > stop then return .inr acc
    let v ← item invoke t i
    match Numeral.text? v with
    | some s => return .inl (i + 1, if i < stop then acc ++ s ++ separator else acc ++ s)
    | none =>
      raiseForCaller
        s!"invalid value (at index {i}) in table for 'concat'") budget (start, .empty)

/-- Moves the values between two positions, in an order in which none is lost. -/
def moveItems (invoke : Invoke H W) (source target : Value) (first last place : Int) :
    Run H W Unit := do
  let count := (last - first + 1).toNat
  let forwards := place > last || place ≤ first || !source.rawEquals target
  repeatFrom (fun (i : Nat) => do
    if i = count then return .inr ()
    let k : Int := if forwards then i else count - 1 - i
    setItem invoke target (place + k) (← item invoke source (first + k))
    return .inl (i + 1)) budget 0

/-- Puts a value at a position of a sequence, or behind it. -/
def insertItem (invoke : Invoke H W) (arguments : List Value) : Run H W Unit := do
  checkSequence arguments 1 ["__index", "__newindex", "__len"]
  let t := given arguments 1
  let size := (← sequenceLength invoke t) + 1
  match arguments.length with
  | 2 => setItem invoke t size (given arguments 2)
  | 3 =>
    let place := (← integerArgument arguments 2).toInt
    if place < 1 || place > size then raiseArgument 2 "position out of bounds"
    moveItems invoke t t place (size - 1) (place + 1)
    setItem invoke t place (given arguments 3)
  | _ => raiseForCaller "wrong number of arguments to 'insert'"

/-- Takes a value out of a sequence. -/
def removeItem (invoke : Invoke H W) (arguments : List Value) : Run H W Value := do
  checkSequence arguments 1 ["__index", "__newindex", "__len"]
  let t := given arguments 1
  let size ← sequenceLength invoke t
  let place ← integerOr arguments 2 size
  if arguments.length ≥ 2 && !(1 ≤ place && place ≤ size + 1) && !(size = 0 && place = 0) then
    raiseArgument 2 "position out of bounds"
  let v ← item invoke t place
  moveItems invoke t t (place + 1) size place
  if place ≤ size then setItem invoke t (max place size) .nil
  else setItem invoke t place .nil
  return v

/-- The values between two positions. -/
def unpackItems (invoke : Invoke H W) (arguments : List Value) : Run H W (List Value) := do
  let t := given arguments 1
  let start ← integerOr arguments 2 1
  let stop ← match given arguments 3 with
    | .nil => sequenceLength invoke t
    | _ => integerOr arguments 3 0
  if start > stop then return []
  if stop - start ≥ 1000000 then raiseForCaller "too many results to unpack"
  let values ← repeatFrom (fun (s : Int × List Value) => do
    if s.1 > stop then return .inr s.2
    return .inl (s.1 + 1, (← item invoke t s.1) :: s.2)) budget (start, [])
  return values.reverse

/-- Merges two sorted lists; an item of the second list comes first only where it is below. -/
def mergeItems (below : Value → Value → Run H W Bool) :
    Nat → List Value → List Value → Run H W (List Value)
  | 0, a, b => return a ++ b
  | _ + 1, [], b => return b
  | _ + 1, a, [] => return a
  | fuel + 1, x :: a, y :: b => do
    if ← below y x then return y :: (← mergeItems below fuel (x :: a) b)
    else return x :: (← mergeItems below fuel a (y :: b))

/-- Sorts a list by halves. -/
def sortItems (below : Value → Value → Run H W Bool) : Nat → List Value → Run H W (List Value)
  | 0, l => return l
  | fuel + 1, l => do
    if l.length ≤ 1 then return l
    let half := l.length / 2
    let a ← sortItems below fuel (l.take half)
    let b ← sortItems below fuel (l.drop half)
    mergeItems below l.length a b

/-- Sorts a sequence in place. -/
def sortSequence (invoke : Invoke H W) (arguments : List Value) : Run H W Unit := do
  checkSequence arguments 1 ["__index", "__newindex", "__len"]
  let t := given arguments 1
  let size ← sequenceLength invoke t
  if size > 1 then
    let order := given arguments 2
    match order with
    | .nil | .function _ => pure ()
    | _ => discard (raiseArgumentType arguments 2 "function" : Run H W Unit)
    let values ← unpackItems invoke [t, .int 1, .int (.ofInt size)]
    let isBelow (a b : Value) : Run H W Bool := do
      match order with
      | .nil => below invoke false a b
      | f => return ((← invoke none f [a, b]).headD .nil).isTrue
    let sorted ← sortItems isBelow values.length values
    discard (sorted.foldlM (fun i v => do
      setItem invoke t i v
      return i + 1) (1 : Int))

end Run

open Run in
/-- What a function on sequences does. -/
def SequenceRoutine.run {H W : Type} (invoke : Invoke H W) (r : SequenceRoutine)
    (arguments : List Value) : Run H W (List Value) := do
  match r with
  | .concat => return [.text (← concatItems invoke arguments)]
  | .insert =>
    insertItem invoke arguments
    return []
  | .move =>
    let first := (← integerArgument arguments 2).toInt
    let last := (← integerArgument arguments 3).toInt
    let place := (← integerArgument arguments 4).toInt
    let target := if (given arguments 5).isNil then 1 else 5
    checkSequence arguments 1 ["__index"]
    checkSequence arguments target ["__newindex"]
    if last ≥ first then
      if !(first > 0 || last < 2 ^ 63 - 1 + first) then raiseArgument 3 "too many elements to move"
      if place > 2 ^ 63 - 1 - (last - first + 1) + 1 then raiseArgument 4 "destination wrap around"
      moveItems invoke (given arguments 1) (given arguments target) first last place
    return [given arguments target]
  | .pack =>
    let id ← newTable (.withSizes arguments.length 1)
    modifyTable id fun t =>
      ((arguments.foldl (fun (acc : Table × Nat) v => (acc.1.setIndex acc.2 v, acc.2 + 1))
        (t, 1)).1).setText "n" (.int (.ofNat arguments.length))
    return [.table id]
  | .remove => return [← removeItem invoke arguments]
  | .sort =>
    sortSequence invoke arguments
    return []
  | .unpack => unpackItems invoke arguments

end Sandbox.Script
