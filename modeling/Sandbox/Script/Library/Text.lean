import Sandbox.Script.Library.Format
import Sandbox.Script.Library.Pattern

/-!
# The functions on texts

Positions in a text count from 1; a negative one counts from the end, where the last byte is -1.
-/

namespace Sandbox.Script
namespace Run

variable {H W : Type} {α : Type}

/-- A position from the front for one that may be negative; one in front of the text is the first. -/
def startPosition (i : Int) (size : Nat) : Nat :=
  if i > 0 then i.toNat else if i = 0 || i < -(size : Int) then 1 else ((size : Int) + i + 1).toNat

/-- The last position of a part. -/
def stopPosition (i : Int) (size : Nat) : Nat :=
  if i > size then size else if i ≥ 0 then i.toNat
  else if i < -(size : Int) then 0 else ((size : Int) + i + 1).toNat

/-- The part of a text between two positions. -/
def part (s : ByteArray) (start stop : Nat) : ByteArray :=
  if start ≤ stop then s.extract (start - 1) stop else .empty

/-- A problem of a pattern is an error for the caller. -/
def ofPattern (r : Except Pattern.Problem α) : Run H W α :=
  match r with
  | .ok a => return a
  | .error problem => raiseForCaller problem.message

/-- Looks for a pattern, for its place and captures or for the captures alone. -/
def searchText (wantsPlace : Bool) (arguments : List Value) : Run H W (List Value) := do
  let text ← textArgument arguments 1
  let pattern ← textArgument arguments 2
  let start := startPosition (← integerOr arguments 3 1) text.size - 1
  if start > text.size then return [.nil]
  let place (i : Nat) : Value := .int (.ofNat i)
  if wantsPlace && ((given arguments 4).isTrue || Pattern.isPlain pattern) then
    match Pattern.indexOf? text start pattern with
    | some i => return [place (i + 1), place (i + pattern.size)]
    | none => return [.nil]
  else
    match ← ofPattern (Pattern.search text start pattern) with
    | none => return [.nil]
    | some m =>
      let values ← ofPattern (m.values text (!wantsPlace))
      return if wantsPlace then place (m.start + 1) :: place m.stop :: values else values

/-- The next match of a loop over matches, where an empty match does not follow the end of one. -/
def nextMatch (text pattern : ByteArray) (state : Nat) : Run H W (List Value) := do
  let integer (v : Value) : Int := ((Numeral.integer? v).map Int64.toInt).getD 0
  let start := (integer (← variableValue state)).toNat
  let last := integer (← variableValue (state + 1))
  let found ← ofPattern <| Pattern.tryEach (fun i => do
    let place := start + i
    match ← Pattern.matchAt text place pattern.toList with
    | some (stop, captures) =>
      return if (stop : Int) = last then none else some (⟨place, stop, captures⟩ : Pattern.Match)
    | none => return none) (List.range (text.size + 1 - start))
  match found with
  | none => return [.nil]
  | some m =>
    setVariable state (.int (.ofNat m.stop))
    setVariable (state + 1) (.int (.ofNat m.stop))
    ofPattern (m.values text true)

/-- A replacement text with the captures that it names. -/
def expandReplacement (text : ByteArray) (m : Pattern.Match) : List UInt8 → ByteArray →
    Run H W ByteArray
  | [], acc => return acc
  | 0x25 :: 0x25 :: rest, acc => expandReplacement text m rest (acc.push 0x25)
  | 0x25 :: 0x30 :: rest, acc =>
    expandReplacement text m rest (acc ++ text.extract m.start m.stop)
  | 0x25 :: c :: rest, acc => do
    if !Numeral.isDigit c then raiseForCaller "invalid use of '%' in replacement string"
    match m.capture text (c.toNat - 0x31) with
    | .ok v => expandReplacement text m rest (acc ++ (Numeral.text? v).getD .empty)
    | .error (.badCapture index) =>
      raiseForCaller s!"invalid capture index %{index} in replacement string"
    | .error problem => raiseForCaller problem.message
  | [0x25], _ => raiseForCaller "invalid use of '%' in replacement string"
  | b :: rest, acc => expandReplacement text m rest (acc.push b)

/-- What replaces a match. -/
def replacement (invoke : Invoke H W) (text : ByteArray) (m : Pattern.Match) (substitute : Value) :
    Run H W ByteArray := do
  let whole := text.extract m.start m.stop
  let v ← match substitute with
    | .table _ => do index invoke substitute (← ofPattern (m.capture text 0))
    | .function _ => do
      (·.headD .nil) <$> invoke none substitute (← ofPattern (m.values text true))
    | v => .text <$> expandReplacement text m ((Numeral.text? v).getD .empty).toList .empty
  match v with
  | .nil | .bool false => return whole
  | v =>
    match Numeral.text? v with
    | some s => return s
    | none => raiseForCaller s!"invalid replacement value (a {← typeNameOf v})"

/-- Where a replacement of matches is. -/
structure Replacing where
  place : Nat
  /-- The end of the last match. -/
  last : Option Nat
  count : Nat
  written : ByteArray

/-- The byte at the place stays, if there is one. -/
def Replacing.skip? (text : ByteArray) (r : Replacing) : Option Replacing :=
  text.data[r.place]?.map fun b => { r with place := r.place + 1, written := r.written.push b }

/-- Replaces the match at the place, if there is one that does not end where the last one does. -/
def replaceMatch (invoke : Invoke H W) (text : ByteArray) (pattern : List UInt8) (substitute : Value)
    (r : Replacing) : Run H W (Option Replacing) := do
  match ← ofPattern (Pattern.matchAt text r.place pattern) with
  | none => return none
  | some (stop, captures) =>
    if r.last = some stop then return none
    let new ← replacement invoke text ⟨r.place, stop, captures⟩ substitute
    return some ⟨stop, some stop, r.count + 1, r.written ++ new⟩

/-- Goes on from a place, once only if the pattern is for the start of the text. -/
def replaceFrom (invoke : Invoke H W) (text : ByteArray) (isAnchored : Bool) (pattern : List UInt8)
    (substitute : Value) (limit : Int) (r : Replacing) : Run H W (Replacing ⊕ Replacing) := do
  if (r.count : Int) ≥ limit then return .inr r
  match (← replaceMatch invoke text pattern substitute r).or (r.skip? text) with
  | some r => return if isAnchored then .inr r else .inl r
  | none => return .inr r

/-- Replaces the matches of a pattern. -/
def replaceMatches (invoke : Invoke H W) (arguments : List Value) : Run H W (List Value) := do
  let text ← textArgument arguments 1
  let pattern ← textArgument arguments 2
  let substitute := given arguments 3
  match substitute with
  | .int _ | .float _ | .text _ | .table _ | .function _ => pure ()
  | _ => raiseArgumentType arguments 3 "string/function/table"
  let limit ← integerOr arguments 4 (text.size + 1)
  let (isAnchored, pattern) := match pattern.toList with
    | 0x5E :: rest => (true, rest)
    | p => (false, p)
  let done ← repeatFrom (replaceFrom invoke text isAnchored pattern substitute limit) budget
    ⟨0, none, 0, .empty⟩
  let rest := text.extract done.place text.size
  return [.text (done.written ++ rest), .int (.ofNat done.count)]

/-- How long a text may be that is made by repetition. -/
def repetitionLimit : Nat := 2 ^ 31

/-- A text a number of times, with a separator. -/
def repeatText (s separator : ByteArray) (count : Nat) : Run H W ByteArray := do
  if count = 0 then return .empty
  if (s.size + separator.size) * count ≥ 2 ^ 63 then raiseForCaller "resulting string too large"
  if (s.size + separator.size) * count ≥ repetitionLimit then
    raise (.ofString "not enough memory")
  return Nat.fold (count - 1) (fun _ _ acc => acc ++ separator ++ s) s

/-- Changes each byte. -/
def mapBytes (f : UInt8 → UInt8) (s : ByteArray) : ByteArray := ⟨s.data.map f⟩

/-- What stands for the precompiled form of a function. -/
def precompiled : ByteArray := ⟨#[0x1B, 0x4C, 0x75, 0x61, 0x54, 0x00]⟩

/-- The operator of an event. -/
def operatorOf? (event : String) : Option Operator :=
  [Operator.add, .sub, .mul, .mod, .pow, .div, .floorDiv].find? fun op => op.event = event

/-- Arithmetic on texts that write numbers. The second operand's own metamethod comes next. -/
def textArithmetic (invoke : Invoke H W) (event : String) (arguments : List Value) :
    Run H W (List Value) := do
  let a := given arguments 1
  let b := given arguments 2
  match Numeral.ofValue? a, Numeral.ofValue? b with
  | some x, some y =>
    match operatorOf? event with
    | some op => return [← arithmetic invoke op x y]
    | none => return [← negative invoke x]
  | _, _ =>
    let own ← match b with
      | .text _ => pure Value.nil
      | b => metafield b event
    match own with
    | .nil => raiseForCaller s!"attempt to perform arithmetic on a {← typeNameOf a} value"
    | f => return [← callEvent invoke event f [a, b]]

end Run

open Run in
/-- What a function on texts does. -/
def TextRoutine.run {H W : Type} (invoke : Invoke H W) (r : TextRoutine) (arguments : List Value) :
    Run H W (List Value) := do
  match r with
  | .byte =>
    let s ← textArgument arguments 1
    let i ← integerOr arguments 2 1
    let start := startPosition i s.size
    let stop := stopPosition (← integerOr arguments 3 start) s.size
    return (part s start stop).toList.map fun b => .int (.ofNat b.toNat)
  | .char =>
    let bytes ← (List.range arguments.length).mapM fun i => do
      let n := (← integerArgument arguments (i + 1)).toInt
      if n < 0 || n > 255 then raiseArgument (i + 1) "value out of range"
      else return n.toNat.toUInt8
    return [.text ⟨bytes.toArray⟩]
  | .dump =>
    match given arguments 1 with
    | .function id =>
      match (← get).functions[id]? with
      | some (.closure ..) => return [.text precompiled]
      | _ => raiseForCaller "unable to dump given function"
    | _ => raiseArgumentType arguments 1 "function"
  | .find => searchText true arguments
  | .match => searchText false arguments
  | .gmatch =>
    let text ← textArgument arguments 1
    let pattern ← textArgument arguments 2
    let start := startPosition (← integerOr arguments 3 1) text.size - 1
    let state ← newVariable (.int (.ofNat (min start (text.size + 1))))
    discard (newVariable (.int (-1)))
    return [← newFunction (.routine (.text (.matchStep text pattern state)))]
  | .matchStep text pattern state => nextMatch text pattern state
  | .gsub => replaceMatches invoke arguments
  | .format =>
    let s ← textArgument arguments 1
    return [.text (← formatFrom invoke arguments (s.size + 1) s.toList 1 .empty)]
  | .len => return [.int (.ofNat (← textArgument arguments 1).size)]
  | .lower =>
    let s ← textArgument arguments 1
    return [.text (mapBytes (fun b => if Pattern.isWithin 0x41 0x5A b then b + 0x20 else b) s)]
  | .upper =>
    let s ← textArgument arguments 1
    return [.text (mapBytes (fun b => if Pattern.isWithin 0x61 0x7A b then b - 0x20 else b) s)]
  | .rep =>
    let s ← textArgument arguments 1
    let count := (← integerArgument arguments 2).toInt
    let separator ← textOr arguments 3 .empty
    return [.text (← repeatText s separator count.toNat)]
  | .reverse => return [.text ⟨(← textArgument arguments 1).data.reverse⟩]
  | .sub =>
    let s ← textArgument arguments 1
    let start := startPosition (← integerArgument arguments 2).toInt s.size
    let stop := stopPosition (← integerOr arguments 3 (-1)) s.size
    return [.text (part s start stop)]
  | .arithmetic event => textArithmetic invoke event arguments

end Sandbox.Script
