import Sandbox.Script.Library.Argument

/-!
# The functions on numbers

Integers stay integers where the result is one.
-/

namespace Sandbox.Script
namespace Run

variable {H W : Type}

/-- A float as an integer where it is one of the range. -/
def wholeOf (x : Binary64) : Value :=
  match x.toInt64? with
  | some n => .int n
  | none => .float x

/-- A function of the machine's arithmetic on a float. -/
def floatFunction (f : Float → Float) (arguments : List Value) : Run H W (List Value) := do
  return [.float (.ofFloat (f (← floatArgument arguments 1).toFloat))]

/-- The ceiling of a float. -/
def ceiling (x : Binary64) : Binary64 := x.neg.floor.neg

/-- The integer part of a float. -/
def integerPart (x : Binary64) : Binary64 := if x.isNegative then ceiling x else x.floor

/-- The greatest of the arguments, or the least if `least`. -/
def extreme (isBetter : Value → Value → Bool) (arguments : List Value) : Run H W (List Value) := do
  discard (numberArgument arguments 1)
  let values ← (List.range arguments.length).mapM fun i => numberArgument arguments (i + 1)
  match values with
  | [] => return []
  | first :: rest => return [rest.foldl (fun best v => if isBetter v best then v else best) first]

/-- The remainder whose quotient is cut. -/
def cutRemainder (arguments : List Value) : Run H W Value := do
  match ← numberArgument arguments 1, ← numberArgument arguments 2 with
  | .int a, .int b =>
    if b = 0 then raiseArgument 2 "zero" else return .int (.ofInt (a.toInt.tmod b.toInt))
  | a, b =>
    let x := (Numeral.float a).getD .zero
    let y := (Numeral.float b).getD .zero
    return .float (x.fmod y)

/-- The logarithm, to a base if one is given. -/
def logarithm (arguments : List Value) : Run H W Value := do
  let x := (← floatArgument arguments 1).toFloat
  if (given arguments 2).isNil then return .float (.ofFloat x.log)
  let base := (← floatArgument arguments 2).toFloat
  if base == 2.0 then return .float (.ofFloat x.log2)
  else if base == 10.0 then return .float (.ofFloat x.log10)
  else return .float (.ofFloat (x.log / base.log))

/-- The ratio of a circle's circumference to its diameter. -/
def pi : Binary64 := ⟨0x400921fb54442d18⟩

end Run

open Run in
/-- What a function on numbers does. -/
def MathRoutine.run {H W : Type} (r : MathRoutine) (arguments : List Value) :
    Run H W (List Value) := do
  match r with
  | .abs =>
    match ← numberArgument arguments 1 with
    | .int n => return [.int (if n < 0 then -n else n)]
    | v => return [.float ((Numeral.float v).getD .zero).abs]
  | .acos => floatFunction Float.acos arguments
  | .asin => floatFunction Float.asin arguments
  | .atan =>
    let y := (← floatArgument arguments 1).toFloat
    let x ← orDefault arguments 2 1.0 (do return (← floatArgument arguments 2).toFloat)
    return [.float (.ofFloat (Float.atan2 y x))]
  | .ceil =>
    match ← numberArgument arguments 1 with
    | .int n => return [.int n]
    | v => return [wholeOf (ceiling ((Numeral.float v).getD .zero))]
  | .cos => floatFunction Float.cos arguments
  | .deg =>
    let x ← floatArgument arguments 1
    return [.float (x.mul ((Binary64.ofInt 180).div pi))]
  | .exp => floatFunction Float.exp arguments
  | .floor =>
    match ← numberArgument arguments 1 with
    | .int n => return [.int n]
    | v => return [wholeOf ((Numeral.float v).getD .zero).floor]
  | .fmod => return [← cutRemainder arguments]
  | .log => return [← logarithm arguments]
  | .max => extreme (fun v best => (Numeral.below? false best v).getD false) arguments
  | .min => extreme (fun v best => (Numeral.below? false v best).getD false) arguments
  | .modf =>
    let x ← floatArgument arguments 1
    let whole := if x.isFinite then integerPart x else x
    let rest := if x.isInfinite then Binary64.zero else x.sub whole
    return [.float whole, .float rest]
  | .rad =>
    let x ← floatArgument arguments 1
    return [.float (x.mul (pi.div (Binary64.ofInt 180)))]
  | .sin => floatFunction Float.sin arguments
  | .sqrt => floatFunction Float.sqrt arguments
  | .tan => floatFunction Float.tan arguments
  | .tointeger =>
    match ← anyArgument arguments 1 with
    | .float x =>
      match x.toInt64? with
      | some n => return [.int n]
      | none => return [.nil]
    | v =>
      match Numeral.integer? v with
      | some n => return [.int n]
      | none => return [.nil]
  | .type =>
    match ← anyArgument arguments 1 with
    | .int _ => return [.ofString "integer"]
    | .float _ => return [.ofString "float"]
    | _ => return [.nil]
  | .ult =>
    let a ← integerArgument arguments 1
    let b ← integerArgument arguments 2
    return [.bool (a.toUInt64 < b.toUInt64)]

end Sandbox.Script
