import Sandbox.Number.Decimal
import Sandbox.Script.Value

/-!
# Numbers and their texts

How scripts write and read numbers, and arithmetic on integers and floats. Integers are 64-bit words
and wrap around; an operation on an integer and a float is one on floats.
-/

namespace Sandbox.Script

namespace Numeral

/-! ## Writing -/

/-- Floats have fourteen digits and keep a point, unless they have an exponent. -/
def layout : Decimal.Layout :=
  { positional := fun e => -4 ≤ e && e < 14, keepsPoint := true, plusSign := true,
    exponentWidth := 2, infinity := "inf", notANumber := "nan", signedNaN := true }

/-- The text of a float. -/
def ofFloat (x : Binary64) : String := layout.render (Decimal.significant · 14) x

/-- The text of an integer. -/
def ofInt (n : Int64) : String := toString n.toInt

/-! ## Reading -/

/-- The bytes that count as white space. -/
def isSpace (b : UInt8) : Bool := b == 0x20 || (0x09 ≤ b && b ≤ 0x0D)

/-- A decimal digit. -/
def isDigit (b : UInt8) : Bool := 0x30 ≤ b && b ≤ 0x39

/-- The value of a digit in base sixteen. -/
def hexValue? (b : UInt8) : Option Nat :=
  if isDigit b then some (b.toNat - 0x30)
  else if 0x61 ≤ b && b ≤ 0x66 then some (b.toNat - 0x57)
  else if 0x41 ≤ b && b ≤ 0x46 then some (b.toNat - 0x37)
  else none

/-- The bytes without white space at both ends. -/
def trim (s : List UInt8) : List UInt8 :=
  ((s.dropWhile isSpace).reverse.dropWhile isSpace).reverse

/-- The bytes behind an optional sign, and whether it is a minus. -/
def splitSign (s : List UInt8) : Bool × List UInt8 :=
  match s with
  | 0x2D :: rest => (true, rest)
  | 0x2B :: rest => (false, rest)
  | _ => (false, s)

/-- The bytes behind the mark of base sixteen. -/
def hexBody? (s : List UInt8) : Option (List UInt8) :=
  match s with
  | 0x30 :: 0x78 :: rest => some rest
  | 0x30 :: 0x58 :: rest => some rest
  | _ => none

/-- The number that decimal digits write. -/
def decimalValue (s : List UInt8) : Nat := s.foldl (fun acc b => acc * 10 + (b.toNat - 0x30)) 0

/-- The number that digits in base sixteen write. -/
def hexDigitsValue (s : List UInt8) : Nat :=
  s.foldl (fun acc b => acc * 16 + (hexValue? b).getD 0) 0

/-- The integer that a text writes. Digits in base sixteen wrap around; a decimal that is too large is
no integer. -/
def int? (s : List UInt8) : Option Int64 :=
  let (negative, digits) := splitSign (trim s)
  match hexBody? digits with
  | some digits =>
    if digits.isEmpty || !digits.all fun b => (hexValue? b).isSome then none
    else
      let n := Int64.ofNat (hexDigitsValue digits)
      some (if negative then -n else n)
  | none =>
    if digits.isEmpty || !digits.all isDigit then none
    else
      let n : Int := decimalValue digits
      let n := if negative then -n else n
      if -2 ^ 63 ≤ n && n < 2 ^ 63 then some (.ofInt n) else none

/-- The number behind the mark of an exponent, one of the two bytes. -/
def exponent? (lower upper : UInt8) (s : List UInt8) : Option Int :=
  match s with
  | [] => some 0
  | b :: rest =>
    if b == lower || b == upper then
      let (negative, digits) := splitSign rest
      if digits.isEmpty || !digits.all isDigit then none
      else
        let n : Int := decimalValue digits
        some (if negative then -n else n)
    else none

/-- The digits before and behind a point, and the rest. -/
def splitPoint (isDigit : UInt8 → Bool) (s : List UInt8) : List UInt8 × List UInt8 × List UInt8 :=
  let (whole, rest) := s.span isDigit
  match rest with
  | 0x2E :: rest =>
    let (part, rest) := rest.span isDigit
    (whole, part, rest)
  | _ => (whole, [], rest)

/-- The float that a text writes. -/
def float? (s : List UInt8) : Option Binary64 := do
  let (negative, body) := splitSign (trim s)
  let x ← match hexBody? body with
    | some body => do
      let (whole, part, rest) := splitPoint (fun b => (hexValue? b).isSome) body
      if whole.isEmpty && part.isEmpty then none
      let e ← exponent? 0x70 0x50 rest
      some (Binary64.ofBinary (hexDigitsValue (whole ++ part)) (e - 4 * part.length))
    | none => do
      let (whole, part, rest) := splitPoint isDigit body
      if whole.isEmpty && part.isEmpty then none
      let e ← exponent? 0x65 0x45 rest
      some (Binary64.ofDecimal (decimalValue (whole ++ part)) (e - part.length))
  return if negative then x.neg else x

/-- The number that a text writes. -/
def read? (s : List UInt8) : Option Value :=
  match int? s with
  | some n => some (.int n)
  | none => (float? s).map .float

/-! ## Conversions of values -/

/-- The number that a value is or writes. -/
def ofValue? : Value → Option Value
  | .int n => some (.int n)
  | .float x => some (.float x)
  | .text s => read? s.toList
  | _ => none

/-- An integer as a float. -/
def toFloat (n : Int64) : Binary64 := .ofInt n.toInt

/-- A number as a float. -/
def float : Value → Option Binary64
  | .int n => some (toFloat n)
  | .float x => some x
  | _ => none

/-- The integer that a value is or writes; a float counts where it is integral. -/
def integer? (v : Value) : Option Int64 :=
  match ofValue? v with
  | some (.int n) => some n
  | some (.float x) => x.toInt64?
  | _ => none

/-- The text of a number or a text. -/
def text? : Value → Option ByteArray
  | .text s => some s
  | .int n => some (ofInt n).toUTF8
  | .float x => some (ofFloat x).toUTF8
  | _ => none

end Numeral

/-! ## Arithmetic -/

/-- The binary operators on numbers. -/
inductive Operator
  | add | sub | mul | mod | pow | div | floorDiv | and | or | xor | shiftLeft | shiftRight
  deriving DecidableEq, Repr

namespace Operator

/-- The name of the metamethod. -/
def event : Operator → String
  | .add => "__add"
  | .sub => "__sub"
  | .mul => "__mul"
  | .mod => "__mod"
  | .pow => "__pow"
  | .div => "__div"
  | .floorDiv => "__idiv"
  | .and => "__band"
  | .or => "__bor"
  | .xor => "__bxor"
  | .shiftLeft => "__shl"
  | .shiftRight => "__shr"

/-- The operator works on the bits of integers. -/
def isBitwise : Operator → Bool
  | .and | .or | .xor | .shiftLeft | .shiftRight => true
  | _ => false

/-- What can go wrong on integers. -/
inductive Fault
  | divisionByZero | moduloByZero
  deriving DecidableEq

/-- The wording of a fault. -/
def Fault.message : Fault → String
  | .divisionByZero => "attempt to divide by zero"
  | .moduloByZero => "attempt to perform 'n%0'"

/-- The remainder of floats has the sign of the divisor. -/
def floatMod (a b : Binary64) : Binary64 :=
  let m := a.fmod b
  let wrong := (Binary64.zero.lt m && b.lt .zero) || (m.lt .zero && Binary64.zero.lt b)
  if wrong then m.add b else m

/-- Shifts to the left, or to the right by a negative amount; what leaves the word is lost. -/
def shift (a : Int64) (amount : Int) : Int64 :=
  if amount ≤ -64 || amount ≥ 64 then 0
  else if amount ≥ 0 then (a.toUInt64 <<< amount.toNat.toUInt64).toInt64
  else (a.toUInt64 >>> (-amount).toNat.toUInt64).toInt64

/-- The operator on floats. -/
def onFloats (op : Operator) (a b : Binary64) : Binary64 :=
  match op with
  | .add => a.add b
  | .sub => a.sub b
  | .mul => a.mul b
  | .mod => floatMod a b
  | .pow => a.pow b
  | .div => a.div b
  | .floorDiv => (a.div b).floor
  | _ => a

/-- The operator on integers; division and power always give floats. -/
def onInts (op : Operator) (a b : Int64) : Except Fault Value :=
  match op with
  | .add => .ok (.int (a + b))
  | .sub => .ok (.int (a - b))
  | .mul => .ok (.int (a * b))
  | .mod =>
    if b = 0 then .error .moduloByZero else .ok (.int (.ofInt (a.toInt.fmod b.toInt)))
  | .floorDiv =>
    if b = 0 then .error .divisionByZero else .ok (.int (.ofInt (a.toInt.fdiv b.toInt)))
  | .pow | .div => .ok (.float (op.onFloats (Numeral.toFloat a) (Numeral.toFloat b)))
  | .and => .ok (.int (a &&& b))
  | .or => .ok (.int (a ||| b))
  | .xor => .ok (.int (a ^^^ b))
  | .shiftLeft => .ok (.int (shift a b.toInt))
  | .shiftRight => .ok (.int (shift a (-b.toInt)))

/-- The operator on numbers; `none` where an operand is no number. -/
def onNumbers? (op : Operator) (a b : Value) : Option (Except Fault Value) :=
  if op.isBitwise then
    match Numeral.integer? a, Numeral.integer? b with
    | some m, some n => some (op.onInts m n)
    | _, _ => none
  else match a, b with
    | .int m, .int n => some (op.onInts m n)
    | a, b =>
      match Numeral.float a, Numeral.float b with
      | some x, some y => some (.ok (.float (op.onFloats x y)))
      | _, _ => none

end Operator

/-! ## Order -/

namespace Numeral

/-- An integer is below a float, or not above it if `orEqual`. -/
def intBelowFloat (orEqual : Bool) (n : Int64) (x : Binary64) : Bool :=
  if x.isNaN then false
  else if x.isInfinite then !x.isNegative
  else
    -- compares with the greatest integer that is not above the float
    let floor := x.floorInt
    if x.toInt?.isSome then (if orEqual then n.toInt ≤ floor else n.toInt < floor)
    else n.toInt ≤ floor

/-- A float is below an integer, or not above it if `orEqual`. -/
def floatBelowInt (orEqual : Bool) (x : Binary64) (n : Int64) : Bool :=
  if x.isNaN then false else !intBelowFloat (!orEqual) n x

/-- Numbers in their order; `none` where one of the values is no number. -/
def below? (orEqual : Bool) : Value → Value → Option Bool
  | .int m, .int n => some (if orEqual then m ≤ n else m < n)
  | .float x, .float y => some (if orEqual then x.le y else x.lt y)
  | .int m, .float y => some (intBelowFloat orEqual m y)
  | .float x, .int n => some (floatBelowInt orEqual x n)
  | _, _ => none

end Numeral
end Sandbox.Script
