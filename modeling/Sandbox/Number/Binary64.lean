/-!
# Numbers in 64-bit binary floating point

A number is its 64 bits, so equality of values is decidable and tells apart the two zeros and the
many not-a-numbers. Arithmetic goes through the machine's own operations. Where a result is not a
number, it is the first operand that is not a number, and otherwise the pattern that the operation
itself produces, whose sign is set.
-/

-- A power of a number is meant as its own one, not as the one that it has in a monoid.
attribute [default_instance 20000] instPowNat

namespace Sandbox

/-- A power of ten. -/
def powerOfTen (exponent : Nat) : Nat := Nat.pow 10 exponent

/-- A number in 64-bit binary floating point, as its bits. -/
structure Binary64 where
  bits : UInt64
  deriving DecidableEq, Repr, Inhabited

namespace Binary64

/-- The bits that hold the fraction. -/
def fractionMask : UInt64 := 0x000fffffffffffff

/-- The bit that holds the sign. -/
def signMask : UInt64 := 0x8000000000000000

/-- Positive infinity. -/
def infinity : Binary64 := ⟨0x7ff0000000000000⟩

/-- What an operation on proper numbers gives where it has no value. -/
def invalid : Binary64 := ⟨0xfff8000000000000⟩

/-- Zero without a sign. -/
def zero : Binary64 := ⟨0⟩

/-- The biased exponent. -/
def exponentField (x : Binary64) : Nat := ((x.bits >>> 52) &&& 0x7ff).toNat

/-- The fraction. -/
def fractionField (x : Binary64) : Nat := (x.bits &&& fractionMask).toNat

/-- The sign bit is set. -/
def isNegative (x : Binary64) : Bool := x.bits &&& signMask != 0

/-- Not a number. -/
def isNaN (x : Binary64) : Bool := x.exponentField == 0x7ff && x.fractionField != 0

/-- One of the two infinities. -/
def isInfinite (x : Binary64) : Bool := x.exponentField == 0x7ff && x.fractionField == 0

/-- Neither infinite nor not a number. -/
def isFinite (x : Binary64) : Bool := x.exponentField != 0x7ff

/-- One of the two zeros. -/
def isZero (x : Binary64) : Bool := x.exponentField == 0 && x.fractionField == 0

/-- The sign changed, also of zeros and of what is not a number. -/
def neg (x : Binary64) : Binary64 := ⟨x.bits ^^^ signMask⟩

/-- The value without its sign. -/
def abs (x : Binary64) : Binary64 := ⟨x.bits &&& 0x7fffffffffffffff⟩

/-- The magnitude of a finite number is `significand * 2 ^ exponent`. -/
def significand (x : Binary64) : Nat :=
  if x.exponentField = 0 then x.fractionField else x.fractionField + 2 ^ 52

/-- The exponent that belongs to `significand`. -/
def exponent (x : Binary64) : Int :=
  if x.exponentField = 0 then -1074 else (x.exponentField : Int) - 1075

/-- The machine number with these bits. -/
def toFloat (x : Binary64) : Float := Float.ofBits x.bits

/-- The bits of a machine number. -/
def ofFloat (x : Float) : Binary64 := if x.isNaN then invalid else ⟨x.toBits⟩

/-- Applies an operation of the machine to two numbers. -/
def lift (op : Float → Float → Float) (x y : Binary64) : Binary64 :=
  if x.isNaN then x else if y.isNaN then y else ofFloat (op x.toFloat y.toFloat)

/-- The sum. -/
def add : Binary64 → Binary64 → Binary64 := lift (· + ·)

/-- The difference. -/
def sub : Binary64 → Binary64 → Binary64 := lift (· - ·)

/-- The product. -/
def mul : Binary64 → Binary64 → Binary64 := lift (· * ·)

/-- The quotient. -/
def div : Binary64 → Binary64 → Binary64 := lift (· / ·)

/-- The number `1`. -/
def one : Binary64 := ⟨0x3ff0000000000000⟩

/-- Numeric equality: the zeros are equal, and what is not a number equals nothing. -/
def eqv (x y : Binary64) : Bool :=
  !x.isNaN && !y.isNaN && (x.bits == y.bits || (x.isZero && y.isZero))

/-- A key that orders all proper numbers as their values are ordered. -/
def orderKey (x : Binary64) : Int :=
  if x.isNegative then -(x.abs.bits.toNat : Int) else x.bits.toNat

/-- The numeric order, false as soon as one side is not a number. -/
def lt (x y : Binary64) : Bool := !x.isNaN && !y.isNaN && x.orderKey < y.orderKey

/-- The numeric order or equality, false as soon as one side is not a number. -/
def le (x y : Binary64) : Bool := !x.isNaN && !y.isNaN && x.orderKey ≤ y.orderKey

/-- The power, with the two cases in which a value that is not a number does not matter. -/
def pow (x y : Binary64) : Binary64 :=
  if y.isZero || (x.bits == one.bits) then one else lift Float.pow x y

/-- The sign and the magnitude as a pair of naturals `(numerator, denominator)`. -/
def magnitude (x : Binary64) : Nat × Nat :=
  match x.exponent with
  | .ofNat e => (x.significand <<< e, 1)
  | .negSucc e => (x.significand, 1 <<< (e + 1))

/-- The value of a finite number that is an integer. -/
def toInt? (x : Binary64) : Option Int :=
  if !x.isFinite then none
  else
    let (num, den) := x.magnitude
    if num % den = 0 then
      let n : Int := (num / den : Nat)
      some (if x.isNegative then -n else n)
    else none

/-- The greatest integer that is not above a finite number. -/
def floorInt (x : Binary64) : Int :=
  let (num, den) := x.magnitude
  if x.isNegative then -((num + den - 1) / den : Nat) else (num / den : Nat)

/-- The integer part of a finite number. -/
def truncInt (x : Binary64) : Int :=
  let (num, den) := x.magnitude
  let n : Int := (num / den : Nat)
  if x.isNegative then -n else n

/-- The position of the highest set bit of a positive number. -/
def bitLength (n : Nat) : Nat := if n = 0 then 0 else Nat.log2 n + 1

/-- The quotient rounded to the nearest natural, a tie to the even one. -/
def roundDiv (num den : Nat) : Nat :=
  let q := num / den
  let r := num % den
  if 2 * r < den then q else if den < 2 * r then q + 1 else q + q % 2

/-- The number nearest to the positive ratio `num / den`, a tie to the even significand. -/
def ofRatio (num den : Nat) : Binary64 :=
  if num = 0 then zero
  else
    -- the least exponent for which the quotient has at most 53 bits, and not below the smallest
    let guess : Int := (bitLength num : Int) - bitLength den - 53
    let fits (e : Int) : Bool :=
      if e ≥ 0 then num / den <<< e.toNat < 2 ^ 53 else num <<< (-e).toNat / den < 2 ^ 53
    let e := if fits guess then guess else guess + 1
    let e := max e (-1074)
    let m := if e ≥ 0 then roundDiv num (den <<< e.toNat) else roundDiv (num <<< (-e).toNat) den
    -- a carry out of the significand is the next exponent with an even fraction
    let (m, e) := if m = 2 ^ 53 then (2 ^ 52, e + 1) else (m, e)
    if e > 971 then infinity
    else if m < 2 ^ 52 then ⟨m.toUInt64⟩
    else ⟨((e + 1075).toNat.toUInt64 <<< 52) ||| (m - 2 ^ 52).toUInt64⟩

/-- The number nearest to an integer. -/
def ofInt (n : Int) : Binary64 :=
  let m := ofRatio n.natAbs 1
  if n < 0 then m.neg else m

/-- The number nearest to `digits * 10 ^ exponent`. Exponents far outside the range of the format
are recognised by the number of digits and need no large powers. -/
def ofDecimal (digits : Nat) (exponent : Int) : Binary64 :=
  if digits = 0 then zero
  else
    let length : Int := (Nat.toDigits 10 digits).length
    if exponent + length > 310 then infinity
    else if exponent + length < -330 then zero
    else if exponent ≥ 0 then ofRatio (digits * powerOfTen exponent.toNat) 1
    else ofRatio digits (powerOfTen (-exponent).toNat)

/-- The number nearest to `digits * 2 ^ exponent`. -/
def ofBinary (digits : Nat) (exponent : Int) : Binary64 :=
  if digits = 0 then zero
  else
    let length : Int := bitLength digits
    if exponent + length > 1030 then infinity
    else if exponent + length < -1100 then zero
    else if exponent ≥ 0 then ofRatio (digits <<< exponent.toNat) 1
    else ofRatio digits (1 <<< (-exponent).toNat)

/-- The remainder with the sign of the dividend, which is exact. -/
def fmod (x y : Binary64) : Binary64 :=
  if x.isNaN then x else if y.isNaN then y
  else if x.isInfinite || y.isZero then invalid
  else if y.isInfinite then x
  else
    let (xn, xd) := x.magnitude
    let (yn, yd) := y.magnitude
    let r := ofRatio ((xn * yd) % (yn * xd)) (xd * yd)
    if x.isNegative then r.neg else r

/-- The greatest integral number not above `x`; infinities and what is not a number are kept. -/
def floor (x : Binary64) : Binary64 :=
  if !x.isFinite || x.isZero then x
  else
    let n := x.floorInt
    if n = 0 && x.isNegative then zero.neg else ofInt n

/-- The 64-bit integer that a number equals. -/
def toInt64? (x : Binary64) : Option Int64 :=
  match x.toInt? with
  | some n => if Int64.minValue.toInt ≤ n && n ≤ Int64.maxValue.toInt then some (.ofInt n) else none
  | none => none

/-- The widening of a 32-bit number, which is exact. -/
def ofBinary32 (bits : UInt32) : Binary64 :=
  let negative := bits &&& 0x80000000 != 0
  let field := ((bits >>> 23) &&& 0xff).toNat
  let fraction := (bits &&& 0x7fffff).toNat
  let magnitude :=
    if field = 255 then
      (⟨infinity.bits ||| (fraction.toUInt64 <<< 29)⟩ : Binary64)
    else if field = 0 then ofBinary fraction (-149)
    else ofBinary (fraction + 2 ^ 23) ((field : Int) - 150)
  if negative then magnitude.neg else magnitude

end Binary64
end Sandbox
