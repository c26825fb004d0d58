import Sandbox.Number.Binary64

/-!
# Decimal digits of a binary number

Two ways to choose digits: the fewest that read back as the same number, and a given count of
significant digits. Both answer with a decimal `digits * 10 ^ exponent`; how it is laid out as text
is the business of each format and is described by a `Layout`.
-/

namespace Sandbox

/-- The decimal `digits * 10 ^ exponent`. -/
structure Decimal where
  digits : Nat
  exponent : Int
  deriving DecidableEq, Repr

namespace Decimal

/-- The number of digits of a natural, one for zero. -/
def digitCount (n : Nat) : Nat := (Nat.toDigits 10 n).length

/-- The exponent of the leading decimal digit of a positive ratio. -/
def leadingExponent (num den : Nat) : Int :=
  if num ≥ den then (digitCount (num / den) : Int) - 1
  else
    let ceiling := (den + num - 1) / num
    if ceiling ≤ 1 then 0 else -(digitCount (ceiling - 1) : Int)

/-- Compares `digits * 10 ^ exponent` with the ratio `num / den`. -/
def compare (d : Decimal) (num den : Nat) : Ordering :=
  if d.exponent ≥ 0 then Ord.compare (d.digits * powerOfTen d.exponent.toNat * den) num
  else Ord.compare (d.digits * den) (num * powerOfTen (-d.exponent).toNat)

/-- Removes trailing zeros, at most `fuel` of them. -/
def trim (d : Decimal) : Nat → Decimal
  | 0 => d
  | fuel + 1 =>
    if d.digits ≠ 0 ∧ d.digits % 10 = 0 then trim ⟨d.digits / 10, d.exponent + 1⟩ fuel else d

/-- The positive ratio cut down to the grid with `count` digits: the point below it and whether the
point above is nearer. -/
def cut (num den count : Nat) : Decimal × Ordering :=
  let exponent := leadingExponent num den - (count : Int) + 1
  let (n, d) :=
    if exponent ≥ 0 then (num, den * powerOfTen exponent.toNat)
    else (num * powerOfTen (-exponent).toNat, den)
  (⟨n / d, exponent⟩, Ord.compare (2 * (n % d)) d)

/-- The interval of reals that round to a positive finite number, as two ratios over one
denominator, and whether its ends belong to it. -/
structure Interval where
  low : Nat
  high : Nat
  den : Nat
  closed : Bool

/-- The rounding interval of a positive finite number. Below a power of two the gap is half as
wide, except at the smallest exponent. -/
def Interval.of (x : Binary64) : Interval :=
  let m := x.significand
  let lowGap := if m = 2 ^ 52 ∧ x.exponentField > 1 then 1 else 2
  let (scale, den) : Nat × Nat := match x.exponent with
    | .ofNat e => (1 <<< e, 4)
    | .negSucc e => (1, 4 <<< (e + 1))
  ⟨(4 * m - lowGap) * scale, (4 * m + 2) * scale, den, m % 2 = 0⟩

/-- A decimal lies in the interval. -/
def Interval.contains (i : Interval) (d : Decimal) : Bool :=
  match d.compare i.low i.den, d.compare i.high i.den with
  | .gt, .lt => true
  | .eq, _ => i.closed
  | _, .eq => i.closed
  | _, _ => false

/-- Of the two neighbours of the number on the grid with `count` digits, the one that lies in the
interval; of two such, the nearer. -/
def candidate (x : Binary64) (i : Interval) (count : Nat) : Option Decimal :=
  let (num, den) := x.magnitude
  let (below, nearer) := cut num den count
  let above : Decimal := ⟨below.digits + 1, below.exponent⟩
  match i.contains below, i.contains above with
  | true, true =>
    match nearer with
    | .lt => some below
    | .gt => some above
    | .eq => if below.digits % 2 = 0 then some below else some above
  | true, false => some below
  | false, true => some above
  | false, false => none

/-- The decimal with the fewest digits that reads back as the positive finite number `x`, and among
those the one nearest to it. Seventeen digits always suffice. -/
def shortest (x : Binary64) : Decimal :=
  let i := Interval.of x
  let d := ((List.range 17).findSome? fun n => candidate x i (n + 1)).getD ⟨0, 0⟩
  d.trim 17

/-- The positive finite number rounded to `count` significant digits, a tie to the even digit. -/
def significant (x : Binary64) (count : Nat) : Decimal :=
  let (num, den) := x.magnitude
  let (below, nearer) := cut num den count
  let up := match nearer with
    | .lt => false
    | .gt => true
    | .eq => below.digits % 2 = 1
  let d := if up then below.digits + 1 else below.digits
  trim ⟨d, below.exponent⟩ (count + 1)

/-- The digits as text. -/
def digitText (d : Decimal) : String := String.ofList (Nat.toDigits 10 d.digits)

/-- How a format writes a number. -/
structure Layout where
  /-- The exponents of the leading digit that are written positionally. -/
  positional : Int → Bool
  /-- An integral value is followed by `.0`. -/
  keepsPoint : Bool
  /-- A single digit before an exponent is followed by `.0` too. -/
  keepsPointBeforeExponent : Bool := false
  /-- A positive exponent carries a sign. -/
  plusSign : Bool := false
  /-- The exponent has at least this many digits. -/
  exponentWidth : Nat := 1
  /-- The text of infinity, to which a minus sign may be added. -/
  infinity : String
  /-- The text of what is not a number, to which a minus sign may be added. -/
  notANumber : String
  /-- A minus sign in front of negative infinity and, if `signedNaN`, of a negative NaN. -/
  signedNaN : Bool := false

/-- `count` zeros. -/
def zeros (count : Nat) : String := String.ofList (List.replicate count '0')

/-- The decimal without an exponent. -/
def positionalText (d : Decimal) (keepsPoint : Bool) : String :=
  let text := d.digitText
  let point := if keepsPoint then ".0" else ""
  match d.exponent with
  | .ofNat e => text ++ zeros e ++ point
  | .negSucc e =>
    let places := e + 1
    let length := text.length
    if places < length then
      (text.take (length - places)).toString ++ "." ++ (text.drop (length - places)).toString
    else "0." ++ zeros (places - length) ++ text

/-- The decimal with one digit before the point and an exponent. -/
def scientificText (d : Decimal) (l : Layout) : String :=
  let text := d.digitText
  let exponent := d.exponent + (text.length : Int) - 1
  let mantissa :=
    if text.length = 1 then (if l.keepsPointBeforeExponent then text ++ ".0" else text)
    else (text.take 1).toString ++ "." ++ (text.drop 1).toString
  let size := toString exponent.natAbs
  let sign := if exponent < 0 then "-" else if l.plusSign then "+" else ""
  mantissa ++ "e" ++ sign ++ zeros (l.exponentWidth - size.length) ++ size

/-- The text of a number whose digits are chosen by `choose`. -/
def Layout.render (l : Layout) (choose : Binary64 → Decimal) (x : Binary64) : String :=
  let sign := if x.isNegative then "-" else ""
  if x.isNaN then (if l.signedNaN then sign else "") ++ l.notANumber
  else if x.isInfinite then sign ++ l.infinity
  else
    let d := if x.isZero then ⟨0, 0⟩ else choose x.abs
    let leading := d.exponent + (digitCount d.digits : Int) - 1
    sign ++ if l.positional leading then positionalText d l.keepsPoint else scientificText d l

end Decimal

namespace Binary64

/-- The plain text of a number: positional whatever its size, without a point where it is integral. -/
def plainLayout : Decimal.Layout :=
  { positional := fun _ => true, keepsPoint := false, infinity := "inf", notANumber := "NaN" }

/-- The plain text of a number. -/
def toPlainText (x : Binary64) : String := plainLayout.render Decimal.shortest x

end Binary64
end Sandbox
