import Sandbox.Number.Decimal
import Sandbox.Script.Library.Argument

/-!
# Formatting

The directives of a format text: flags, a width, a precision and a letter that says how a value is
written. A directive is shown in an error text as it stands in the format text.
-/

namespace Sandbox.Script
namespace Format

/-- A directive. -/
structure Directive where
  flags : List Char
  width : Nat
  precision : Option Nat
  letter : Char
  /-- The directive as it stands in the format text. -/
  source : String

/-- Puts a text into a width, with its sign in front of leading zeros. -/
def Directive.pad (d : Directive) (allowsZeros : Bool) (sign body : String) : String :=
  let missing := d.width - (sign.length + body.length)
  let fill (c : Char) : String := String.ofList (List.replicate missing c)
  if d.flags.contains '-' then sign ++ body ++ fill ' '
  else if allowsZeros && d.flags.contains '0' then sign ++ fill '0' ++ body
  else fill ' ' ++ sign ++ body

/-- The sign of a number that is not negative. -/
def Directive.plus (d : Directive) : String :=
  if d.flags.contains '+' then "+" else if d.flags.contains ' ' then " " else ""

/-- Digits with zeros in front up to the precision. -/
def Directive.precise (d : Directive) (digits : String) : String :=
  match d.precision with
  | some 0 => if digits = "0" then "" else digits
  | some p => Decimal.zeros (p - digits.length) ++ digits
  | none => digits

/-- An integer in base ten. -/
def Directive.decimal (d : Directive) (n : Int64) : String :=
  let n := n.toInt
  d.pad d.precision.isNone (if n < 0 then "-" else d.plus) (d.precise (toString n.natAbs))

/-- The bits of an integer in base eight or sixteen. -/
def Directive.bits (d : Directive) (base : Nat) (n : Int64) : String :=
  let n := n.toUInt64.toNat
  let digits := String.ofList (Nat.toDigits base n)
  let digits := if d.letter = 'X' then digits.toUpper else digits
  let mark :=
    if !d.flags.contains '#' || n = 0 then "" else if base = 8 then "0" else s!"0{d.letter}"
  d.pad d.precision.isNone mark (d.precise digits)

/-- A number with a count of digits behind the point. -/
def fixedText (x : Binary64) (places : Nat) (keepsPoint : Bool) : String :=
  let (num, den) := x.abs.magnitude
  let n := Binary64.roundDiv (num * powerOfTen places) den
  let digits := toString n
  let digits := Decimal.zeros (places + 1 - digits.length) ++ digits
  let whole := digits.length - places
  let point := if places > 0 || keepsPoint then "." else ""
  (digits.take whole).toString ++ point ++ (digits.drop whole).toString

/-- The digits of a number, as many as asked for, and the exponent of the first one. -/
def leadingDigits (x : Binary64) (count : Nat) : String × Int :=
  if x.isZero then (Decimal.zeros count, 0)
  else
    let d := Decimal.significant x.abs count
    let digits := d.digitText
    (digits ++ Decimal.zeros (count - digits.length), d.exponent + (digits.length : Int) - 1)

/-- A number with an exponent. -/
def scientificText (x : Binary64) (places : Nat) (keepsPoint : Bool) : String :=
  let (digits, exponent) := leadingDigits x (places + 1)
  let point := if places > 0 || keepsPoint then "." else ""
  let size := toString exponent.natAbs
  (digits.take 1).toString ++ point ++ (digits.drop 1).toString ++ "e" ++
    (if exponent < 0 then "-" else "+") ++ Decimal.zeros (2 - size.length) ++ size

/-- A text without zeros at the end of its fraction. -/
def withoutTrailingZeros (s : String) : String :=
  if s.contains '.' then
    let cs := s.toList.reverse.dropWhile (· = '0')
    String.ofList (match cs with
      | '.' :: rest => rest.reverse
      | cs => cs.reverse)
  else s

/-- A number with a count of digits, with an exponent where that is shorter. -/
def generalText (x : Binary64) (precision : Nat) (keepsZeros : Bool) : String :=
  let count := max precision 1
  let (_, exponent) := leadingDigits x count
  let trim (s : String) : String := if keepsZeros then s else withoutTrailingZeros s
  if exponent < -4 || exponent ≥ count then
    let s := scientificText x (count - 1) keepsZeros
    match s.splitOn "e" with
    | [mantissa, e] => trim mantissa ++ "e" ++ e
    | _ => s
  else trim (fixedText x ((count : Int) - 1 - exponent).toNat keepsZeros)

/-- A number in base sixteen with an exponent of two. -/
def hexText (x : Binary64) : String :=
  let field := x.exponentField
  let digits := Nat.toDigits 16 (2 ^ 52 + x.fractionField)
  let fraction := String.ofList ((digits.drop 1).reverse.dropWhile (· = '0')).reverse
  let exponent : Int := if x.isZero then 0 else if field = 0 then -1022 else (field : Int) - 1023
  let sign := if exponent < 0 then "-" else "+"
  let point := if fraction.isEmpty then "" else "."
  let leading := if field = 0 then "0" else "1"
  s!"0x{leading}{point}{fraction}p{sign}{exponent.natAbs}"

/-- A float. -/
def Directive.float (d : Directive) (x : Binary64) : String :=
  let sign := if x.isNegative then "-" else d.plus
  let isUpper := d.letter.isUpper
  let case (s : String) : String := if isUpper then s.toUpper else s
  if x.isNaN then d.pad false sign (case "nan")
  else if x.isInfinite then d.pad false sign (case "inf")
  else
    let precision := d.precision.getD 6
    let keeps := d.flags.contains '#'
    d.pad true sign <| case <| match d.letter.toLower with
      | 'f' => fixedText x precision keeps
      | 'e' => scientificText x precision keeps
      | 'a' => hexText x
      | _ => generalText x precision keeps

/-- The bytes of a quoted text that reads back as itself. -/
def quotedBytes : List UInt8 → List UInt8
  | [] => [0x22]
  | b :: rest =>
    let here :=
      if b == 0x22 || b == 0x5C || b == 0x0A then [0x5C, b]
      else if b < 0x20 || b == 0x7F then
        let digits := toString b.toNat
        let isBeforeDigit := (rest.head?.map Numeral.isDigit).getD false
        let digits := if isBeforeDigit then Decimal.zeros (3 - digits.length) ++ digits else digits
        0x5C :: digits.toUTF8.toList
      else [b]
    here ++ quotedBytes rest

/-- The digits at the start of a text, two at most, and the rest. -/
def shortNumber (s : List UInt8) : List UInt8 × List UInt8 :=
  let digits := (s.take 2).takeWhile Numeral.isDigit
  (digits, s.drop digits.length)

/-- A directive behind its percent sign, and what follows it. -/
def directive (s : List UInt8) : Directive × List UInt8 :=
  let (flags, rest) := s.span fun b => "-+ #0".toUTF8.toList.contains b
  let (width, rest) := shortNumber rest
  let (precision, rest) : Option (List UInt8) × List UInt8 := match rest with
    | 0x2E :: rest =>
      let (digits, rest) := shortNumber rest
      (some digits, rest)
    | rest => (none, rest)
  let source := s.take (s.length - rest.length + 1)
  let toChar (b : UInt8) : Char := Char.ofNat b.toNat
  ({ flags := flags.map toChar
     width := Numeral.decimalValue width
     precision := precision.map Numeral.decimalValue
     letter := (rest.head?.map toChar).getD '\x00'
     source := (ByteArray.mk source.toArray).toTextLossy }, rest.drop 1)

/-- The flags that a letter takes, and whether it takes a precision. -/
def allowed? (letter : Char) : Option (String × Bool) :=
  match letter with
  | 'c' => some ("-", false)
  | 'd' | 'i' => some ("-+0 ", true)
  | 'u' => some ("-0", true)
  | 'o' | 'x' | 'X' => some ("-#0", true)
  | 'a' | 'A' | 'f' | 'e' | 'E' | 'g' | 'G' => some ("-+#0 ", true)
  | 'p' => some ("-", false)
  | 'q' => some ("", false)
  | 's' => some ("-", true)
  | _ => none

/-- The directive is one of the language. -/
def Directive.isValid (d : Directive) : Bool :=
  match allowed? d.letter with
  | some (flags, hasPrecision) =>
    d.flags.all flags.toList.contains && (hasPrecision || d.precision.isNone)
  | none => false

end Format

namespace Run

variable {H W : Type}

/-- A value as source text. -/
def quotedValue (position : Nat) (v : Value) : Run H W ByteArray := do
  match v with
  | .text s => return ⟨(0x22 :: Format.quotedBytes s.toList).toArray⟩
  | .int n =>
    if n = Int64.minValue then return "0x8000000000000000".toUTF8
    else return (Numeral.ofInt n).toUTF8
  | .float x =>
    if x.isNaN then return "(0/0)".toUTF8
    else if x.isInfinite then return (if x.isNegative then "-1e9999" else "1e9999").toUTF8
    else return ((if x.isNegative then "-" else "") ++ Format.hexText x).toUTF8
  | .nil => return "nil".toUTF8
  | .bool b => return (if b then "true" else "false").toUTF8
  | _ => raiseArgument position "value has no literal form"

/-- The text that a directive makes of an argument. -/
def formatOne (invoke : Invoke H W) (arguments : List Value) (position : Nat)
    (d : Format.Directive) : Run H W ByteArray := do
  if !d.isValid then
    raiseForCaller s!"invalid conversion '%{d.source}' to 'format'"
  match d.letter with
  | 'c' =>
    let n ← integerArgument arguments position
    let pad := List.replicate (d.width - 1) 0x20
    let b := n.toUInt64.toUInt8
    return ⟨(if d.flags.contains '-' then b :: pad else pad ++ [b]).toArray⟩
  | 'd' | 'i' => return (d.decimal (← integerArgument arguments position)).toUTF8
  | 'u' | 'x' | 'X' =>
    let n ← integerArgument arguments position
    return (d.bits (if d.letter = 'u' then 10 else 16) n).toUTF8
  | 'o' => return (d.bits 8 (← integerArgument arguments position)).toUTF8
  | 'a' | 'A' | 'f' | 'e' | 'E' | 'g' | 'G' =>
    return (d.float (← floatArgument arguments position)).toUTF8
  | 'p' => return (d.pad false "" (address (← anyArgument arguments position))).toUTF8
  | 'q' =>
    if !d.flags.isEmpty || d.width > 0 then
      raiseForCaller "specifier '%q' cannot have modifiers"
    quotedValue position (← anyArgument arguments position)
  | _ =>
    let s ← textOf invoke (← anyArgument arguments position)
    let isBare := d.flags.isEmpty && d.width = 0 && d.precision.isNone
    if isBare then return s
    if s.toList.contains 0 then raiseArgument position "string contains zeros"
    let s := match d.precision with
      | some p => s.extract 0 p
      | none => s
    let pad := ByteArray.mk (Array.replicate (d.width - s.size) 0x20)
    return if d.flags.contains '-' then s ++ pad else pad ++ s

/-- A format text with its directives replaced by the arguments behind it. -/
def formatFrom (invoke : Invoke H W) (arguments : List Value) :
    Nat → List UInt8 → Nat → ByteArray → Run H W ByteArray
  | 0, _, _, acc => return acc
  | fuel + 1, s, position, acc => do
    match s with
    | [] => return acc
    | 0x25 :: 0x25 :: rest => formatFrom invoke arguments fuel rest position (acc.push 0x25)
    | 0x25 :: rest =>
      let position := position + 1
      discard (if position ≤ arguments.length then pure Value.nil
        else raiseArgument position "no value")
      let (d, rest) := Format.directive rest
      let one ← formatOne invoke arguments position d
      formatFrom invoke arguments fuel rest position (acc ++ one)
    | b :: rest => formatFrom invoke arguments fuel rest position (acc.push b)

end Run
end Sandbox.Script
