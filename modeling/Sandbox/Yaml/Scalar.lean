import Sandbox.Yaml.Node

/-!
# Plain scalars

The core rules for scalars without quotes: words for null and the truth values, integers in four
bases, and decimal or special floats. A number with superfluous leading zeros is text, and so is a
decimal that is too large for floating point.
-/

namespace Sandbox.Yaml

/-- What a plain scalar stands for. -/
inductive Resolution
  | null
  | bool (b : Bool)
  /-- An integer of any size. -/
  | int (n : Int)
  | float (x : Binary64)
  | text
  deriving Repr

namespace Scalar

/-- The words for null. -/
def null? (s : String) : Bool := ["null", "Null", "NULL", "~"].contains s

/-- The words for the truth values. -/
def bool? (s : String) : Option Bool :=
  if ["true", "True", "TRUE"].contains s then some true
  else if ["false", "False", "FALSE"].contains s then some false
  else none

/-- The value of a digit in a base up to sixteen. -/
def digitValue? (base : Nat) (c : Char) : Option Nat :=
  let value :=
    if c.isDigit then c.toNat - 48
    else if 'a' ≤ c ∧ c ≤ 'f' then c.toNat - 87
    else if 'A' ≤ c ∧ c ≤ 'F' then c.toNat - 55
    else base
  if value < base then some value else none

/-- The number that one or more digits write. -/
def digits? (base : Nat) (cs : List Char) : Option Nat :=
  if cs.isEmpty then none
  else cs.foldlM (fun acc c => (digitValue? base c).map (acc * base + ·)) 0

/-- The bases that a marker announces. -/
def markedBase? : List Char → Option (Nat × List Char)
  | '0' :: 'x' :: rest => some (16, rest)
  | '0' :: 'o' :: rest => some (8, rest)
  | '0' :: 'b' :: rest => some (2, rest)
  | _ => none

/-- The digits behind an optional sign begin with a superfluous zero. -/
def hasLeadingZero (s : List Char) : Bool :=
  let digits := match s with
    | '-' :: rest => rest
    | '+' :: rest => rest
    | _ => s
  match digits with
  | '0' :: rest => !rest.isEmpty && rest.all Char.isDigit
  | _ => false

/-- An unsigned number, in a marked base or in base ten. -/
def magnitude? (s : List Char) : Option Nat :=
  match markedBase? s with
  | some (base, digits) => digits? base digits <|> digits? 10 s
  | none => digits? 10 s

/-- The largest integer that some reader holds. -/
def highest : Int := 2 ^ 128 - 1

/-- The smallest integer that some reader holds. -/
def lowest : Int := -2 ^ 127

/-- The integer that a scalar writes. -/
def int? (s : List Char) : Option Int :=
  if hasLeadingZero s then none
  else
    let n := match s with
      | '-' :: rest => (magnitude? rest).map fun n => -(n : Int)
      | '+' :: rest => (magnitude? rest).map fun n => (n : Int)
      | _ => (magnitude? s).map fun n => (n : Int)
    n.filter fun n => lowest ≤ n && n ≤ highest

/-- The number behind the mark of an exponent. -/
def exponent? : List Char → Option Int
  | '-' :: rest => (digits? 10 rest).map fun n => -(n : Int)
  | '+' :: rest => (digits? 10 rest).map fun n => (n : Int)
  | rest => (digits? 10 rest).map fun n => (n : Int)

/-- The finite number that digits with an optional point and exponent write. -/
def decimal? (s : List Char) : Option Binary64 := do
  let (whole, rest) := s.span Char.isDigit
  let (part, rest) := match rest with
    | '.' :: rest => rest.span Char.isDigit
    | _ => ([], rest)
  let mantissa ← digits? 10 (whole ++ part)
  let exponent ← match rest with
    | [] => some 0
    | c :: rest => if c = 'e' || c = 'E' then exponent? rest else none
  let x := Binary64.ofDecimal mantissa (exponent - part.length)
  if x.isFinite then some x else none

/-- The float that a scalar writes. -/
def float? (s : List Char) : Option Binary64 :=
  let (negative, signed, size) := match s with
    | '-' :: rest => (true, true, rest)
    | '+' :: rest => (false, true, rest)
    | _ => (false, false, s)
  let text := String.ofList size
  let x :=
    if [".inf", ".Inf", ".INF"].contains text then some .infinity
    else if !signed && [".nan", ".NaN", ".NAN"].contains text then some ⟨0x7ff8000000000000⟩
    else decimal? size
  x.map fun x => if negative then x.neg else x

/-- What a plain scalar stands for. -/
def resolve (s : String) : Resolution :=
  let cs := s.toList
  if s.isEmpty || null? s then .null
  else match bool? s with
    | some b => .bool b
    | none =>
      match int? cs with
      | some n => .int n
      | none =>
        match if hasLeadingZero cs then none else float? cs with
        | some x => .float x
        | none => .text

end Scalar
end Sandbox.Yaml
