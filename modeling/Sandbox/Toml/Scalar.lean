import Sandbox.Calendar
import Sandbox.Toml.Text
import Sandbox.Toml.Value

/-!
# TOML numbers, truth values and moments

A value without marks around it is told by its form. Underscores may stand between digits. Numbers that
no machine word or float holds are refused, and so are moments that no calendar or clock shows.
-/

namespace Sandbox.Toml

/-- The number that digits write, with underscores between them. -/
def grouped? (base : Nat) (s : List Char) : Option Nat :=
  if (s.splitOn '_').any List.isEmpty then none else digits? base (s.filter (· ≠ '_'))

/-- The number that decimal digits write without a needless zero in front. -/
def whole? (s : List Char) : Option Nat :=
  match s.filter (· ≠ '_') with
  | '0' :: _ :: _ => none
  | _ => grouped? 10 s

/-- The sign and what is behind it. -/
def signed (s : List Char) : Bool × List Char :=
  match s with
  | '-' :: rest => (true, rest)
  | '+' :: rest => (false, rest)
  | _ => (false, s)

/-- The integer that a form writes. -/
def int? (s : List Char) : Option Int :=
  match s with
  | '0' :: 'x' :: rest => (grouped? 16 rest).map Int.ofNat
  | '0' :: 'o' :: rest => (grouped? 8 rest).map Int.ofNat
  | '0' :: 'b' :: rest => (grouped? 2 rest).map Int.ofNat
  | _ =>
    let (negative, size) := signed s
    (whole? size).map fun n => if negative then -(n : Int) else n

/-- The largest integer that is accepted. -/
def highest : Int := 2 ^ 128 - 1

/-- The smallest integer that is accepted. -/
def lowest : Int := -2 ^ 127

/-- The number of a form with a point, an exponent or both. -/
def decimal? (s : List Char) : Option Binary64 := do
  let (mantissa, mark) := s.span fun c => c ≠ 'e' && c ≠ 'E'
  let (whole, point) := mantissa.span (· ≠ '.')
  let part := point.drop 1
  if point.isEmpty && mark.isEmpty then none
  discard (whole? whole)
  if !point.isEmpty then discard (grouped? 10 part)
  let power ← match mark with
    | [] => some 0
    | _ :: rest =>
      let (negative, size) := signed rest
      (grouped? 10 size).map fun n => if negative then -(n : Int) else n
  let part := part.filter (· ≠ '_')
  let digits ← digits? 10 (whole.filter (· ≠ '_') ++ part)
  let x := Binary64.ofDecimal digits (power - part.length)
  if x.isFinite then some x else none

/-- The float that a form writes. -/
def float? (s : List Char) : Option Binary64 :=
  let (negative, size) := signed s
  let x : Option Binary64 := match String.ofList size with
    | "inf" => some .infinity
    | "nan" => some ⟨0x7ff8000000000000⟩
    | _ => decimal? size
  x.map fun x => if negative then x.neg else x

/-! ## Moments -/

/-- A form is a date. -/
def isDate (s : List Char) : Bool :=
  match s with
  | [a, b, c, d, '-', e, f, '-', g, h] =>
    match digits? 10 [a, b, c, d], digits? 10 [e, f], digits? 10 [g, h] with
    | some year, some month, some day =>
      1 ≤ month && month ≤ 12 && 1 ≤ day && day ≤ Date.daysIn year month
    | _, _, _ => false
  | _ => false

/-- A form is hours and minutes. -/
def isHourMinute (s : List Char) : Bool :=
  match s with
  | [a, b, ':', c, d] =>
    match digits? 10 [a, b], digits? 10 [c, d] with
    | some hour, some minute => hour < 24 && minute < 60
    | _, _ => false
  | _ => false

/-- A form is seconds behind a colon, or nothing at all. The last second of a day may be a 61st. -/
def isSecond (s : List Char) : Bool :=
  match s with
  | [] => true
  | ':' :: a :: b :: part =>
    let whole := match digits? 10 [a, b] with
      | some second => second ≤ 60
      | none => false
    whole && match part with
      | [] => true
      | '.' :: digits => (digits? 10 digits).isSome
      | _ => false
  | _ => false

/-- A form is a time of a day. -/
def isTime (s : List Char) : Bool := isHourMinute (s.take 5) && isSecond (s.drop 5)

/-- A form is a time of a day that may be followed by an offset. -/
def isTimeWithOffset (s : List Char) : Bool :=
  let (time, offset) := s.span fun c => !(['Z', 'z', '+', '-'].contains c)
  isTime time && match offset with
    | [] | ['Z'] | ['z'] => true
    | '+' :: rest | '-' :: rest => isHourMinute rest
    | _ => false

/-- A form is a date, a time, or a date with a time behind it. -/
def isMoment (s : List Char) : Bool :=
  match s.drop 10 with
  | [] => isDate s || isTime s
  | mark :: time =>
    isTime s || (isDate (s.take 10) && ['T', 't', ' '].contains mark && isTimeWithOffset time)

/-- The value that a form writes. -/
def scalar? (s : List Char) : Option Value :=
  match String.ofList s with
  | "true" => some (.bool true)
  | "false" => some (.bool false)
  | form =>
    match int? s with
    | some n => if lowest ≤ n && n ≤ highest then some (.int n) else none
    | none => if isMoment s then some (.moment form) else (float? s).map .float

/-- The end of a form. -/
def endsForm (c : Char) : Bool := !isPlain c || isBlank c || [',', ']', '\x7d', '#'].contains c

/-- The form that begins here. A blank may stand between a date and a time. -/
def formAndRest (s : List Char) : List Char × List Char :=
  let (form, rest) := s.span fun c => !endsForm c
  match isDate form, rest with
  | true, ' ' :: c :: more =>
    if c.isDigit then
      let (time, rest) := (c :: more).span fun c => !endsForm c
      (form ++ ' ' :: time, rest)
    else (form, rest)
  | _, _ => (form, rest)

end Sandbox.Toml
