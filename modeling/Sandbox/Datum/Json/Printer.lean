import Sandbox.Datum.Basic

/-!
# JSON text of a plain value

Compact JSON: no blanks, the fields of a record in the order of their keys, the short escapes where
JSON has them and `\u` with four digits for the other control characters. A number that is not
finite is written as `null`, and a foreign value as text with the name of its type in angle
brackets.
-/

namespace Sandbox.Json

/-- The digits of a byte in base sixteen, lower case. -/
def hexDigit (n : Nat) : Char := "0123456789abcdef".toList.getD (n % 16) '0'

/-- One character of a string. -/
def escape (c : Char) : List Char :=
  match c with
  | '"' => ['\\', '"']
  | '\\' => ['\\', '\\']
  | '\x08' => ['\\', 'b']
  | '\x0c' => ['\\', 'f']
  | '\n' => ['\\', 'n']
  | '\r' => ['\\', 'r']
  | '\t' => ['\\', 't']
  | c =>
    if c.toNat < 0x20 then ['\\', 'u', '0', '0', hexDigit (c.toNat / 16), hexDigit c.toNat]
    else [c]

/-- The characters of a string and the quotes around it. -/
def quote (s : String) : List Char := '"' :: s.toList.flatMap escape ++ ['"']

/-- Numbers are positional from five zeros after the point up to sixteen digits before it; an
integral value keeps `.0`; an exponent carries its sign. -/
def numberLayout : Decimal.Layout :=
  { positional := fun e => -5 ≤ e && e ≤ 15, keepsPoint := true, plusSign := true,
    infinity := "null", notANumber := "null" }

/-- The text of a number. -/
def number (x : Binary64) : List Char :=
  if x.isFinite then (numberLayout.render Decimal.shortest x).toList else "null".toList

mutual
/-- The JSON text of a value, as characters. -/
def chars : Datum → List Char
  | .null => "null".toList
  | .bool b => (if b then "true" else "false").toList
  | .int n => (toString n.toInt).toList
  | .float x => number x
  | .text s => quote s
  | .foreign type => quote ("<" ++ type ++ ">")
  | .list items => '[' :: charsItems items ++ [']']
  | .record fields => '\x7b' :: charsFields fields ++ ['\x7d']

/-- Items with commas between them. -/
def charsItems : List Datum → List Char
  | [] => []
  | [v] => chars v
  | v :: rest => chars v ++ ',' :: charsItems rest

/-- Fields with commas between them. -/
def charsFields : List (String × Datum) → List Char
  | [] => []
  | [(k, v)] => quote k ++ ':' :: chars v
  | (k, v) :: rest => quote k ++ ':' :: chars v ++ ',' :: charsFields rest
end

/-- The JSON text of a value. -/
def render (d : Datum) : String := String.ofList (chars d)

end Sandbox.Json

namespace Sandbox.Datum

/-- The text shown for a value: a scalar as it is, a container as JSON. -/
def display : Datum → String
  | .null => "nil"
  | .bool b => if b then "true" else "false"
  | .int n => toString n.toInt
  | .float x => x.toPlainText
  | .text s => s
  | .foreign type => "<" ++ type ++ ">"
  | d => Json.render d

end Sandbox.Datum
