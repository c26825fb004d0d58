import Sandbox.Script.Flaw
import Sandbox.Script.Numeral

/-!
# Tokens of program texts

The bytes of a chunk as tokens. Lines end at a line feed, a carriage return or both; comments are
left out. `Tokens.ofBytes` reads all tokens up to the end of the text or to the first flaw in it.
-/

namespace Sandbox.Script

/-- A token. -/
inductive Token
  | name (s : String)
  | text (s : ByteArray)
  | int (n : Int64)
  | float (x : Binary64)
  /-- A reserved word. -/
  | word (s : String)
  /-- An operator or a mark. -/
  | mark (s : String)
  /-- A byte that begins no token of the language. -/
  | stray (b : UInt8)
  deriving DecidableEq

/-- A token where it stands. -/
structure Lexeme where
  token : Token
  /-- The line of its end. -/
  line : Nat
  /-- The token as error texts show it. -/
  shown : String

/-- The tokens of a text. -/
structure Tokens where
  lexemes : List Lexeme
  /-- The line of the end of the text, or the flaw that ends the tokens. -/
  ending : Except Flaw Nat

namespace Lexer

/-- The reserved words. -/
def words : List String :=
  ["and", "break", "do", "else", "elseif", "end", "false", "for", "function", "goto", "if", "in",
    "local", "nil", "not", "or", "repeat", "return", "then", "true", "until", "while"]

/-- The marks, longer ones in front of their beginnings. -/
def marks : List String :=
  ["...", "..", ".", "==", "=", "<=", "<<", "<", ">=", ">>", ">", "//", "/", "~=", "~", "::", ":",
    "+", "-", "*", "%", "^", "#", "&", "|", "(", ")", "\x7b", "\x7d", "[", "]", ";", ","]

/-- White space within a line. -/
def isBlank (b : UInt8) : Bool := b == 0x20 || b == 0x09 || b == 0x0B || b == 0x0C

/-- A byte that ends a line. -/
def isBreak (b : UInt8) : Bool := b == 0x0A || b == 0x0D

/-- A letter, where the underscore is one. -/
def isLetter (b : UInt8) : Bool :=
  (0x41 ≤ b && b ≤ 0x5A) || (0x61 ≤ b && b ≤ 0x7A) || b == 0x5F

/-- A byte of a name. -/
def isNameByte (b : UInt8) : Bool := isLetter b || Numeral.isDigit b

/-- A digit in base sixteen. -/
def isHex (b : UInt8) : Bool := (Numeral.hexValue? b).isSome

/-- The bytes behind the end of a line, which has one or two bytes. -/
def afterBreak : List UInt8 → List UInt8
  | 0x0A :: 0x0D :: rest => rest
  | 0x0D :: 0x0A :: rest => rest
  | _ :: rest => rest
  | [] => []

/-- The bytes in quotes as error texts show them. -/
def shown (bytes : List UInt8) : String :=
  s!"'{(ByteArray.mk (bytes.takeWhile (· ≠ 0)).toArray).toTextLossy}'"

/-- The end of the text in error texts. -/
def shownEnd : String := "<eof>"

/-- Characters as bytes. -/
def bytesOf (s : String) : List UInt8 := s.toUTF8.toList

/-! ## Long brackets -/

/-- The level of a long bracket that opens behind its first bracket, and what follows it. -/
def longOpening? (s : List UInt8) : Option (Nat × List UInt8) :=
  let (equals, rest) := s.span (· == 0x3D)
  match rest with
  | 0x5B :: rest => some (equals.length, rest)
  | _ => none

/-- The long bracket of a level closes behind its first bracket. -/
def longCloses (level : Nat) (s : List UInt8) : Bool :=
  (s.take level).all (· == 0x3D) && (s.drop level).head? == some 0x5D

/-- The bytes up to the closing long bracket, what follows it and the line there. Every end of a line
counts as a line feed. -/
def longBody (level : Nat) : List UInt8 → Nat → List UInt8 → Option (List UInt8 × List UInt8 × Nat)
  | [], _, _ => none
  | 0x0A :: 0x0D :: rest, line, acc => longBody level rest (line + 1) (0x0A :: acc)
  | 0x0D :: 0x0A :: rest, line, acc => longBody level rest (line + 1) (0x0A :: acc)
  | b :: rest, line, acc =>
    if b == 0x5D && longCloses level rest then some (acc.reverse, rest.drop (level + 1), line)
    else if isBreak b then longBody level rest (line + 1) (0x0A :: acc)
    else longBody level rest line (b :: acc)

/-- A long text or comment behind its opening bracket. A line that ends at once is left out. -/
def long (what : String) (level : Nat) (s : List UInt8) (line : Nat) :
    Except Flaw (List UInt8 × List UInt8 × Nat) :=
  let (s, inner) := match s with
    | b :: _ => if isBreak b then (afterBreak s, line + 1) else (s, line)
    | [] => (s, line)
  match longBody level s inner [] with
  | some r => .ok r
  | none =>
    let breaks := (longBody level (s ++ [0x5D] ++ List.replicate level 0x3D ++ [0x5D]) inner []).map
      (·.2.2)
    .error ⟨breaks.getD inner, .unfinishedLong what line, some shownEnd⟩

/-! ## Quoted texts -/

/-- The bytes that encode a number as a character of up to six bytes. -/
def encodeWide (n : Nat) : List UInt8 :=
  let tail (k : Nat) : UInt8 := (0x80 + n >>> (6 * k) % 64).toUInt8
  if n < 0x80 then [n.toUInt8]
  else if n < 0x800 then [(0xC0 + n >>> 6).toUInt8, tail 0]
  else if n < 0x10000 then [(0xE0 + n >>> 12).toUInt8, tail 1, tail 0]
  else if n < 0x200000 then [(0xF0 + n >>> 18).toUInt8, tail 2, tail 1, tail 0]
  else if n < 0x4000000 then [(0xF8 + n >>> 24).toUInt8, tail 3, tail 2, tail 1, tail 0]
  else [(0xFC + n >>> 30).toUInt8, tail 4, tail 3, tail 2, tail 1, tail 0]

/-- What an escape sequence stands for. -/
structure Escape where
  bytes : List UInt8
  rest : List UInt8
  lines : Nat := 0

/-- Why a sequence is no escape sequence, and its bytes so far. -/
structure BadEscape where
  cause : Flaw.Cause
  taken : List UInt8

/-- The sequence is bad at its next byte, which is shown too. -/
def badEscape (cause : Flaw.Cause) (taken rest : List UInt8) : BadEscape :=
  ⟨cause, taken ++ rest.take 1⟩

/-- White space behind which a text goes on, and the lines in it. -/
def skipSpace : List UInt8 → Nat → List UInt8 × Nat
  | [], lines => ([], lines)
  | 0x0A :: 0x0D :: rest, lines => skipSpace rest (lines + 1)
  | 0x0D :: 0x0A :: rest, lines => skipSpace rest (lines + 1)
  | b :: rest, lines =>
    if isBreak b then skipSpace rest (lines + 1)
    else if isBlank b then skipSpace rest lines
    else (b :: rest, lines)

/-- The digits of a character's number, up to the closing brace. -/
def wideDigits (value : Nat) (taken : List UInt8) : List UInt8 → Except BadEscape (Nat × List UInt8)
  | [] => .error (badEscape .closeBraceExpected taken [])
  | b :: rest =>
    match Numeral.hexValue? b with
    | some d =>
      if value > 0x7FFFFFFF / 16 then .error (badEscape .codePointTooLarge taken (b :: rest))
      else wideDigits (value * 16 + d) (taken ++ [b]) rest
    | none =>
      if b == 0x7D then .ok (value, rest) else .error (badEscape .closeBraceExpected taken (b :: rest))

/-- An escape sequence behind its backslash. -/
def escape (s : List UInt8) : Except BadEscape Escape :=
  match s with
  | 0x61 :: rest => .ok ⟨[0x07], rest, 0⟩
  | 0x62 :: rest => .ok ⟨[0x08], rest, 0⟩
  | 0x66 :: rest => .ok ⟨[0x0C], rest, 0⟩
  | 0x6E :: rest => .ok ⟨[0x0A], rest, 0⟩
  | 0x72 :: rest => .ok ⟨[0x0D], rest, 0⟩
  | 0x74 :: rest => .ok ⟨[0x09], rest, 0⟩
  | 0x76 :: rest => .ok ⟨[0x0B], rest, 0⟩
  | 0x5C :: rest => .ok ⟨[0x5C], rest, 0⟩
  | 0x22 :: rest => .ok ⟨[0x22], rest, 0⟩
  | 0x27 :: rest => .ok ⟨[0x27], rest, 0⟩
  | 0x7A :: rest =>
    let (rest, lines) := skipSpace rest 0
    .ok ⟨[], rest, lines⟩
  | 0x78 :: rest =>
    match rest with
    | a :: rest' =>
      match Numeral.hexValue? a, rest' with
      | none, _ => .error (badEscape .hexDigitExpected [0x78] rest)
      | some _, [] => .error (badEscape .hexDigitExpected [0x78, a] [])
      | some m, b :: rest'' =>
        match Numeral.hexValue? b with
        | some n => .ok ⟨[(m * 16 + n).toUInt8], rest'', 0⟩
        | none => .error (badEscape .hexDigitExpected [0x78, a] rest')
    | [] => .error (badEscape .hexDigitExpected [0x78] [])
  | 0x75 :: rest =>
    match rest with
    | 0x7B :: rest' =>
      match rest' with
      | a :: rest'' =>
        match Numeral.hexValue? a with
        | some d => do
          let (n, rest) ← wideDigits d [0x75, 0x7B, a] rest''
          .ok ⟨encodeWide n, rest, 0⟩
        | none => .error (badEscape .hexDigitExpected [0x75, 0x7B] rest')
      | [] => .error (badEscape .hexDigitExpected [0x75, 0x7B] [])
    | _ => .error (badEscape .openBraceExpected [0x75] rest)
  | b :: rest =>
    if isBreak b then .ok ⟨[0x0A], afterBreak s, 1⟩
    else if Numeral.isDigit b then
      let digits := (s.take 3).takeWhile Numeral.isDigit
      let n := Numeral.decimalValue digits
      let rest' := s.drop digits.length
      if n > 255 then .error (badEscape .byteTooLarge digits rest')
      else .ok ⟨[n.toUInt8], rest', 0⟩
    else .error (badEscape .badEscape [] (b :: rest))
  | [] => .error ⟨.unfinishedText, []⟩

/-- The bytes of a quoted text behind its opening quote. -/
def quoted (quote : UInt8) : Nat → List UInt8 → Nat → List UInt8 →
    Except Flaw (List UInt8 × List UInt8 × Nat)
  | 0, _, line, _ => .error ⟨line, .unfinishedText, some shownEnd⟩
  | fuel + 1, s, line, acc =>
    match s with
    | [] => .error ⟨line, .unfinishedText, some shownEnd⟩
    | b :: rest =>
      if b == quote then .ok (acc.reverse, rest, line)
      else if isBreak b then
        .error ⟨line, .unfinishedText, some (shown (quote :: acc.reverse))⟩
      else if b == 0x5C then
        match escape rest with
        | .ok e => quoted quote fuel e.rest (line + e.lines) (e.bytes.reverse ++ acc)
        | .error ⟨.unfinishedText, _⟩ => .error ⟨line, .unfinishedText, some shownEnd⟩
        | .error bad =>
          .error ⟨line, bad.cause, some (shown (quote :: acc.reverse ++ 0x5C :: bad.taken))⟩
      else quoted quote fuel rest line (b :: acc)

/-! ## Numbers -/

/-- The bytes of a numeral, behind its first ones: digits of either base, points, and marks of an
exponent with a sign. -/
def numeralBytes (lower upper : UInt8) : List UInt8 → List UInt8 → List UInt8 × List UInt8
  | [], acc => (acc, [])
  | b :: rest, acc =>
    if b == lower || b == upper then
      match rest with
      | 0x2B :: rest' => numeralBytes lower upper rest' (0x2B :: b :: acc)
      | 0x2D :: rest' => numeralBytes lower upper rest' (0x2D :: b :: acc)
      | rest' => numeralBytes lower upper rest' (b :: acc)
    else if isHex b || b == 0x2E then numeralBytes lower upper rest (b :: acc)
    else if isLetter b then (b :: acc, rest)
    else (acc, b :: rest)
termination_by s => s.length
decreasing_by all_goals (simp_all only [List.length_cons]; omega)

/-- A numeral at the start of the bytes. -/
def numeral (s : List UInt8) (line : Nat) : Except Flaw (Lexeme × List UInt8) :=
  let (bytes, rest) := match s with
    | 0x30 :: 0x78 :: rest => numeralBytes 0x70 0x50 rest [0x78, 0x30]
    | 0x30 :: 0x58 :: rest => numeralBytes 0x70 0x50 rest [0x58, 0x30]
    | b :: rest => numeralBytes 0x65 0x45 rest [b]
    | [] => ([], [])
  let bytes := bytes.reverse
  match Numeral.read? bytes with
  | some (.int n) => .ok (⟨.int n, line, shown bytes⟩, rest)
  | some (.float x) => .ok (⟨.float x, line, shown bytes⟩, rest)
  | _ => .error ⟨line, .malformedNumber, some (shown bytes)⟩

/-! ## All tokens -/

/-- A mark at the start of the bytes. -/
def mark (s : List UInt8) (line : Nat) : Option (Lexeme × List UInt8) :=
  (marks.find? fun m => (bytesOf m).isPrefixOf s).map fun m =>
    (⟨.mark m, line, s!"'{m}'"⟩, s.drop m.length)

/-- A byte that begins no token. -/
def stray (b : UInt8) (line : Nat) : Lexeme :=
  let printable := 0x20 ≤ b && b < 0x7F
  ⟨.stray b, line, if printable then shown [b] else s!"'<\\{b.toNat}>'"⟩

/-- A name or a reserved word. -/
def nameOrWord (bytes : List UInt8) (line : Nat) : Lexeme :=
  let s := String.ofList (bytes.map fun b => Char.ofNat b.toNat)
  ⟨if words.contains s then .word s else .name s, line, s!"'{s}'"⟩

/-- A quoted text at the start of the bytes. -/
def text (quote : UInt8) (rest : List UInt8) (line : Nat) : Except Flaw (Lexeme × List UInt8) := do
  let (bytes, rest, line) ← quoted quote (rest.length + 1) rest line []
  return (⟨.text ⟨bytes.toArray⟩, line, shown (quote :: bytes ++ [quote])⟩, rest)

/-- A long text behind its opening bracket. -/
def longText (level : Nat) (rest : List UInt8) (line : Nat) :
    Except Flaw (Lexeme × List UInt8) := do
  let (bytes, rest, line) ← long "string" level rest line
  let equals := List.replicate level 0x3D
  let all := 0x5B :: equals ++ 0x5B :: bytes ++ 0x5D :: equals ++ [0x5D]
  return (⟨.text ⟨bytes.toArray⟩, line, shown all⟩, rest)

/-- The token at the start of the bytes, where none of them is white space or a comment. -/
def token (s : List UInt8) (b : UInt8) (rest : List UInt8) (line : Nat) :
    Except Flaw (Lexeme × List UInt8) :=
  if isLetter b then
    let (name, rest) := s.span isNameByte
    .ok (nameOrWord name line, rest)
  else if Numeral.isDigit b then numeral s line
  else if b == 0x22 || b == 0x27 then text b rest line
  else if b == 0x2E && (rest.head?.map Numeral.isDigit).getD false then numeral s line
  else if b == 0x5B && (rest.head? == some 0x3D || rest.head? == some 0x5B) then
    match longOpening? rest with
    | some (level, rest) => longText level rest line
    | none =>
      .error ⟨line, .badLongBracket, some (shown (0x5B :: rest.takeWhile (· == 0x3D)))⟩
  else .ok ((mark s line).getD (stray b line, rest))

/-- The bytes behind a comment, and the line there. -/
def comment (rest : List UInt8) (line : Nat) : Except Flaw (List UInt8 × Nat) :=
  match rest with
  | 0x5B :: inner =>
    match longOpening? inner with
    | some (level, body) => do
      let (_, rest, line) ← long "comment" level body line
      return (rest, line)
    | none => .ok (rest.dropWhile fun b => !isBreak b, line)
  | _ => .ok (rest.dropWhile fun b => !isBreak b, line)

/-- The tokens from a line on. The fuel is more than the number of bytes. -/
def tokens : Nat → List UInt8 → Nat → List Lexeme → Tokens
  | 0, _, line, acc => ⟨acc.reverse, .ok line⟩
  | fuel + 1, s, line, acc =>
    match s with
    | [] => ⟨acc.reverse, .ok line⟩
    | b :: rest =>
      if isBreak b then tokens fuel (afterBreak s) (line + 1) acc
      else if isBlank b then tokens fuel rest line acc
      else if b == 0x2D && rest.head? == some 0x2D then
        match comment (rest.drop 1) line with
        | .ok (rest, line) => tokens fuel rest line acc
        | .error flaw => ⟨acc.reverse, .error flaw⟩
      else match token s b rest line with
        | .ok (lexeme, rest) => tokens fuel rest lexeme.line (lexeme :: acc)
        | .error flaw => ⟨acc.reverse, .error flaw⟩

end Lexer

/-- All tokens of a text. -/
def Tokens.ofBytes (source : ByteArray) : Tokens :=
  Lexer.tokens (source.size + 1) source.toList 1 []

end Sandbox.Script
