import Sandbox.Yaml.Problem

/-!
# Tokens of a YAML text

Where a mapping in block style begins is known only once its first `:` has been seen, so a token can
be put in front of tokens that were read before it. The scanner therefore keeps a queue, and a place
where a key may have begun for each level of nesting.
-/

namespace Sandbox.Yaml

/-- How a scalar was written. -/
inductive ScalarStyle
  | plain | singleQuoted | doubleQuoted | literal | folded
  deriving DecidableEq, Repr

/-- The kinds of tokens. -/
inductive TokenKind
  | streamStart | streamEnd
  | version (major minor : Nat)
  | tagDirective (handle pre : String)
  | documentStart | documentEnd
  | blockSequenceStart | blockMappingStart | blockEnd
  | flowSequenceStart | flowSequenceEnd | flowMappingStart | flowMappingEnd
  | blockEntry | flowEntry | key | value
  | alias (name : String)
  | anchor (name : String)
  | tag (handle suffix : String)
  | scalar (value : String) (style : ScalarStyle)
  deriving DecidableEq, Repr

/-- A token and the places where it begins and ends. -/
structure Token where
  kind : TokenKind
  start : Mark
  stop : Mark
  deriving Repr

/-- A place where a key may have begun. -/
structure KeyPlace where
  possible : Bool := false
  /-- The key must be there, because nothing else can stand at its column. -/
  required : Bool := false
  /-- The number of the token that would be the key. -/
  number : Nat := 0
  mark : Mark := {}
  deriving Repr

/-- The state of the scanner. -/
structure Scanner where
  /-- The characters that are left. -/
  rest : List Char
  mark : Mark := {}
  flowLevel : Nat := 0
  indent : Int := -1
  indents : List Int := []
  /-- One place for each level of flow nesting, the innermost first. -/
  keys : List KeyPlace := []
  keyAllowed : Bool := false
  started : Bool := false
  queue : List Token := []
  /-- The number of tokens that have left the queue. -/
  taken : Nat := 0

/-- A step of the scanner. -/
abbrev Scan := StateT Scanner (Except Problem)

namespace Scanner

/-- A space or a tab. -/
def isBlank (c : Char) : Bool := c = ' ' || c = '\t'

/-- The characters that end a line. -/
def isBreak (c : Char) : Bool :=
  c = '\r' || c = '\n' || c = '\x85' || c = '\u2028' || c = '\u2029'

/-- A letter, a digit, an underscore or a hyphen of ASCII. -/
def isWord (c : Char) : Bool := c.isAlphanum || c = '_' || c = '-'

/-- The character `n` places ahead, if there is one and it satisfies `p`. -/
def ahead (s : Scanner) (n : Nat) (p : Char → Bool) : Bool :=
  match s.rest[n]? with
  | some c => p c
  | none => false

/-- The character `n` places ahead is `c`. -/
def sees (s : Scanner) (c : Char) (n : Nat := 0) : Bool := s.ahead n (· == c)

/-- The end of the text or a line break is `n` places ahead. -/
def seesBreakOrEnd (s : Scanner) (n : Nat := 0) : Bool :=
  match s.rest[n]? with
  | some c => isBreak c
  | none => true

/-- The end of the text, a line break or a blank is `n` places ahead. -/
def seesGap (s : Scanner) (n : Nat := 0) : Bool :=
  match s.rest[n]? with
  | some c => isBlank c || isBreak c
  | none => true

/-- The text is at its end. -/
def atEnd (s : Scanner) : Bool := s.rest.isEmpty

/-- A document marker, `---` or `...`, stands at the start of the line. -/
def seesDocumentMarker (s : Scanner) (c : Char) : Bool :=
  s.mark.column == 0 && s.sees c && s.sees c 1 && s.sees c 2 && s.seesGap 3

/-- Passes over one character of a line. -/
def skip (s : Scanner) : Scanner :=
  match s.rest with
  | [] => s
  | _ :: rest =>
    { s with
      rest := rest
      mark := { s.mark with index := s.mark.index + 1, column := s.mark.column + 1 } }

/-- Passes over a line break, if there is one. -/
def skipBreak (s : Scanner) : Scanner :=
  match s.rest with
  | '\r' :: '\n' :: rest =>
    { s with rest := rest, mark := ⟨s.mark.index + 2, s.mark.line + 1, 0⟩ }
  | c :: rest =>
    if isBreak c then { s with rest := rest, mark := ⟨s.mark.index + 1, s.mark.line + 1, 0⟩ }
    else s
  | [] => s

/-- What the line break ahead contributes to a scalar. -/
def breakText (s : Scanner) : List Char :=
  match s.rest with
  | c :: _ => if c = '\u2028' || c = '\u2029' then [c] else if isBreak c then ['\n'] else []
  | [] => []

/-- Passes over the characters of the line that satisfy `p`. -/
def skipWhile (s : Scanner) (p : Char → Bool) : Scanner :=
  let passed := (s.rest.takeWhile p).length
  { s with
    rest := s.rest.drop passed
    mark := { s.mark with index := s.mark.index + passed, column := s.mark.column + passed } }

end Scanner
end Sandbox.Yaml
