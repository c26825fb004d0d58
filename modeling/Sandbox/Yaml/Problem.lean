/-!
# What can be wrong with a YAML text

A `Problem` has a cause and the place where it was noticed, and may name the construct that was
being read and the place where that began. Places are counted in characters; a place at the very
start of the text is not mentioned in messages.
-/

namespace Sandbox.Yaml

/-- A place in a text: characters before it, and its line and column, all counted from zero. -/
structure Mark where
  index : Nat := 0
  line : Nat := 0
  column : Nat := 0
  deriving DecidableEq, Repr, Inhabited

namespace Mark

/-- The place is the start of a text. -/
def isStart (m : Mark) : Bool := m.line == 0 && m.column == 0

/-- The wording of a place that is not the start. -/
def message (m : Mark) : String := s!"line {m.line + 1} column {m.column + 1}"

/-- Two places have the same line and column. -/
def sameSpot (m n : Mark) : Bool := m.line == n.line && m.column == n.column

end Mark

/-- What was found or missed. -/
inductive Cause
  | controlCharacter
  | expectedColon | blockEntryNotAllowed | keyNotAllowed | valueNotAllowed | noToken
  | unknownDirective | expectedDirectiveName | unexpectedNonAlphabetical | expectedCommentOrBreak
  | expectedDigitOrDot | longVersion | expectedVersion
  | expectedBlank | expectedBlankOrBreak | expectedBang | expectedTagUri | expectedTagEnd
  | expectedUriEscape | badLeadingOctet | badTrailingOctet
  | expectedName
  | zeroIndentation | tabInIndentation | tabViolatesIndentation
  | documentIndicator | endOfStream | unknownEscape | expectedHex | invalidCodePoint
  | unexpectedColon
  | expectedDocumentStart | duplicateVersion | incompatibleVersion | duplicateTagDirective
  | undefinedTagHandle | expectedNodeContent | expectedDash | expectedKey
  | expectedSequenceCommaOrEnd | expectedMappingCommaOrEnd
  deriving DecidableEq, Repr

/-- The wording of a cause. -/
def Cause.message : Cause → String
  | .controlCharacter => "control characters are not allowed"
  | .expectedColon => "could not find expected ':'"
  | .blockEntryNotAllowed => "block sequence entries are not allowed in this context"
  | .keyNotAllowed => "mapping keys are not allowed in this context"
  | .valueNotAllowed => "mapping values are not allowed in this context"
  | .noToken => "found character that cannot start any token"
  | .unknownDirective => "found unknown directive name"
  | .expectedDirectiveName => "could not find expected directive name"
  | .unexpectedNonAlphabetical => "found unexpected non-alphabetical character"
  | .expectedCommentOrBreak => "did not find expected comment or line break"
  | .expectedDigitOrDot => "did not find expected digit or '.' character"
  | .longVersion => "found extremely long version number"
  | .expectedVersion => "did not find expected version number"
  | .expectedBlank => "did not find expected whitespace"
  | .expectedBlankOrBreak => "did not find expected whitespace or line break"
  | .expectedBang => "did not find expected '!'"
  | .expectedTagUri => "did not find expected tag URI"
  | .expectedTagEnd => "did not find the expected '>'"
  | .expectedUriEscape => "did not find URI escaped octet"
  | .badLeadingOctet => "found an incorrect leading UTF-8 octet"
  | .badTrailingOctet => "found an incorrect trailing UTF-8 octet"
  | .expectedName => "did not find expected alphabetic or numeric character"
  | .zeroIndentation => "found an indentation indicator equal to 0"
  | .tabInIndentation => "found a tab character where an indentation space is expected"
  | .tabViolatesIndentation => "found a tab character that violates indentation"
  | .documentIndicator => "found unexpected document indicator"
  | .endOfStream => "found unexpected end of stream"
  | .unknownEscape => "found unknown escape character"
  | .expectedHex => "did not find expected hexdecimal number"
  | .invalidCodePoint => "found invalid Unicode character escape code"
  | .unexpectedColon => "found unexpected ':'"
  | .expectedDocumentStart => "did not find expected <document start>"
  | .duplicateVersion => "found duplicate %YAML directive"
  | .incompatibleVersion => "found incompatible YAML document"
  | .duplicateTagDirective => "found duplicate %TAG directive"
  | .undefinedTagHandle => "found undefined tag handle"
  | .expectedNodeContent => "did not find expected node content"
  | .expectedDash => "did not find expected '-' indicator"
  | .expectedKey => "did not find expected key"
  | .expectedSequenceCommaOrEnd => "did not find expected ',' or ']'"
  | .expectedMappingCommaOrEnd => "did not find expected ',' or '\x7d'"

/-- What was being read. -/
inductive Context
  | simpleKey | nextToken | directive | versionDirective | tagDirective | tagDirectiveHandle
  | tagDirectiveValue | anchor | alias | tag | tagUri | blockScalar | quotedScalar | quotedEscape
  | plainScalar | node | blockNode | flowNode | blockCollection | blockMapping | flowSequence
  | flowMapping
  deriving DecidableEq, Repr

/-- The wording of a context. -/
def Context.message : Context → String
  | .simpleKey => "while scanning a simple key"
  | .nextToken => "while scanning for the next token"
  | .directive => "while scanning a directive"
  | .versionDirective => "while scanning a %YAML directive"
  | .tagDirective => "while scanning a %TAG directive"
  | .tagDirectiveHandle => "while parsing a tag directive"
  | .tagDirectiveValue => "while parsing a %TAG directive"
  | .anchor => "while scanning an anchor"
  | .alias => "while scanning an alias"
  | .tag => "while scanning a tag"
  | .tagUri => "while parsing a tag"
  | .blockScalar => "while scanning a block scalar"
  | .quotedScalar => "while scanning a quoted scalar"
  | .quotedEscape => "while parsing a quoted scalar"
  | .plainScalar => "while scanning a plain scalar"
  | .node => "while parsing a node"
  | .blockNode => "while parsing a block node"
  | .flowNode => "while parsing a flow node"
  | .blockCollection => "while parsing a block collection"
  | .blockMapping => "while parsing a block mapping"
  | .flowSequence => "while parsing a flow sequence"
  | .flowMapping => "while parsing a flow mapping"

/-- Why a text has no event structure. -/
structure Problem where
  cause : Cause
  /-- Where it was noticed. -/
  mark : Mark := {}
  /-- For a character that is not allowed, the bytes before it. -/
  offset : Nat := 0
  /-- What was being read and where that began. -/
  context : Option (Context × Mark) := none
  deriving DecidableEq, Repr

/-- The wording of a problem. -/
def Problem.message (p : Problem) : String :=
  let place :=
    if !p.mark.isStart then " at " ++ p.mark.message
    else if p.offset ≠ 0 then s!" at position {p.offset}"
    else ""
  let context := match p.context with
    | none => ""
    | some (c, m) =>
      let start := if !m.isStart && !m.sameSpot p.mark then " at " ++ m.message else ""
      ", " ++ c.message ++ start
  p.cause.message ++ place ++ context

end Sandbox.Yaml
