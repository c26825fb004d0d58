import Sandbox.Yaml.Token

/-!
# Reading scalars, tags and directives

The lexical forms of YAML, each as a step of the scanner that leaves the text behind the form. Loops
that pass over lines take a bound; the number of characters that are left is always enough, since
every round passes over at least one of them.
-/

namespace Sandbox.Yaml.Scanner

/-- Fails with what was found ahead, in a context that began at `start`. -/
def failIn {α : Type} (context : Context) (start : Mark) (cause : Cause) : Scan α := do
  throw { cause, mark := (← get).mark, context := some (context, start) }

/-- Fails with what was found ahead. -/
def failHere {α : Type} (cause : Cause) : Scan α := do
  throw { cause, mark := (← get).mark }

/-- Passes over blanks. -/
def skipBlanks : Scan Unit := modify fun s => s.skipWhile isBlank

/-- Passes over a comment, if one begins ahead. -/
def skipComment : Scan Unit :=
  modify fun s => if s.sees '#' then s.skipWhile (!isBreak ·) else s

/-- Takes the characters that satisfy `p`. -/
def takeWhile (p : Char → Bool) : Scan (List Char) :=
  modifyGet fun s => (s.rest.takeWhile p, s.skipWhile p)

/-- The value of a digit in base sixteen. -/
def hexValue? (c : Char) : Option Nat :=
  if c.isDigit then some (c.toNat - 48)
  else if 'a' ≤ c ∧ c ≤ 'f' then some (c.toNat - 87)
  else if 'A' ≤ c ∧ c ≤ 'F' then some (c.toNat - 55)
  else none

/-- The number that some digits of base sixteen write. -/
def hexNumber? (cs : List Char) : Option Nat :=
  cs.foldlM (fun acc c => (hexValue? c).map (acc * 16 + ·)) 0

/-! ## Directives and tags -/

/-- Reads a part of a version number. -/
def versionNumber (start : Mark) : Scan Nat := do
  let digits ← takeWhile Char.isDigit
  if digits.length > 9 then
    modify fun s => { s with mark := { s.mark with
      index := s.mark.index + 9 - digits.length, column := s.mark.column + 9 - digits.length } }
    failIn .versionDirective start .longVersion
  if digits.isEmpty then failIn .versionDirective start .expectedVersion
  return digits.foldl (fun acc c => acc * 10 + (c.toNat - 48)) 0

/-- The octet that an escape such as `%20` writes ahead. -/
def escapedOctet (context : Context) (start : Mark) : Scan Nat := do
  let s ← get
  match s.rest with
  | '%' :: a :: b :: _ =>
    match hexValue? a, hexValue? b with
    | some a, some b =>
      set s.skip.skip.skip
      return a * 16 + b
    | _, _ => failIn context start .expectedUriEscape
  | _ => failIn context start .expectedUriEscape

/-- Reads the further octets of an escaped character. -/
def escapedOctets (context : Context) (start : Mark) (value : Nat) : Nat → Scan Nat
  | 0 => return value
  | n + 1 => do
    let before ← get
    let octet ← escapedOctet context start
    if octet / 64 ≠ 2 then
      set before
      failIn context start .badTrailingOctet
    escapedOctets context start (value * 64 + octet % 64) n

/-- Reads a character that is written as escaped octets. -/
def escapedChar (context : Context) (start : Mark) : Scan Char := do
  let before ← get
  let octet ← escapedOctet context start
  let (value, more) ←
    if octet < 0x80 then pure (octet, 0)
    else if octet / 32 = 6 then pure (octet % 32, 1)
    else if octet / 16 = 14 then pure (octet % 16, 2)
    else if octet / 8 = 30 then pure (octet % 8, 3)
    else do
      set before
      failIn context start .badLeadingOctet
  return Char.ofNat (← escapedOctets context start value more)

/-- The characters of a tag; within angle brackets the flow indicators belong to them too. -/
def isUriChar (verbatim : Bool) (c : Char) : Bool :=
  isWord c || ";/?:@&=+$.%!~*'()".toList.contains c || (verbatim && ",[]".toList.contains c)

/-- Reads the characters of a tag, at most `fuel` of them. -/
def uriChars (verbatim : Bool) (context : Context) (start : Mark) : Nat → Scan (List Char)
  | 0 => return []
  | fuel + 1 => do
    let s ← get
    match s.rest with
    | [] => return []
    | c :: _ =>
      if !isUriChar verbatim c then return []
      let c ← if c = '%' then escapedChar context start else do
        set s.skip
        pure c
      return c :: (← uriChars verbatim context start fuel)

/-- Reads a tag after what was read of it as a handle, whose leading mark is dropped. -/
def tagUri (verbatim directive : Bool) (head : List Char) (start : Mark) : Scan String := do
  let context := if directive then .tagDirectiveValue else .tagUri
  let more ← uriChars verbatim context start (← get).rest.length
  if head.isEmpty && more.isEmpty then failIn context start .expectedTagUri
  return String.ofList (head.drop 1 ++ more)

/-- Reads a handle such as `!`, `!!` or `!name!`. -/
def tagHandle (directive : Bool) (start : Mark) : Scan (List Char) := do
  if !(← get).sees '!' then
    failIn (if directive then .directive else .tag) start .expectedBang
  modify skip
  let name ← takeWhile isWord
  if (← get).sees '!' then
    modify skip
    return '!' :: name ++ ['!']
  if directive && !name.isEmpty then failIn .tagDirectiveHandle start .expectedBang
  return '!' :: name

/-- Reads the name and the values of a directive. -/
def directiveBody (start : Mark) : Scan TokenKind := do
  let name ← takeWhile isWord
  if name.isEmpty then failIn .directive start .expectedDirectiveName
  if !(← get).seesGap then failIn .directive start .unexpectedNonAlphabetical
  if String.ofList name = "YAML" then
    skipBlanks
    let major ← versionNumber start
    if !(← get).sees '.' then failIn .versionDirective start .expectedDigitOrDot
    modify skip
    return .version major (← versionNumber start)
  if String.ofList name = "TAG" then
    skipBlanks
    let handle ← tagHandle true start
    if !(← get).ahead 0 isBlank then failIn .tagDirective start .expectedBlank
    skipBlanks
    let pre ← tagUri true true [] start
    if !(← get).seesGap then failIn .tagDirective start .expectedBlankOrBreak
    return .tagDirective (String.ofList handle) pre
  failIn .directive start .unknownDirective

/-- Reads a directive up to the end of its line. -/
def directive : Scan Token := do
  let start := (← get).mark
  modify skip
  let kind ← directiveBody start
  let stop := (← get).mark
  skipBlanks
  skipComment
  if !(← get).seesBreakOrEnd then failIn .directive start .expectedCommentOrBreak
  modify skipBreak
  return ⟨kind, start, stop⟩

/-- Reads an anchor or an alias. -/
def anchorOrAlias (isAlias : Bool) : Scan Token := do
  let start := (← get).mark
  modify skip
  let name ← takeWhile isWord
  let s ← get
  if name.isEmpty || !(s.seesGap || s.ahead 0 ("?:,]\x7d%@`".toList.contains ·)) then
    failIn (if isAlias then .alias else .anchor) start .expectedName
  let name := String.ofList name
  return ⟨if isAlias then .alias name else .anchor name, start, s.mark⟩

/-- Reads a tag. -/
def tag : Scan Token := do
  let start := (← get).mark
  let (handle, suffix) ←
    if (← get).sees '<' 1 then do
      modify fun s => s.skip.skip
      let suffix ← tagUri true false [] start
      if !(← get).sees '>' then failIn .tag start .expectedTagEnd
      modify skip
      pure ("", suffix)
    else do
      let handle ← tagHandle false start
      if handle.length > 1 && handle.getLast? = some '!' then
        pure (String.ofList handle, ← tagUri false false [] start)
      else
        let suffix ← tagUri false false handle start
        -- a lone mark is a tag of its own
        pure (if suffix.isEmpty then ("", "!") else ("!", suffix))
  let s ← get
  if !(s.flowLevel > 0 && s.sees ',') && !s.seesGap then
    failIn .tag start .expectedBlankOrBreak
  return ⟨.tag handle suffix, start, s.mark⟩

/-! ## Block scalars -/

/-- What happens to the line breaks at the end of a block scalar. -/
inductive Chomping
  | strip | clip | keep
  deriving DecidableEq

/-- Reads a chomping indicator, if there is one. -/
def chomping : Scan (Option Chomping) := do
  let s ← get
  if s.sees '+' then
    set s.skip
    return some .keep
  if s.sees '-' then
    set s.skip
    return some .strip
  return none

/-- Reads an indentation indicator, if there is one. -/
def increment (start : Mark) : Scan (Option Nat) := do
  let s ← get
  match s.rest with
  | c :: _ =>
    if !c.isDigit then return none
    if c = '0' then failIn .blockScalar start .zeroIndentation
    set s.skip
    return some (c.toNat - 48)
  | [] => return none

/-- Passes over the indentation and the empty lines ahead. The answer holds their breaks, the place
behind them, and the column of the deepest of them. -/
def blockBreaks (indent : Nat) (start : Mark) : Nat → List Char → Mark → Nat →
    Scan (List Char × Mark × Nat)
  | 0, breaks, stop, deepest => return (breaks, stop, deepest)
  | fuel + 1, breaks, stop, deepest => do
    let s ← get
    let room := if indent = 0 then s.rest.length else indent - s.mark.column
    let spaces := min room (s.rest.takeWhile (· = ' ')).length
    let s : Scanner :=
      { s with
        rest := s.rest.drop spaces
        mark := { s.mark with
          index := s.mark.index + spaces, column := s.mark.column + spaces } }
    set s
    let deepest := max deepest s.mark.column
    if (indent = 0 || s.mark.column < indent) && s.sees '\t' then
      failIn .blockScalar start .tabInIndentation
    if !s.ahead 0 isBreak then return (breaks, stop, deepest)
    let next := s.skipBreak
    set next
    blockBreaks indent start fuel (breaks ++ s.breakText) next.mark deepest

/-- Passes over indentation and empty lines, and finds the indentation where it is not yet known. -/
def blockIndentation (indent : Nat) (start : Mark) : Scan (List Char × Mark × Nat) := do
  let s ← get
  let (breaks, stop, deepest) ← blockBreaks indent start (s.rest.length + 1) [] s.mark 0
  if indent ≠ 0 then return (breaks, stop, indent)
  return (breaks, stop, max (max deepest (s.indent + 1).toNat) 1)

/-- Reads the lines of a block scalar: its text, the break behind the last line, the breaks of the
empty lines after it, and the place where it ends. -/
def blockLines (literal : Bool) (indent : Nat) (start : Mark) :
    Nat → List Char → List Char → List Char → Bool → Mark →
      Scan (List Char × List Char × List Char × Mark)
  | 0, text, lead, trail, _, stop => return (text, lead, trail, stop)
  | fuel + 1, text, lead, trail, leadBlank, stop => do
    let s ← get
    if s.mark.column ≠ indent || s.atEnd then return (text, lead, trail, stop)
    let blank := s.ahead 0 isBlank
    let folds := !literal && lead.head? = some '\n' && !leadBlank && !blank
    let glue := if folds then (if trail.isEmpty then [' '] else []) else lead
    let line ← takeWhile (!isBreak ·)
    let atBreak ← get
    set atBreak.skipBreak
    let (trail', stop, _) ← blockIndentation indent start
    blockLines literal indent start fuel (text ++ glue ++ trail ++ line) atBreak.breakText trail'
      blank stop

/-- Reads a block scalar, literal or folded. -/
def blockScalar (literal : Bool) : Scan Token := do
  let s ← get
  let start := s.mark
  modify skip
  let chomp ← chomping
  let width ← increment start
  let chomp ← if chomp.isSome then pure chomp else if width.isSome then chomping else pure none
  skipBlanks
  skipComment
  if !(← get).seesBreakOrEnd then failIn .blockScalar start .expectedCommentOrBreak
  modify skipBreak
  let indent := match width with
    | some n => if s.indent ≥ 0 then s.indent.toNat + n else n
    | none => 0
  let (trail, stop, indent) ← blockIndentation indent start
  let (text, lead, trail, stop) ←
    blockLines literal indent start ((← get).rest.length + 1) [] [] trail false stop
  let value := match chomp.getD .clip with
    | .strip => text
    | .clip => text ++ lead
    | .keep => text ++ lead ++ trail
  return ⟨.scalar (String.ofList value) (if literal then .literal else .folded), start, stop⟩

/-! ## Quoted scalars -/

/-- What an escape of one letter stands for. -/
def escapeLetter? : Char → Option Char
  | '0' => some '\x00'
  | 'a' => some '\x07'
  | 'b' => some '\x08'
  | 't' | '\t' => some '\t'
  | 'n' => some '\n'
  | 'v' => some '\x0b'
  | 'f' => some '\x0c'
  | 'r' => some '\r'
  | 'e' => some '\x1b'
  | ' ' => some ' '
  | '"' => some '"'
  | '/' => some '/'
  | '\\' => some '\\'
  | 'N' => some '\x85'
  | '_' => some '\xa0'
  | 'L' => some '\u2028'
  | 'P' => some '\u2029'
  | _ => none

/-- The number of digits behind a letter that announces a code point. -/
def escapeWidth? : Char → Option Nat
  | 'x' => some 2
  | 'u' => some 4
  | 'U' => some 8
  | _ => none

/-- Reads an escape of a double-quoted scalar. -/
def escape (start : Mark) : Scan Char := do
  let s ← get
  match s.rest with
  | _ :: letter :: _ =>
    match escapeLetter? letter, escapeWidth? letter with
    | some c, _ =>
      set s.skip.skip
      return c
    | none, some width =>
      let s := s.skip.skip
      set s
      match hexNumber? (s.rest.take width) with
      | some n =>
        if s.rest.length < width then failIn .quotedEscape start .expectedHex
        if (0xD800 ≤ n && n ≤ 0xDFFF) || n > 0x10FFFF then
          failIn .quotedEscape start .invalidCodePoint
        set (width.repeat skip s)
        return Char.ofNat n
      | none => failIn .quotedEscape start .expectedHex
    | none, none => failIn .quotedEscape start .unknownEscape
  | _ => failIn .quotedEscape start .unknownEscape

/-- Reads characters of a quoted scalar up to a gap or its quote, the last first. The answer also
tells whether an escaped line break was passed. -/
def quotedRun (single : Bool) (start : Mark) : Nat → List Char → Scan (List Char × Bool)
  | 0, acc => return (acc, false)
  | fuel + 1, acc => do
    let s ← get
    if s.seesGap then return (acc, false)
    if single && s.sees '\'' && s.sees '\'' 1 then
      set s.skip.skip
      quotedRun single start fuel ('\'' :: acc)
    else if s.sees (if single then '\'' else '"') then return (acc, false)
    else if !single && s.sees '\\' && s.ahead 1 isBreak then
      set s.skip.skipBreak
      return (acc, true)
    else if !single && s.sees '\\' then
      let c ← escape start
      quotedRun single start fuel (c :: acc)
    else
      set s.skip
      quotedRun single start fuel (s.rest.take 1 ++ acc)

/-- The blanks and line breaks between two runs of a flow scalar. -/
structure Gap where
  blanks : List Char := []
  /-- A line break was passed. -/
  broken : Bool := false
  /-- The first line break. -/
  lead : List Char := []
  /-- The other line breaks. -/
  trail : List Char := []

/-- What a gap contributes to the text: a single line break becomes a space. -/
def Gap.text (g : Gap) : List Char :=
  if g.broken then
    if g.lead.head? = some '\n' then (if g.trail.isEmpty then [' '] else g.trail)
    else g.lead ++ g.trail
  else g.blanks

/-- Passes over blanks and line breaks. In a plain scalar a tab may not stand for indentation. -/
def gap (tabLimit : Option (Int × Mark)) : Nat → Gap → Scan Gap
  | 0, g => return g
  | fuel + 1, g => do
    let s ← get
    match s.rest with
    | [] => return g
    | c :: _ =>
      if isBlank c then
        if let some (indent, start) := tabLimit then
          if g.broken && (s.mark.column : Int) < indent && c = '\t' then
            failIn .plainScalar start .tabViolatesIndentation
        set s.skip
        gap tabLimit fuel (if g.broken then g else { g with blanks := g.blanks ++ [c] })
      else if isBreak c then
        set s.skipBreak
        gap tabLimit fuel
          (if g.broken then { g with trail := g.trail ++ s.breakText }
            else { g with blanks := [], lead := s.breakText, broken := true })
      else return g

/-- Reads the runs of a quoted scalar, the last character first. -/
def quotedLines (single : Bool) (start : Mark) : Nat → List Char → Scan (List Char)
  | 0, acc => return acc
  | fuel + 1, acc => do
    let s ← get
    if s.seesDocumentMarker '-' || s.seesDocumentMarker '.' then
      failIn .quotedScalar start .documentIndicator
    if s.atEnd then failIn .quotedScalar start .endOfStream
    let (acc, joined) ← quotedRun single start (s.rest.length + 1) acc
    let s ← get
    if s.sees (if single then '\'' else '"') then return acc
    let g ← gap none (s.rest.length + 1) { broken := joined }
    quotedLines single start fuel (g.text.reverse ++ acc)

/-- Reads a quoted scalar. -/
def quotedScalar (single : Bool) : Scan Token := do
  let start := (← get).mark
  modify skip
  let text ← quotedLines single start ((← get).rest.length + 1) []
  modify skip
  return ⟨.scalar (String.ofList text.reverse) (if single then .singleQuoted else .doubleQuoted),
    start, (← get).mark⟩

/-! ## Plain scalars -/

/-- Reads the characters of a plain scalar up to a gap or an indicator, the last first, after what
the gap before them contributes. The answer also holds the place behind the last of them. -/
def plainRun (start : Mark) : Nat → List Char → List Char → Mark → Scan (List Char × List Char × Mark)
  | 0, acc, pending, stop => return (acc, pending, stop)
  | fuel + 1, acc, pending, stop => do
    let s ← get
    if s.seesGap then return (acc, pending, stop)
    if s.flowLevel > 0 && s.sees ':' && s.ahead 1 (",?[]\x7b\x7d".toList.contains ·) then
      failIn .plainScalar start .unexpectedColon
    if (s.sees ':' && s.seesGap 1) ||
        (s.flowLevel > 0 && s.ahead 0 (",[]\x7b\x7d".toList.contains ·)) then
      return (acc, pending, stop)
    let next := s.skip
    set next
    plainRun start fuel (s.rest.take 1 ++ (pending.reverse ++ acc)) [] next.mark

/-- Reads the runs of a plain scalar, the last character first, and whether it ended behind a line
break. -/
def plainLines (indent : Int) (start : Mark) :
    Nat → List Char → List Char → Bool → Mark → Scan (List Char × Bool × Mark)
  | 0, acc, _, broken, stop => return (acc, broken, stop)
  | fuel + 1, acc, pending, broken, stop => do
    let s ← get
    if s.seesDocumentMarker '-' || s.seesDocumentMarker '.' || s.sees '#' then
      return (acc, broken, stop)
    let before := s.rest.length
    let (acc, pending, stop) ← plainRun start (before + 1) acc pending stop
    let s ← get
    -- a run of at least one character ends the effect of an earlier line break
    let broken := broken && s.rest.length = before
    if !s.ahead 0 (fun c => isBlank c || isBreak c) then return (acc, broken, stop)
    let g ← gap (some (indent, start)) (s.rest.length + 1) { broken }
    let s ← get
    if s.flowLevel = 0 && (s.mark.column : Int) < indent then return (acc, g.broken, stop)
    plainLines indent start fuel acc (pending ++ g.text) g.broken stop

/-- Reads a plain scalar. A key may begin behind it if it ended behind a line break. -/
def plainScalar : Scan Token := do
  let s ← get
  let (text, broken, stop) ←
    plainLines (s.indent + 1) s.mark (s.rest.length + 1) [] [] false s.mark
  if broken then modify fun s => { s with keyAllowed := true }
  return ⟨.scalar (String.ofList text.reverse) .plain, s.mark, stop⟩

end Sandbox.Yaml.Scanner
