import Sandbox.Yaml.Scalar
import Sandbox.Yaml.Token

/-!
# YAML text of a node

Block style, two columns for each level. A sequence that is the value of a key stands at the column
of the key; empty collections are written in flow style. A text is plain where it reads back as the
same text, and else it takes the first style that can hold it: lines in literal style, single
quotes, and double quotes with escapes.
-/

namespace Sandbox.Yaml

/-- How a scalar is to be written. -/
structure Presentation where
  text : String
  /-- The style asked for; it is used where the text and its place admit it. -/
  style : ScalarStyle

/-- Numbers are positional from five zeros after the point up to sixteen digits before it, and an
integral value keeps `.0`. -/
def numberLayout : Decimal.Layout :=
  { positional := fun e => -5 ≤ e && e ≤ 15, keepsPoint := true,
    infinity := ".inf", notANumber := ".nan" }

/-- The text of a number. -/
def number (x : Binary64) : String := numberLayout.render Decimal.shortest x

/-- A text that would be read as something else is quoted, and one with line breaks takes lines. -/
def textStyle (s : String) : ScalarStyle :=
  if s.contains '\n' then .literal
  else match Scalar.resolve s with
    | .text => if Scalar.hasLeadingZero s.toList then .singleQuoted else .plain

    | _ => .singleQuoted

namespace Presentation

/-- What a text admits. -/
structure Traits where
  multiline : Bool := false
  plainInFlow : Bool := true
  plainInBlock : Bool := true
  singleQuoted : Bool := true
  block : Bool := true

/-- The characters that end a line. -/
def isBreak (c : Char) : Bool :=
  c = '\r' || c = '\n' || c = '\x85' || c = '\u2028' || c = '\u2029'

/-- The characters that can be written as they are. -/
def isPrintable (c : Char) : Bool :=
  let n := c.toNat
  n == 0x0A || (0x20 ≤ n && n ≤ 0x7E) || (0xA0 ≤ n && n ≤ 0xD7FF) ||
    (0xE000 ≤ n && n ≤ 0xFFFD && n != 0xFEFF) || 0x10000 ≤ n

/-- A space, a tab, a line break or the end of the text. -/
def isGap : Option Char → Bool
  | some c => c = ' ' || c = '\t' || c = '\x00' || isBreak c
  | none => true

/-- The character would be an indicator, in flow style and in block style; `before` and `after` are
its neighbours. -/
def isIndicator (first : Bool) (before after : Option Char) (c : Char) : Bool × Bool :=
  if first then
    if "#,[]\x7b\x7d&*!|>'\"%@`".toList.contains c then (true, true)
    else if c = '?' || c = ':' then (true, isGap after)
    else if c = '-' && isGap after then (true, true)
    else (false, false)
  else if ",?[]\x7b\x7d".toList.contains c then (true, false)
  else if c = ':' then (true, isGap after)
  else if c = '#' && isGap before then (true, true)
  else (false, false)

/-- The indicators of a text, in flow style and in block style. -/
def indicators : Bool → Option Char → List Char → Bool × Bool
  | _, _, [] => (false, false)
  | first, before, c :: rest =>
    let here := isIndicator first before rest.head? c
    let later := indicators false (some c) rest
    (here.1 || later.1, here.2 || later.2)

/-- Some character satisfies `p` and the one behind it satisfies `q`. -/
def hasPair (p q : Char → Bool) : List Char → Bool
  | c :: d :: rest => (p c && q d) || hasPair p q (d :: rest)
  | _ => false

/-- What a text admits. -/
def traits (s : List Char) : Traits :=
  if s.isEmpty then { plainInFlow := false, block := false }
  else
    let marker := "---".toList.isPrefixOf s || "...".toList.isPrefixOf s
    let (flow, block) := indicators true none s
    let isSpace := fun c => c = ' '
    let edge := fun p => s.head?.any p || s.getLast?.any p
    let special := s.any (!isPrintable ·)
    let spaceBreak := hasPair isSpace isBreak s
    let breakSpace := hasPair isBreak isSpace s
    let multiline := s.any isBreak
    let blank := edge isSpace || edge isBreak || breakSpace || spaceBreak || special || multiline
    { multiline
      plainInFlow := !(blank || flow || marker)
      plainInBlock := !(blank || block || marker)
      singleQuoted := !(breakSpace || spaceBreak || special)
      block := !(s.getLast?.any isSpace || spaceBreak || special) }

/-- The style that is used where the text stands; `key` is a key on the line of its value. -/
def chosenStyle (p : Presentation) (t : Traits) (key : Bool) : ScalarStyle :=
  let style := if key && t.multiline then .doubleQuoted else p.style
  let style :=
    if style = .plain && (!t.plainInBlock || (p.text.isEmpty && key)) then .singleQuoted else style
  if style = .singleQuoted && !t.singleQuoted then .doubleQuoted
  else if style = .literal && (!t.block || key) then .doubleQuoted
  else style

end Presentation

/-- The text written so far and what the next item has to know of it. -/
structure Page where
  /-- The characters written, the last first. -/
  written : List Char := []
  column : Nat := 0
  /-- The last thing written counts as white space. -/
  afterBlank : Bool := true
  /-- The line holds nothing but indentation and indicators. -/
  atIndent : Bool := true

namespace Page

/-- Writes a character of a line. -/
def put (p : Page) (c : Char) : Page :=
  { p with written := c :: p.written, column := p.column + 1 }

/-- Writes characters of a line. -/
def putAll (p : Page) (cs : List Char) : Page := cs.foldl put p

/-- Ends the line. -/
def newline (p : Page) : Page := { p with written := '\n' :: p.written, column := 0 }

/-- Writes a line break of a scalar. -/
def putBreak (p : Page) (c : Char) : Page := { p with written := c :: p.written, column := 0 }

/-- Moves to the indentation, on a new line where this one is in use. -/
def indent (p : Page) (width : Nat) : Page :=
  let p :=
    if !p.atIndent || p.column > width || (p.column = width && !p.afterBlank) then p.newline else p
  { p.putAll (List.replicate (width - p.column) ' ') with afterBlank := true, atIndent := true }

/-- Writes an indicator. -/
def indicator (p : Page) (text : String) (spaced : Bool) (blank : Bool := false)
    (keepsIndent : Bool := false) : Page :=
  let p := if spaced && !p.afterBlank then p.put ' ' else p
  { p.putAll text.toList with afterBlank := blank, atIndent := p.atIndent && keepsIndent }

/-- The characters of a text in plain style or in single quotes; a line break takes the place of a
space, so it is written twice. -/
def folded (width : Nat) (quote : Bool) : Page → Bool → List Char → Page × Bool
  | p, broken, [] => (p, broken)
  | p, broken, c :: rest =>
    if Presentation.isBreak c then
      let p := if !broken && c = '\n' then p.newline else p
      folded width quote { p.putBreak c with atIndent := true } true rest
    else if c = ' ' then folded width quote (p.put c) broken rest
    else
      let p := if broken then p.indent width else p
      let p := if quote && c = '\'' then p.put c else p
      folded width quote { p.put c with atIndent := false } false rest

/-- Writes a text in plain style. -/
def plain (p : Page) (width : Nat) (s : List Char) : Page :=
  let p := if !p.afterBlank && !s.isEmpty then p.put ' ' else p
  { (folded width false p false s).1 with afterBlank := false, atIndent := false }

/-- Writes a text in single quotes. -/
def singleQuoted (p : Page) (width : Nat) (s : List Char) : Page :=
  let (p, broken) := folded width true (p.indicator "'" true) false s
  let p := if broken then p.indent width else p
  { p.indicator "'" false with afterBlank := false, atIndent := false }

/-- The digits of a number in base sixteen, upper case. -/
def hex (width n : Nat) : List Char :=
  let digits := (Nat.toDigits 16 n).map Char.toUpper
  List.replicate (width - digits.length) '0' ++ digits

/-- A character in double quotes. -/
def escape (c : Char) : List Char :=
  if Presentation.isPrintable c && !Presentation.isBreak c && c ≠ '"' && c ≠ '\\' then [c]
  else '\\' ::
    match c with
    | '\x00' => ['0']
    | '\x07' => ['a']
    | '\x08' => ['b']
    | '\t' => ['t']
    | '\n' => ['n']
    | '\x0b' => ['v']
    | '\x0c' => ['f']
    | '\r' => ['r']
    | '\x1b' => ['e']
    | '"' => ['"']
    | '\\' => ['\\']
    | '\x85' => ['N']
    | '\xa0' => ['_']
    | '\u2028' => ['L']
    | '\u2029' => ['P']
    | c =>
      if c.toNat ≤ 0xFF then 'x' :: hex 2 c.toNat
      else if c.toNat ≤ 0xFFFF then 'u' :: hex 4 c.toNat
      else 'U' :: hex 8 c.toNat

/-- Writes a text in double quotes. -/
def doubleQuoted (p : Page) (s : List Char) : Page :=
  let p := (p.indicator "\"" true).putAll (s.flatMap escape)
  { p.indicator "\"" false with afterBlank := false, atIndent := false }

/-- The lines of a text in literal style. -/
def lines (width : Nat) : Page → Bool → List Char → Page
  | p, _, [] => p
  | p, broken, c :: rest =>
    if Presentation.isBreak c then
      let p := if c = '\n' then p.newline else p.putBreak c
      lines width { p with atIndent := true } true rest
    else
      let p := if broken then p.indent width else p
      lines width { p.put c with atIndent := false } false rest

/-- What is said of the last line breaks of a text in literal style. -/
def chomping (s : List Char) : String :=
  match s.reverse with
  | [] => "-"
  | [c] => if Presentation.isBreak c then "+" else "-"
  | c :: d :: _ =>
    if !Presentation.isBreak c then "-" else if Presentation.isBreak d then "+" else ""

/-- Writes a text in literal style. -/
def literal (p : Page) (width : Nat) (s : List Char) : Page :=
  let p := p.indicator "|" true
  let p :=
    if s.head?.any (fun c => c = ' ' || Presentation.isBreak c) then p.indicator "2" false else p
  let p := p.putAll (chomping s).toList
  lines width { p.newline with atIndent := true, afterBlank := true } true s

/-- Writes a scalar; `width` is the indentation of its lines. -/
def scalar (p : Page) (width : Nat) (key : Bool) (s : Presentation) : Page :=
  let cs := s.text.toList
  match s.chosenStyle (Presentation.traits cs) key with
  | .plain => p.plain width cs
  | .singleQuoted => p.singleQuoted width cs
  | .doubleQuoted => p.doubleQuoted cs
  | .literal | .folded => p.literal width cs

/-- Writes an empty collection. -/
def emptyCollection (p : Page) (opening closing : String) : Page :=
  (p.indicator opening true true).indicator closing false

/-- The characters of a tag that need no escape. -/
def isTagChar (c : Char) : Bool :=
  c.isAlphanum || "-;/?:@&=+$,_.~*'()[]".toList.contains c

/-- Writes a tag. -/
def tag (p : Page) (name : String) : Page :=
  let octets := fun c : Char =>
    (String.singleton c).toUTF8.toList.flatMap fun b => '%' :: hex 2 b.toNat
  let name := if name.startsWith "!" then (name.drop 1).toString else name
  let text := name.toList.flatMap fun c => if isTagChar c then [c] else octets c
  (p.indicator "!" true).putAll text

end Page

namespace Node

/-- The scalar that a node without items is written as. -/
def presentation? : Node → Option Presentation
  | .null => some ⟨"null", .plain⟩
  | .bool b => some ⟨if b then "true" else "false", .plain⟩
  | .int n => some ⟨toString n, .plain⟩
  | .float x => some ⟨number x, .plain⟩
  | .text s => some ⟨s, textStyle s⟩
  | _ => none

/-- The longest key that stands on the line of its value, in octets. -/
def keyLength : Nat := 128

/-- A node can be a key on the line of its value. -/
def isSimpleKey : Node → Bool
  | .sequence items => items.isEmpty
  | .mapping entries => entries.isEmpty
  | .tagged tag value => match value.presentation? with
    | some p => !p.text.toList.any Presentation.isBreak && tag.utf8ByteSize + p.text.utf8ByteSize ≤ keyLength
    | none => match value with
      | .sequence items => items.isEmpty
      | .mapping entries => entries.isEmpty
      | _ => false
  | v => match v.presentation? with
    | some p => !p.text.toList.any Presentation.isBreak && p.text.utf8ByteSize ≤ keyLength
    | none => false

/-- The indentation one level deeper; the outermost level is at the margin. -/
def deeper (level : Option Nat) : Nat :=
  match level with
  | some n => n + 2
  | none => 0

/-- The indentation of the lines of a scalar. -/
def scalarWidth (level : Option Nat) : Nat :=
  match level with
  | some n => n + 2
  | none => 2

mutual
/-- Writes a node within a collection at the indentation `level`. A node of a mapping that is a
sequence stays at that level where it does not begin a line. -/
def write (level : Option Nat) (inMapping key : Bool) (p : Page) : Node → Page
  | .null => p.scalar (scalarWidth level) key ⟨"null", .plain⟩
  | .bool b => p.scalar (scalarWidth level) key ⟨if b then "true" else "false", .plain⟩
  | .int n => p.scalar (scalarWidth level) key ⟨toString n, .plain⟩
  | .float x => p.scalar (scalarWidth level) key ⟨number x, .plain⟩
  | .text s => p.scalar (scalarWidth level) key ⟨s, textStyle s⟩
  | .sequence [] => p.emptyCollection "[" "]"
  | .sequence items =>
    let width := if inMapping && !p.atIndent then level.getD 0 else deeper level
    writeItems width p items
  | .mapping [] => p.emptyCollection "\x7b" "\x7d"
  | .mapping entries => writeEntries (deeper level) p entries
  | .tagged tag value => write level inMapping key (p.tag tag) value

/-- Writes the items of a sequence. -/
def writeItems (width : Nat) (p : Page) : List Node → Page
  | [] => p
  | v :: rest =>
    let p := (p.indent width).indicator "-" true false true
    writeItems width (write (some width) false false p v) rest

/-- Writes the entries of a mapping. -/
def writeEntries (width : Nat) (p : Page) : List (Node × Node) → Page
  | [] => p
  | (k, v) :: rest =>
    let p := p.indent width
    let p :=
      if k.isSimpleKey then (write (some width) true true p k).indicator ":" false
      else
        let p := write (some width) true false (p.indicator "?" true false true) k
        (p.indent width).indicator ":" true false true
    writeEntries width (write (some width) true false p v) rest
end

/-- The YAML text of a node. -/
def render (n : Node) : String :=
  String.ofList ((n.write none false false {}).indent 0).written.reverse

end Node

mutual
/-- The node of a plain value. -/
def nodeOf : Datum → Node
  | .null => .null
  | .bool b => .bool b
  | .int n => .int n.toInt
  | .float x => .float x
  | .text s => .text s
  | .foreign type => .text ("<" ++ type ++ ">")
  | .list items => .sequence (nodesOf items)
  | .record fields => .mapping (entriesOf fields)

/-- The nodes of some items. -/
def nodesOf : List Datum → List Node
  | [] => []
  | v :: rest => nodeOf v :: nodesOf rest

/-- The entries of some fields. -/
def entriesOf : List (String × Datum) → List (Node × Node)
  | [] => []
  | (k, v) :: rest => (.text k, nodeOf v) :: entriesOf rest
end

/-- The YAML text of a plain value. -/
def render (d : Datum) : String := (nodeOf d).render

end Sandbox.Yaml
