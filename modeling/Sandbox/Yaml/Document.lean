import Sandbox.Yaml.Event

/-!
# The parts of a YAML document

A text is read as the parts of its first document, in order, with each alias resolved to the number
of its anchor. Where the text is faulty, the parts in front of the fault are kept and the fault is
told only to those who read up to it.
-/

namespace Sandbox.Yaml

/-- A part of a document. -/
inductive Part
  | alias (anchor : Nat)
  | scalar (tag : Option String) (value : String) (style : ScalarStyle)
  | sequenceStart (tag : Option String)
  | sequenceEnd
  | mappingStart (tag : Option String)
  | mappingEnd
  /-- Stands for the document of a text that has none. -/
  | absent
  deriving Repr

/-- Why no more parts can be read. -/
inductive Fault
  | problem (p : Problem)
  | unknownAnchor (mark : Mark)
  deriving Repr

/-- A document, as far as it could be read. -/
structure Document where
  parts : Array (Part × Mark) := #[]
  /-- What follows the last part if it is not the end of the document. -/
  fault : Option Fault := none
  /-- The place among the parts that each anchor stands for. -/
  anchors : List (Nat × Nat) := []

namespace Document

/-- What is known of the document while its events are read. -/
structure Builder where
  document : Document := {}
  /-- The numbers of the anchors, by name. -/
  names : List (String × Nat) := []

/-- Adds a part. -/
def Builder.push (b : Builder) (part : Part) (mark : Mark) : Builder :=
  { b with document := { b.document with parts := b.document.parts.push (part, mark) } }

/-- Gives the next part an anchor. Its number is the count of the names known so far, and the last
part that takes a number is the one that the number stands for. -/
def Builder.name (b : Builder) : Option String → Builder
  | none => b
  | some name =>
    let number := b.names.length
    { names := (name, number) :: b.names.filter (·.1 ≠ name)
      document := { b.document with
        anchors := (number, b.document.parts.size) :: b.document.anchors } }

/-- Ends the document with a fault. -/
def Builder.stop (b : Builder) (fault : Fault) : Document := { b.document with fault := some fault }

/-- Reads events up to the end of a document. The answer is `none` where the text ends first; in
place of the first document, the text then counts as one that is absent. -/
def next? (first : Bool) : Nat → Builder → EventReader → Option Document × EventReader
  | 0, b, r => (some b.document, r)
  | fuel + 1, b, r =>
    match EventReader.step.run r with
    | .error problem => (some (b.stop (.problem problem)), r)
    | .ok ((event, mark), r) =>
      match event with
      | .streamStart | .documentStart => next? first fuel b r
      | .documentEnd => (some b.document, r)
      | .streamEnd =>
        if first then
          (some (if b.document.parts.isEmpty then b.push .absent mark else b).document, r)
        else (none, r)
      | .alias name =>
        match b.names.lookup name with
        | some number => next? first fuel (b.push (.alias number) mark) r
        | none => (some (b.stop (.unknownAnchor mark)), r)
      | .scalar p value style =>
        next? first fuel ((b.name p.anchor).push (.scalar p.tag value style) mark) r
      | .sequenceStart p => next? first fuel ((b.name p.anchor).push (.sequenceStart p.tag) mark) r
      | .sequenceEnd => next? first fuel (b.push .sequenceEnd mark) r
      | .mappingStart p => next? first fuel ((b.name p.anchor).push (.mappingStart p.tag) mark) r
      | .mappingEnd => next? first fuel (b.push .mappingEnd mark) r

/-- The character may stand in a text. -/
def isAllowed (c : Char) : Bool :=
  let n := c.toNat
  n == 0x09 || n == 0x0A || n == 0x0D || (0x20 ≤ n && n ≤ 0x7E) || n == 0x85 ||
    (0xA0 ≤ n && n ≤ 0xD7FF) || (0xE000 ≤ n && n ≤ 0xFFFD && n != 0xFEFF) || 0x10000 ≤ n

/-- The octets in front of the first character that is not allowed. -/
def controlOffset? : List Char → Nat → Option Nat
  | [], _ => none
  | c :: rest, offset => if isAllowed c then controlOffset? rest (offset + c.utf8Size) else some offset

/-- The first document of a text, and whether another follows it. -/
def ofText (text : String) : Document × Bool :=
  -- a byte order mark at the start says how the text is encoded
  let (cs, offset) := match text.toList with
    | '\uFEFF' :: rest => (rest, 3)
    | cs => (cs, 0)
  match controlOffset? cs offset with
  | some offset => ({ fault := some (.problem { cause := .controlCharacter, offset }) }, false)
  | none =>
    let fuel := 4 * cs.length + 8
    match next? true fuel {} { scanner := { rest := cs } } with
    | (some d, r) => (d, d.fault.isNone && !d.parts.isEmpty && (next? false fuel {} r).1.isSome)
    | (none, _) => ({}, false)

end Document
end Sandbox.Yaml
