import Sandbox.Yaml.Document
import Sandbox.Yaml.Printer
import Sandbox.Text.Quoted

/-!
# Reading YAML as a plain value

`Yaml.parse` reads a text that holds one document. Collections nest at most `depthLimit` deep, and
aliases may be followed a number of times that is proportional to the size of the document. Errors
name the path to the value and the place where it begins.
-/

namespace Sandbox.Yaml

/-- The way from the document to one of its values. -/
inductive Path
  | root
  | item (parent : Path) (index : Nat)
  | field (parent : Path) (key : String)
  /-- The value of a key that is not a scalar. -/
  | unnamed (parent : Path)
  deriving Repr

namespace Path

/-- The text of a path. -/
def render : Path → String
  | .root => "."
  | .item parent index => s!"{parent.render}[{index}]"
  | .field .root key => key
  | .field parent key => parent.render ++ "." ++ key
  | .unnamed .root => "?"
  | .unnamed parent => parent.render ++ ".?"

end Path

/-- What is wrong with a value. -/
inductive Invalid
  /-- An integer of more than 64 bits. -/
  | wideInteger (n : Int)
  | notBool (s : String)
  | notInteger (s : String)
  | notFloat (s : String)
  | notNull (s : String)
  | duplicateKey (key : Node)
  deriving Repr

/-- The wording of what is wrong with a value. -/
def Invalid.message : Invalid → String
  | .wideInteger n =>
    let width := if n < 0 then "i128" else "u128"
    s!"invalid type: integer `{n}` as {width}, expected any YAML value"
  | .notBool s => s!"invalid value: string {s.quoted}, expected a boolean"
  | .notInteger s => s!"invalid value: string {s.quoted}, expected an integer"
  | .notFloat s => s!"invalid value: string {s.quoted}, expected a float"
  | .notNull s => s!"invalid value: string {s.quoted}, expected null"
  | .duplicateKey key =>
    match key with
    | .null => "duplicate entry with null key"
    | .bool b => s!"duplicate entry with key `{b}`"
    | .int n => s!"duplicate entry with key {n}"
    | .float x => "duplicate entry with key " ++ number x
    | .text s => "duplicate entry with key " ++ s.quoted
    | _ => "duplicate entry in YAML map"

/-- Why a text is not read. -/
inductive Error
  | fault (f : Fault)
  | invalid (path : Path) (mark : Mark) (what : Invalid)
  | tooDeep (mark : Mark)
  | tooManyAliases
  | endOfText
  | severalDocuments
  deriving Repr

/-- The wording of a place behind a message. -/
def atMark (m : Mark) : String := if m.isStart then "" else " at " ++ m.message

/-- The wording of an error. -/
def Error.message : Error → String
  | .fault (.problem p) => p.message
  | .fault (.unknownAnchor mark) => "unknown anchor" ++ atMark mark
  | .invalid path mark what =>
    (match path with
      | .root => ""
      | path => path.render ++ ": ") ++ what.message ++ atMark mark
  | .tooDeep mark => "recursion limit exceeded" ++ atMark mark
  | .tooManyAliases => "repetition limit exceeded"
  | .endOfText => "EOF while parsing a value"
  | .severalDocuments => "deserializing from YAML containing more than one document is not supported"

/-- The most collections that may stand inside one another. -/
def depthLimit : Nat := 128

/-- The aliases that may be followed, for each part of the document. -/
def aliasFactor : Nat := 100

/-- The state of composing nodes. -/
structure Composer where
  /-- The number of the next part. -/
  next : Nat := 0
  /-- The aliases followed so far. -/
  followed : Nat := 0

/-- A step of composing nodes. -/
abbrev Compose := StateT Composer (Except Error)

namespace Composer

/-- The next part, which stays where it is. -/
def peek (d : Document) : Compose (Part × Mark) := do
  match d.parts[(← get).next]? with
  | some p => return p
  | none =>
    match d.fault with
    | some f => throw (.fault f)
    | none => throw .endOfText

/-- The next part. -/
def take (d : Document) : Compose (Part × Mark) := do
  let p ← peek d
  modify fun s => { s with next := s.next + 1 }
  return p

/-- The node that a plain scalar stands for. -/
def resolved (path : Path) (mark : Mark) (value : String) : Compose Node :=
  match Scalar.resolve value with
  | .null => return .null
  | .bool b => return .bool b
  | .int n =>
    if n < -2 ^ 63 || n ≥ 2 ^ 64 then throw (.invalid path mark (.wideInteger n)) else return .int n
  | .float x => return .float x
  | .text => return .text value

/-- The tag, if it is one of the document's own. -/
def ownTag? (tag : Option String) : Option String := tag.filter (·.startsWith "!")

/-- The node of a scalar without a tag of the document's own. -/
def scalar (path : Path) (mark : Mark) (tag : Option String) (value : String)
    (style : ScalarStyle) : Compose Node := do
  let fail := fun what => throw (.invalid path mark what)
  match tag with
  | some "tag:yaml.org,2002:bool" =>
    match Scalar.bool? value with
    | some b => return .bool b
    | none => fail (.notBool value)
  | some "tag:yaml.org,2002:int" =>
    match Scalar.int? value.toList with
    | some _ => resolved path mark value
    | none => fail (.notInteger value)
  | some "tag:yaml.org,2002:float" =>
    match Scalar.float? value.toList with
    | some x => return .float x
    | none => fail (.notFloat value)
  | some "tag:yaml.org,2002:null" =>
    if Scalar.null? value then return .null else fail (.notNull value)
  | some _ => return .text value
  | none => if style = .plain then resolved path mark value else return .text value

/-- Composes the items of a sequence up to its end, of which the part is passed over. -/
def items (d : Document) (node : Path → Compose Node) (path : Path) : Nat → Nat → Compose (List Node)
  | 0, _ => throw .endOfText
  | fuel + 1, index => do
    match (← peek d).1 with
    | .sequenceEnd | .absent =>
      let _ ← take d
      return []
    | _ =>
      let v ← node (.item path index)
      return v :: (← items d node path fuel (index + 1))

/-- Composes the entries of a mapping up to its end, of which the part is passed over. -/
def entries (d : Document) (node : Path → Compose Node) (path : Path) (mark : Mark) :
    Nat → List (Node × Node) → Compose (List (Node × Node))
  | 0, _ => throw .endOfText
  | fuel + 1, acc => do
    match (← peek d).1 with
    | .mappingEnd | .absent =>
      let _ ← take d
      return acc
    | part =>
      let key ← node path
      if acc.any fun e => e.1.same key then throw (.invalid path mark (.duplicateKey key))
      let inside := match part with
        | .scalar _ value _ => .field path value
        | _ => .unnamed path
      let value ← node inside
      entries d node path mark fuel (acc ++ [(key, value)])

/-- Composes the node that begins with a part which is no alias. -/
def content (d : Document) (path : Path) (inner : Option (Path → Compose Node)) (part : Part)
    (mark : Mark) : Compose Node := do
  let wrap := fun (tag : Option String) (plain : Compose Node) => do
    match ownTag? tag with
    | none => plain
    | some name => return .tagged name (← plain)
  let size := d.parts.size + 1
  match part with
  | .scalar tag value style =>
    wrap tag <|
      if (ownTag? tag).isSome then
        (if style = .plain then resolved path mark value else return .text value)
      else scalar path mark tag value style
  | .sequenceStart tag => wrap tag do
    match inner with
    | none => throw (.tooDeep mark)
    | some node => return .sequence (← items d node path size 0)
  | .mappingStart tag => wrap tag do
    match inner with
    | none => throw (.tooDeep mark)
    | some node => return .mapping (← entries d node path mark size [])
  | _ => return .null

/-- Composes the next node, in which collections nest at most `depth` deep. -/
def node (d : Document) : Nat → Path → Compose Node
  | depth, path => do
    let inner := match depth with
      | 0 => none
      | depth + 1 => some (node d depth)
    let (part, mark) ← take d
    match part with
    | .alias number =>
      let s ← get
      let followed := s.followed + 1
      if followed > d.parts.size * aliasFactor then throw .tooManyAliases
      let target := (d.anchors.lookup number).getD 0
      set { next := target, followed : Composer }
      let (part, mark) ← take d
      let v ← content d path inner part mark
      modify fun t => { t with next := s.next }
      return v
    | part => content d path inner part mark

end Composer

/-- The node of the document in a text. -/
def Node.parse (text : String) : Except Error Node := do
  let (d, more) := Document.ofText text
  let (n, _) ← (Composer.node d depthLimit .root).run {}
  if let some f := d.fault then throw (.fault f)
  if more then throw .severalDocuments
  return n

/-! ## Plain values -/

/-- The key of a record for a key of a mapping: scalars as they are written, others as their YAML
text. -/
def keyText : Node → String
  | .text s => s
  | .null => "null"
  | .bool b => if b then "true" else "false"
  | .int n => toString n
  | .float x => number x
  | n => n.render.trimAsciiEnd.toString

mutual
/-- The plain value of a node. Tags are dropped, and integers beyond 63 bits become floats. -/
def valueOf : Node → Datum
  | .null => .null
  | .bool b => .bool b
  | .int n =>
    if -2 ^ 63 ≤ n && n < 2 ^ 63 then .int (.ofInt n) else .float (Binary64.ofInt n)
  | .float x => .float x
  | .text s => .text s
  | .sequence items => .list (valuesOf items)
  | .mapping entries => .ofFields (fieldsOf entries)
  | .tagged _ value => valueOf value

/-- The plain values of some nodes. -/
def valuesOf : List Node → List Datum
  | [] => []
  | n :: rest => valueOf n :: valuesOf rest

/-- The fields of some entries. -/
def fieldsOf : List (Node × Node) → List (String × Datum)
  | [] => []
  | (k, v) :: rest => (keyText k, valueOf v) :: fieldsOf rest
end

/-- Reads a text as a plain value. -/
def parse (text : String) : Except Error Datum := return valueOf (← Node.parse text)

end Sandbox.Yaml
