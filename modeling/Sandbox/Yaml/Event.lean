import Sandbox.Yaml.Token.Queue

/-!
# Events of a YAML text

The grammar of YAML turns tokens into events: scalars, aliases, and the ends of collections and
documents. `EventReader.step` makes one event. What may come next is an `Expectation`; the
expectations of the enclosing constructs wait on a stack.
-/

namespace Sandbox.Yaml

/-- What a node may carry besides its content. -/
structure Properties where
  anchor : Option String := none
  tag : Option String := none
  deriving DecidableEq, Repr

/-- The parts of a document in the order of the text. -/
inductive Event
  | streamStart | streamEnd | documentStart | documentEnd
  | alias (name : String)
  | scalar (properties : Properties) (value : String) (style : ScalarStyle)
  | sequenceStart (properties : Properties)
  | sequenceEnd
  | mappingStart (properties : Properties)
  | mappingEnd
  deriving DecidableEq, Repr

/-- What the grammar admits next. -/
inductive Expectation
  | streamStart
  /-- A document; the first one needs no marker. -/
  | document (first : Bool)
  | documentContent | documentEnd
  | blockNode
  | blockItem (first : Bool)
  /-- An item of a sequence that is not deeper than the key it belongs to. -/
  | flushItem
  | blockKey (first : Bool)
  | blockValue
  | flowItem (first : Bool)
  | pairKey | pairValue | pairEnd
  | flowKey (first : Bool)
  /-- The value of a key in a mapping in braces; without an indicator the value is empty. -/
  | flowValue (absent : Bool)
  | nothing
  deriving DecidableEq, Repr

/-- The state of reading events. -/
structure EventReader where
  scanner : Scanner
  expected : Expectation := .streamStart
  waiting : List Expectation := []
  /-- Where the enclosing collections began, the innermost first. -/
  opened : List Mark := []
  /-- What the handles of tags stand for. -/
  handles : List (String × String) := []

/-- A step of reading events. -/
abbrev ReadEvent := StateT EventReader (Except Problem)

namespace EventReader

/-- The next token. -/
def peek : ReadEvent Token := do
  let s ← get
  let (t, scanner) ← Scanner.peek.run s.scanner
  set { s with scanner }
  return t

/-- Passes over the next token. -/
def drop : ReadEvent Unit := do
  let s ← get
  let (_, scanner) ← Scanner.drop.run s.scanner
  set { s with scanner }

/-- Sets what is expected next. -/
def expect (e : Expectation) : ReadEvent Unit := modify fun s => { s with expected := e }

/-- Sets what is expected after the construct that begins now. -/
def expectLater (e : Expectation) : ReadEvent Unit :=
  modify fun s => { s with waiting := e :: s.waiting }

/-- Returns to what the enclosing construct expects. -/
def expectWaiting : ReadEvent Unit :=
  modify fun s =>
    { s with expected := s.waiting.headD .nothing, waiting := s.waiting.drop 1 }

/-- Enters a collection whose opening token is ahead. -/
def enter (first : Bool) : ReadEvent Unit := do
  if first then
    let t ← peek
    modify fun s => { s with opened := t.start :: s.opened }
    drop

/-- Leaves a collection whose closing token is ahead. -/
def leave (event : Event) : ReadEvent (Event × Mark) := do
  let t ← peek
  expectWaiting
  modify fun s => { s with opened := s.opened.drop 1 }
  drop
  return (event, t.start)

/-- Fails at the next token within the innermost collection. -/
def failInside {α : Type} (context : Context) (cause : Cause) : ReadEvent α := do
  let t ← peek
  let start := (← get).opened.headD {}
  throw { cause, mark := t.start, context := some (context, start) }

/-- A scalar without text. -/
def empty (mark : Mark) (next : Expectation) : ReadEvent (Event × Mark) := do
  expect next
  return (.scalar {} "" .plain, mark)

/-! ## Documents -/

/-- The handles that every document knows. -/
def standardHandles : List (String × String) := [("!", "!"), ("!!", "tag:yaml.org,2002:")]

/-- Reads the directives of a document, at most `fuel` of them. -/
def directives : Nat → Bool → ReadEvent Unit
  | 0, _ => return
  | fuel + 1, versionSeen => do
    let t ← peek
    match t.kind with
    | .version major minor =>
      if versionSeen then throw { cause := .duplicateVersion, mark := t.start }
      if major ≠ 1 || (minor ≠ 1 && minor ≠ 2) then
        throw { cause := .incompatibleVersion, mark := t.start }
      drop
      directives fuel true
    | .tagDirective handle value =>
      if ((← get).handles.lookup handle).isSome then
        throw { cause := .duplicateTagDirective, mark := t.start }
      modify fun s => { s with handles := s.handles ++ [(handle, value)] }
      drop
      directives fuel versionSeen
    | _ => return

/-- Makes the standard handles known where the document has not said what they stand for. -/
def addStandardHandles : ReadEvent Unit :=
  modify fun s => { s with
    handles := s.handles ++ standardHandles.filter fun h => (s.handles.lookup h.1).isNone }

/-- Passes over end markers of documents. -/
def dropDocumentEnds : Nat → ReadEvent Unit
  | 0 => return
  | fuel + 1 => do
    if (← peek).kind = .documentEnd then
      drop
      dropDocumentEnds fuel

/-- A bound for the tokens that are left. -/
def budget : ReadEvent Nat := do
  return (← get).scanner.rest.length + (← get).scanner.queue.length + 1

/-- Begins a document or ends the text. -/
def document (first : Bool) : ReadEvent (Event × Mark) := do
  if !first then dropDocumentEnds (← budget)
  let t ← peek
  match t.kind with
  | .streamEnd =>
    expect .nothing
    drop
    return (.streamEnd, t.start)
  | .version .. | .tagDirective .. | .documentStart => explicit t
  | _ =>
    if !first then explicit t
    else
      addStandardHandles
      expectLater .documentEnd
      expect .blockNode
      return (.documentStart, t.start)
where
  /-- Begins a document with its marker. -/
  explicit (t : Token) : ReadEvent (Event × Mark) := do
    directives (← budget) false
    addStandardHandles
    let marker ← peek
    if marker.kind ≠ .documentStart then
      throw { cause := .expectedDocumentStart, mark := marker.start }
    expectLater .documentEnd
    expect .documentContent
    drop
    return (.documentStart, t.start)

/-- Ends a document. -/
def documentEnd : ReadEvent (Event × Mark) := do
  let t ← peek
  if t.kind = .documentEnd then drop
  modify fun s => { s with handles := [] }
  expect (.document false)
  return (.documentEnd, t.start)

/-! ## Nodes -/

/-- The tag that a handle and a suffix write. -/
def resolveTag (start : Mark) (mark : Mark) (handle suffix : String) : ReadEvent String := do
  if handle.isEmpty then return suffix
  match (← get).handles.lookup handle with
  | some value => return value ++ suffix
  | none => throw { cause := .undefinedTagHandle, mark, context := some (.node, start) }

/-- Reads the anchor and the tag of a node, in either order. -/
def properties : ReadEvent Properties := do
  let t ← peek
  match t.kind with
  | .anchor name =>
    drop
    let u ← peek
    match u.kind with
    | .tag handle suffix =>
      drop
      let _ ← peek
      return { anchor := some name, tag := some (← resolveTag t.start u.start handle suffix) }
    | _ => return { anchor := some name }
  | .tag handle suffix =>
    drop
    let u ← peek
    match u.kind with
    | .anchor name =>
      drop
      let _ ← peek
      return { anchor := some name, tag := some (← resolveTag t.start t.start handle suffix) }
    | _ => return { tag := some (← resolveTag t.start t.start handle suffix) }
  | _ => return {}

/-- Reads a node; `flush` admits a sequence that is not deeper than its key. -/
def node (block flush : Bool) : ReadEvent (Event × Mark) := do
  let t ← peek
  if let .alias name := t.kind then
    expectWaiting
    drop
    return (.alias name, t.start)
  let start := t.start
  let p ← properties
  let t ← peek
  match t.kind with
  | .blockEntry =>
    if flush then
      expect .flushItem
      return (.sequenceStart p, start)
    else bare p start t
  | .scalar value style =>
    expectWaiting
    drop
    -- a lone mark only says that the scalar is not to be resolved
    let p := if p.tag = some "!" then { p with tag := none } else p
    return (.scalar p value style, start)
  | .flowSequenceStart => begin (.flowItem true) (.sequenceStart p) start
  | .flowMappingStart => begin (.flowKey true) (.mappingStart p) start
  | .blockSequenceStart =>
    if block then begin (.blockItem true) (.sequenceStart p) start else bare p start t
  | .blockMappingStart =>
    if block then begin (.blockKey true) (.mappingStart p) start else bare p start t
  | _ => bare p start t
where
  /-- Begins a collection. -/
  begin (next : Expectation) (event : Event) (start : Mark) : ReadEvent (Event × Mark) := do
    expect next
    return (event, start)
  /-- A node with properties and no content is an empty scalar. -/
  bare (p : Properties) (start : Mark) (t : Token) : ReadEvent (Event × Mark) := do
    if p.anchor.isNone && p.tag.isNone then
      let context := if block then .blockNode else .flowNode
      throw { cause := .expectedNodeContent, mark := t.start, context := some (context, start) }
    expectWaiting
    return (.scalar p "" .plain, start)

/-- Reads a node, unless the next token is one of those that leave the node empty. -/
def nodeUnless (stops : List TokenKind) (mark : Mark) (next : Expectation)
    (block flush : Bool) : ReadEvent (Event × Mark) := do
  if stops.contains (← peek).kind then empty mark next
  else
    expectLater next
    node block flush

/-! ## Collections in block style -/

/-- Reads an item of a sequence in block style. -/
def blockItem (first : Bool) : ReadEvent (Event × Mark) := do
  enter first
  let t ← peek
  match t.kind with
  | .blockEntry =>
    drop
    nodeUnless [.blockEntry, .blockEnd] t.stop (.blockItem false) true false
  | .blockEnd => leave .sequenceEnd
  | _ => failInside .blockCollection .expectedDash

/-- Reads an item of a sequence that is not deeper than its key. -/
def flushItem : ReadEvent (Event × Mark) := do
  let t ← peek
  match t.kind with
  | .blockEntry =>
    drop
    nodeUnless [.blockEntry, .key, .value, .blockEnd] t.stop .flushItem true false
  | _ =>
    expectWaiting
    return (.sequenceEnd, t.start)

/-- Reads a key of a mapping in block style. -/
def blockKey (first : Bool) : ReadEvent (Event × Mark) := do
  enter first
  let t ← peek
  match t.kind with
  | .key =>
    drop
    nodeUnless [.key, .value, .blockEnd] t.stop .blockValue true true
  | .blockEnd => leave .mappingEnd
  | _ => failInside .blockMapping .expectedKey

/-- Reads a value of a mapping in block style. -/
def blockValue : ReadEvent (Event × Mark) := do
  let t ← peek
  match t.kind with
  | .value =>
    drop
    nodeUnless [.key, .value, .blockEnd] t.stop (.blockKey false) true true
  | _ => empty t.start (.blockKey false)

/-! ## Collections in flow style -/

/-- Passes over the comma in front of every item but the first. -/
def comma (first : Bool) (close : TokenKind) (context : Context) (cause : Cause) :
    ReadEvent Unit := do
  if !first && (← peek).kind ≠ close then
    if (← peek).kind = .flowEntry then drop
    else failInside context cause

/-- Reads an item of a sequence in brackets. -/
def flowItem (first : Bool) : ReadEvent (Event × Mark) := do
  enter first
  comma first .flowSequenceEnd .flowSequence .expectedSequenceCommaOrEnd
  let t ← peek
  match t.kind with
  | .flowSequenceEnd => leave .sequenceEnd
  | .key =>
    expect .pairKey
    drop
    return (.mappingStart {}, t.start)
  | _ =>
    expectLater (.flowItem false)
    node false false

/-- Reads the key of a mapping with one entry in a sequence in brackets. -/
def pairKey : ReadEvent (Event × Mark) := do
  let t ← peek
  if [TokenKind.value, .flowEntry, .flowSequenceEnd].contains t.kind then
    -- the token goes with the key that is not there
    drop
    empty t.stop .pairValue
  else
    expectLater .pairValue
    node false false

/-- Reads the value of a mapping with one entry in a sequence in brackets. -/
def pairValue : ReadEvent (Event × Mark) := do
  if (← peek).kind = .value then
    drop
    nodeUnless [.flowEntry, .flowSequenceEnd] (← peek).start .pairEnd false false
  else empty (← peek).start .pairEnd

/-- Ends a mapping with one entry in a sequence in brackets. -/
def pairEnd : ReadEvent (Event × Mark) := do
  expect (.flowItem false)
  return (.mappingEnd, (← peek).start)

/-- Reads a key of a mapping in braces. -/
def flowKey (first : Bool) : ReadEvent (Event × Mark) := do
  enter first
  comma first .flowMappingEnd .flowMapping .expectedMappingCommaOrEnd
  let t ← peek
  match t.kind with
  | .flowMappingEnd => leave .mappingEnd
  | .key =>
    drop
    nodeUnless [.value, .flowEntry, .flowMappingEnd] (← peek).start (.flowValue false) false false
  | _ =>
    expectLater (.flowValue true)
    node false false

/-- Reads a value of a mapping in braces. -/
def flowValue (absent : Bool) : ReadEvent (Event × Mark) := do
  let t ← peek
  if !absent && t.kind = .value then
    drop
    nodeUnless [.flowEntry, .flowMappingEnd] (← peek).start (.flowKey false) false false
  else empty t.start (.flowKey false)

/-! ## Texts -/

/-- Reads the next event and the place where it begins. -/
def step : ReadEvent (Event × Mark) := do
  match (← get).expected with
  | .streamStart =>
    let t ← peek
    expect (.document true)
    drop
    return (.streamStart, t.start)
  | .document first => document first
  | .documentContent =>
    let t ← peek
    match t.kind with
    | .version .. | .tagDirective .. | .documentStart | .documentEnd | .streamEnd =>
      expectWaiting
      return (.scalar {} "" .plain, t.start)
    | _ => node true false
  | .documentEnd => documentEnd
  | .blockNode => node true false
  | .blockItem first => blockItem first
  | .flushItem => flushItem
  | .blockKey first => blockKey first
  | .blockValue => blockValue
  | .flowItem first => flowItem first
  | .pairKey => pairKey
  | .pairValue => pairValue
  | .pairEnd => pairEnd
  | .flowKey first => flowKey first
  | .flowValue absent => flowValue absent
  | .nothing => return (.streamEnd, (← get).scanner.mark)

end EventReader
end Sandbox.Yaml
