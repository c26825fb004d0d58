import Sandbox.Yaml.Token.Scan

/-!
# The queue of tokens

`Scanner.fetch` reads what comes next in the text and puts its tokens into the queue. A key without
an indicator of its own is recognised by the `:` behind it, so `Scanner.fill` reads on while the
token at the head of the queue may still turn out to be such a key.
-/

namespace Sandbox.Yaml.Scanner

/-- Puts a token at the end of the queue. -/
def enqueue (t : Token) : Scan Unit := modify fun s => { s with queue := s.queue ++ [t] }

/-- Puts a token at the end of the queue that begins and ends here. -/
def enqueueHere (kind : TokenKind) : Scan Unit := do
  let mark := (← get).mark
  enqueue ⟨kind, mark, mark⟩

/-- Puts a token in front of the one with this number. -/
def insertAt (number : Nat) (t : Token) : Scan Unit :=
  modify fun s => { s with queue := s.queue.insertIdx (number - s.taken) t }

/-! ## Places of keys -/

/-- A place without a key. -/
def noKey : KeyPlace := {}

/-- The place where a key may have begun at this level of nesting. -/
def keyPlace : Scan KeyPlace := do
  return (← get).keys.headD noKey

/-- Replaces the place of a key at this level of nesting. -/
def setKeyPlace (place : KeyPlace) : Scan Unit :=
  modify fun s => { s with keys := place :: s.keys.drop 1 }

/-- Gives up the place of a key, which is an error where a key has to be. -/
def removeKey : Scan Unit := do
  let place ← keyPlace
  if place.possible && place.required then failIn .simpleKey place.mark .expectedColon
  setKeyPlace { place with possible := false }

/-- Notes that a key may begin here. -/
def saveKey : Scan Unit := do
  let s ← get
  if s.keyAllowed then
    removeKey
    setKeyPlace
      { possible := true
        required := s.flowLevel = 0 && s.indent = (s.mark.column : Int)
        number := s.taken + s.queue.length
        mark := s.mark }

/-- The longest key, in characters. -/
def keyLength : Nat := 1024

/-- The place of a key is out of reach: a key stands on one line and is not too long. -/
def isStale (place : KeyPlace) (mark : Mark) : Bool :=
  place.possible && (place.mark.line < mark.line || place.mark.index + keyLength < mark.index)

/-- Gives up the places of keys that are out of reach, the outermost first. -/
def dropStaleKeys : Scan Unit := do
  let s ← get
  if let some place := s.keys.reverse.find? fun k => isStale k s.mark && k.required then
    failIn .simpleKey place.mark .expectedColon
  modify fun s =>
    { s with
      keys := s.keys.map fun k => if isStale k s.mark then { k with possible := false } else k }

/-! ## Indentation -/

/-- Opens a block collection where the column is deeper than the indentation. -/
def rollIndent (column : Nat) (number : Option Nat) (kind : TokenKind) (mark : Mark) : Scan Unit := do
  let s ← get
  if s.flowLevel = 0 && s.indent < (column : Int) then
    set { s with indents := s.indent :: s.indents, indent := column }
    match number with
    | some number => insertAt number ⟨kind, mark, mark⟩
    | none => enqueue ⟨kind, mark, mark⟩

/-- Closes the block collections that are deeper than the column. -/
def unrollTo (column : Int) : Nat → Scan Unit
  | 0 => return
  | fuel + 1 => do
    let s ← get
    if s.flowLevel = 0 && s.indent > column then
      enqueueHere .blockEnd
      modify fun s => { s with indent := s.indents.headD (-1), indents := s.indents.drop 1 }
      unrollTo column fuel

/-- Closes the block collections that are deeper than the column. -/
def unrollIndent (column : Int) : Scan Unit := do
  unrollTo column ((← get).indents.length + 1)

/-! ## Tokens -/

/-- Puts an indicator of some characters into the queue. -/
def indicator (kind : TokenKind) (width : Nat := 1) : Scan Unit := do
  let start := (← get).mark
  modify (width.repeat skip)
  enqueue ⟨kind, start, (← get).mark⟩

/-- Sets whether a key may begin at the next token. -/
def allowKey (b : Bool) : Scan Unit := modify fun s => { s with keyAllowed := b }

/-- Begins the text. -/
def fetchStreamStart : Scan Unit := do
  modify fun s =>
    { s with indent := -1, keys := noKey :: s.keys, keyAllowed := true, started := true }
  enqueueHere .streamStart

/-- Ends the text, on a line of its own. -/
def fetchStreamEnd : Scan Unit := do
  modify fun s =>
    if s.mark.column = 0 then s
    else { s with mark := { s.mark with column := 0, line := s.mark.line + 1 } }
  unrollIndent (-1)
  removeKey
  allowKey false
  enqueueHere .streamEnd

/-- Reads a marker that begins or ends a document. -/
def fetchDocumentMarker (kind : TokenKind) : Scan Unit := do
  unrollIndent (-1)
  removeKey
  allowKey false
  indicator kind 3

/-- Reads a bracket or brace that opens a collection. -/
def fetchFlowStart (kind : TokenKind) : Scan Unit := do
  saveKey
  modify fun s => { s with keys := noKey :: s.keys, flowLevel := s.flowLevel + 1 }
  allowKey true
  indicator kind

/-- Reads a bracket or brace that closes a collection. -/
def fetchFlowEnd (kind : TokenKind) : Scan Unit := do
  removeKey
  modify fun s =>
    if s.flowLevel = 0 then s
    else { s with keys := s.keys.drop 1, flowLevel := s.flowLevel - 1 }
  allowKey false
  indicator kind

/-- Reads the dash of a sequence in block style. -/
def fetchBlockEntry : Scan Unit := do
  let s ← get
  if s.flowLevel = 0 then
    if !s.keyAllowed then failHere .blockEntryNotAllowed
    rollIndent s.mark.column none .blockSequenceStart s.mark
  removeKey
  allowKey true
  indicator .blockEntry

/-- Reads the indicator of a key. -/
def fetchKey : Scan Unit := do
  let s ← get
  if s.flowLevel = 0 then
    if !s.keyAllowed then failHere .keyNotAllowed
    rollIndent s.mark.column none .blockMappingStart s.mark
  removeKey
  allowKey (s.flowLevel = 0)
  indicator .key

/-- Reads the indicator of a value. -/
def fetchValue : Scan Unit := do
  let place ← keyPlace
  if place.possible then
    insertAt place.number ⟨.key, place.mark, place.mark⟩
    rollIndent place.mark.column (some place.number) .blockMappingStart place.mark
    setKeyPlace { place with possible := false }
    allowKey false
  else
    let s ← get
    if s.flowLevel = 0 then
      if !s.keyAllowed then failHere .valueNotAllowed
      rollIndent s.mark.column none .blockMappingStart s.mark
    allowKey (s.flowLevel = 0)
  indicator .value

/-- Reads a token that may be a key. -/
def fetchKeyLike (read : Scan Token) : Scan Unit := do
  saveKey
  allowKey false
  enqueue (← read)

/-- Passes over blanks, comments and empty lines. -/
def skipToToken : Nat → Scan Unit
  | 0 => return
  | fuel + 1 => do
    modify fun s => if s.mark.column = 0 && s.sees '\uFEFF' then s.skip else s
    modify fun s =>
      let tabs := s.flowLevel > 0 || !s.keyAllowed
      s.skipWhile fun c => c = ' ' || (tabs && c = '\t')
    skipComment
    let s ← get
    if s.ahead 0 isBreak then
      set s.skipBreak
      if s.flowLevel = 0 then allowKey true
      skipToToken fuel

/-- The characters that cannot begin a plain scalar in every context. -/
def isIndicator (c : Char) : Bool := "-?:,[]\x7b\x7d#&*!|>'\"%@`".toList.contains c

/-- A plain scalar begins ahead. -/
def seesPlain (s : Scanner) : Bool :=
  (!s.seesGap && !s.ahead 0 isIndicator) ||
    (s.sees '-' && !s.ahead 1 isBlank) ||
    (s.flowLevel = 0 && (s.sees '?' || s.sees ':') && !s.seesGap 1)

/-- Reads what comes next and puts its tokens into the queue. -/
def fetch : Scan Unit := do
  if !(← get).started then fetchStreamStart
  else
    skipToToken ((← get).rest.length + 1)
    dropStaleKeys
    unrollIndent (← get).mark.column
    let s ← get
    let inFlow := s.flowLevel > 0
    if s.atEnd then fetchStreamEnd
    else if s.mark.column = 0 && s.sees '%' then
      unrollIndent (-1)
      removeKey
      allowKey false
      enqueue (← directive)
    else if s.seesDocumentMarker '-' then fetchDocumentMarker .documentStart
    else if s.seesDocumentMarker '.' then fetchDocumentMarker .documentEnd
    else if s.sees '[' then fetchFlowStart .flowSequenceStart
    else if s.sees '\x7b' then fetchFlowStart .flowMappingStart
    else if s.sees ']' then fetchFlowEnd .flowSequenceEnd
    else if s.sees '\x7d' then fetchFlowEnd .flowMappingEnd
    else if s.sees ',' then
      removeKey
      allowKey true
      indicator .flowEntry
    else if s.sees '-' && s.seesGap 1 then fetchBlockEntry
    else if s.sees '?' && (inFlow || s.seesGap 1) then fetchKey
    else if s.sees ':' && (inFlow || s.seesGap 1) then fetchValue
    else if s.sees '*' then fetchKeyLike (anchorOrAlias true)
    else if s.sees '&' then fetchKeyLike (anchorOrAlias false)
    else if s.sees '!' then fetchKeyLike tag
    else if (s.sees '|' || s.sees '>') && !inFlow then
      removeKey
      allowKey true
      enqueue (← blockScalar (s.sees '|'))
    else if s.sees '\'' then fetchKeyLike (quotedScalar true)
    else if s.sees '"' then fetchKeyLike (quotedScalar false)
    else if s.seesPlain then fetchKeyLike plainScalar
    else failIn .nextToken s.mark .noToken

/-- More has to be read before the head of the queue is known. -/
def isUnsettled (s : Scanner) : Bool :=
  s.queue.isEmpty || s.keys.any fun k => k.possible && k.number = s.taken

/-- Reads on until the head of the queue is known. -/
def fill : Nat → Scan Unit
  | 0 => return
  | fuel + 1 => do
    if (← get).isUnsettled then
      fetch
      fill fuel

/-- The token at the head of the queue. -/
def peek : Scan Token := do
  let s ← get
  fill (s.rest.length + s.indents.length + 4)
  match (← get).queue with
  | t :: _ => return t
  | [] => return ⟨.streamEnd, (← get).mark, (← get).mark⟩

/-- Takes the token at the head of the queue away. -/
def drop : Scan Unit :=
  modify fun s => { s with queue := s.queue.drop 1, taken := s.taken + 1 }

end Sandbox.Yaml.Scanner
