import Sandbox.Toml.Scalar

/-!
# TOML documents

A document is a sequence of lines: headers, fields, blank lines and comments. `Toml.parse` answers with
the fields of the document, or nothing if the text is none. Lists and tables may stand in one another
80 deep.
-/

namespace Sandbox.Toml

/-- A step of reading: the answer and the text that is left. -/
abbrev Reading := StateT (List Char) Option

/-- Leaves out the blanks of a line. -/
def skipBlanks : Reading Unit := modify (·.dropWhile isBlank)

/-- Reads one character. -/
def expect (c : Char) : Reading Unit := do
  match ← get with
  | first :: rest => if first = c then set rest else failure
  | [] => failure

/-- The text without the comment that it begins with, if any. -/
def afterComment (s : List Char) : List Char :=
  match s with
  | '#' :: rest => rest.dropWhile isPlain
  | _ => s

/-- Reads what may stand behind the last part of a line, and the end of the line. -/
def endLine : Reading Unit := do
  let rest := afterComment ((← get).dropWhile isBlank)
  match rest with
  | [] => set rest
  | _ => set (← (afterBreak? rest : Option (List Char)))

/-- Leaves out blanks, comments and line breaks. -/
def skipGaps (s : List Char) : Option (List Char) :=
  match s with
  | [] => some []
  | '#' :: rest =>
    match _h : rest.dropWhile isPlain with
    | [] => some []
    | '\n' :: after => skipGaps after
    | '\r' :: '\n' :: after => skipGaps after
    | _ => none
  | '\n' :: rest => skipGaps rest
  | '\r' :: '\n' :: rest => skipGaps rest
  | c :: rest => if isBlank c then skipGaps rest else some (c :: rest)
  termination_by s.length
  decreasing_by
    · have shorter : (rest.dropWhile isPlain).length ≤ rest.length :=
        (List.dropWhile_suffix isPlain).length_le
      simp [_h] at shorter ⊢
      omega
    · have shorter : (rest.dropWhile isPlain).length ≤ rest.length :=
        (List.dropWhile_suffix isPlain).length_le
      simp [_h] at shorter ⊢
      omega
    all_goals simp; try omega

/-- Reads a gap. -/
def gap : Reading Unit := do set (← (skipGaps (← get) : Option (List Char)))

/-! ## Keys -/

/-- The characters of a key without marks. -/
def isKeyCharacter (c : Char) : Bool := c.isAlphanum || c = '_' || c = '-'

/-- Reads a part of a key. -/
def keyPart : Reading String := do
  let s ← get
  match s with
  | '"' :: rest => (quoted [] rest : Option (String × List Char)) >>= take
  | '\'' :: rest => (literal [] rest : Option (String × List Char)) >>= take
  | _ =>
    let (part, rest) := s.span isKeyCharacter
    if part.isEmpty then failure
    set rest
    return String.ofList part
where
  /-- A text as a part of a key. -/
  take : String × List Char → Reading String
    | (part, rest) => do
      set rest
      return part

/-- Reads a key of at most so many parts, with the blanks behind it. -/
def key : Nat → Reading (List String)
  | 0 => failure
  | fuel + 1 => do
    skipBlanks
    let part ← keyPart
    skipBlanks
    match ← get with
    | '.' :: rest =>
      set rest
      return part :: (← key fuel)
    | _ => return [part]

/-! ## Values -/

/-- How deep lists and tables may stand in one another. -/
def depthLimit : Nat := 80

mutual

/-- Reads a value in at most so many steps, with this many lists and tables allowed in it. -/
def value (depth : Nat) : Nat → Reading Value
  | 0 => failure
  | fuel + 1 => do
    let s ← get
    match s, depth with
    | '[' :: rest, depth + 1 =>
      set rest
      return .list false (← items depth fuel)
    | '\x7b' :: rest, depth + 1 =>
      set rest
      return .table .complete (← entries depth fuel [])
    | '"' :: _, _ | '\'' :: _, _ =>
      let (text, rest) ← (text? s : Option (String × List Char))
      set rest
      return .text text
    | _, _ =>
      let (form, rest) := formAndRest s
      set rest
      (scalar? form : Option Value)

/-- Reads the items of a list up to its end. -/
def items (depth : Nat) : Nat → Reading (List Value)
  | 0 => failure
  | fuel + 1 => do
    gap
    if (← get).head? = some ']' then
      expect ']'
      return []
    let item ← value depth fuel
    gap
    if (← get).head? = some ',' then
      expect ','
      return item :: (← items depth fuel)
    expect ']'
    return [item]

/-- Reads the fields of a table that is a value, up to its end. -/
def entries (depth : Nat) : Nat → Fields → Reading Fields
  | 0, _ => failure
  | fuel + 1, fields => do
    gap
    if (← get).head? = some '\x7d' then
      expect '\x7d'
      return fields
    let path ← key fuel
    expect '='
    skipBlanks
    let v ← value depth fuel
    let fields ← (fields.assign path v : Option Fields)
    gap
    if (← get).head? = some ',' then
      expect ','
      entries depth fuel fields
    else
      expect '\x7d'
      return fields

end

/-! ## Lines -/

/-- A document up to some line: its fields, and the header that further fields are under. -/
structure Draft where
  fields : Fields := []
  header : List String := []

/-- Reads one line; each part of it takes at most so many steps. -/
def line (fuel : Nat) (d : Draft) : Reading Draft := do
  skipBlanks
  match ← get with
  | [] => return d
  | '#' :: _ | '\n' :: _ | '\r' :: _ =>
    endLine
    return d
  | '[' :: '[' :: rest =>
    set rest
    let path ← key fuel
    expect ']'
    expect ']'
    endLine
    return ⟨← (d.fields.beginItem path : Option Fields), path⟩
  | '[' :: rest =>
    set rest
    let path ← key fuel
    expect ']'
    endLine
    return ⟨← (d.fields.beginTable path : Option Fields), path⟩
  | _ =>
    let path ← key fuel
    expect '='
    skipBlanks
    let v ← value depthLimit fuel
    endLine
    return { d with fields := ← (d.fields.atHeader d.header (·.assign path v) : Option Fields) }

/-- Reads at most so many lines up to the end. -/
def lines (fuel : Nat) : Nat → Draft → Reading Draft
  | 0, _ => failure
  | count + 1, d => do
    if (← get).isEmpty then return d
    lines fuel count (← line fuel d)

/-- The fields of a document. A mark of the byte order may stand at its start. -/
def parse (s : String) : Option Fields :=
  let text := match s.toList with
    | '\ufeff' :: rest => rest
    | all => all
  let fuel := text.length + 1
  ((lines fuel fuel {}).run text).map (·.1.fields)

end Sandbox.Toml
