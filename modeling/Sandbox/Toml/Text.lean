/-!
# TOML texts

The four ways to write a text: between quotes with escapes or between apostrophes without them, on one
line or, with three marks at each end, on several lines.
-/

namespace Sandbox.Toml

/-- The blanks inside a line. -/
def isBlank (c : Char) : Bool := c = ' ' || c = '\t'

/-- The characters that may stand in texts and comments as they are. -/
def isPlain (c : Char) : Bool := c = '\t' || (' ' ≤ c && c ≠ '\x7f')

/-- The text behind a line break, if it begins with one. -/
def afterBreak? : List Char → Option (List Char)
  | '\n' :: rest | '\r' :: '\n' :: rest => some rest
  | _ => none

/-- The value of a digit in some base. -/
def digitValue? (base : Nat) (c : Char) : Option Nat :=
  let n :=
    if c.isDigit then c.toNat - 48
    else if 'a' ≤ c && c ≤ 'f' then c.toNat - 87
    else if 'A' ≤ c && c ≤ 'F' then c.toNat - 55
    else base
  if n < base then some n else none

/-- The number that digits write; there has to be one. -/
def digits? (base : Nat) : List Char → Option Nat
  | [] => none
  | s => s.foldlM (fun n c => (digitValue? base c).map (n * base + ·)) 0

/-- What the letters behind a backslash stand for. -/
def namedEscapes : List (Char × Char) :=
  [('b', '\x08'), ('t', '\t'), ('n', '\n'), ('f', '\x0c'), ('r', '\r'), ('e', '\x1b'), ('"', '"'),
    ('\\', '\\')]

/-- The character with the number that some digits write, and the number of characters that have been
read with the letter before the digits. -/
def codedEscape (count : Nat) (s : List Char) : Option (Char × Nat) := do
  let digits := s.take count
  let n ← digits? 16 digits
  if digits.length = count && n.isValidChar then some (.ofNat n, count + 1) else none

/-- The character that an escape stands for, and the number of characters behind the backslash. -/
def escape : List Char → Option (Char × Nat)
  | 'x' :: rest => codedEscape 2 rest
  | 'u' :: rest => codedEscape 4 rest
  | 'U' :: rest => codedEscape 8 rest
  | c :: _ => (namedEscapes.lookup c).map (·, 1)
  | [] => none

/-- A text that has been read, and what is behind it. -/
abbrev TextAndRest := Option (String × List Char)

/-- The end of a text: what has been read, in reverse, and what is behind it. -/
def endText (acc rest : List Char) : TextAndRest := some (String.ofList acc.reverse, rest)

/-- The rest of a text between quotes on one line. -/
def quoted (acc : List Char) (s : List Char) : TextAndRest :=
  match s with
  | [] => none
  | '"' :: rest => endText acc rest
  | '\\' :: rest =>
    match escape rest with
    | some (c, count) => quoted (c :: acc) (rest.drop count)
    | none => none
  | c :: rest => if isPlain c then quoted (c :: acc) rest else none
  termination_by s.length
  decreasing_by all_goals (simp only [List.length_drop, List.length_cons]; omega)

/-- The rest of a text between apostrophes on one line. -/
def literal (acc : List Char) : List Char → TextAndRest
  | [] => none
  | '\'' :: rest => endText acc rest
  | c :: rest => if isPlain c then literal (c :: acc) rest else none

/-- The end of a text on several lines: up to two marks before the three last ones belong to it. -/
def endLines (mark : Char) (acc rest : List Char) : TextAndRest :=
  let inside := (rest.take 2).takeWhile (· = mark)
  endText (inside ++ acc) (rest.drop inside.length)

/-- The rest of a text between triple quotes. A backslash at the end of a line leaves out all blanks and
line breaks up to the next other character; `leavesOut` says that this is under way. -/
def quotedLines (leavesOut : Bool) (acc : List Char) (s : List Char) : TextAndRest :=
  match s with
  | [] => none
  | '"' :: '"' :: '"' :: rest => endLines '"' acc rest
  | '\\' :: rest =>
    if (afterBreak? (rest.dropWhile isBlank)).isSome then quotedLines true acc rest
    else match escape rest with
      | some (c, count) => quotedLines false (c :: acc) (rest.drop count)
      | none => none
  | '\r' :: '\n' :: rest =>
    quotedLines leavesOut (if leavesOut then acc else '\n' :: '\r' :: acc) rest
  | '\n' :: rest => quotedLines leavesOut (if leavesOut then acc else '\n' :: acc) rest
  | c :: rest =>
    if !isPlain c then none
    else if leavesOut && isBlank c then quotedLines true acc rest
    else quotedLines false (c :: acc) rest
  termination_by s.length
  decreasing_by all_goals (simp only [List.length_drop, List.length_cons]; omega)

/-- The rest of a text between triple apostrophes. -/
def literalLines (acc : List Char) : List Char → TextAndRest
  | [] => none
  | '\'' :: '\'' :: '\'' :: rest => endLines '\'' acc rest
  | '\r' :: '\n' :: rest => literalLines ('\n' :: '\r' :: acc) rest
  | '\n' :: rest => literalLines ('\n' :: acc) rest
  | c :: rest => if isPlain c then literalLines (c :: acc) rest else none

/-- The text that begins here. A line break right behind three marks does not belong to it. -/
def text? (s : List Char) : TextAndRest :=
  match s with
  | '"' :: '"' :: '"' :: rest => quotedLines false [] ((afterBreak? rest).getD rest)
  | '"' :: rest => quoted [] rest
  | '\'' :: '\'' :: '\'' :: rest => literalLines [] ((afterBreak? rest).getD rest)
  | '\'' :: rest => literal [] rest
  | _ => none

end Sandbox.Toml
