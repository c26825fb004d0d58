import Sandbox.Datum.Basic

/-!
# Reading JSON

A recursive descent over the characters of the text. Every step answers with the rest of the text
and a proof that it is shorter, so the descent ends. Lists and records may stand inside one another
127 deep. A failure names its cause and the place where it was noticed.
-/

namespace Sandbox.Json

/-- Why a text is not JSON. -/
inductive Cause
  | eofInList | eofInObject | eofInString | eofInValue
  | expectedColon | expectedListCommaOrEnd | expectedObjectCommaOrEnd
  | expectedIdent | expectedValue
  | invalidEscape | invalidNumber | numberOutOfRange
  | controlCharacter | keyNotString
  | loneSurrogate | trailingComma | trailingCharacters | unfinishedPair | tooDeep
  deriving DecidableEq, Repr

/-- The wording of a cause. -/
def Cause.message : Cause → String
  | .eofInList => "EOF while parsing a list"
  | .eofInObject => "EOF while parsing an object"
  | .eofInString => "EOF while parsing a string"
  | .eofInValue => "EOF while parsing a value"
  | .expectedColon => "expected `:`"
  | .expectedListCommaOrEnd => "expected `,` or `]`"
  | .expectedObjectCommaOrEnd => "expected `,` or `\x7d`"
  | .expectedIdent => "expected ident"
  | .expectedValue => "expected value"
  | .invalidEscape => "invalid escape"
  | .invalidNumber => "invalid number"
  | .numberOutOfRange => "number out of range"
  | .controlCharacter => "control character (\\u0000-\\u001F) found while parsing a string"
  | .keyNotString => "key must be a string"
  | .loneSurrogate => "lone leading surrogate in hex escape"
  | .trailingComma => "trailing comma"
  | .trailingCharacters => "trailing characters"
  | .unfinishedPair => "unexpected end of hex escape"
  | .tooDeep => "recursion limit exceeded"

/-- A cause and the number of bytes of the text that were left when it was noticed. -/
structure Failure where
  cause : Cause
  left : Nat
  deriving DecidableEq, Repr

/-- The number of bytes of some characters. -/
def byteCount (s : List Char) : Nat := s.foldr (fun c count => c.utf8Size + count) 0

/-- A failure noticed before the first character that is left. -/
def failHere (cause : Cause) (s : List Char) : Failure := ⟨cause, byteCount s⟩

/-- A failure that blames the first character that is left. -/
def failAt (cause : Cause) (s : List Char) : Failure := ⟨cause, byteCount s - 1⟩

/-- The outcome of a step on `s`: a value and a shorter rest. -/
abbrev Step (α : Type) (s : List Char) := Except Failure (α × { r : List Char // r.length < s.length })

/-- The blanks of JSON. -/
def isBlank (c : Char) : Bool := c = ' ' || c = '\n' || c = '\t' || c = '\r'

/-- The text without its leading blanks. -/
def skipBlanks : List Char → List Char
  | [] => []
  | c :: rest => if isBlank c then skipBlanks rest else c :: rest

theorem length_skipBlanks_le (s : List Char) : (skipBlanks s).length ≤ s.length := by
  induction s with
  | nil => simp [skipBlanks]
  | cons c rest ih =>
    unfold skipBlanks
    split
    · simp only [List.length_cons]; omega
    · simp

/-- What comes behind the first character that is no blank is shorter. -/
theorem length_lt_of_skipBlanks {s rest : List Char} {c : Char} (h : skipBlanks s = c :: rest) :
    rest.length < s.length := by
  have hle := length_skipBlanks_le s
  rw [h, List.length_cons] at hle
  omega

/-- The first character that is no blank, if there is one, and the rest behind it. -/
def afterBlanks (s : List Char) : Option (Char × { r : List Char // r.length < s.length }) :=
  match h : skipBlanks s with
  | [] => none
  | c :: rest => some (c, ⟨rest, length_lt_of_skipBlanks h⟩)

/-- Reads the remaining letters of a word such as `true`. -/
def word (expected : List Char) (s : List Char) : Except Failure (List Char) :=
  match expected, s with
  | [], s => .ok s
  | _ :: _, [] => .error (failHere .eofInValue [])
  | e :: es, c :: rest =>
    if e = c then word es rest
    else .error ⟨.expectedIdent, byteCount (c :: rest) - 1⟩

theorem length_of_word {expected s r : List Char} (h : word expected s = .ok r) :
    r.length ≤ s.length := by
  induction expected generalizing s with
  | nil => simp [word] at h; simp [h]
  | cons e es ih =>
    cases s with
    | nil => simp [word] at h
    | cons c rest =>
      simp only [word] at h
      split at h
      · have := ih h; simp; omega
      · simp at h

/-- The value of a digit in base sixteen. -/
def hexValue? (c : Char) : Option Nat :=
  if '0' ≤ c ∧ c ≤ '9' then some (c.toNat - 48)
  else if 'a' ≤ c ∧ c ≤ 'f' then some (c.toNat - 87)
  else if 'A' ≤ c ∧ c ≤ 'F' then some (c.toNat - 55)
  else none

/-- The unit written by four digits. A text with fewer than four bytes left ends too early. -/
def hexUnit (s : List Char) : Except Failure (Nat × List Char) :=
  if byteCount s < 4 then .error ⟨.eofInString, 0⟩
  else
    match s with
    | a :: b :: c :: d :: rest =>
      match hexValue? a, hexValue? b, hexValue? c, hexValue? d with
      | some a, some b, some c, some d => .ok (((a * 16 + b) * 16 + c) * 16 + d, rest)
      | _, _, _, _ => .error ⟨.invalidEscape, byteCount s - 4⟩
    | _ => .error ⟨.invalidEscape, byteCount s - 4⟩

/-- The second half of a pair, of which `high` is the first. -/
def lowSurrogate (high : Nat) (s : List Char) : Except Failure (Char × List Char) :=
  match s with
  | '\\' :: 'u' :: rest =>
    match hexUnit rest with
    | .error e => .error e
    | .ok (low, rest) =>
      if low < 0xDC00 || 0xDFFF < low then .error (failHere .loneSurrogate rest)
      else .ok (Char.ofNat ((high - 0xD800) * 0x400 + (low - 0xDC00) + 0x10000), rest)
  | [] | ['\\'] => .error (failHere .eofInString [])
  | '\\' :: rest => .error (failAt .unfinishedPair rest)
  | rest => .error (failAt .unfinishedPair rest)

/-- The character behind `\u`: one unit, or two that form a pair. -/
def unicodeEscape (s : List Char) : Except Failure (Char × List Char) :=
  match hexUnit s with
  | .error e => .error e
  | .ok (n, rest) =>
    if 0xDC00 ≤ n && n ≤ 0xDFFF then .error (failHere .loneSurrogate rest)
    else if n < 0xD800 || 0xDBFF < n then .ok (Char.ofNat n, rest)
    else lowSurrogate n rest

/-- The character that an escape stands for. -/
def escapeValue (s : List Char) : Except Failure (Char × List Char) :=
  match s with
  | [] => .error (failHere .eofInString [])
  | '"' :: rest => .ok ('"', rest)
  | '\\' :: rest => .ok ('\\', rest)
  | '/' :: rest => .ok ('/', rest)
  | 'b' :: rest => .ok ('\x08', rest)
  | 'f' :: rest => .ok ('\x0c', rest)
  | 'n' :: rest => .ok ('\n', rest)
  | 'r' :: rest => .ok ('\r', rest)
  | 't' :: rest => .ok ('\t', rest)
  | 'u' :: rest => unicodeEscape rest
  | c :: rest => .error (failAt .invalidEscape (c :: rest))

theorem length_of_hexUnit {s r : List Char} {n : Nat} (h : hexUnit s = .ok (n, r)) :
    r.length ≤ s.length := by
  unfold hexUnit at h
  split at h
  · simp at h
  · split at h
    · split at h
      · simp at h; simp [← h.2]; omega
      · simp at h
    · simp at h

theorem length_of_lowSurrogate {n : Nat} {s r : List Char} {c : Char}
    (h : lowSurrogate n s = .ok (c, r)) : r.length ≤ s.length := by
  unfold lowSurrogate at h
  split at h <;> try (simp at h; done)
  split at h
  · simp at h
  · rename_i hu
    have := length_of_hexUnit hu
    split at h
    · simp at h
    · simp at h
      simp only [List.length_cons, ← h.2]
      omega

theorem length_of_unicodeEscape {s r : List Char} {c : Char} (h : unicodeEscape s = .ok (c, r)) :
    r.length ≤ s.length := by
  unfold unicodeEscape at h
  split at h
  · simp at h
  · rename_i hu
    have h1 := length_of_hexUnit hu
    split at h
    · simp at h
    · split at h
      · simp at h
        rw [← h.2]
        exact h1
      · exact Nat.le_trans (length_of_lowSurrogate h) h1

theorem length_of_escapeValue {s r : List Char} {c : Char} (h : escapeValue s = .ok (c, r)) :
    r.length ≤ s.length := by
  unfold escapeValue at h
  split at h <;> try (simp at h; done)
  all_goals first
    | (have shorter := length_of_unicodeEscape h; simp only [List.length_cons]; omega)
    | (simp at h; simp [← h.2])

/-- The characters of a string up to the closing quote, in reverse before `acc`. -/
def stringBody (s : List Char) (acc : List Char) : Step String s :=
  match s with
  | [] => .error (failHere .eofInString [])
  | '"' :: rest => .ok (String.ofList acc.reverse, ⟨rest, Nat.lt_succ_self _⟩)
  | '\\' :: rest =>
    match he : escapeValue rest with
    | .error e => .error e
    | .ok (c, after) =>
      have hlt : after.length < ('\\' :: rest).length :=
        Nat.lt_succ_of_le (length_of_escapeValue he)
      match stringBody after (c :: acc) with
      | .error e => .error e
      | .ok (text, ⟨r, hr⟩) => .ok (text, ⟨r, Nat.lt_trans hr hlt⟩)
  | c :: rest =>
    if c.toNat < 0x20 then .error (failAt .controlCharacter (c :: rest))
    else
      match stringBody rest (c :: acc) with
      | .error e => .error e
      | .ok (text, ⟨r, hr⟩) => .ok (text, ⟨r, Nat.lt_succ_of_lt hr⟩)
  termination_by s.length
  decreasing_by
    · exact hlt
    · exact Nat.lt_succ_self _

/-- The leading digits of a text. -/
def digits (s : List Char) : List Char × List Char := s.span Char.isDigit

/-- The largest value kept while digits are collected. -/
def digitLimit : Nat := 2 ^ 64 - 1

/-- Collects digits while the number formed stays within the limit: the number, how many digits were
taken, and the rest. -/
def collect (s : List Char) (value taken : Nat) : Nat × Nat × List Char :=
  match s with
  | [] => (value, taken, [])
  | c :: rest =>
    if c.isDigit then
      let next := value * 10 + (c.toNat - 48)
      if next ≤ digitLimit then collect rest next (taken + 1) else (value, taken, s)
    else (value, taken, s)

/-- The largest power of ten that is applied in one step. -/
def scaleStep : Nat := 308

/-- `significand * 10 ^ exponent`, computed by rounding the significand, then scaling it by one
power of ten, or by several where the exponent lies far below the range. `none` if it overflows. -/
def scale (x : Binary64) (exponent : Int) : Nat → Option Binary64
  | 0 => some x
  | fuel + 1 =>
    if exponent.natAbs ≤ scaleStep then
      let power := Binary64.ofDecimal 1 exponent.natAbs
      if exponent ≥ 0 then
        let y := x.mul power
        if y.isInfinite then none else some y
      else some (x.div power)
    else if x.isZero then some x
    else if exponent ≥ 0 then none
    else scale (x.div (Binary64.ofDecimal 1 scaleStep)) (exponent + scaleStep) fuel

/-- A number given by its parts. -/
def assemble (negative : Bool) (significand : Nat) (exponent : Int) (rest : List Char) :
    Except Failure (Datum × List Char) :=
  match scale (.ofRatio significand 1) exponent 12 with
  | some x => .ok (.float (if negative then x.neg else x), rest)
  | none => .error (failHere .numberOutOfRange rest)

/-- Exponents that do not fit in 31 bits are not read further. -/
def exponentLimit : Nat := 2 ^ 31 - 1

/-- Collects the digits of an exponent: its value, or `none` once it exceeds the limit. -/
def exponentValue (s : List Char) (value : Nat) : Option Nat × List Char :=
  match s with
  | [] => (some value, [])
  | c :: rest =>
    if c.isDigit then
      let next := value * 10 + (c.toNat - 48)
      if next ≤ exponentLimit then exponentValue rest next else (none, rest)
    else (some value, s)

/-- Reads what follows `e`. -/
def exponentPart (negative : Bool) (significand : Nat) (start : Int) (s : List Char) :
    Except Failure (Datum × List Char) :=
  let (positive, s) := match s with
    | '+' :: rest => (true, rest)
    | '-' :: rest => (false, rest)
    | s => (true, s)
  match s with
  | [] => .error (failHere .eofInValue [])
  | c :: rest =>
    if !c.isDigit then .error (failAt .invalidNumber (c :: rest))
    else
      match exponentValue rest (c.toNat - 48) with
      | (some e, rest) =>
        assemble negative significand (if positive then start + e else start - e) rest
      | (none, rest) =>
        if significand ≠ 0 ∧ positive then .error (failHere .numberOutOfRange rest)
        else
          .ok (.float (if negative then Binary64.zero.neg else .zero), rest.dropWhile Char.isDigit)

/-- Reads what follows the digits of a number that is known to be no integer, or ends it. -/
def afterDigits (negative : Bool) (significand : Nat) (exponent : Int) (s : List Char) :
    Except Failure (Datum × List Char) :=
  match s with
  | 'e' :: rest | 'E' :: rest => exponentPart negative significand exponent rest
  | s => assemble negative significand exponent s

/-- Reads what follows the point. Digits that no longer fit are dropped. -/
def fractionPart (negative : Bool) (significand : Nat) (before : Int) (s : List Char) :
    Except Failure (Datum × List Char) :=
  let (value, taken, rest) := collect s significand 0
  let exponent := before - taken
  match rest with
  | c :: _ =>
    if c.isDigit then afterDigits negative value exponent (rest.dropWhile Char.isDigit)
    else if taken = 0 then .error (failAt .invalidNumber rest)
    else afterDigits negative value exponent rest
  | [] =>
    if taken = 0 then .error (failHere .eofInValue [])
    else afterDigits negative value exponent []

/-- An integer literal: an integer where it fits, and else the nearest number. -/
def integer (negative : Bool) (n : Nat) : Datum :=
  if negative then
    if n = 0 || n > 2 ^ 63 then .float (Binary64.ofRatio n 1).neg else .int (.ofInt (-(n : Int)))
  else .ofNat n

/-- Reads a number, after its sign. -/
def numberValue (negative : Bool) (s : List Char) : Except Failure (Datum × List Char) :=
  match s with
  | [] => .error (failHere .eofInValue [])
  | '0' :: rest =>
    match rest with
    | c :: _ =>
      if c.isDigit then .error (failAt .invalidNumber rest) else finish 0 rest
    | [] => finish 0 []
  | c :: rest =>
    if !c.isDigit then .error (failAt .invalidNumber (c :: rest))
    else
      let (value, _, rest) := collect rest (c.toNat - 48) 0
      let (extra, after) := digits rest
      if extra.isEmpty then finish value rest
      else
        match after with
        | '.' :: after => fractionPart negative value extra.length after
        | after => afterDigits negative value extra.length after
where
  /-- Ends an integer, or goes on with a fraction or an exponent. -/
  finish (n : Nat) (s : List Char) : Except Failure (Datum × List Char) :=
    match s with
    | '.' :: rest => fractionPart negative n 0 rest
    | 'e' :: rest | 'E' :: rest => exponentPart negative n 0 rest
    | s => .ok (integer negative n, s)

/-- Keeps the answer of a step only where its rest is shorter than `s`, which it always is. -/
def shorten {α : Type} (s : List Char) (r : α × List Char) : Step α s :=
  if h : r.2.length < s.length then .ok (r.1, ⟨r.2, h⟩) else .error (failHere .expectedValue s)

/-- The number of containers that may stand inside one another, plus one. -/
def depthLimit : Nat := 128

mutual
/-- Reads a value; `depth` containers, less one, may still be opened. -/
def value (depth : Nat) (s : List Char) : Step Datum s :=
  match afterBlanks s with
  | none => .error (failHere .eofInValue [])
  | some (c, ⟨rest, hle⟩) =>
    match c with
    | 'n' => (word ['u', 'l', 'l'] rest).bind fun r => shorten s (.null, r)
    | 't' => (word ['r', 'u', 'e'] rest).bind fun r => shorten s (.bool true, r)
    | 'f' => (word ['a', 'l', 's', 'e'] rest).bind fun r => shorten s (.bool false, r)
    | '-' => (numberValue true rest).bind (shorten s)
    | '"' =>
      match stringBody rest [] with
      | .error e => .error e
      | .ok (text, ⟨r, hr⟩) => .ok (.text text, ⟨r, by omega⟩)
    | '[' =>
      if depth ≤ 1 then .error (failAt .tooDeep (c :: rest))
      else
        match items (depth - 1) rest true [] with
        | .error e => .error e
        | .ok (items, ⟨r, hr⟩) => .ok (.list items, ⟨r, by omega⟩)
    | '\x7b' =>
      if depth ≤ 1 then .error (failAt .tooDeep (c :: rest))
      else
        match fields (depth - 1) rest true [] with
        | .error e => .error e
        | .ok (fields, ⟨r, hr⟩) => .ok (.record fields, ⟨r, by omega⟩)
    | c =>
      if c.isDigit then (numberValue false (c :: rest)).bind (shorten s)
      else .error (failAt .expectedValue (c :: rest))
  termination_by (s.length, 0)

/-- Reads the items of a list up to its bracket; `acc` holds those read so far, the last first. -/
def items (depth : Nat) (s : List Char) (first : Bool) (acc : List Datum) : Step (List Datum) s :=
  match afterBlanks s with
  | none => .error (failHere .eofInList [])
  | some (c, ⟨rest, hle⟩) =>
    if c = ']' then .ok (acc.reverse, ⟨rest, hle⟩)
    else if first then
      match value depth s with
      | .error e => .error e
      | .ok (v, ⟨r, hr⟩) =>
        match items depth r false (v :: acc) with
        | .error e => .error e
        | .ok (vs, ⟨r', hr'⟩) => .ok (vs, ⟨r', by omega⟩)
    else if c = ',' then
      match skipBlanks rest with
      | [] => .error (failHere .eofInValue [])
      | ']' :: after => .error (failAt .trailingComma (']' :: after))
      | _ :: _ =>
        match value depth rest with
        | .error e => .error e
        | .ok (v, ⟨r, hr⟩) =>
          match items depth r false (v :: acc) with
          | .error e => .error e
          | .ok (vs, ⟨r', hr'⟩) => .ok (vs, ⟨r', by omega⟩)
    else .error (failAt .expectedListCommaOrEnd (c :: rest))
  termination_by (s.length, 1)

/-- Reads the fields of a record up to its brace. -/
def fields (depth : Nat) (s : List Char) (first : Bool) (acc : List (String × Datum)) :
    Step (List (String × Datum)) s :=
  match afterBlanks s with
  | none => .error (failHere .eofInObject [])
  | some (c, ⟨rest, hle⟩) =>
    if c = '\x7d' then .ok (acc, ⟨rest, hle⟩)
    else if first then
      if c = '"' then
        match field depth rest acc with
        | .error e => .error e
        | .ok (acc, ⟨r, hr⟩) =>
          match fields depth r false acc with
          | .error e => .error e
          | .ok (fs, ⟨r', hr'⟩) => .ok (fs, ⟨r', by omega⟩)
      else .error (failAt .keyNotString (c :: rest))
    else if c = ',' then
      match afterBlanks rest with
      | none => .error (failHere .eofInValue [])
      | some ('"', ⟨after, ha⟩) =>
        match field depth after acc with
        | .error e => .error e
        | .ok (acc, ⟨r, hr⟩) =>
          match fields depth r false acc with
          | .error e => .error e
          | .ok (fs, ⟨r', hr'⟩) => .ok (fs, ⟨r', by omega⟩)
      | some ('\x7d', ⟨after, _⟩) => .error (failAt .trailingComma ('\x7d' :: after))
      | some (d, ⟨after, _⟩) => .error (failAt .keyNotString (d :: after))
    else .error (failAt .expectedObjectCommaOrEnd (c :: rest))
  termination_by (s.length, 1)

/-- Reads a field, after the quote that opens its key. -/
def field (depth : Nat) (s : List Char) (acc : List (String × Datum)) :
    Step (List (String × Datum)) s :=
  match stringBody s [] with
  | .error e => .error e
  | .ok (key, ⟨r, hr⟩) =>
    match afterBlanks r with
    | none => .error (failHere .eofInObject [])
    | some (':', ⟨after, ha⟩) =>
      match value depth after with
      | .error e => .error e
      | .ok (v, ⟨r', hr'⟩) => .ok (Named.insert key v acc, ⟨r', by omega⟩)
    | some (c, ⟨after, _⟩) => .error (failAt .expectedColon (c :: after))
  termination_by (s.length, 1)
end

/-- A failure and the line and column, both in the text, where it was noticed. -/
structure Error where
  cause : Cause
  line : Nat
  column : Nat
  deriving DecidableEq, Repr

/-- The wording of an error. -/
def Error.message (e : Error) : String := s!"{e.cause.message} at line {e.line} column {e.column}"

/-- The line of a byte position, counted from one, and the bytes before it on its line. -/
def position (text : ByteArray) (index : Nat) : Nat × Nat :=
  (text.toList.take index).foldl
    (fun (line, column) (b : UInt8) => if b = 10 then (line + 1, 0) else (line, column + 1))
    (1, 0)

/-- The value that a JSON text denotes. -/
def parse (text : String) : Except Error Datum :=
  let s := text.toList
  let result : Except Failure Datum := match value depthLimit s with
    | .error e => .error e
    | .ok (v, ⟨rest, _⟩) =>
      match skipBlanks rest with
      | [] => .ok v
      | after => .error (failAt .trailingCharacters after)
  match result with
  | .ok v => .ok v
  | .error e =>
    let bytes := text.toByteArray
    let (line, column) := position bytes (bytes.size - e.left)
    .error ⟨e.cause, line, column⟩

end Sandbox.Json
